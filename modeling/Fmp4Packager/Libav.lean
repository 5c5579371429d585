import Mathlib.Algebra.Ring.Int.Defs

/-!
# Data types of the media libraries

The parts of the libav data types that the packager reads, and its rescaling of
timestamps.  Timestamps are unbounded integers.
-/

namespace Fmp4Packager

structure AVRational where
  num : ℤ
  den : ℤ
  deriving DecidableEq, Repr

/-- `static_cast<uint32_t>(r.den)`. -/
def AVRational.denU32 (r : AVRational) : UInt32 := UInt32.ofInt r.den

inductive AVMediaType where
  | video
  | audio
  | other
  deriving DecidableEq, Repr

inductive AVCodecID where
  | h264
  | hevc
  | aac
  | other
  deriving DecidableEq, Repr

structure AVCodecParameters where
  codecType : AVMediaType
  codecId : AVCodecID
  extradata : List UInt8
  width : ℤ
  height : ℤ
  bitRate : ℤ
  sampleRate : ℤ
  nbChannels : ℤ
  deriving DecidableEq, Repr

def avNoptsValue : ℤ := -2 ^ 63

/-- `key` is the flag `AV_PKT_FLAG_KEY`; the size of the packet is the length of
its data. -/
structure AVPacket where
  streamIndex : ℤ
  pts : ℤ
  dts : ℤ
  duration : ℤ
  key : Bool
  data : List UInt8
  deriving DecidableEq, Repr

structure AVIndexEntry where
  pos : ℤ
  timestamp : ℤ
  deriving DecidableEq, Repr

/-- What `av_add_index_entry` documents: the index is sorted by timestamp, and an entry that
it contains already is updated. -/
def insertIndexEntry (entry : AVIndexEntry) : List AVIndexEntry → List AVIndexEntry
  | [] => [entry]
  | old :: entries =>
      if entry.timestamp < old.timestamp then entry :: old :: entries
      else if entry.timestamp = old.timestamp then entry :: entries
      else old :: insertIndexEntry entry entries

/-- `language` is the entry of that name in the metadata. -/
structure AVStream where
  timeBase : AVRational
  startTime : ℤ
  codecpar : AVCodecParameters
  language : Option (List UInt8) := none
  indexEntries : List AVIndexEntry := []
  deriving DecidableEq, Repr

/-- An opened input.  `bestVideo` and `bestAudio` are what
`av_find_best_stream` answers for it: a stream index, or a negative error. -/
structure AVFormatContext where
  streams : List AVStream
  bestVideo : ℤ
  bestAudio : ℤ
  duration : ℤ
  deriving DecidableEq, Repr

/-- `av_rescale_q`: rounding to the nearest value, halves away from zero. -/
def avRescaleQ (a : ℤ) (bq cq : AVRational) : ℤ :=
  let b := bq.num * cq.den
  let c := cq.num * bq.den
  if c ≤ 0 ∨ b < 0 then -2 ^ 63
  else if a < 0 then -((-a * b + c / 2) / c)
  else (a * b + c / 2) / c

theorem avRescaleQ_le_avRescaleQ {a a' : ℤ} (bq cq : AVRational) (h : a ≤ a') :
    avRescaleQ a bq cq ≤ avRescaleQ a' bq cq := by
  simp only [avRescaleQ]
  generalize bq.num * cq.den = b
  generalize cq.num * bq.den = c
  by_cases hvalid : c ≤ 0 ∨ b < 0
  · apply Int.le_of_eq
    rw [if_pos hvalid, if_pos hvalid]
  · rw [if_neg hvalid, if_neg hvalid]
    have hc : 0 < c := by omega
    have hb : 0 ≤ b := by omega
    have hhalf : 0 ≤ c / 2 := by omega
    split
    · next hneg =>
        split
        · have hmul : -a' * b ≤ -a * b := Int.mul_le_mul_of_nonneg_right (by omega) hb
          have hdiv : (-a' * b + c / 2) / c ≤ (-a * b + c / 2) / c :=
            Int.ediv_le_ediv hc (by omega)
          omega
        · have hmul : 0 ≤ -a * b := Int.mul_nonneg (by omega) hb
          have hmul' : 0 ≤ a' * b := Int.mul_nonneg (by omega) hb
          have hdiv : 0 ≤ (-a * b + c / 2) / c := Int.ediv_nonneg (by omega) (by omega)
          have hdiv' : 0 ≤ (a' * b + c / 2) / c := Int.ediv_nonneg (by omega) (by omega)
          omega
    · rw [if_neg (by omega)]
      have hmul : a * b ≤ a' * b := Int.mul_le_mul_of_nonneg_right h hb
      exact Int.ediv_le_ediv hc (by omega)

end Fmp4Packager
