import Fmp4Packager.CInt
import Mathlib.Data.List.Basic

/-!
# The EBML parser

A pointer into the buffer is an offset from its first byte, and every byte read
is checked against the bounds of the buffer: a read outside them is a fault.  So is
an `int` that overflows: what the program does from there on is undefined.
The visitors of the source mutate captured variables; here they return the new
values.
-/

namespace Fmp4Packager

@[simp] theorem ok_bind {ε α β : Type} (a : α) (f : α → Except ε β) :
    (Except.ok a >>= f) = f a := rfl

@[simp] theorem error_bind {ε α β : Type} (e : ε) (f : α → Except ε β) :
    (Except.error e >>= f) = .error e := rfl

namespace EbmlParser

/-- What stops a run of the parser. -/
inductive Fault where
  | outOfBounds (index : ℤ)
  | intOverflow
  | outOfFuel
  deriving DecidableEq, Repr

/-- `a - b` in `int`. -/
def subInt (a b : ℤ) : Except Fault ℤ :=
  if -2 ^ 31 ≤ a - b ∧ a - b < 2 ^ 31 then .ok (a - b) else .error .intOverflow

/-- `*p`. -/
def readByte (buf : List UInt8) (p : ℤ) : Except Fault UInt8 :=
  if p < 0 then .error (.outOfBounds p)
  else
    match buf[p.toNat]? with
    | none => .error (.outOfBounds p)
    | some byte => .ok byte

/-- The loop `v = (v << 8) | p[i]` over `count` bytes. -/
def readBigEndian (buf : List UInt8) (p : ℤ) : ℕ → ℕ → Except Fault ℕ
  | 0, v => .ok v
  | count + 1, v => do
      let byte ← readByte buf p
      readBigEndian buf (p + 1) count (v * 256 + byte.toNat)

/-- The width and the size mask that a lead byte selects. -/
def leadWidthMask (first : UInt8) : ℕ × UInt8 :=
  if first &&& 0x80 ≠ 0 then (1, 0x7f)
  else if first &&& 0x40 ≠ 0 then (2, 0x3f)
  else if first &&& 0x20 ≠ 0 then (3, 0x1f)
  else if first &&& 0x10 ≠ 0 then (4, 0x0f)
  else if first &&& 0x08 ≠ 0 then (5, 0x07)
  else if first &&& 0x04 ≠ 0 then (6, 0x03)
  else if first &&& 0x02 ≠ 0 then (7, 0x01)
  else if first &&& 0x01 ≠ 0 then (8, 0x00)
  else (0, 0)

/-- `ebml_read_id`: the bytes consumed and the id, or `none` where the source
returns `0`. -/
def ebmlReadId (buf : List UInt8) (p len : ℤ) : Except Fault (Option (ℕ × ℕ)) :=
  if len < 1 then .ok none
  else do
    let first ← readByte buf p
    if first = 0 then .ok none
    else
      let width := (leadWidthMask first).1
      if width = 0 then .ok none
      else if len < width then .ok none
      else do
        let id ← readBigEndian buf p width 0
        .ok (some (width, id))

/-- `ebml_read_size`: the bytes consumed and the size, or `none` where the
source returns `0`. -/
def ebmlReadSize (buf : List UInt8) (p len : ℤ) : Except Fault (Option (ℕ × ℕ)) :=
  if len < 1 then .ok none
  else do
    let first ← readByte buf p
    if first = 0 then .ok none
    else
      let (width, mask) := leadWidthMask first
      if width = 0 then .ok none
      else if len < width then .ok none
      else do
        let val ← readBigEndian buf (p + 1) (width - 1) (first &&& mask).toNat
        .ok (some (width, val))

def ebmlReadUint (buf : List UInt8) (p len : ℤ) : Except Fault ℕ :=
  readBigEndian buf p (min len 8).toNat 0

def kEbmlIdEBMLHeader : ℕ := 0x1A45DFA3
def kEbmlIdSegment : ℕ := 0x18538067
def kEbmlIdSeekHead : ℕ := 0x114D9B74
def kEbmlIdSeek : ℕ := 0x4DBB
def kEbmlIdSeekID : ℕ := 0x53AB
def kEbmlIdSeekPos : ℕ := 0x53AC
def kEbmlIdCues : ℕ := 0x1C53BB6B
def kEbmlIdInfo : ℕ := 0x1549A966
def kEbmlIdTimestampScale : ℕ := 0x2AD7B1
def kEbmlIdTracks : ℕ := 0x1654AE6B
def kEbmlIdTrackEntry : ℕ := 0xAE
def kEbmlIdTrackNumber : ℕ := 0xD7
def kEbmlIdTrackType : ℕ := 0x83
def kEbmlIdCuePoint : ℕ := 0xBB
def kEbmlIdCueTime : ℕ := 0xB3
def kEbmlIdCueTrackPos : ℕ := 0xB7
def kEbmlIdCueTrack : ℕ := 0xF7
def kEbmlIdCueClusterPos : ℕ := 0xF1
def kEbmlIdCueRelativePos : ℕ := 0xF0

/-- The arguments of a visitor. -/
structure Child where
  id : ℕ
  data : ℤ
  avail : ℤ
  size : ℤ
  offset : ℤ

/-- The scan loop, from position `pos` on. -/
def scanLoop {σ : Type} (buf : List UInt8) (p len childBaseOffset : ℤ)
    (visitor : σ → Child → Except Fault σ) : ℕ → ℤ → σ → Except Fault σ
  | 0, _, _ => .error .outOfFuel
  | fuel + 1, pos, s =>
      if pos < 0 ∨ len ≤ pos then .ok s
      else do
        match ← ebmlReadId buf (p + pos) (toInt (len - pos)) with
        | none => .ok s
        | some (idBytes, id) =>
          let pos := toInt (pos + idBytes)
          if len ≤ pos then .ok s
          else
            match ← ebmlReadSize buf (p + pos) (toInt (len - pos)) with
            | none => .ok s
            | some (szBytes, sz) =>
              let pos := toInt (pos + szBytes)
              if len < pos then .ok s
              else
                let dataRemaining := toInt (len - pos)
                if dataRemaining ≤ 0 then .ok s
                else
                  let dataAvail :=
                    if 0 < (sz : ℤ) ∧ (sz : ℤ) < dataRemaining then toInt sz
                    else dataRemaining
                  let s ← visitor s ⟨id, p + pos, dataAvail, sz, childBaseOffset + pos⟩
                  if (sz : ℤ) ≤ 0 then .ok s
                  else if toInt (len - pos) < (sz : ℤ) then .ok s
                  else
                    scanLoop buf p len childBaseOffset visitor fuel (toInt (pos + toInt sz)) s

def ebmlScanChildren {σ : Type} (buf : List UInt8) (p len childBaseOffset : ℤ)
    (visitor : σ → Child → Except Fault σ) (s : σ) : Except Fault σ :=
  if len ≤ 0 then .ok s
  else scanLoop buf p len childBaseOffset visitor (len.toNat + 1) 0 s

structure SegmentInfo where
  timestampScale : ℤ := 1000000
  videoTrackNumber : ℤ := 1
  deriving DecidableEq, Repr

/-- Both header parsers take the end of the last EBML header they see as the
position of the Segment element. -/
def headerEndVisitor (pos : ℤ) (c : Child) : Except Fault ℤ :=
  if c.id = kEbmlIdEBMLHeader then .ok (toInt (toInt64 (c.offset + c.size))) else .ok pos

def infoVisitor (buf : List UInt8) (info : SegmentInfo) (c : Child) :
    Except Fault SegmentInfo :=
  if c.id = kEbmlIdTimestampScale then do
    let v ← ebmlReadUint buf c.data c.avail
    .ok { info with timestampScale := toInt64 v }
  else .ok info

/-- The track number and the track type of a track entry. -/
def trackEntryVisitor (buf : List UInt8) (s : ℤ × ℤ) (c : Child) : Except Fault (ℤ × ℤ) :=
  if c.id = kEbmlIdTrackNumber then do
    let v ← ebmlReadUint buf c.data c.avail
    .ok (toInt v, s.2)
  else if c.id = kEbmlIdTrackType then do
    let v ← ebmlReadUint buf c.data c.avail
    .ok (s.1, toInt v)
  else .ok s

def tracksVisitor (buf : List UInt8) (info : SegmentInfo) (c : Child) :
    Except Fault SegmentInfo :=
  if c.id ≠ kEbmlIdTrackEntry then .ok info
  else do
    let (trackNum, trackType) ←
      ebmlScanChildren buf c.data c.avail 0 (trackEntryVisitor buf) (0, 0)
    if trackType = 1 ∧ 0 < trackNum then .ok { info with videoTrackNumber := trackNum }
    else .ok info

def segmentInfoVisitor (buf : List UInt8) (info : SegmentInfo) (c : Child) :
    Except Fault SegmentInfo :=
  if c.id = kEbmlIdInfo then
    ebmlScanChildren buf c.data c.avail 0 (infoVisitor buf) info
  else if c.id = kEbmlIdTracks then
    ebmlScanChildren buf c.data c.avail 0 (tracksVisitor buf) info
  else .ok info

/-- The opening that `parse_segment_info` and `parse_cues_location` have in
common: the position of the Segment data, or `none` where they give up. -/
def findSegmentData (buf : List UInt8) : Except Fault (Option ℤ) :=
  let len : ℤ := buf.length
  if len < 32 then .ok none
  else do
    let pos ← ebmlScanChildren buf 0 len 0 headerEndVisitor 0
    if pos = 0 ∨ len ≤ pos then .ok none
    else do
      -- a header that ends far in front of the buffer makes the difference overflow
      let left ← subInt len pos
      match ← ebmlReadId buf pos left with
      | none => .ok none
      | some (idB, segId) =>
        if segId ≠ kEbmlIdSegment then .ok none
        else
          let pos := toInt (pos + idB)
          match ← ebmlReadSize buf pos (toInt (len - pos)) with
          | none => .ok none
          | some (szB, _) => .ok (some (toInt (pos + szB)))

def parseSegmentInfo (buf : List UInt8) : Except Fault SegmentInfo := do
  match ← findSegmentData buf with
  | none => .ok {}
  | some pos =>
    ebmlScanChildren buf pos (toInt (buf.length - pos)) pos (segmentInfoVisitor buf) {}

structure CueEntry where
  timeMs : ℤ
  timestamp : ℤ
  trackNumber : ℤ
  clusterPos : ℤ
  relativePos : ℤ
  deriving DecidableEq, Repr

/-- The locals of the CueTrackPositions scan. -/
structure TrackPositions where
  track : ℤ := 0
  clusterPos : ℤ := -1
  relativePos : ℤ := -1
  deriving DecidableEq, Repr

/-- The locals of the CuePoint scan. -/
structure CuePointState where
  cueTime : ℤ := -1
  hasVideoTrack : Bool := false
  videoTrack : ℤ := 0
  videoClusterPos : ℤ := -1
  videoRelativePos : ℤ := -1
  deriving DecidableEq, Repr

def trackPositionsVisitor (buf : List UInt8) (s : TrackPositions) (c : Child) :
    Except Fault TrackPositions :=
  if c.id = kEbmlIdCueTrack then do
    let v ← ebmlReadUint buf c.data c.avail
    .ok { s with track := toInt v }
  else if c.id = kEbmlIdCueClusterPos then do
    let v ← ebmlReadUint buf c.data c.avail
    .ok { s with clusterPos := toInt64 v }
  else if c.id = kEbmlIdCueRelativePos then do
    let v ← ebmlReadUint buf c.data c.avail
    .ok { s with relativePos := toInt64 v }
  else .ok s

def cuePointVisitor (buf : List UInt8) (videoTrackNumber : ℤ) (s : CuePointState)
    (c : Child) : Except Fault CuePointState :=
  if c.id = kEbmlIdCueTime then do
    let v ← ebmlReadUint buf c.data c.avail
    .ok { s with cueTime := toInt64 v }
  else if c.id = kEbmlIdCueTrackPos then do
    let t ← ebmlScanChildren buf c.data c.avail 0 (trackPositionsVisitor buf) {}
    if t.track = videoTrackNumber then
      .ok { s with
        hasVideoTrack := true
        videoTrack := t.track
        videoClusterPos := t.clusterPos
        videoRelativePos := t.relativePos }
    else .ok s
  else .ok s

/-- What the Cues scan pushes for a finished cue point. -/
def cueEntry (timestampScale segmentDataStart : ℤ) (s : CuePointState) : Option CueEntry :=
  if 0 ≤ s.cueTime ∧ s.hasVideoTrack then
    let timeMs := (toInt64 (s.cueTime * timestampScale)).tdiv 1000000
    let absoluteClusterPos :=
      if 0 ≤ s.videoClusterPos ∧ 0 ≤ segmentDataStart then
        toInt64 (segmentDataStart + s.videoClusterPos)
      else -1
    some ⟨timeMs, s.cueTime, s.videoTrack, absoluteClusterPos, s.videoRelativePos⟩
  else none

def cuesVisitor (buf : List UInt8) (timestampScale videoTrackNumber segmentDataStart : ℤ)
    (entries : List CueEntry) (c : Child) : Except Fault (List CueEntry) :=
  if c.id ≠ kEbmlIdCuePoint then .ok entries
  else do
    let s ← ebmlScanChildren buf c.data c.avail 0 (cuePointVisitor buf videoTrackNumber) {}
    .ok (entries ++ (cueEntry timestampScale segmentDataStart s).toList)

def parseCuesData (buf : List UInt8)
    (timestampScale videoTrackNumber segmentDataStart : ℤ) : Except Fault (List CueEntry) :=
  let len : ℤ := buf.length
  if len < 4 then .ok []
  else do
    match ← ebmlReadId buf 0 len with
    | none => .ok []
    | some (idB, cuesId) =>
      if cuesId ≠ kEbmlIdCues then .ok []
      else
        let pos : ℤ := idB
        match ← ebmlReadSize buf pos (toInt (len - pos)) with
        | none => .ok []
        | some (szB, _) =>
          let pos := toInt (pos + szB)
          ebmlScanChildren buf pos (toInt (len - pos)) pos
            (cuesVisitor buf timestampScale videoTrackNumber segmentDataStart) []

structure CuesLocation where
  offset : ℤ
  size : ℤ
  segmentDataStart : ℤ
  deriving DecidableEq, Repr

/-- The locals of the Seek scan. -/
structure SeekState where
  seekIdVal : ℕ := 0
  seekPosVal : ℕ := 2 ^ 64 - 1
  gotId : Bool := false
  gotPos : Bool := false
  deriving DecidableEq, Repr

def seekVisitor (buf : List UInt8) (s : SeekState) (c : Child) : Except Fault SeekState :=
  if c.id = kEbmlIdSeekID then do
    let v ← ebmlReadUint buf c.data c.avail
    .ok { s with seekIdVal := v, gotId := true }
  else if c.id = kEbmlIdSeekPos then do
    let v ← ebmlReadUint buf c.data c.avail
    .ok { s with seekPosVal := v, gotPos := true }
  else .ok s

/-- The size of the Cues element at `absOffset`, or `0` where the source leaves
it so. -/
def readCuesSize (buf : List UInt8) (absOffset : ℤ) : Except Fault ℤ :=
  let len : ℤ := buf.length
  if absOffset < len then do
    let cuesPos := toInt absOffset
    let left ← subInt len cuesPos
    match ← ebmlReadId buf cuesPos left with
    | none => .ok 0
    | some (cidB, cuesId) =>
      if cuesId = kEbmlIdCues then do
        let cuesPos := toInt (cuesPos + cidB)
        match ← ebmlReadSize buf cuesPos (toInt (len - cuesPos)) with
        | none => .ok 0
        | some (cszB, csz) => .ok (if 0 < csz then cidB + cszB + csz else 0)
      else .ok 0
  else .ok 0

def seekHeadVisitor (buf : List UInt8) (segmentDataStart : ℤ)
    (result : Option CuesLocation) (c : Child) : Except Fault (Option CuesLocation) :=
  if c.id ≠ kEbmlIdSeek then .ok result
  else do
    let s ← ebmlScanChildren buf c.data c.avail c.offset (seekVisitor buf) {}
    if s.gotId ∧ s.gotPos ∧ s.seekIdVal = kEbmlIdCues then do
      let absOffset := toInt64 (segmentDataStart + toInt64 s.seekPosVal)
      let cuesSz ← readCuesSize buf absOffset
      .ok (some ⟨absOffset, cuesSz, segmentDataStart⟩)
    else .ok result

def cuesLocationVisitor (buf : List UInt8) (segmentDataStart : ℤ)
    (result : Option CuesLocation) (c : Child) : Except Fault (Option CuesLocation) :=
  if c.id ≠ kEbmlIdSeekHead then .ok result
  else
    ebmlScanChildren buf c.data c.avail c.offset (seekHeadVisitor buf segmentDataStart) result

def parseCuesLocation (buf : List UInt8) : Except Fault (Option CuesLocation) := do
  match ← findSegmentData buf with
  | none => .ok none
  | some pos =>
    let segmentDataStart := pos
    ebmlScanChildren buf pos (toInt (buf.length - pos)) pos
      (cuesLocationVisitor buf segmentDataStart) none

end EbmlParser

end Fmp4Packager
