import Fmp4Packager.General.CallRun
import Fmp4Packager.General.FileCursor
import Mathlib.Algebra.Order.Group.Int

/-!
# The HTTP reader

`HttpReader` serves reads and seeks of the media library from byte-range requests.
Sums of positions and offsets are taken over the integers.
-/

namespace Fmp4Packager

/-- The negative results of the callbacks. -/
inductive AvError where
  /-- `AVERROR_EOF` -/
  | eof
  /-- `AVERROR(EIO)` -/
  | eio
  /-- `AVERROR(EINVAL)` -/
  | einval
  deriving DecidableEq, Repr

structure HttpReader where
  position : ℤ := 0
  fileSize : ℤ := -1
  deriving DecidableEq, Repr

namespace HttpReader

def seekSet : ℤ := 0
def seekCur : ℤ := 1
def seekEnd : ℤ := 2
def avseekSize : ℤ := 0x10000

/-- `written` is what has been copied to the start of the buffer. -/
structure CurlWriteData where
  bufferSize : ℕ
  written : List UInt8 := []
  deriving DecidableEq, Repr

def curlWriteCallback (data : CurlWriteData) (chunk : List UInt8) : CurlWriteData :=
  let toCopy := min chunk.length (data.bufferSize - data.written.length)
  { data with written := data.written ++ chunk.take toCopy }

/-- What `curl_easy_perform` comes to: the body arrives in chunks, each handed to the
callback. -/
inductive Response where
  | curlError (chunks : List (List UInt8))
  | http (code : ℤ) (chunks : List (List UInt8))
  deriving DecidableEq, Repr

/-- The first and the last byte of the range that a read requests. -/
def requestedRange (r : HttpReader) (bufSize : ℕ) : ℤ × ℤ :=
  let last := r.position + bufSize - 1
  (r.position, if 0 < r.fileSize ∧ r.fileSize ≤ last then r.fileSize - 1 else last)

/-- `contentLength` is what the request for the head answers, if it succeeds. -/
def fetchFileSize (contentLength : Option ℤ) (r : HttpReader) : HttpReader :=
  match contentLength with
  | some cl => if 0 < cl then { r with fileSize := cl } else r
  | none => r

/-- A read with the response that its request gets, if it comes to one. -/
def doRead (bufSize : ℕ) (response : Response) (r : HttpReader) :
    Except AvError (List UInt8) × HttpReader :=
  if 0 < r.fileSize ∧ r.fileSize ≤ r.position then (.error .eof, r)
  else
    match response with
    | .curlError _ => (.error .eio, r)
    | .http code chunks =>
        if code ≠ 200 ∧ code ≠ 206 then (.error .eio, r)
        else
          let data := chunks.foldl curlWriteCallback { bufferSize := bufSize }
          if data.written.length = 0 then (.error .eof, r)
          else (.ok data.written, { r with position := r.position + data.written.length })

def doSeek (offset whence : ℤ) (r : HttpReader) : Except AvError ℤ × HttpReader :=
  let moveTo (newPos : ℤ) : Except AvError ℤ × HttpReader :=
    if newPos < 0 then (.error .einval, r)
    else
      let newPos := if 0 < r.fileSize ∧ r.fileSize < newPos then r.fileSize else newPos
      (.ok newPos, { r with position := newPos })
  if whence = seekSet then moveTo offset
  else if whence = seekCur then moveTo (r.position + offset)
  else if whence = seekEnd then
    if r.fileSize < 0 then (.error .einval, r) else moveTo (r.fileSize + offset)
  else if whence = avseekSize then (.ok r.fileSize, r)
  else (.error .einval, r)

inductive Call where
  | read (bufSize : ℕ) (response : Response)
  | seek (offset whence : ℤ)
  deriving DecidableEq, Repr

inductive Result where
  | bytes (data : List UInt8)
  | offset (value : ℤ)
  | error (code : AvError)
  deriving DecidableEq, Repr

def perform : Call → HttpReader → Result × HttpReader
  | .read bufSize response, r =>
      match r.doRead bufSize response with
      | (.ok data, r) => (.bytes data, r)
      | (.error code, r) => (.error code, r)
  | .seek offset whence, r =>
      match r.doSeek offset whence with
      | (.ok value, r) => (.offset value, r)
      | (.error code, r) => (.error code, r)

/-- What a server of the file may answer to the request of a read: a non-empty first
part of the range with status 206, the whole file with status 200, or an error. -/
inductive Answers (file : List UInt8) (r : HttpReader) (bufSize : ℕ) : Response → Prop
  | partialContent (n : ℕ) (chunks : List (List UInt8)) (hpos : 0 < n)
      (hlast : r.position + n ≤ (r.requestedRange bufSize).2 + 1)
      (hbody : chunks.flatten = (file.drop r.position.toNat).take n) :
      Answers file r bufSize (.http 206 chunks)
  | wholeFile (chunks : List (List UInt8)) (hbody : chunks.flatten = file) :
      Answers file r bufSize (.http 200 chunks)
  | failure (code : ℤ) (chunks : List (List UInt8)) (hcode : code ≠ 200 ∧ code ≠ 206) :
      Answers file r bufSize (.http code chunks)
  | curlError (chunks : List (List UInt8)) : Answers file r bufSize (.curlError chunks)

/-- Buffers are not empty, and the server serves the file. -/
def Served (file : List UInt8) (call : Call) (r : HttpReader) : Prop :=
  ∀ bufSize response, call = .read bufSize response →
    0 < bufSize ∧ Answers file r bufSize response

/-- The reader stands where the cursor does, and knows the size of the file. -/
structure Represents {file : List UInt8} (k : FileCursor file) (r : HttpReader) : Prop where
  position : r.position = k.pos
  fileSize : r.fileSize = file.length

/-- The target of a seek, before it is cut at the end of the file. -/
def seekTarget {file : List UInt8} (k : FileCursor file) (offset whence : ℤ) : Option ℤ :=
  if whence = seekSet then some offset
  else if whence = seekCur then some (k.pos + offset)
  else if whence = seekEnd then some (file.length + offset)
  else none

/-- What a call may do to a cursor. -/
inductive CursorStep {file : List UInt8} (k : FileCursor file) :
    Call → Result → FileCursor file → Prop
  | read (bufSize : ℕ) (response : Response) (n : ℕ) (hpos : 0 < n) (hle : n ≤ bufSize)
      (hend : k.pos + n ≤ file.length) :
      CursorStep k (.read bufSize response) (.bytes (k.read n)) (k.advance n)
  | seek (offset whence : ℤ) (target : ℕ) (htarget : seekTarget k offset whence = some target) :
      CursorStep k (.seek offset whence) (.offset (FileCursor.moveTo file target).pos)
        (FileCursor.moveTo file target)
  | size (offset : ℤ) : CursorStep k (.seek offset avseekSize) (.offset file.length) k
  | error (call : Call) (code : AvError) : CursorStep k call (.error code) k

/-- The call does what it would do to a cursor at the position of the reader. -/
def ActsAsCursor (file : List UInt8) (call : Call) (r : HttpReader) : Prop :=
  ∃ k k' : FileCursor file, Represents k r ∧ Represents k' (perform call r).2 ∧
    CursorStep k call (perform call r).1 k'

/-- A whole file with status 200 starts with the bytes that were requested. -/
def WholeFileFits (file : List UInt8) (call : Call) (r : HttpReader) : Prop :=
  ∀ bufSize chunks, call = .read bufSize (.http 200 chunks) → r.position < r.fileSize →
    file.take bufSize = (file.drop r.position.toNat).take bufSize

theorem written_foldl_curlWriteCallback (bufSize : ℕ) (chunks : List (List UInt8))
    (written : List UInt8) :
    (chunks.foldl curlWriteCallback ⟨bufSize, written⟩).written =
      written ++ chunks.flatten.take (bufSize - written.length) := by
  induction chunks generalizing written with
  | nil => simp
  | cons chunk chunks ih =>
      have hcopied : chunk.take (min chunk.length (bufSize - written.length)) =
          chunk.take (bufSize - written.length) := by
        rw [min_comm, ← List.take_take, List.take_length]
      have hroom : bufSize - (written ++ chunk.take (bufSize - written.length)).length =
          bufSize - written.length - chunk.length := by
        rw [List.length_append, List.length_take]
        omega
      rw [List.foldl_cons, curlWriteCallback, hcopied, ih, hroom, List.flatten_cons,
        List.take_append, List.append_assoc]

/-- However the body is chunked, the buffer gets as much of it as it can hold. -/
theorem written_eq_take (bufSize : ℕ) (chunks : List (List UInt8)) :
    (chunks.foldl curlWriteCallback { bufferSize := bufSize }).written =
      chunks.flatten.take bufSize :=
  written_foldl_curlWriteCallback bufSize chunks []

theorem perform_read_of_http {bufSize : ℕ} {code : ℤ} {chunks : List (List UInt8)}
    {r : HttpReader} (hend : ¬(0 < r.fileSize ∧ r.fileSize ≤ r.position))
    (hcode : code = 200 ∨ code = 206) {body : List UInt8}
    (hbody : chunks.flatten.take bufSize = body) (hne : body ≠ []) :
    perform (.read bufSize (.http code chunks)) r =
      (.bytes body, { r with position := r.position + body.length }) := by
  have hcode : ¬(code ≠ 200 ∧ code ≠ 206) := by tauto
  have hlength : ¬body.length = 0 := fun h ↦ hne (List.eq_nil_of_length_eq_zero h)
  rw [perform, doRead, if_neg hend]
  simp only [if_neg hcode, written_eq_take, hbody, if_neg hlength]

variable {file : List UInt8} {k : FileCursor file} {r : HttpReader}

theorem Represents.eq_of (h : Represents k r) {k' : FileCursor file} (h' : Represents k' r) :
    k' = k := by
  obtain ⟨pos, hle⟩ := k
  obtain ⟨pos', hle'⟩ := k'
  have hpos : pos' = pos := Int.ofNat.inj (h'.position.symm.trans h.position)
  subst hpos
  rfl

theorem Represents.toNat_position (h : Represents k r) : r.position.toNat = k.pos := by
  rw [h.position, Int.toNat_natCast]

theorem Represents.of_error (h : Represents k r) {call : Call} (code : AvError)
    (hperform : perform call r = (.error code, r)) : ActsAsCursor file call r := by
  refine ⟨k, k, h, ?_, ?_⟩
  · rw [hperform]
    exact h
  · rw [hperform]
    exact .error call code

theorem Represents.advance (h : Represents k r) {n : ℕ} (hend : k.pos + n ≤ file.length) :
    Represents (k.advance n) { r with position := r.position + n } := by
  refine ⟨?_, h.fileSize⟩
  rw [FileCursor.pos_advance, FileCursor.length_read, h.position]
  simp only
  omega

theorem Represents.doSeek_eq (h : Represents k r) (hfile : 0 < file.length) (offset whence : ℤ) :
    r.doSeek offset whence =
      match seekTarget k offset whence with
      | some target =>
          if target < 0 then (.error .einval, r)
          else (.ok (min target file.length), { r with position := min target file.length })
      | none => if whence = avseekSize then (.ok file.length, r) else (.error .einval, r) := by
  have hcut : ∀ target : ℤ,
      (if 0 < (file.length : ℤ) ∧ (file.length : ℤ) < target then (file.length : ℤ) else target) =
        min target file.length := by
    intro target
    split <;> omega
  rw [doSeek, seekTarget, h.position, h.fileSize]
  simp only [hcut]
  by_cases hset : whence = seekSet
  · rw [if_pos hset, if_pos hset]
  rw [if_neg hset, if_neg hset]
  by_cases hcur : whence = seekCur
  · rw [if_pos hcur, if_pos hcur]
  rw [if_neg hcur, if_neg hcur]
  by_cases hend : whence = seekEnd
  · rw [if_pos hend, if_pos hend, if_neg (by omega)]
  · rw [if_neg hend, if_neg hend]

theorem Represents.seek (h : Represents k r) (hfile : 0 < file.length) (offset whence : ℤ) :
    ActsAsCursor file (.seek offset whence) r := by
  have hseek := h.doSeek_eq hfile offset whence
  cases htarget : seekTarget k offset whence with
  | none =>
      rw [htarget] at hseek
      by_cases hsize : whence = avseekSize
      · refine ⟨k, k, h, ?_, ?_⟩
        · rw [perform, hseek, if_pos hsize]
          exact h
        · rw [perform, hseek, if_pos hsize, hsize]
          exact .size offset
      · refine h.of_error .einval ?_
        rw [perform, hseek, if_neg hsize]
  | some target =>
      rw [htarget] at hseek
      by_cases hneg : target < 0
      · refine h.of_error .einval ?_
        rw [perform, hseek]
        simp only [if_pos hneg]
      · obtain ⟨n, rfl⟩ := Int.eq_ofNat_of_zero_le (not_lt.mp hneg)
        have hpos : min (n : ℤ) file.length = (FileCursor.moveTo file n).pos := by
          simp only [FileCursor.moveTo]
          omega
        simp only [if_neg hneg, hpos] at hseek
        refine ⟨k, FileCursor.moveTo file n, h, ?_, ?_⟩
        · rw [perform, hseek]
          exact ⟨rfl, h.fileSize⟩
        · rw [perform, hseek]
          exact .seek offset whence n htarget

/-- A read that fills the buffer with `body` acts as a read of the cursor exactly when
these are the next bytes of the file. -/
theorem Represents.actsAsCursor_iff (h : Represents k r) {bufSize : ℕ} {response : Response}
    {body : List UInt8} (hne : body ≠ []) (hle : body.length ≤ bufSize)
    (hperform : perform (.read bufSize response) r =
      (.bytes body, { r with position := r.position + body.length })) :
    ActsAsCursor file (.read bufSize response) r ↔ body = k.read body.length := by
  constructor
  · rintro ⟨k₁, k', hk₁, hk', hstep⟩
    obtain rfl := h.eq_of hk₁
    rw [hperform] at hstep
    generalize hresult : Result.bytes body = result at hstep
    cases hstep with
    | read _ _ n hpos hn hend =>
        cases hresult
        have hlength : (k₁.read n).length = n := by
          rw [FileCursor.length_read]
          omega
        rw [hlength]
    | error call code => cases hresult
  · intro hbody
    have hlength := congrArg List.length hbody
    have hend := k.le_length
    have hpos := List.length_pos_iff.mpr hne
    rw [FileCursor.length_read] at hlength
    refine ⟨k, k.advance body.length, h, ?_, ?_⟩
    · rw [hperform]
      exact h.advance (by omega)
    · rw [hperform]
      conv => enter [3]; rw [hbody]
      exact .read bufSize response body.length hpos hle (by omega)

/-- A read acts as a read of the cursor exactly when a whole file fits. -/
theorem Represents.read_iff (h : Represents k r) (hfile : 0 < file.length) {bufSize : ℕ}
    {response : Response} (hbuf : 0 < bufSize) (hanswer : Answers file r bufSize response) :
    ActsAsCursor file (.read bufSize response) r ↔
      WholeFileFits file (.read bufSize response) r := by
  have hsize := h.fileSize
  have hposition := h.position
  by_cases hend : 0 < r.fileSize ∧ r.fileSize ≤ r.position
  · refine iff_of_true (h.of_error .eof ?_) ?_
    · rw [perform, doRead.eq_def, if_pos hend]
    · intro _ _ _ hlt
      omega
  cases hanswer with
  | partialContent n chunks hpos hlast hbody =>
      rw [requestedRange] at hlast
      rw [h.toNat_position] at hbody
      have hrange : n ≤ bufSize ∧ k.pos + n ≤ file.length := by
        dsimp only at hlast
        split at hlast <;> omega
      have hread : chunks.flatten.take bufSize = k.read n := by
        rw [hbody, List.take_take, min_eq_right hrange.1]
        rfl
      have hlength : (k.read n).length = n := by
        rw [FileCursor.length_read]
        omega
      have hne : k.read n ≠ [] := List.length_pos_iff.mp (by omega)
      have hperform := perform_read_of_http hend (.inr rfl) hread hne
      refine iff_of_true ((h.actsAsCursor_iff hne (by omega) hperform).mpr (by rw [hlength])) ?_
      rintro _ _ ⟨⟩
  | wholeFile chunks hbody =>
      have hlength : (file.take bufSize).length = min bufSize file.length := List.length_take
      have hne : file.take bufSize ≠ [] := List.length_pos_iff.mp (by omega)
      have hperform := perform_read_of_http hend (.inl rfl) (congrArg (List.take bufSize) hbody) hne
      rw [h.actsAsCursor_iff hne (by omega) hperform]
      have hsame : k.read (file.take bufSize).length = k.read bufSize := by
        rw [← min_eq_left (a := (file.take bufSize).length) (b := bufSize) (by omega),
          ← FileCursor.take_read, List.take_of_length_le]
        rw [FileCursor.length_read]
        omega
      rw [hsame]
      constructor
      · rintro hfits _ _ ⟨⟩ -
        rw [h.toNat_position]
        exact hfits
      · intro hfits
        have := hfits bufSize chunks rfl (by omega)
        rw [h.toNat_position] at this
        exact this
  | failure code chunks hcode =>
      refine iff_of_true (h.of_error .eio ?_) ?_
      · rw [perform, doRead, if_neg hend]
        simp only [if_pos hcode]
      · rintro _ _ ⟨⟩
        exact absurd rfl hcode.1
  | curlError chunks =>
      refine iff_of_true (h.of_error .eio ?_) ?_
      · rw [perform, doRead, if_neg hend]
      · rintro _ _ ⟨⟩

/-! ## Runs -/

/-- A reader that has fetched the size of its file. -/
def opened (file : List UInt8) : HttpReader := ({} : HttpReader).fetchFileSize (some file.length)

theorem represents_opened (hfile : 0 < file.length) :
    Represents ⟨0, Nat.zero_le file.length⟩ (opened file) := by
  rw [opened, fetchFileSize]
  simp only [Int.natCast_pos, if_pos hfile]
  exact ⟨rfl, rfl⟩

/-- In a run of calls whose requests are answered by a server of the file, every call
acts as on a cursor exactly when every whole file that is answered fits. -/
theorem calls_actAsCursor_iff (hfile : 0 < file.length) {calls : List Call}
    (hserved : CallRun.Always perform (Served file) calls (opened file)) :
    CallRun.Always perform (ActsAsCursor file) calls (opened file) ↔
      CallRun.Always perform (WholeFileFits file) calls (opened file) := by
  refine CallRun.always_congr (fun r ↦ ∃ k : FileCursor file, Represents k r) ?_ ?_ hserved
    ⟨_, represents_opened hfile⟩
  · rintro call r - - ⟨-, k', -, hk', -⟩
    exact ⟨k', hk'⟩
  · rintro call r hcall ⟨k, hk⟩
    cases call with
    | read bufSize response =>
        obtain ⟨hbuf, hanswer⟩ := hcall bufSize response rfl
        exact hk.read_iff hfile hbuf hanswer
    | seek offset whence =>
        refine iff_of_true (hk.seek hfile offset whence) ?_
        rintro _ _ ⟨⟩

/-! A server that answers every range request with the whole file. -/

def threeBytes : List UInt8 := [1, 2, 3]

def seekThenRead : List Call := [.seek 1 seekSet, .read 1 (.http 200 [threeBytes])]

theorem served_seekThenRead :
    CallRun.Always perform (Served threeBytes) seekThenRead (opened threeBytes) := by
  refine ⟨?_, ?_, trivial⟩
  · rintro _ _ ⟨⟩
  · rintro _ _ ⟨⟩
    exact ⟨Nat.zero_lt_one, .wholeFile _ rfl⟩

theorem calls_actAsCursor_iff_seekThenRead :
    CallRun.Always perform (ActsAsCursor threeBytes) seekThenRead (opened threeBytes) ↔
      CallRun.Always perform (WholeFileFits threeBytes) seekThenRead (opened threeBytes) :=
  calls_actAsCursor_iff (by decide) served_seekThenRead

theorem not_calls_actAsCursor :
    ¬ ∀ (file : List UInt8) (calls : List Call), 0 < file.length →
      CallRun.Always perform (Served file) calls (opened file) →
      CallRun.Always perform (ActsAsCursor file) calls (opened file) := by
  intro h
  obtain ⟨-, ⟨k, k', hk, -, hstep⟩, -⟩ := h threeBytes seekThenRead (by decide) served_seekThenRead
  have hpos : k.pos = 1 := Int.ofNat.inj hk.position.symm
  generalize hresult : (perform (.read 1 (.http 200 [threeBytes]))
    (perform (.seek 1 seekSet) (opened threeBytes)).2).1 = result at hstep
  have hfirst : result = .bytes [1] := hresult.symm.trans (by decide)
  cases hstep with
  | read _ _ n hpositive hle hend =>
      -- the byte at position 1 is a 2
      obtain rfl : n = 1 := by omega
      rw [FileCursor.read, hpos] at hfirst
      exact absurd hfirst (by decide)
  | error call code => cases hfirst

end HttpReader

end Fmp4Packager
