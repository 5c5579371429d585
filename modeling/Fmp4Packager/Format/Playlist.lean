import Mathlib.Algebra.Order.Field.Rat
import Mathlib.Data.List.Basic
import Mathlib.Tactic.NormNum

/-!
# Media playlists

A reader of HLS media playlists: a text is read line by line, each line adds to the
playlist.  A URI in it is resolved against the path of the playlist.
-/

namespace Playlist

def readNat (text : List Char) : Option ℕ :=
  if text ≠ [] ∧ text.all Char.isDigit then some (Nat.ofDigitChars 10 text 0) else none

/-- Digits, and after a point as many digits of the fraction as there are. -/
def readDecimal (text : List Char) : Option ℚ :=
  match text.dropWhile Char.isDigit with
  | [] => (readNat text).map fun n ↦ (n : ℚ)
  | point :: fraction =>
      if point = '.' then do
        let whole ← readNat (text.takeWhile Char.isDigit)
        let part ← readNat fraction
        some (whole + part / 10 ^ fraction.length)
      else none

theorem all_isDigit_toDigits (n : ℕ) : (Nat.toDigits 10 n).all Char.isDigit := by
  rw [List.all_eq_true]
  intro c hc
  exact Nat.isDigit_of_mem_toDigits (by decide) (by decide) hc

theorem toDigits_ne_nil (n : ℕ) : Nat.toDigits 10 n ≠ [] :=
  List.length_pos_iff.mp Nat.length_toDigits_pos

theorem readNat_toDigits (n : ℕ) : readNat (Nat.toDigits 10 n) = some n := by
  rw [readNat, if_pos ⟨toDigits_ne_nil n, all_isDigit_toDigits n⟩, Nat.ofDigitChars_ten_toDigits]

theorem readNat_replicate_append (zeros n : ℕ) :
    readNat (List.replicate zeros '0' ++ Nat.toDigits 10 n) = some n := by
  have hall : (List.replicate zeros '0' ++ Nat.toDigits 10 n).all Char.isDigit := by
    rw [List.all_append, all_isDigit_toDigits, Bool.and_true, List.all_eq_true]
    intro c hc
    rw [List.eq_of_mem_replicate hc]
    decide
  have hne : List.replicate zeros '0' ++ Nat.toDigits 10 n ≠ [] :=
    List.append_ne_nil_of_right_ne_nil _ (toDigits_ne_nil n)
  rw [readNat, if_pos ⟨hne, hall⟩, Nat.ofDigitChars_append, Nat.ofDigitChars_replicate_zero,
    Nat.mul_zero, Nat.ofDigitChars_ten_toDigits]

theorem takeWhile_isDigit_append {digits : List Char} (hdigits : digits.all Char.isDigit) {c : Char}
    (hc : c.isDigit = false) (rest : List Char) :
    (digits ++ c :: rest).takeWhile Char.isDigit = digits ∧
      (digits ++ c :: rest).dropWhile Char.isDigit = c :: rest := by
  have hall : ∀ d ∈ digits, d.isDigit := List.all_eq_true.mp hdigits
  constructor
  · rw [List.takeWhile_append_of_pos hall, List.takeWhile_cons_of_neg (by simp [hc]),
      List.append_nil]
  · rw [List.dropWhile_append_of_pos hall, List.dropWhile_cons_of_neg (by simp [hc])]

theorem readDecimal_of_point {whole part : ℕ} {digits fraction : List Char}
    (hdigits : digits.all Char.isDigit) (hwhole : readNat digits = some whole)
    (hpart : readNat fraction = some part) :
    readDecimal (digits ++ '.' :: fraction) =
      some ((whole : ℚ) + (part : ℚ) / 10 ^ fraction.length) := by
  obtain ⟨htake, hdrop⟩ := takeWhile_isDigit_append hdigits (c := '.') rfl fraction
  rw [readDecimal, hdrop]
  simp only [htake, hwhole, hpart, if_true, Option.bind_eq_bind, Option.bind_some]

inductive Line where
  | blank
  /-- A comment, or a tag that is not interpreted. -/
  | other
  | targetDuration (seconds : ℕ)
  | map (uri : List Char)
  | extinf (duration : ℚ)
  | endList
  | uri (uri : List Char)
  deriving DecidableEq, Repr

def afterTag (tag line : List Char) : Option (List Char) := List.isPrefixOf? tag line

def readLine (line : List Char) : Option Line :=
  match line with
  | [] => some .blank
  | first :: _ =>
      if first ≠ '#' then some (.uri line)
      else if line = "#EXT-X-ENDLIST".toList then some .endList
      else
        match afterTag "#EXTINF:".toList line, afterTag "#EXT-X-TARGETDURATION:".toList line,
          afterTag "#EXT-X-MAP:URI=\"".toList line with
        | some rest, _, _ => (readDecimal (rest.takeWhile (· ≠ ','))).map .extinf
        | none, some rest, _ => (readNat rest).map .targetDuration
        | none, none, some rest => some (.map (rest.takeWhile (· ≠ '"')))
        | none, none, none => some .other

structure Segment where
  duration : ℚ
  uri : List Char
  deriving DecidableEq, Repr

/-- `pending` is the duration that awaits the URI of its segment. -/
structure Media where
  targetDuration : Option ℕ := none
  map : Option (List Char) := none
  segments : List Segment := []
  pending : Option ℚ := none
  ended : Bool := false
  deriving DecidableEq, Repr

/-- What a line adds; a URI without a duration, or a duration without a URI, is an
error. -/
def addLine (p : Media) : Line → Option Media
  | .blank => some p
  | .other => some p
  | .targetDuration seconds => some { p with targetDuration := some seconds }
  | .map uri => some { p with map := some uri }
  | .endList => some { p with ended := true }
  | .extinf duration =>
      match p.pending with
      | none => some { p with pending := some duration }
      | some _ => none
  | .uri uri =>
      match p.pending with
      | none => none
      | some duration =>
          some { p with segments := p.segments ++ [⟨duration, uri⟩], pending := none }

def readLines : List (List Char) → Media → Option Media
  | [], p => if p.pending.isSome then none else some p
  | line :: rest, p => do
      let added ← addLine p (← readLine line)
      readLines rest added

def read (text : List Char) : Option Media :=
  match text.splitOn '\n' with
  | first :: rest => if first = "#EXTM3U".toList then readLines rest {} else none
  | [] => none

theorem splitOn_append_cons_of_not_mem {sep : Char} {piece : List Char} (hpiece : sep ∉ piece)
    (rest : List Char) : (piece ++ sep :: rest).splitOn sep = piece :: rest.splitOn sep := by
  have hpiece : ∀ c ∈ piece, (c == sep) = false := by
    intro c hc
    rw [beq_eq_false_iff_ne]
    rintro rfl
    exact hpiece hc
  exact List.splitOnP_append_cons_of_forall_mem hpiece sep (beq_self_eq_true sep) rest

theorem splitOn_eq_singleton_of_not_mem {sep : Char} {piece : List Char} (hpiece : sep ∉ piece) :
    piece.splitOn sep = [piece] := by
  apply List.splitOn_eq_singleton_of_beq_eq_false
  intro c hc
  rw [beq_eq_false_iff_ne]
  rintro rfl
  exact hpiece hc

theorem readLines_line (read : Line) {line : List Char} (hline : '\n' ∉ line) {p added : Media}
    (hread : readLine line = some read) (hadd : addLine p read = some added)
    (rest : List Char) :
    readLines ((line ++ '\n' :: rest).splitOn '\n') p = readLines (rest.splitOn '\n') added := by
  rw [splitOn_append_cons_of_not_mem hline, readLines, hread]
  simp only [Option.bind_eq_bind, Option.bind_some, hadd]

/-- The segments of a path without `.` and `..`, behind those in `out`. -/
def dropDots (out : List (List Char)) : List (List Char) → List (List Char)
  | [] => out
  | segment :: rest =>
      if segment = ['.'] then dropDots (if rest = [] then out ++ [[]] else out) rest
      else if segment = ['.', '.'] then
        dropDots (if rest = [] then out.dropLast ++ [[]] else out.dropLast) rest
      else dropDots (out ++ [segment]) rest

/-- A reference that consists of a path, resolved against the path `base`: an
absolute path is taken as it is, any other follows the last slash of the base. -/
def resolve (base reference : List Char) : List Char :=
  let path :=
    match reference with
    | '/' :: rest => rest
    | _ => ((base.reverse.dropWhile (· ≠ '/')).reverse ++ reference).drop 1
  '/' :: ['/'].intercalate (dropDots [] (path.splitOn '/'))

theorem dropDots_eq_append {segments : List (List Char)}
    (hdots : ∀ segment ∈ segments, segment ≠ ['.'] ∧ segment ≠ ['.', '.'])
    (out : List (List Char)) : dropDots out segments = out ++ segments := by
  induction segments generalizing out with
  | nil => rw [dropDots, List.append_nil]
  | cons segment rest ih =>
      obtain ⟨hdot, hdots'⟩ := hdots segment List.mem_cons_self
      rw [dropDots, if_neg hdot, if_neg hdots',
        ih fun s hs ↦ hdots s (List.mem_cons_of_mem segment hs), List.append_assoc,
        List.singleton_append]

/-- Against a path with a single segment, a relative path is taken from the root. -/
theorem resolve_root {name reference : List Char} (hname : '/' ∉ name)
    (hrelative : ∀ rest, reference ≠ '/' :: rest)
    (hdots : ∀ segment ∈ reference.splitOn '/', segment ≠ ['.'] ∧ segment ≠ ['.', '.']) :
    resolve ('/' :: name) reference = '/' :: reference := by
  have hdirectory : (('/' :: name).reverse.dropWhile (· ≠ '/')).reverse = ['/'] := by
    have hbefore : ∀ c ∈ name.reverse, decide (c ≠ '/') = true := by
      intro c hc
      rw [decide_eq_true_iff]
      rintro rfl
      exact hname (List.mem_reverse.mp hc)
    rw [List.reverse_cons, List.dropWhile_append_of_pos hbefore,
      List.dropWhile_cons_of_neg (by decide), List.reverse_singleton]
  rw [resolve, hdirectory]
  · rw [List.singleton_append, List.drop_one, List.tail_cons, dropDots_eq_append hdots,
      List.nil_append, List.intercalate_splitOn]
  · exact hrelative

end Playlist
