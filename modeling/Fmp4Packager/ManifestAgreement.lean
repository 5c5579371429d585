import Fmp4Packager.Format.Playlist
import Fmp4Packager.Routes
import Fmp4Packager.Server

/-!
# The manifest and the segment route

A player that reads the manifest and requests its URIs asks for exactly the indices
that the segment route accepts, and each gets the window that its duration is taken
from.
-/

namespace Fmp4Packager

namespace Server

open HlsManifest Playlist

theorem length_decimalPadded {width n : ℕ} (hwidth : 0 < width) (hn : n < 10 ^ width) :
    (decimalPadded width n).length = width := by
  have hle : (decimal n).length ≤ width := (Nat.length_toDigits_le_iff (by decide) hwidth).mpr hn
  rw [decimalPadded, List.length_append, List.length_replicate]
  omega

theorem fixedSix_natCast_div (ms : ℕ) :
    fixedSix ((ms : ℚ) / 1000) =
      decimal (ms / 1000) ++ '.' :: decimalPadded 6 (ms % 1000 * 1000) := by
  have hmicros : round ((ms : ℚ) / 1000 * 1000000) = ((ms * 1000 : ℕ) : ℤ) := by
    rw [show (ms : ℚ) / 1000 * 1000000 = ((ms * 1000 : ℕ) : ℚ) by push_cast; ring, round_natCast]
  have hsign : ¬(ms : ℚ) / 1000 < 0 := not_lt.mpr (by positivity)
  have hseconds : ms * 1000 / 1000000 = ms / 1000 := by omega
  have hrest : ms * 1000 % 1000000 = ms % 1000 * 1000 := by omega
  rw [fixedSix, hmicros]
  simp only [if_neg hsign, Int.natAbs_natCast, hseconds, hrest, List.nil_append]

theorem readDecimal_fixedSix (ms : ℕ) :
    readDecimal (fixedSix ((ms : ℚ) / 1000)) = some ((ms : ℚ) / 1000) := by
  have hpart : ms % 1000 * 1000 < 10 ^ 6 := by omega
  have hlength := length_decimalPadded (by decide) hpart
  have hvalue : ((ms / 1000 : ℕ) : ℚ) + ((ms % 1000 * 1000 : ℕ) : ℚ) / 10 ^ 6 =
      (ms : ℚ) / 1000 := by
    have hsplit : ((1000 * (ms / 1000) + ms % 1000 : ℕ) : ℚ) = (ms : ℚ) :=
      congrArg Nat.cast (Nat.div_add_mod ms 1000)
    push_cast at hsplit ⊢
    linarith
  have hread : readNat (decimalPadded 6 (ms % 1000 * 1000)) = some (ms % 1000 * 1000) :=
    readNat_replicate_append _ _
  have hpoint := readDecimal_of_point (all_isDigit_toDigits (ms / 1000))
    (readNat_toDigits (ms / 1000)) hread
  rw [hlength, hvalue] at hpoint
  rw [fixedSix_natCast_div]
  exact hpoint

theorem mem_fixedSix {ms : ℕ} {c : Char} (hc : c ∈ fixedSix ((ms : ℚ) / 1000)) :
    c.isDigit ∨ c = '.' := by
  have hdigit : ∀ {n : ℕ}, c ∈ decimal n → c.isDigit := fun h ↦
    Nat.isDigit_of_mem_toDigits (by decide) (by decide) h
  rw [fixedSix_natCast_div, List.mem_append, List.mem_cons, decimalPadded, List.mem_append] at hc
  rcases hc with h | rfl | h | h
  · exact .inl (hdigit h)
  · exact .inr rfl
  · rw [List.eq_of_mem_replicate h]
    exact .inl rfl
  · exact .inl (hdigit h)

/-- The segments that the lines of the durations stand for, from segment `i` on. -/
def listed (segmentPrefix : List Char) : ℕ → List ℚ → List Playlist.Segment
  | _, [] => []
  | i, d :: rest =>
      ⟨d, segmentPrefix ++ decimal i ++ ".m4s".toList⟩ :: listed segmentPrefix (i + 1) rest

/-- What the URLs of a manifest may start with: text on one line that is not taken for
a tag. -/
structure StartsUri (segmentPrefix : List Char) : Prop where
  head : ∃ c rest, segmentPrefix = c :: rest ∧ c ≠ '#'
  oneLine : '\n' ∉ segmentPrefix

def WholeMilliseconds (d : ℚ) : Prop := ∃ ms : ℕ, d = (ms : ℚ) / 1000

theorem not_mem_decimal {c : Char} (hc : c.isDigit = false) (n : ℕ) : c ∉ decimal n := by
  intro hmem
  have := Nat.isDigit_of_mem_toDigits (by decide) (by decide) hmem
  rw [hc] at this
  cases this

theorem readLine_extinf {d : ℚ} (hd : WholeMilliseconds d) :
    readLine ("#EXTINF:".toList ++ fixedSix d ++ [',']) = some (.extinf d) := by
  obtain ⟨ms, rfl⟩ := hd
  have hcomma : ∀ c ∈ fixedSix ((ms : ℚ) / 1000), decide (c ≠ ',') = true := by
    intro c hc
    rw [decide_eq_true_iff]
    rintro rfl
    exact absurd (mem_fixedSix hc) (by decide)
  have hline : readLine ("#EXTINF:".toList ++ (fixedSix ((ms : ℚ) / 1000) ++ [','])) =
      (readDecimal ((fixedSix ((ms : ℚ) / 1000) ++ [',']).takeWhile (· ≠ ','))).map .extinf := rfl
  rw [List.append_assoc, hline, List.takeWhile_append_of_pos hcomma,
    List.takeWhile_cons_of_neg (by decide), List.append_nil, readDecimal_fixedSix]
  rfl

theorem readLine_uri {segmentPrefix : List Char} (h : StartsUri segmentPrefix)
    (rest : List Char) :
    readLine (segmentPrefix ++ rest) = some (.uri (segmentPrefix ++ rest)) := by
  obtain ⟨c, tail, rfl, hc⟩ := h.head
  rw [List.cons_append, readLine, if_pos hc]

theorem segmentLines_append (segmentPrefix : List Char) (i : ℕ) (d : ℚ) (rest : List Char) :
    segmentLines segmentPrefix i d ++ rest =
      ("#EXTINF:".toList ++ fixedSix d ++ [',']) ++ '\n' ::
        ((segmentPrefix ++ (decimal i ++ ".m4s".toList)) ++ '\n' :: rest) := by
  have hcomma : ",\n".toList = [',', '\n'] := rfl
  have hm4s : ".m4s\n".toList = ".m4s".toList ++ ['\n'] := rfl
  unfold segmentLines
  -- the literals are not to be unfolded
  generalize ",\n".toList = comma at *
  generalize ".m4s\n".toList = m4sLine at *
  generalize ".m4s".toList = m4s at *
  generalize "#EXTINF:".toList = extinf at *
  subst hcomma hm4s
  simp only [List.append_assoc, List.cons_append, List.nil_append]

theorem readLines_segmentsFrom {segmentPrefix : List Char} (h : StartsUri segmentPrefix)
    {durations : List ℚ} (hms : ∀ d ∈ durations, WholeMilliseconds d) (i : ℕ) (rest : List Char)
    {p : Playlist.Media} (hp : p.pending = none) :
    readLines ((segmentsFrom segmentPrefix i durations ++ rest).splitOn '\n') p =
      readLines (rest.splitOn '\n')
        { p with segments := p.segments ++ listed segmentPrefix i durations } := by
  induction durations generalizing i p with
  | nil => rw [segmentsFrom, List.nil_append, listed, List.append_nil]
  | cons d durations ih =>
      have hd := hms d List.mem_cons_self
      have hextinf : '\n' ∉ "#EXTINF:".toList ++ fixedSix d ++ [','] := by
        obtain ⟨ms, rfl⟩ := hd
        simp only [List.mem_append, not_or]
        refine ⟨⟨by decide, fun hmem ↦ ?_⟩, by decide⟩
        exact absurd (mem_fixedSix hmem) (by decide)
      have huri : '\n' ∉ segmentPrefix ++ (decimal i ++ ".m4s".toList) := by
        simp only [List.mem_append, not_or]
        exact ⟨h.oneLine, not_mem_decimal rfl i, by decide⟩
      have hpending : addLine p (.extinf d) = some { p with pending := some d } := by
        simp only [addLine, hp]
      have hlisted : addLine { p with pending := some d }
            (.uri (segmentPrefix ++ (decimal i ++ ".m4s".toList))) =
          some { p with segments := p.segments ++
            [⟨d, segmentPrefix ++ (decimal i ++ ".m4s".toList)⟩] } := by
        simp only [addLine, hp]
      rw [segmentsFrom, List.append_assoc, segmentLines_append,
        readLines_line _ hextinf (readLine_extinf hd) hpending,
        readLines_line _ huri (readLine_uri h _) hlisted,
        ih (fun d' hd' ↦ hms d' (List.mem_cons_of_mem d hd')) (i + 1)
          (p := { p with segments := p.segments ++
            [⟨d, segmentPrefix ++ (decimal i ++ ".m4s".toList)⟩] }) hp, listed]
      simp only [List.append_assoc, List.singleton_append]

/-- The playlist that a manifest stands for. -/
def manifestPlaylist (segmentPrefix : List Char) (targetDuration : ℕ) (durations : List ℚ) :
    Playlist.Media where
  targetDuration := some targetDuration
  map := some (segmentPrefix ++ "init.mp4".toList)
  segments := listed segmentPrefix 0 durations
  ended := true

theorem wholeMilliseconds_segmentDurations {keyframes : List ℤ}
    (hsorted : keyframes.Pairwise (· < ·)) :
    ∀ d ∈ segmentDurations keyframes, WholeMilliseconds d := by
  rw [← List.isChain_iff_pairwise] at hsorted
  induction keyframes with
  | nil => simp [segmentDurations]
  | cons startMs rest ih =>
      cases rest with
      | nil => simp [segmentDurations]
      | cons endMs rest =>
          obtain ⟨hlt, hrest⟩ := List.isChain_cons_cons.mp hsorted
          rw [segmentDurations, List.forall_mem_cons]
          refine ⟨⟨(endMs - startMs).toNat, ?_⟩, ih hrest⟩
          rw [← Int.cast_natCast, Int.toNat_of_nonneg (by omega)]

theorem readLine_targetDuration (n : ℕ) :
    readLine ("#EXT-X-TARGETDURATION:".toList ++ decimal n) = some (.targetDuration n) := by
  have hline : readLine ("#EXT-X-TARGETDURATION:".toList ++ decimal n) =
      (readNat (decimal n)).map .targetDuration := rfl
  rw [hline, decimal, readNat_toDigits]
  rfl

theorem readLine_map {segmentPrefix : List Char} (hquote : '"' ∉ segmentPrefix) :
    readLine ("#EXT-X-MAP:URI=\"".toList ++ (segmentPrefix ++ "init.mp4\"".toList)) =
      some (.map (segmentPrefix ++ "init.mp4".toList)) := by
  have hline : readLine ("#EXT-X-MAP:URI=\"".toList ++ (segmentPrefix ++ "init.mp4\"".toList)) =
      some (.map ((segmentPrefix ++ "init.mp4\"".toList).takeWhile (· ≠ '"'))) := rfl
  have hinside : ∀ c ∈ segmentPrefix, decide (c ≠ '"') = true := by
    intro c hc
    rw [decide_eq_true_iff]
    rintro rfl
    exact hquote hc
  rw [hline, List.takeWhile_append_of_pos hinside]
  rfl

theorem generate_eq {keyframes : List ℤ} (hlength : 2 ≤ keyframes.length)
    (segmentPrefix : List Char) {target : ℤ}
    (htarget : ceilToInt (maxElement (segmentDurations keyframes)) = some target) :
    generate keyframes segmentPrefix = some
      ("#EXTM3U".toList ++ '\n' :: ("#EXT-X-VERSION:7".toList ++ '\n' ::
        ("#EXT-X-TARGETDURATION:".toList ++ decimal (max target 1).toNat ++ '\n' ::
          ("#EXT-X-MEDIA-SEQUENCE:0".toList ++ '\n' :: ("#EXT-X-PLAYLIST-TYPE:VOD".toList ++ '\n' ::
            ("#EXT-X-MAP:URI=\"".toList ++ (segmentPrefix ++ "init.mp4\"".toList) ++ '\n' ::
              (segmentsFrom segmentPrefix 0 (segmentDurations keyframes) ++
                ("#EXT-X-ENDLIST".toList ++ '\n' :: [])))))))) := by
  have hm3u : "#EXTM3U\n".toList = "#EXTM3U".toList ++ ['\n'] := rfl
  have hversion : "#EXT-X-VERSION:7\n".toList = "#EXT-X-VERSION:7".toList ++ ['\n'] := rfl
  have hsequence : "#EXT-X-MEDIA-SEQUENCE:0\n".toList =
    "#EXT-X-MEDIA-SEQUENCE:0".toList ++ ['\n'] := rfl
  have htype : "#EXT-X-PLAYLIST-TYPE:VOD\n".toList =
    "#EXT-X-PLAYLIST-TYPE:VOD".toList ++ ['\n'] := rfl
  have hinit : "init.mp4\"\n".toList = "init.mp4\"".toList ++ ['\n'] := rfl
  have hend : "#EXT-X-ENDLIST\n".toList = "#EXT-X-ENDLIST".toList ++ ['\n'] := rfl
  have hmax : (if target < 1 then 1 else target) = max target 1 := by
    split <;> omega
  unfold generate
  rw [if_neg (by omega)]
  simp only [htarget, Option.map_some, hmax, hm3u, hversion, hsequence, htype, hinit, hend,
    List.append_assoc, List.cons_append, List.nil_append]

theorem read_generate {keyframes : List ℤ} (hlength : 2 ≤ keyframes.length)
    (hsorted : keyframes.Pairwise (· < ·)) {segmentPrefix : List Char}
    (h : StartsUri segmentPrefix) (hquote : '"' ∉ segmentPrefix) {target : ℤ}
    (htarget : ceilToInt (maxElement (segmentDurations keyframes)) = some target) :
    (generate keyframes segmentPrefix).bind Playlist.read =
      some (manifestPlaylist segmentPrefix (max target 1).toNat (segmentDurations keyframes)) := by
  have hms := wholeMilliseconds_segmentDurations hsorted
  have hduration : '\n' ∉ "#EXT-X-TARGETDURATION:".toList ++ decimal (max target 1).toNat := by
    rw [List.mem_append, not_or]
    exact ⟨by decide, not_mem_decimal rfl _⟩
  have hmap : '\n' ∉ "#EXT-X-MAP:URI=\"".toList ++ (segmentPrefix ++ "init.mp4\"".toList) := by
    simp only [List.mem_append, not_or]
    exact ⟨by decide, h.oneLine, by decide⟩
  rw [generate_eq hlength segmentPrefix htarget, Option.bind_some, Playlist.read,
    splitOn_append_cons_of_not_mem (by decide)]
  dsimp only
  rw [if_pos rfl]
  refine (readLines_line .other (by decide) rfl rfl _).trans ?_
  refine (readLines_line _ hduration (readLine_targetDuration _) rfl _).trans ?_
  refine (readLines_line .other (by decide) rfl rfl _).trans ?_
  refine (readLines_line .other (by decide) rfl rfl _).trans ?_
  refine (readLines_line _ hmap (readLine_map hquote) rfl _).trans ?_
  refine (readLines_segmentsFrom h hms 0 _ rfl).trans ?_
  exact (readLines_line .endList (by decide) rfl rfl _).trans rfl

/-! ## The URIs of the segments -/

theorem matchLiteral_append (literal rest : List Char) :
    matchLiteral literal (literal ++ rest) = some rest :=
  List.isPrefixOf?_eq_some_iff_append_eq.mpr rfl

/-- Forty hexadecimal digits. -/
structure IsInfohash (infohash : List Char) : Prop where
  length : infohash.length = 40
  hex : infohash.all isHexDigit

theorem matchInfohash_append {infohash : List Char} (h : IsInfohash infohash) (rest : List Char) :
    matchInfohash (infohash ++ rest) = some (infohash, rest) := by
  have htake : (infohash ++ rest).take 40 = infohash := List.take_left' h.length
  have hdrop : (infohash ++ rest).drop 40 = rest := List.drop_left' h.length
  rw [matchInfohash, htake, hdrop, if_pos ⟨h.length, h.hex⟩]

theorem matchDigits_decimal_append (n : ℕ) {c : Char} (hc : c.isDigit = false)
    (rest : List Char) : matchDigits (decimal n ++ c :: rest) = some (decimal n, c :: rest) := by
  obtain ⟨htake, hdrop⟩ := takeWhile_isDigit_append (all_isDigit_toDigits n) hc rest
  rw [matchDigits, decimal, htake, hdrop, if_neg (toDigits_ne_nil n)]

theorem toNat_lt_of_isHexDigit {c : Char} (hc : isHexDigit c) : c.toNat < 128 := by
  have hle : ∀ d : Char, c ≤ d → c.toNat ≤ d.toNat := fun d h ↦ UInt32.le_iff_toNat_le.mp h
  simp only [isHexDigit, Bool.or_eq_true, Bool.and_eq_true, decide_eq_true_iff] at hc
  rcases hc with (⟨-, h⟩ | ⟨-, h⟩) | ⟨-, h⟩
  · exact (hle 'f' h).trans_lt (by decide)
  · exact (hle 'F' h).trans_lt (by decide)
  · exact (hle '9' h).trans_lt (by decide)

theorem isHexDigit_toLower {c : Char} (hc : isHexDigit c) :
    isHexDigit c.toLower ∧ c.toLower.toLower = c.toLower := by
  have hall : ∀ n < 128, isHexDigit (Char.ofNat n) → isHexDigit (Char.ofNat n).toLower ∧
      (Char.ofNat n).toLower.toLower = (Char.ofNat n).toLower := by decide
  have hsmall := toNat_lt_of_isHexDigit hc
  rw [← Char.ofNat_toNat c] at hc ⊢
  exact hall c.toNat hsmall hc

theorem IsInfohash.map_toLower {infohash : List Char} (h : IsInfohash infohash) :
    IsInfohash (infohash.map Char.toLower) := by
  refine ⟨by rw [List.length_map, h.length], ?_⟩
  rw [List.all_map, List.all_eq_true]
  exact fun c hc ↦ (isHexDigit_toLower (List.all_eq_true.mp h.hex c hc)).1

theorem IsInfohash.toLower_toLower {infohash : List Char} (h : IsInfohash infohash) :
    (infohash.map Char.toLower).map Char.toLower = infohash.map Char.toLower := by
  rw [List.map_map]
  exact List.map_congr_left fun c hc ↦ (isHexDigit_toLower (List.all_eq_true.mp h.hex c hc)).2

theorem IsInfohash.not_mem {infohash : List Char} (h : IsInfohash infohash) {c : Char}
    (hc : isHexDigit c = false) : c ∉ infohash := by
  intro hmem
  have := List.all_eq_true.mp h.hex c hmem
  rw [hc] at this
  cases this

theorem IsInfohash.exists_cons {infohash : List Char} (h : IsInfohash infohash) :
    ∃ c rest, infohash = c :: rest := by
  have hlength := h.length
  cases infohash with
  | nil => cases hlength
  | cons c rest => exact ⟨c, rest, rfl⟩

/-- The path of segment `i` in the manifest of a session. -/
def segmentPath (infohash : List Char) (sessionId i : ℕ) : List Char :=
  manifestPrefix infohash sessionId ++ decimal i ++ ".m4s".toList

theorem matchSegmentRoute_segmentPath {infohash : List Char} (h : IsInfohash infohash)
    (sessionId i : ℕ) :
    matchSegmentRoute ('/' :: segmentPath infohash sessionId i) =
      some (infohash, decimal sessionId, decimal i) := by
  have hpath : '/' :: segmentPath infohash sessionId i =
      ['/'] ++ (infohash ++ ("/session-".toList ++ (decimal sessionId ++ '/' ::
        (decimal i ++ ".m4s".toList)))) := by
    rw [segmentPath, manifestPrefix]
    simp only [List.append_assoc, List.cons_append, List.nil_append]
  have hm4s : ".m4s".toList = '.' :: "m4s".toList := rfl
  rw [hpath, matchSegmentRoute, matchLiteral_append]
  simp only [Option.bind_eq_bind, Option.bind_some]
  rw [matchInfohash_append h]
  simp only [Option.bind_some]
  rw [matchLiteral_append]
  simp only [Option.bind_some]
  rw [matchDigits_decimal_append sessionId rfl]
  simp only [Option.bind_some]
  rw [show ∀ rest : List Char, matchLiteral ['/'] ('/' :: rest) = some rest from
    matchLiteral_append ['/']]
  simp only [Option.bind_some]
  rw [hm4s, matchDigits_decimal_append i rfl]
  simp only [Option.bind_some, if_true]

theorem segmentRequest_segmentPath {infohash : List Char} (h : IsInfohash infohash)
    {sessionId i : ℕ} (hid : sessionId < 2 ^ 31) (hi : i < 2 ^ 63) :
    segmentRequest ('/' :: segmentPath (infohash.map Char.toLower) sessionId i) =
      some ⟨infohash.map Char.toLower, sessionId, i⟩ := by
  have hstoi : stoi (decimal sessionId) = some (sessionId : ℤ) := by
    rw [stoi, decimal, Nat.ofDigitChars_ten_toDigits, if_pos hid]
  have hstoll : stoll (decimal i) = some (i : ℤ) := by
    rw [stoll, decimal, Nat.ofDigitChars_ten_toDigits, if_pos hi]
  rw [segmentRequest, matchSegmentRoute_segmentPath h.map_toLower]
  simp only [Option.bind_eq_bind, Option.bind_some, hstoi, hstoll, h.toLower_toLower]

theorem splitOn_segmentPath {infohash : List Char} (h : IsInfohash infohash)
    (sessionId i : ℕ) :
    (segmentPath infohash sessionId i).splitOn '/' =
      [infohash, "session-".toList ++ decimal sessionId, decimal i ++ ".m4s".toList] := by
  have hsession : '/' ∉ "session-".toList ++ decimal sessionId := by
    rw [List.mem_append, not_or]
    exact ⟨by decide, not_mem_decimal rfl sessionId⟩
  have hfile : '/' ∉ decimal i ++ ".m4s".toList := by
    rw [List.mem_append, not_or]
    exact ⟨not_mem_decimal rfl i, by decide⟩
  have hpath : segmentPath infohash sessionId i =
      infohash ++ '/' :: (("session-".toList ++ decimal sessionId) ++ '/' ::
        (decimal i ++ ".m4s".toList)) := by
    have hsession : "/session-".toList = '/' :: "session-".toList := rfl
    simp only [segmentPath, manifestPrefix, hsession, List.append_assoc, List.cons_append,
      List.nil_append]
  rw [hpath, splitOn_append_cons_of_not_mem (h.not_mem rfl),
    splitOn_append_cons_of_not_mem hsession, splitOn_eq_singleton_of_not_mem hfile]

/-- A URI of the manifest is relative to the directory of the manifest. -/
theorem resolve_segmentPath {infohash name : List Char} (h : IsInfohash infohash)
    (hname : '/' ∉ name) (sessionId i : ℕ) :
    resolve ('/' :: name) (segmentPath infohash sessionId i) =
      '/' :: segmentPath infohash sessionId i := by
  apply resolve_root hname
  · obtain ⟨c, tail, rfl⟩ := h.exists_cons
    rintro rest hrest
    obtain rfl : c = '/' := (List.cons.inj hrest).1
    exact h.not_mem (c := '/') rfl List.mem_cons_self
  · have hlong : ∀ segment : List Char, 2 < segment.length →
        segment ≠ ['.'] ∧ segment ≠ ['.', '.'] := by
      intro segment hlength
      refine ⟨?_, ?_⟩ <;> rintro rfl <;> simp at hlength
    rw [splitOn_segmentPath h]
    intro segment hsegment
    apply hlong
    rcases List.mem_cons.mp hsegment with rfl | hsegment
    · rw [h.length]
      decide
    rcases List.mem_cons.mp hsegment with rfl | hsegment
    · rw [List.length_append, show "session-".toList.length = 8 from rfl]
      omega
    · rw [List.mem_singleton.mp hsegment, List.length_append,
        show ".m4s".toList.length = 4 from rfl]
      omega

/-! ## The agreement -/

/-- A playlist and the segment route agree on the segments between the boundaries. -/
structure Agrees (path infohash : List Char) (sessionId : ℕ) (keyframes : List ℤ)
    (p : Playlist.Media) : Prop where
  length : p.segments.length + 1 = keyframes.length
  /-- Each listed segment is requested under its index and gets the window that its
  duration is taken from. -/
  segment : ∀ (i : ℕ) segment, p.segments[i]? = some segment → ∃ startMs endMs,
    keyframes[i]? = some startMs ∧ keyframes[i + 1]? = some endMs ∧
      segment.duration = ((endMs - startMs : ℤ) : ℚ) / 1000 ∧
      segmentRequest (resolve path segment.uri) =
        some ⟨infohash.map Char.toLower, sessionId, i⟩ ∧
      segmentWindow keyframes i = some ⟨i, startMs, endMs⟩
  sum : ∀ first ∈ keyframes.head?, ∀ last ∈ keyframes.getLast?,
    (p.segments.map Playlist.Segment.duration).sum = ((last - first : ℤ) : ℚ) / 1000
  target : ∃ seconds, p.targetDuration = some seconds ∧
    ∀ segment ∈ p.segments, segment.duration ≤ seconds
  /-- What the route accepts is listed. -/
  accepted : ∀ requestPath request, segmentRequest requestPath = some request →
    (segmentWindow keyframes request.segmentIdx).isSome →
      ∃ segment, p.segments[request.segmentIdx.toNat]? = some segment

theorem getElem?_listed (segmentPrefix : List Char) (durations : List ℚ) (i j : ℕ) :
    (listed segmentPrefix i durations)[j]? =
      durations[j]?.map fun d ↦ ⟨d, segmentPrefix ++ decimal (i + j) ++ ".m4s".toList⟩ := by
  induction durations generalizing i j with
  | nil => rfl
  | cons d durations ih =>
      rw [listed]
      cases j with
      | zero => rfl
      | succ j =>
          rw [List.getElem?_cons_succ, List.getElem?_cons_succ, ih, Nat.add_assoc, Nat.add_comm 1]

theorem map_duration_listed (segmentPrefix : List Char) (durations : List ℚ) (i : ℕ) :
    (listed segmentPrefix i durations).map Playlist.Segment.duration = durations := by
  induction durations generalizing i with
  | nil => rfl
  | cons d durations ih => rw [listed, List.map_cons, ih]

theorem length_listed (segmentPrefix : List Char) (durations : List ℚ) (i : ℕ) :
    (listed segmentPrefix i durations).length = durations.length := by
  rw [← List.length_map, map_duration_listed]

theorem sum_segmentDurations (first : ℤ) (rest : List ℤ) :
    (segmentDurations (first :: rest)).sum =
      (((first :: rest).getLast (List.cons_ne_nil first rest) - first : ℤ) : ℚ) / 1000 := by
  induction rest generalizing first with
  | nil => simp [segmentDurations]
  | cons second rest ih =>
      rw [segmentDurations, List.sum_cons, ih, List.getLast_cons_cons]
      push_cast
      ring

theorem maxElement_spec {durations : List ℚ} (hne : durations ≠ []) :
    maxElement durations ∈ durations ∧ ∀ d ∈ durations, d ≤ maxElement durations := by
  cases durations with
  | nil => exact absurd rfl hne
  | cons d rest => exact List.max?_eq_some_iff.mp List.max?_cons'

/-- The target duration is defined exactly when the seconds of every segment fit an
`int`. -/
theorem ceilToInt_isSome_iff {durations : List ℚ} (hne : durations ≠ [])
    (hpos : ∀ d ∈ durations, 0 ≤ d) :
    (ceilToInt (maxElement durations)).isSome ↔ ∀ d ∈ durations, d ≤ (intMax : ℚ) := by
  obtain ⟨hmem, hle⟩ := maxElement_spec hne
  have hnonneg : intMin ≤ ⌈maxElement durations⌉ := by
    have : 0 ≤ ⌈maxElement durations⌉ := Int.ceil_nonneg (hpos _ hmem)
    rw [intMin]
    omega
  have hsome : (ceilToInt (maxElement durations)).isSome ↔ maxElement durations ≤ (intMax : ℚ) := by
    rw [ceilToInt, ← Int.ceil_le]
    split
    · next h => exact iff_of_true rfl h.2
    · next h => exact iff_of_false (by simp) fun hmax ↦ h ⟨hnonneg, hmax⟩
  rw [hsome]
  exact ⟨fun h d hd ↦ (hle d hd).trans h, fun h ↦ h _ hmem⟩

theorem startsUri_manifestPrefix {infohash : List Char} (h : IsInfohash infohash)
    (sessionId : ℕ) : StartsUri (manifestPrefix infohash sessionId) ∧
      '"' ∉ manifestPrefix infohash sessionId := by
  have hnot : ∀ c : Char, isHexDigit c = false → c.isDigit = false → c ∉ "/session-".toList →
      c ≠ '/' → c ∉ manifestPrefix infohash sessionId := by
    intro c hhex hdigit hsession hslash
    simp only [manifestPrefix, List.mem_append, List.mem_singleton, not_or]
    exact ⟨⟨⟨h.not_mem hhex, hsession⟩, not_mem_decimal hdigit sessionId⟩, hslash⟩
  refine ⟨⟨?_, hnot '\n' rfl rfl (by decide) (by decide)⟩,
    hnot '"' rfl rfl (by decide) (by decide)⟩
  obtain ⟨c, rest, rfl⟩ := h.exists_cons
  refine ⟨c, _, rfl, ?_⟩
  rintro rfl
  exact h.not_mem (c := '#') rfl List.mem_cons_self

theorem segmentDurations_ne_nil {keyframes : List ℤ} (hlength : 2 ≤ keyframes.length) :
    segmentDurations keyframes ≠ [] := by
  match keyframes with
  | [] => simp at hlength
  | [_] => simp at hlength
  | _ :: _ :: _ => exact List.cons_ne_nil _ _

theorem length_segmentDurations {keyframes : List ℤ} (hlength : 2 ≤ keyframes.length) :
    (segmentDurations keyframes).length + 1 = keyframes.length := by
  rw [segmentDurations_eq_map, List.length_map, List.length_zip, List.length_tail]
  omega

theorem agrees_manifestPlaylist {keyframes : List ℤ} (hlength : 2 ≤ keyframes.length)
    (hsize : keyframes.length < 2 ^ 63) {infohash : List Char} (h : IsInfohash infohash)
    {sessionId : ℕ} (hid : sessionId < 2 ^ 31) {target : ℤ}
    (htarget : ceilToInt (maxElement (segmentDurations keyframes)) = some target)
    {name : List Char} (hname : '/' ∉ name) :
    Agrees ('/' :: name) infohash sessionId keyframes
      (manifestPlaylist (manifestPrefix (infohash.map Char.toLower) sessionId)
        (max target 1).toNat (segmentDurations keyframes)) where
  length := by
    rw [manifestPlaylist, length_listed, length_segmentDurations hlength]
  segment := by
    intro i segment hsegment
    rw [manifestPlaylist, getElem?_listed, Option.map_eq_some_iff] at hsegment
    obtain ⟨d, hd, rfl⟩ := hsegment
    obtain ⟨startMs, endMs, hstart, hend, hgap⟩ := getElem?_segmentDurations hd
    obtain ⟨hi, -⟩ := List.getElem?_eq_some_iff.mp hstart
    refine ⟨startMs, endMs, hstart, hend, hgap, ?_, ?_⟩
    · have hresolve := resolve_segmentPath h.map_toLower hname sessionId i
      rw [segmentPath] at hresolve
      rw [Nat.zero_add, hresolve, ← segmentPath]
      exact segmentRequest_segmentPath h hid (by omega)
    · exact segmentWindow_eq_some.mpr ⟨Int.natCast_nonneg i, rfl, hstart, hend⟩
  sum := by
    intro first hfirst last hlast
    rw [manifestPlaylist, map_duration_listed]
    cases keyframes with
    | nil => cases hfirst
    | cons start rest =>
        obtain rfl : start = first := Option.some.inj hfirst
        rw [List.getLast?_eq_some_getLast (List.cons_ne_nil start rest)] at hlast
        obtain rfl := Option.some.inj hlast
        exact sum_segmentDurations start rest
  target := by
    refine ⟨(max target 1).toNat, rfl, ?_⟩
    intro segment hsegment
    have hduration : segment.duration ∈ segmentDurations keyframes := by
      rw [← map_duration_listed (manifestPrefix (infohash.map Char.toLower) sessionId)
        (segmentDurations keyframes) 0]
      exact List.mem_map_of_mem hsegment
    have hceil : maxElement (segmentDurations keyframes) ≤ (target : ℚ) := by
      rw [ceilToInt] at htarget
      split at htarget <;> cases htarget
      exact Int.le_ceil _
    have hcut : (target : ℚ) ≤ ((max target 1).toNat : ℚ) := by
      rw [← Int.cast_natCast, Int.cast_le]
      omega
    exact ((maxElement_spec (segmentDurations_ne_nil hlength)).2 _ hduration).trans
      (hceil.trans hcut)
  accepted := by
    intro requestPath request _ hwindow
    obtain ⟨w, hw⟩ := Option.isSome_iff_exists.mp hwindow
    obtain ⟨-, -, -, hend⟩ := segmentWindow_eq_some.mp hw
    obtain ⟨hlt, -⟩ := List.getElem?_eq_some_iff.mp hend
    have hlisted := length_segmentDurations hlength
    rw [manifestPlaylist, getElem?_listed, List.getElem?_eq_getElem (by omega)]
    exact ⟨_, rfl⟩

/-- For increasing boundaries the manifest and the segment route agree, unless a segment
lasts longer than an `int` can hold in seconds. -/
theorem manifest_agrees_iff {keyframes : List ℤ} (hsorted : keyframes.Pairwise (· < ·))
    (hlength : 2 ≤ keyframes.length) (hsize : keyframes.length < 2 ^ 63) {infohash : List Char}
    (h : IsInfohash infohash) {sessionId : ℕ} (hid : sessionId < 2 ^ 31) :
    (∃ text p, manifestFor ('/' :: (infohash ++ ".m3u8".toList)) sessionId keyframes =
          some (some text) ∧ Playlist.read text = some p ∧
        Agrees ('/' :: (infohash ++ ".m3u8".toList)) infohash sessionId keyframes p) ↔
      keyframes.IsChain fun startMs endMs ↦ endMs - startMs ≤ 2147483647000 := by
  have hpos : ∀ d ∈ segmentDurations keyframes, 0 ≤ d := fun d hd ↦
    ((segmentDurations_pos_iff keyframes).mpr hsorted d hd).le
  have hname : '/' ∉ infohash ++ ".m3u8".toList := by
    rw [List.mem_append, not_or]
    exact ⟨h.not_mem rfl, by decide⟩
  have hseconds : ∀ startMs endMs : ℤ,
      ((endMs - startMs : ℤ) : ℚ) / 1000 ≤ (intMax : ℚ) ↔ endMs - startMs ≤ 2147483647000 := by
    intro startMs endMs
    rw [div_le_iff₀ (by norm_num), show (intMax : ℚ) * 1000 = ((2147483647000 : ℤ) : ℚ) by
      norm_num [intMax], Int.cast_le]
  have hfits : (ceilToInt (maxElement (segmentDurations keyframes))).isSome ↔
      keyframes.IsChain fun startMs endMs ↦ endMs - startMs ≤ 2147483647000 := by
    rw [ceilToInt_isSome_iff (segmentDurations_ne_nil hlength) hpos, forall_segmentDurations_iff]
    simp only [hseconds]
  have hmanifest : manifestFor ('/' :: (infohash ++ ".m3u8".toList)) sessionId keyframes =
      (generate keyframes (manifestPrefix (infohash.map Char.toLower) sessionId)).map some := by
    have hroute : matchManifestRoute ('/' :: (infohash ++ ".m3u8".toList)) = some infohash := by
      rw [matchManifestRoute, show '/' :: (infohash ++ ".m3u8".toList) =
        ['/'] ++ (infohash ++ ".m3u8".toList) from rfl, matchLiteral_append]
      simp only [Option.bind_eq_bind, Option.bind_some, matchInfohash_append h, if_true]
    rw [manifestFor, hroute]
    simp only [Option.bind_eq_bind, Option.bind_some, if_neg (not_lt.mpr hlength)]
    cases generate keyframes (manifestPrefix (infohash.map Char.toLower) sessionId) <;> rfl
  rw [← hfits, hmanifest]
  constructor
  · rintro ⟨text, p, hgenerate, -⟩
    obtain ⟨generated, hgenerate, -⟩ := Option.map_eq_some_iff.mp hgenerate
    rw [generate, if_neg (not_lt.mpr hlength)] at hgenerate
    rw [← Option.isSome_map, hgenerate]
    rfl
  · intro hsome
    obtain ⟨target, htarget⟩ := Option.isSome_iff_exists.mp hsome
    obtain ⟨huri, hquote⟩ := startsUri_manifestPrefix h.map_toLower sessionId
    have hread := read_generate hlength hsorted huri hquote htarget
    obtain ⟨text, hgenerate, hread⟩ := Option.bind_eq_some_iff.mp hread
    refine ⟨text, _, by rw [hgenerate, Option.map_some], hread, ?_⟩
    exact agrees_manifestPlaylist hlength hsize h hid htarget hname

def sampleInfohash : List Char := List.replicate 40 'A'

theorem isInfohash_sampleInfohash : IsInfohash sampleInfohash := ⟨rfl, by decide⟩

theorem manifest_agrees_iff_two_segments :
    (∃ text p, manifestFor ('/' :: (sampleInfohash ++ ".m3u8".toList)) 3 [0, 10000, 15500] =
          some (some text) ∧ Playlist.read text = some p ∧
        Agrees ('/' :: (sampleInfohash ++ ".m3u8".toList)) sampleInfohash 3 [0, 10000, 15500] p) ↔
      [0, 10000, 15500].IsChain fun startMs endMs : ℤ ↦ endMs - startMs ≤ 2147483647000 :=
  manifest_agrees_iff (by decide) (by decide) (by decide) isInfohash_sampleInfohash (by decide)

theorem not_manifest_agrees :
    ¬ ∀ (keyframes : List ℤ) (infohash : List Char) (sessionId : ℕ),
      keyframes.Pairwise (· < ·) → 2 ≤ keyframes.length → keyframes.length < 2 ^ 63 →
      IsInfohash infohash → sessionId < 2 ^ 31 →
      ∃ text p, manifestFor ('/' :: (infohash ++ ".m3u8".toList)) sessionId keyframes =
          some (some text) ∧ Playlist.read text = some p ∧
        Agrees ('/' :: (infohash ++ ".m3u8".toList)) infohash sessionId keyframes p := by
  intro h
  obtain ⟨text, p, hmanifest, -⟩ := h [0, 2147483648000] sampleInfohash 0 (by decide) (by decide)
    (by decide) isInfohash_sampleInfohash (by decide)
  have hnone : manifestFor ('/' :: (sampleInfohash ++ ".m3u8".toList)) 0 [0, 2147483648000] =
      none := by
    decide +kernel
  cases hnone.symm.trans hmanifest

end Server

end Fmp4Packager
