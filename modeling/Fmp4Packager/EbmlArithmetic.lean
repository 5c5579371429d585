import Fmp4Packager.HeaderRoundTrip

/-!
# The arithmetic of the EBML parsers

Numbers of the file are unsigned; the parsers take them for signed ones, and multiply
and add them unchecked.  They reject a time and a cluster position that turn negative
by this, but not a product or a sum that does not fit, nor a position of the Cues.
-/

namespace Fmp4Packager

open Ebml

namespace EbmlParser

/-- The TimestampScale that the file has, or the default. -/
def fileTimestampScale (header : List UInt8) : ℕ :=
  (((segmentData header).bind fun start ↦
    (timestampScales (elements (header.drop start))).getLast?).map Element.uint).getD 1000000

/-- The SeekPositions of the Seek entries for the Cues. -/
def fileSeekPositions (header : List UInt8) : List ℕ :=
  ((segmentData header).map fun start ↦ seekPositions (elements (header.drop start))).getD []

def segmentStart (header : List UInt8) : ℕ := (segmentData header).getD 0

/-- The numbers of the cue points for a track, of those whose time fits. -/
def filePoints (videoTrackNumber : ℤ) (cues : List UInt8) : List FilePoint :=
  (childrenWith kEbmlIdCuePoint ((cuesChildren cues).getD [])).filterMap fun e ↦
    filePoint? videoTrackNumber (elements e.payload)

/-- Where a cluster position leads; one that does not fit counts as missing. -/
def clusterAt (start : ℤ) : Option ℕ → ℤ
  | none => -1
  | some pos => if start + pos < 2 ^ 63 then start + pos else -1

/-- The relative position; one that does not fit counts as missing. -/
def relativeAt : Option ℕ → ℤ
  | none => -1
  | some pos => if pos < 2 ^ 63 then pos else -1

structure ExactEntry (timestampScale : ℕ) (start : ℤ) (p : FilePoint) (entry : CueEntry) :
    Prop where
  timeMs : entry.timeMs = p.time * timestampScale / 1000000
  timestamp : entry.timestamp = p.time
  clusterPos : entry.clusterPos = clusterAt start p.cluster
  relativePos : entry.relativePos = relativeAt p.relative

/-- No operation on signed 64-bit numbers overflows, and what is returned is what the
numbers of the file give. -/
structure ExactArithmetic (header cues : List UInt8) (videoTrackNumber : ℤ) (info : SegmentInfo)
    (loc : CuesLocation) (entries : List CueEntry) : Prop where
  headerEnds : ∀ e ∈ elements header, FitsInt64 ((e.offset : ℤ) + e.size)
  seekSums : ∀ seekPos ∈ fileSeekPositions header,
    FitsInt64 (loc.segmentDataStart + toInt64 seekPos)
  cuesSize : FitsInt64 loc.size
  timestampScale : info.timestampScale = fileTimestampScale header
  products : ∀ p ∈ filePoints videoTrackNumber cues, FitsInt64 (p.time * info.timestampScale)
  clusterSums : ∀ p ∈ filePoints videoTrackNumber cues, 0 ≤ p.clusterPos →
    FitsInt64 (loc.segmentDataStart + p.clusterPos)
  offset : ∀ seekPos ∈ (fileSeekPositions header).getLast?,
    loc.offset = loc.segmentDataStart + seekPos
  offset_nonneg : 0 ≤ loc.offset
  points : List.Forall₂ (ExactEntry (fileTimestampScale header) loc.segmentDataStart)
    (filePoints videoTrackNumber cues) entries
  times_nonneg : ∀ entry ∈ entries, 0 ≤ entry.timeMs

/-- The products and sums over the numbers of the file fit, except for the cluster
positions and SeekPositions that do not fit themselves; the last SeekPosition fits, and so
do the TimestampScale and the relative positions.  A relative position of all ones is read as
the `-1` of a missing one. -/
structure ValuesFit (header cues : List UInt8) (videoTrackNumber : ℤ) : Prop where
  scale : fileTimestampScale header < 2 ^ 63
  times : ∀ p ∈ filePoints videoTrackNumber cues, p.time * fileTimestampScale header < 2 ^ 63
  clusters : ∀ p ∈ filePoints videoTrackNumber cues, ∀ pos ∈ p.cluster, pos < 2 ^ 63 →
    segmentStart header + pos < 2 ^ 63
  relatives : ∀ p ∈ filePoints videoTrackNumber cues, ∀ pos ∈ p.relative,
    pos < 2 ^ 63 ∨ pos = 2 ^ 64 - 1
  seekPositions : ∀ seekPos ∈ fileSeekPositions header, seekPos < 2 ^ 63 →
    segmentStart header + seekPos < 2 ^ 63
  location : ∀ seekPos ∈ (fileSeekPositions header).getLast?,
    segmentStart header + seekPos < 2 ^ 63

/-- An unsigned number of the file that an element gives, `0` without one. -/
def childUint (id : ℕ) (es : List Element) : ℕ := (lastUint id es).getD 0

/-- The children of the track entry that is taken for the video track. -/
def videoTrackEntry (header : List UInt8) : Option (List Element) :=
  ((segmentData header).bind fun start ↦
    (((childrenWith kEbmlIdTracks (elements (header.drop start))).flatMap fun e ↦
      childrenWith kEbmlIdTrackEntry (elements e.payload)).filter fun e ↦
        (videoTrackNumber? e).isSome).getLast?).map fun e ↦ elements e.payload

/-- The CueTrack of the positions that count in a cue point. -/
def pointTrack? (videoTrackNumber : ℤ) (es : List Element) : Option ℕ := do
  let _ ← filePoint? videoTrackNumber es
  let ps ← matchingChildren videoTrackNumber es
  some (childUint kEbmlIdCueTrack ps)

def cueTracks (videoTrackNumber : ℤ) (cues : List UInt8) : List ℕ :=
  (childrenWith kEbmlIdCuePoint ((cuesChildren cues).getD [])).filterMap fun e ↦
    pointTrack? videoTrackNumber (elements e.payload)

/-- The track numbers that are returned, as `int`, are those of the file: that of the track
entry that is taken for the video track, and those of the cue points. -/
structure ExactTracks (header cues : List UInt8) (videoTrackNumber : ℤ) (info : SegmentInfo)
    (entries : List CueEntry) : Prop where
  type : ∀ es ∈ videoTrackEntry header, childUint kEbmlIdTrackType es = 1
  number : ∀ es ∈ videoTrackEntry header,
    info.videoTrackNumber = childUint kEbmlIdTrackNumber es
  cueTracks : entries.map CueEntry.trackNumber =
    (cueTracks videoTrackNumber cues).map fun track : ℕ ↦ (track : ℤ)

/-- The numbers that `ExactTracks` compares fit an `int`. -/
structure TracksFit (header cues : List UInt8) (videoTrackNumber : ℤ) : Prop where
  type : ∀ es ∈ videoTrackEntry header, childUint kEbmlIdTrackType es < 2 ^ 31
  number : ∀ es ∈ videoTrackEntry header, childUint kEbmlIdTrackNumber es < 2 ^ 31
  cueTracks : ∀ track ∈ cueTracks videoTrackNumber cues, track < 2 ^ 31

theorem toInt64_mul (a : ℤ) (b : ℕ) : toInt64 (a * toInt64 b) = toInt64 (a * b) := by
  apply toInt64_congr
  rw [Int.mul_emod, toInt64_emod, ← Int.mul_emod]

/-- A product that wraps is off by a multiple of `2^64`, which the division does not
hide. -/
theorem tdiv_toInt64_eq_iff (n : ℕ) :
    (toInt64 n).tdiv 1000000 = (n : ℤ) / 1000000 ↔ n < 2 ^ 63 := by
  have hwrapped := toInt64_emod n
  have hlt := toInt64_lt n
  constructor
  · intro hexact
    by_contra hge
    have hquotient : (9223372036854 : ℤ) ≤ (n : ℤ) / 1000000 := by omega
    rcases le_or_gt 0 (toInt64 n) with hnonneg | hneg
    · rw [Int.tdiv_eq_ediv_of_nonneg hnonneg] at hexact
      omega
    · have hnonneg : 0 ≤ (-toInt64 n).tdiv 1000000 := Int.tdiv_nonneg (by omega) (by norm_num)
      rw [Int.neg_tdiv] at hnonneg
      omega
  · intro hfits
    rw [toInt64_eq_self (by omega) (by omega), Int.tdiv_eq_ediv_of_nonneg (Int.natCast_nonneg n)]

theorem fitsInt64_mul {time scale : ℕ} (hfits : time * scale < 2 ^ 63) :
    FitsInt64 (time * toInt64 scale) := by
  rcases lt_or_ge scale (2 ^ 63) with hscale | hscale
  · have hexact : toInt64 scale = scale := toInt64_eq_self (by omega) (by omega)
    rw [hexact, ← Nat.cast_mul, FitsInt64]
    omega
  · have hzero : time = 0 := by
      by_contra hne
      have hmul : 1 * scale ≤ time * scale :=
        Nat.mul_le_mul_right scale (Nat.one_le_iff_ne_zero.mpr hne)
      omega
    simp [hzero, FitsInt64]

theorem toInt64_of_ge {n : ℕ} (hge : 2 ^ 63 ≤ n) (hlt : n < 2 ^ 64) :
    toInt64 n = n - 2 ^ 64 := by
  have hneg := (toInt64_natCast_nonneg_iff hlt).not.mpr (by omega)
  have hwrapped := toInt64_emod n
  have hlow : -2 ^ 63 ≤ toInt64 n := le_toInt64 n
  omega

/-- A sum with a position of the file fits if the position does, or if it turns
negative. -/
theorem fitsInt64_add_iff {start pos : ℕ} (hstart : start < 2 ^ 31) (hpos : pos < 2 ^ 64) :
    FitsInt64 (start + toInt64 pos) ↔ (pos < 2 ^ 63 → start + pos < 2 ^ 63) := by
  rw [FitsInt64]
  rcases lt_or_ge pos (2 ^ 63) with hlt | hge
  · rw [toInt64_eq_self (by omega) (by omega)]
    omega
  · rw [toInt64_of_ge hge hpos]
    omega

theorem cuesOffset_eq_iff {start pos : ℕ} (hpos : pos < 2 ^ 64) :
    cuesOffset start pos = (start : ℤ) + pos ↔ start + pos < 2 ^ 63 := by
  rw [cuesOffset]
  constructor
  · intro h
    have hlt := toInt64_lt ((start : ℤ) + toInt64 pos)
    omega
  · intro h
    have hexact : toInt64 pos = pos := toInt64_eq_self (by omega) (by omega)
    rw [hexact, toInt64_eq_self (by omega) (by omega)]

theorem fits_of_mem_filePoints {videoTrackNumber : ℤ} {cues : List UInt8} {p : FilePoint}
    (hp : p ∈ filePoints videoTrackNumber cues) :
    (∀ pos ∈ p.cluster, pos < 2 ^ 64) ∧ ∀ pos ∈ p.relative, pos < 2 ^ 64 := by
  obtain ⟨e, -, hpoint⟩ := List.mem_filterMap.mp hp
  rw [filePoint?] at hpoint
  split at hpoint
  · obtain ⟨-, hsome⟩ := Option.ite_none_right_eq_some.mp hpoint
    cases hsome
    exact ⟨fun pos hpos ↦ lastUint_lt hpos, fun pos hpos ↦ lastUint_lt hpos⟩
  · cases hpoint

theorem parseCuesData_eq_map {cues : List UInt8} (hlen : cues.length < 2 ^ 31)
    (timestampScale videoTrackNumber segmentDataStart : ℤ) :
    parseCuesData cues timestampScale videoTrackNumber segmentDataStart =
      .ok ((filePoints videoTrackNumber cues).map
        (FilePoint.entry timestampScale videoTrackNumber segmentDataStart)) := by
  rw [parseCuesData_eq hlen, filePoints]
  cases cuesChildren cues with
  | none => rfl
  | some es =>
      rw [Option.map_some, Option.getD_some, Option.getD_some, cuesOf, List.map_filterMap]
      simp only [cueEntry_cuePointOf]

theorem clusterPos_entry_iff {p : FilePoint} (hcluster : ∀ pos ∈ p.cluster, pos < 2 ^ 64)
    {start : ℕ} (hstart : start < 2 ^ 31) (timestampScale videoTrackNumber : ℤ) :
    ((0 ≤ p.clusterPos → FitsInt64 (start + p.clusterPos)) ∧
        (p.entry timestampScale videoTrackNumber start).clusterPos =
          clusterAt start p.cluster) ↔
      ∀ pos ∈ p.cluster, pos < 2 ^ 63 → start + pos < 2 ^ 63 := by
  have hstart' : (0 : ℤ) ≤ start := Int.natCast_nonneg start
  rw [FilePoint.entry, FilePoint.clusterPos]
  cases hpos : p.cluster with
  | none => simp [clusterAt]
  | some pos =>
      have hlt := hcluster pos hpos
      rw [Option.map_some, Option.getD_some, clusterAt]
      simp only [Option.mem_some_iff, forall_eq', fitsInt64_add_iff hstart hlt,
        toInt64_natCast_nonneg_iff hlt]
      rcases lt_or_ge pos (2 ^ 63) with hfits | hge
      · have hexact : toInt64 pos = pos := toInt64_eq_self (by omega) (by omega)
        constructor
        · exact fun h ↦ h.1 hfits
        · intro h
          refine ⟨fun _ ↦ h, ?_⟩
          rw [if_pos ⟨hfits, hstart'⟩, hexact, toInt64_eq_self (by omega) (by omega),
            if_pos (by omega)]
      · rw [if_neg fun h ↦ absurd h.1 (by omega), if_neg (by omega)]
        simp

theorem timeMs_entry_iff (p : FilePoint) (scale : ℕ) (videoTrackNumber segmentDataStart : ℤ) :
    (FitsInt64 (p.time * toInt64 scale) ∧
        (p.entry (toInt64 scale) videoTrackNumber segmentDataStart).timeMs =
          p.time * scale / 1000000) ↔ p.time * scale < 2 ^ 63 := by
  have hexact := tdiv_toInt64_eq_iff (p.time * scale)
  rw [Nat.cast_mul] at hexact
  rw [FilePoint.entry, toInt64_mul, hexact]
  exact ⟨And.right, fun h ↦ ⟨fitsInt64_mul h, h⟩⟩

theorem relativePos_eq_iff {p : FilePoint} (hrelative : ∀ pos ∈ p.relative, pos < 2 ^ 64) :
    p.relativePos = relativeAt p.relative ↔
      ∀ pos ∈ p.relative, pos < 2 ^ 63 ∨ pos = 2 ^ 64 - 1 := by
  rw [FilePoint.relativePos]
  cases hpos : p.relative with
  | none => simp [relativeAt]
  | some pos =>
      have hlt := hrelative pos hpos
      simp only [Option.map_some, Option.getD_some, relativeAt, Option.mem_some_iff, forall_eq']
      rcases lt_or_ge pos (2 ^ 63) with hfits | hge
      · rw [toInt64_eq_self (by omega) (by omega), if_pos hfits]
        exact iff_of_true rfl (.inl hfits)
      · rw [toInt64_of_ge hge hlt, if_neg (by omega)]
        omega

theorem toInt64_eq_iff {n : ℕ} (hn : n < 2 ^ 64) : toInt64 n = n ↔ n < 2 ^ 63 := by
  constructor
  · intro h
    refine (toInt64_natCast_nonneg_iff hn).mp ?_
    rw [h]
    exact Int.natCast_nonneg n
  · intro h
    exact toInt64_eq_self (by omega) (by omega)

/-! ## What the header parsers return -/

theorem segmentStart_lt {header : List UInt8} (hlen : header.length < 2 ^ 31) :
    segmentStart header < 2 ^ 31 := by
  rw [segmentStart]
  cases hstart : segmentData header with
  | none => norm_num
  | some start => exact (segmentData_le hstart).trans_lt hlen

theorem lt_of_mem_fileSeekPositions {header : List UInt8} {seekPos : ℕ}
    (h : seekPos ∈ fileSeekPositions header) : seekPos < 2 ^ 64 := by
  rw [fileSeekPositions] at h
  cases hstart : segmentData header with
  | none => simp [hstart] at h
  | some start =>
      rw [hstart, Option.map_some, Option.getD_some, seekPositions] at h
      obtain ⟨e, -, hpos⟩ := List.mem_filterMap.mp h
      exact lastUint_lt (Option.ite_none_right_eq_some.mp hpos).2

theorem fileTimestampScale_lt (header : List UInt8) : fileTimestampScale header < 2 ^ 64 := by
  rw [fileTimestampScale]
  cases hlast : ((segmentData header).bind fun start ↦
      (timestampScales (elements (header.drop start))).getLast?) with
  | none => norm_num
  | some e => exact Element.uint_lt e

theorem timestampScale_eq {header : List UInt8} (hlen : header.length < 2 ^ 31)
    {info : SegmentInfo} (hinfo : parseSegmentInfo header = .ok info) :
    info.timestampScale = toInt64 (fileTimestampScale header) := by
  rw [parseSegmentInfo_eq hlen] at hinfo
  split at hinfo
  · cases hinfo
  · rw [← Except.ok.inj hinfo, fileTimestampScale]
    cases segmentData header with
    | none => rfl
    | some start =>
        rw [Option.map_some, Option.getD_some, Option.bind_some, segmentInfoOf]
        cases (timestampScales (elements (header.drop start))).getLast? <;> rfl

theorem fitsInt64_cuesSize (bytes : List UInt8) : FitsInt64 (cuesSize bytes) := by
  have hzero : FitsInt64 0 := by norm_num [FitsInt64]
  rw [cuesSize]
  cases hid : readId bytes with
  | none => exact hzero
  | some idp =>
      obtain ⟨idWidth, id⟩ := idp
      obtain ⟨-, hidWidth, -⟩ := readId_eq_some hid
      dsimp only
      split
      · cases hsize : readSize (bytes.drop idWidth) with
        | none => exact hzero
        | some sizep =>
            obtain ⟨sizeWidth, size⟩ := sizep
            obtain ⟨-, hsizeWidth, -, hlt⟩ := readSize_eq_some hsize
            dsimp only
            split
            · rw [FitsInt64]
              omega
            · exact hzero
      · exact hzero

theorem fitsInt64_of_readCuesSize {header : List UInt8} (hlen : header.length < 2 ^ 31)
    {absOffset cuesSz : ℤ} (h : readCuesSize header absOffset = .ok cuesSz) :
    FitsInt64 cuesSz := by
  rw [readCuesSize_eq hlen] at h
  split at h
  · cases h
  · split at h
    · rw [← Except.ok.inj h]
      exact fitsInt64_cuesSize _
    · rw [← Except.ok.inj h]
      norm_num [FitsInt64]

/-- The location comes from the last Seek entry for the Cues. -/
theorem parseCuesLocation_eq_some {header : List UInt8} (hlen : header.length < 2 ^ 31)
    {loc : CuesLocation} (hloc : parseCuesLocation header = .ok (some loc)) :
    loc.segmentDataStart = segmentStart header ∧ FitsInt64 loc.size ∧
      ∃ seekPos, (fileSeekPositions header).getLast? = some seekPos ∧
        loc.offset = cuesOffset (segmentStart header) seekPos := by
  rw [parseCuesLocation_eq hlen] at hloc
  split at hloc
  · cases hloc
  · rw [fileSeekPositions, segmentStart]
    cases hstart : segmentData header with
    | none =>
        rw [hstart] at hloc
        cases hloc
    | some start =>
        rw [hstart] at hloc
        dsimp only at hloc
        have hinside := (foldlM_staysInside_iff _ _ _).mp ⟨_, hloc⟩
        rw [foldlM_eq_getLast? _ _ hinside] at hloc
        rw [Option.map_some, Option.getD_some, Option.getD_some]
        cases hlast : (seekPositions (elements (header.drop start))).getLast? with
        | none =>
            rw [hlast] at hloc
            cases hloc
        | some seekPos =>
            rw [hlast, Option.map_some, Option.getD_some, locateCues] at hloc
            cases hsize : readCuesSize header (cuesOffset start seekPos) with
            | error fault =>
                rw [hsize] at hloc
                cases hloc
            | ok cuesSz =>
                rw [hsize, ok_bind] at hloc
                cases hloc
                exact ⟨rfl, fitsInt64_of_readCuesSize hlen hsize, seekPos, rfl, rfl⟩

theorem fitsInt64_headerEnd {header : List UInt8} (hlen : header.length < 2 ^ 31) :
    ∀ e ∈ elements header, FitsInt64 ((e.offset : ℤ) + e.size) := by
  intro e he
  obtain ⟨pre, post, hbuf, hoff, -, hsize⟩ := payload_of_mem_elementsFrom he
  have hpre : pre.length ≤ header.length := by
    rw [hbuf, List.append_assoc, List.length_append]
    exact Nat.le_add_right _ _
  rw [FitsInt64]
  omega

theorem toInt_childUint (id : ℕ) (es : List Element) :
    toInt (childUint id es) = ((lastUint id es).map fun v : ℕ ↦ toInt v).getD 0 := by
  rw [childUint]
  cases lastUint id es <;> rfl

theorem toInt_natCast_eq_iff {n : ℕ} : toInt n = n ↔ n < 2 ^ 31 := by
  constructor
  · intro h
    have hlt := toInt_lt n
    omega
  · exact toInt_natCast

theorem getLast?_filterMap_eq_bind {α β : Type} (f : α → Option β) (l : List α) :
    (l.filterMap f).getLast? = (l.filter fun a ↦ (f a).isSome).getLast?.bind f := by
  induction l using List.reverseRecOn with
  | nil => rfl
  | append_singleton l a ih =>
      rw [List.filterMap_append, List.filter_append, List.getLast?_append, List.getLast?_append, ih]
      cases ha : f a <;> simp [ha]

/-- The number of a track entry that counts is that of its TrackNumber element. -/
theorem videoTrackNumber?_eq_some {e : Element} {number : ℤ}
    (h : videoTrackNumber? e = some number) :
    toInt (childUint kEbmlIdTrackType (elements e.payload)) = 1 ∧
      toInt (childUint kEbmlIdTrackNumber (elements e.payload)) = number := by
  rw [videoTrackNumber?, ← toInt_childUint, ← toInt_childUint] at h
  obtain ⟨⟨htype, -⟩, hnumber⟩ := Option.ite_none_right_eq_some.mp h
  exact ⟨htype, Option.some.inj hnumber⟩

theorem videoTrackNumber_eq {header : List UInt8} (hlen : header.length < 2 ^ 31)
    {info : SegmentInfo} (hinfo : parseSegmentInfo header = .ok info) {es : List Element}
    (hentry : es ∈ videoTrackEntry header) :
    toInt (childUint kEbmlIdTrackType es) = 1 ∧
      info.videoTrackNumber = toInt (childUint kEbmlIdTrackNumber es) := by
  rw [parseSegmentInfo_eq hlen] at hinfo
  split at hinfo
  · cases hinfo
  · rw [← Except.ok.inj hinfo]
    obtain ⟨e, he, rfl⟩ := Option.map_eq_some_iff.mp hentry
    obtain ⟨start, hstart, hlast⟩ := Option.bind_eq_some_iff.mp he
    have hsome := (List.mem_filter.mp (List.mem_of_getLast? hlast)).2
    obtain ⟨number, hnumber⟩ := Option.isSome_iff_exists.mp hsome
    obtain ⟨htype, heq⟩ := videoTrackNumber?_eq_some hnumber
    refine ⟨htype, ?_⟩
    rw [hstart, Option.map_some, Option.getD_some, segmentInfoOf, videoTrackNumbers,
      getLast?_filterMap_eq_bind, hlast, Option.bind_some, hnumber, heq]
    rfl

/-- A cue point gives an entry where it gives a track. -/
theorem pointTrack?_toInt (videoTrackNumber : ℤ) (es : List Element) :
    (pointTrack? videoTrackNumber es).map (fun track : ℕ ↦ toInt track) =
      (filePoint? videoTrackNumber es).map fun _ ↦ videoTrackNumber := by
  rw [pointTrack?]
  cases hpoint : filePoint? videoTrackNumber es with
  | none => rfl
  | some p =>
      cases hchildren : matchingChildren videoTrackNumber es with
      | none =>
          rw [filePoint?, hchildren] at hpoint
          split at hpoint <;> simp_all
      | some ps =>
          have htrack : (trackPositionsOf ps).track = videoTrackNumber := by
            have hmem := List.mem_of_getLast? hchildren
            simpa using (List.mem_filter.mp hmem).2
          exact congrArg some ((toInt_childUint kEbmlIdCueTrack ps).trans htrack)

theorem map_trackNumber_eq {cues : List UInt8} (hlen : cues.length < 2 ^ 31)
    {timestampScale videoTrackNumber segmentDataStart : ℤ} {entries : List CueEntry}
    (hentries : parseCuesData cues timestampScale videoTrackNumber segmentDataStart =
      .ok entries) :
    entries.map CueEntry.trackNumber =
      (cueTracks videoTrackNumber cues).map fun track : ℕ ↦ toInt track := by
  rw [parseCuesData_eq_map hlen] at hentries
  rw [← Except.ok.inj hentries, List.map_map, filePoints, cueTracks, List.map_filterMap,
    List.map_filterMap]
  simp only [pointTrack?_toInt]
  rfl

theorem exactTracks_iff {header cues : List UInt8} (hheader : header.length < 2 ^ 31)
    (hcues : cues.length < 2 ^ 31) {info : SegmentInfo}
    (hinfo : parseSegmentInfo header = .ok info) {timestampScale videoTrackNumber start : ℤ}
    {entries : List CueEntry}
    (hentries : parseCuesData cues timestampScale videoTrackNumber start = .ok entries) :
    ExactTracks header cues videoTrackNumber info entries ↔
      TracksFit header cues videoTrackNumber := by
  have hentry := fun es (hes : es ∈ videoTrackEntry header) ↦
    videoTrackNumber_eq hheader hinfo hes
  have htracks := map_trackNumber_eq hcues hentries
  have hcue : entries.map CueEntry.trackNumber =
      (cueTracks videoTrackNumber cues).map (fun track : ℕ ↦ (track : ℤ)) ↔
        ∀ track ∈ cueTracks videoTrackNumber cues, track < 2 ^ 31 := by
    rw [htracks, List.map_inj_left]
    exact forall₂_congr fun track _ ↦ toInt_natCast_eq_iff
  constructor
  · intro h
    refine ⟨fun es hes ↦ ?_, fun es hes ↦ ?_, hcue.mp h.cueTracks⟩
    · rw [h.type es hes]
      norm_num
    · exact toInt_natCast_eq_iff.mp ((hentry es hes).2.symm.trans (h.number es hes))
  · intro h
    refine ⟨fun es hes ↦ ?_, fun es hes ↦ ?_, hcue.mpr h.cueTracks⟩
    · obtain ⟨htype, -⟩ := hentry es hes
      rw [toInt_natCast (h.type es hes)] at htype
      exact_mod_cast htype
    · rw [(hentry es hes).2, toInt_natCast (h.number es hes)]

theorem exactArithmetic_iff_valuesFit {header cues : List UInt8} (hheader : header.length < 2 ^ 31)
    (hcues : cues.length < 2 ^ 31) {info : SegmentInfo} {loc : CuesLocation}
    (hinfo : parseSegmentInfo header = .ok info)
    (hloc : parseCuesLocation header = .ok (some loc)) {videoTrackNumber : ℤ}
    {entries : List CueEntry}
    (hentries : parseCuesData cues info.timestampScale videoTrackNumber loc.segmentDataStart =
      .ok entries) :
    ExactArithmetic header cues videoTrackNumber info loc entries ↔
      ValuesFit header cues videoTrackNumber := by
  obtain ⟨hstart, hsize, last, hlast, hoffset⟩ := parseCuesLocation_eq_some hheader hloc
  have hscale := timestampScale_eq hheader hinfo
  rw [parseCuesData_eq_map hcues] at hentries
  obtain rfl := Except.ok.inj hentries
  have hstartLt := segmentStart_lt hheader
  have hlastLt := lt_of_mem_fileSeekPositions (List.mem_of_getLast? hlast)
  constructor
  · intro h
    have hpoints := h.points
    rw [List.forall₂_map_right_iff, List.forall₂_same] at hpoints
    refine ⟨?_, ?_, ?_, ?_, ?_, ?_⟩
    · exact (toInt64_eq_iff (fileTimestampScale_lt header)).mp
        (hscale.symm.trans h.timestampScale)
    · intro p hp
      have hproduct := h.products p hp
      have htime := (hpoints p hp).timeMs
      rw [hscale] at hproduct htime
      exact (timeMs_entry_iff p _ videoTrackNumber _).mp ⟨hproduct, htime⟩
    · intro p hp
      have hsum := h.clusterSums p hp
      have hcluster := (hpoints p hp).clusterPos
      rw [hstart] at hsum hcluster
      exact (clusterPos_entry_iff (fits_of_mem_filePoints hp).1 hstartLt _ _).mp
        ⟨hsum, hcluster⟩
    · intro p hp
      exact (relativePos_eq_iff (fits_of_mem_filePoints hp).2).mp (hpoints p hp).relativePos
    · intro seekPos hseek
      have hsum := h.seekSums seekPos hseek
      rw [hstart] at hsum
      exact (fitsInt64_add_iff hstartLt (lt_of_mem_fileSeekPositions hseek)).mp hsum
    · intro seekPos hseek
      obtain rfl : last = seekPos := Option.some.inj (hlast.symm.trans hseek)
      have hexact := h.offset last hseek
      rw [hstart, hoffset] at hexact
      exact (cuesOffset_eq_iff hlastLt).mp hexact
  · intro h
    have hlocation := (cuesOffset_eq_iff hlastLt).mpr (h.location last hlast)
    have htime := fun p hp ↦ (timeMs_entry_iff p _ videoTrackNumber loc.segmentDataStart).mpr
      (h.times p hp)
    have hcluster := fun p hp ↦ (clusterPos_entry_iff (fits_of_mem_filePoints hp).1 hstartLt
      info.timestampScale videoTrackNumber).mpr (h.clusters p hp)
    have hrelative := fun p hp ↦ (relativePos_eq_iff (fits_of_mem_filePoints hp).2).mpr
      (h.relatives p hp)
    rw [← hstart] at hcluster
    rw [← hscale] at htime
    refine ⟨fitsInt64_headerEnd hheader, ?_, hsize,
      hscale.trans ((toInt64_eq_iff (fileTimestampScale_lt header)).mpr h.scale),
      fun p hp ↦ ?_, fun p hp ↦ ?_, ?_, ?_, ?_, ?_⟩
    · intro seekPos hseek
      rw [hstart, fitsInt64_add_iff hstartLt (lt_of_mem_fileSeekPositions hseek)]
      exact h.seekPositions seekPos hseek
    · exact (htime p hp).1
    · exact (hcluster p hp).1
    · intro seekPos hseek
      obtain rfl : last = seekPos := Option.some.inj (hlast.symm.trans hseek)
      rw [hoffset, hstart, hlocation]
    · rw [hoffset, hlocation]
      positivity
    · rw [List.forall₂_map_right_iff, List.forall₂_same]
      exact fun p hp ↦ ⟨(htime p hp).2, rfl, (hcluster p hp).2, hrelative p hp⟩
    · intro entry hentry
      obtain ⟨p, hp, rfl⟩ := List.mem_map.mp hentry
      rw [(htime p hp).2]
      positivity

/-- The arithmetic on a file whose header parsers return is exact if and only if the
numbers of the file fit 64 bits, and the track numbers are exact if and only if those of
the file fit an `int`. -/
theorem exactArithmetic_iff {header cues : List UInt8} (hheader : header.length < 2 ^ 31)
    (hcues : cues.length < 2 ^ 31) {info : SegmentInfo} {loc : CuesLocation}
    (hinfo : parseSegmentInfo header = .ok info)
    (hloc : parseCuesLocation header = .ok (some loc)) {videoTrackNumber : ℤ}
    {entries : List CueEntry}
    (hentries : parseCuesData cues info.timestampScale videoTrackNumber loc.segmentDataStart =
      .ok entries) :
    (ExactArithmetic header cues videoTrackNumber info loc entries ↔
        ValuesFit header cues videoTrackNumber) ∧
      (ExactTracks header cues videoTrackNumber info entries ↔
        TracksFit header cues videoTrackNumber) :=
  ⟨exactArithmetic_iff_valuesFit hheader hcues hinfo hloc hentries,
    exactTracks_iff hheader hcues hinfo hentries⟩

/-- An EBML header, a Segment and a SeekHead with a Seek entry for the Cues, and the
first bytes of the Cues. -/
def seekHeader : List UInt8 :=
  [0x1A, 0x45, 0xDF, 0xA3, 0x80, 0x18, 0x53, 0x80, 0x67, 0xC1, 0x11, 0x4D, 0x9B, 0x74, 0x8E,
    0x4D, 0xBB, 0x8B, 0x53, 0xAB, 0x84, 0x1C, 0x53, 0xBB, 0x6B, 0x53, 0xAC, 0x81, 0x13,
    0x1C, 0x53, 0xBB, 0x6B]

/-- A cue point at the given time, with the cluster position 65. -/
def cuesAt (time : List UInt8) : List UInt8 :=
  [0x1C, 0x53, 0xBB, 0x6B, 0x94, 0xBB, 0x92, 0xB3, 0x88] ++ time ++
    [0xB7, 0x86, 0xF7, 0x81, 0x01, 0xF1, 0x81, 0x41]

theorem exactArithmetic_iff_five :
    (ExactArithmetic seekHeader (cuesAt [0, 0, 0, 0, 0, 0, 0, 5]) 1 ⟨1000000, 1⟩ ⟨29, 0, 10⟩
          [⟨5, 5, 1, 75, -1⟩] ↔
        ValuesFit seekHeader (cuesAt [0, 0, 0, 0, 0, 0, 0, 5]) 1) ∧
      (ExactTracks seekHeader (cuesAt [0, 0, 0, 0, 0, 0, 0, 5]) 1 ⟨1000000, 1⟩
          [⟨5, 5, 1, 75, -1⟩] ↔
        TracksFit seekHeader (cuesAt [0, 0, 0, 0, 0, 0, 0, 5]) 1) :=
  exactArithmetic_iff (by decide) (by decide) (by decide +kernel) (by decide +kernel)
    (by decide +kernel)

/-- The time `2^62` in milliseconds gives an entry at 0 ms. -/
theorem not_exactArithmetic :
    ¬ ∀ (header cues : List UInt8) (info : SegmentInfo) (loc : CuesLocation)
        (videoTrackNumber : ℤ) (entries : List CueEntry),
      header.length < 2 ^ 31 → cues.length < 2 ^ 31 → parseSegmentInfo header = .ok info →
        parseCuesLocation header = .ok (some loc) →
        parseCuesData cues info.timestampScale videoTrackNumber loc.segmentDataStart =
          .ok entries →
        ExactArithmetic header cues videoTrackNumber info loc entries := by
  intro h
  have hread : parseCuesData (cuesAt [0x40, 0, 0, 0, 0, 0, 0, 0]) 1000000 1 10 =
      .ok [⟨0, 2 ^ 62, 1, 75, -1⟩] := by
    decide +kernel
  have hexact := h seekHeader (cuesAt [0x40, 0, 0, 0, 0, 0, 0, 0]) ⟨1000000, 1⟩ ⟨29, 0, 10⟩ 1
    [⟨0, 2 ^ 62, 1, 75, -1⟩] (by decide) (by decide) (by decide +kernel) (by decide +kernel) hread
  rw [parseCuesData_eq_map (by decide)] at hread
  have hmem : (⟨0, 2 ^ 62, 1, 75, -1⟩ : CueEntry) ∈
      (filePoints 1 (cuesAt [0x40, 0, 0, 0, 0, 0, 0, 0])).map (FilePoint.entry 1000000 1 10) := by
    rw [Except.ok.inj hread]
    exact List.mem_singleton_self _
  obtain ⟨p, hp, hentry⟩ := List.mem_map.mp hmem
  have htime : (p.time : ℤ) = 2 ^ 62 := congrArg CueEntry.timestamp hentry
  have hproduct := (hexact.products p hp).2
  rw [htime] at hproduct
  norm_num at hproduct

end EbmlParser

end Fmp4Packager
