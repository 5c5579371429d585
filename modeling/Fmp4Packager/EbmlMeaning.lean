import Fmp4Packager.EbmlScan

/-!
# What the EBML parsers compute

The nested scans, read as functions of the elements they visit.  Where the
source overwrites a captured variable, the last matching element counts.
-/

namespace Fmp4Packager

open Ebml

namespace EbmlParser

theorem childAt_id (p childBaseOffset : ℤ) (e : Element) :
    (childAt p childBaseOffset e).id = e.id := rfl

theorem ebmlReadUint_childAt {buf : List UInt8} {p childBaseOffset : ℤ} {e : Element}
    (h : PointsTo buf (p + e.offset) e.payload) :
    ebmlReadUint buf (childAt p childBaseOffset e).data
      (childAt p childBaseOffset e).avail = .ok e.uint :=
  ebmlReadUint_of_pointsTo h

def trackPositionsOf (es : List Element) : TrackPositions where
  track := ((lastUint kEbmlIdCueTrack es).map fun v : ℕ ↦ toInt v).getD 0
  clusterPos := ((lastUint kEbmlIdCueClusterPos es).map fun v : ℕ ↦ toInt64 v).getD (-1)
  relativePos := ((lastUint kEbmlIdCueRelativePos es).map fun v : ℕ ↦ toInt64 v).getD (-1)

theorem trackPositions_scan {buf : List UInt8} {p childBaseOffset : ℤ} {bytes : List UInt8}
    (h : PointsTo buf p bytes) (hlen : bytes.length < 2 ^ 31) :
    ebmlScanChildren buf p bytes.length childBaseOffset (trackPositionsVisitor buf) {} =
      .ok (trackPositionsOf (elements bytes)) := by
  apply ebmlScanChildren_eq_ok trackPositionsOf h hlen
  intro es e _ hpayload _
  simp only [trackPositionsVisitor, ebmlReadUint_childAt hpayload, ok_bind, trackPositionsOf,
    lastUint_append, lastUint_singleton, childAt_id]
  by_cases htrack : e.id = kEbmlIdCueTrack
  · simp [htrack, kEbmlIdCueTrack, kEbmlIdCueClusterPos, kEbmlIdCueRelativePos]
  by_cases hcluster : e.id = kEbmlIdCueClusterPos
  · simp [hcluster, kEbmlIdCueTrack, kEbmlIdCueClusterPos, kEbmlIdCueRelativePos]
  by_cases hrelative : e.id = kEbmlIdCueRelativePos
  · simp [hrelative, kEbmlIdCueTrack, kEbmlIdCueClusterPos, kEbmlIdCueRelativePos]
  · simp [htrack, hcluster, hrelative]

/-- The track positions of a cue point that count: the last ones for the
track. -/
def matchingPositions (videoTrackNumber : ℤ) (es : List Element) : Option TrackPositions :=
  (((childrenWith kEbmlIdCueTrackPos es).map fun e ↦ trackPositionsOf (elements e.payload)).filter
    fun t ↦ t.track = videoTrackNumber).getLast?

def cuePointOf (videoTrackNumber : ℤ) (es : List Element) : CuePointState :=
  let cueTime := ((lastUint kEbmlIdCueTime es).map fun v : ℕ ↦ toInt64 v).getD (-1)
  match matchingPositions videoTrackNumber es with
  | none => { cueTime }
  | some t =>
      { cueTime
        hasVideoTrack := true
        videoTrack := t.track
        videoClusterPos := t.clusterPos
        videoRelativePos := t.relativePos }

theorem matchingPositions_append (videoTrackNumber : ℤ) (es : List Element) (e : Element) :
    matchingPositions videoTrackNumber (es ++ [e]) =
      if e.id = kEbmlIdCueTrackPos ∧
          (trackPositionsOf (elements e.payload)).track = videoTrackNumber then
        some (trackPositionsOf (elements e.payload))
      else matchingPositions videoTrackNumber es := by
  simp only [matchingPositions, childrenWith_append, childrenWith_singleton, List.map_append,
    List.filter_append, List.getLast?_append]
  split_ifs with hid hboth hboth <;> simp_all

theorem cuePoint_scan {buf : List UInt8} {p childBaseOffset : ℤ} {bytes : List UInt8}
    (h : PointsTo buf p bytes) (hlen : bytes.length < 2 ^ 31) (videoTrackNumber : ℤ) :
    ebmlScanChildren buf p bytes.length childBaseOffset
        (cuePointVisitor buf videoTrackNumber) {} =
      .ok (cuePointOf videoTrackNumber (elements bytes)) := by
  refine ebmlScanChildren_eq_ok (cuePointOf videoTrackNumber) h hlen
    fun es e _ hpayload hpayloadLen ↦ ?_
  have hscan : ebmlScanChildren buf (childAt p childBaseOffset e).data
      (childAt p childBaseOffset e).avail 0 (trackPositionsVisitor buf) {} =
      .ok (trackPositionsOf (elements e.payload)) :=
    trackPositions_scan hpayload hpayloadLen
  simp only [cuePointVisitor, ebmlReadUint_childAt hpayload, ok_bind, childAt_id, hscan,
    cuePointOf, lastUint_append, lastUint_singleton, matchingPositions_append]
  by_cases htime : e.id = kEbmlIdCueTime
  · simp [htime, kEbmlIdCueTime, kEbmlIdCueTrackPos]
    split <;> rfl
  by_cases hpos : e.id = kEbmlIdCueTrackPos
  · by_cases htrack : (trackPositionsOf (elements e.payload)).track = videoTrackNumber
    · simp [hpos, htrack, kEbmlIdCueTime, kEbmlIdCueTrackPos]
      split <;> rfl
    · simp [hpos, htrack, kEbmlIdCueTime, kEbmlIdCueTrackPos]
  · simp [htime, hpos]

def cuesOf (timestampScale videoTrackNumber segmentDataStart : ℤ) (es : List Element) :
    List CueEntry :=
  (childrenWith kEbmlIdCuePoint es).filterMap fun e ↦
    cueEntry timestampScale segmentDataStart (cuePointOf videoTrackNumber (elements e.payload))

theorem cues_scan {buf : List UInt8} {p childBaseOffset : ℤ} {bytes : List UInt8}
    (h : PointsTo buf p bytes) (hlen : bytes.length < 2 ^ 31)
    (timestampScale videoTrackNumber segmentDataStart : ℤ) :
    ebmlScanChildren buf p bytes.length childBaseOffset
        (cuesVisitor buf timestampScale videoTrackNumber segmentDataStart) [] =
      .ok (cuesOf timestampScale videoTrackNumber segmentDataStart (elements bytes)) := by
  refine ebmlScanChildren_eq_ok (cuesOf timestampScale videoTrackNumber segmentDataStart) h
    hlen fun es e _ hpayload hpayloadLen ↦ ?_
  have hscan : ebmlScanChildren buf (childAt p childBaseOffset e).data
      (childAt p childBaseOffset e).avail 0 (cuePointVisitor buf videoTrackNumber) {} =
      .ok (cuePointOf videoTrackNumber (elements e.payload)) :=
    cuePoint_scan hpayload hpayloadLen videoTrackNumber
  simp only [cuesVisitor, childAt_id, hscan, ok_bind, cuesOf, childrenWith_append,
    childrenWith_singleton, List.filterMap_append]
  by_cases hid : e.id = kEbmlIdCuePoint
  · simp only [hid, ne_eq, not_true_eq_false, if_false, if_true, List.filterMap_cons,
      List.filterMap_nil]
    cases cueEntry timestampScale segmentDataStart
      (cuePointOf videoTrackNumber (elements e.payload)) <;> rfl
  · simp [hid]

/-- The children of the CueTrackPositions that count. -/
def matchingChildren (videoTrackNumber : ℤ) (es : List Element) : Option (List Element) :=
  (((childrenWith kEbmlIdCueTrackPos es).map fun e ↦ elements e.payload).filter
    fun ps ↦ (trackPositionsOf ps).track = videoTrackNumber).getLast?

theorem matchingPositions_eq (videoTrackNumber : ℤ) (es : List Element) :
    matchingPositions videoTrackNumber es =
      (matchingChildren videoTrackNumber es).map trackPositionsOf := by
  rw [matchingPositions, matchingChildren, ← List.getLast?_map]
  simp only [List.filter_map, List.map_map, Function.comp_def]

/-- The numbers that a cue point of the file gives for a track. -/
structure FilePoint where
  time : ℕ
  cluster : Option ℕ
  relative : Option ℕ
  deriving DecidableEq, Repr

/-- There are none without a time that fits an `int64_t` or without positions for the
track. -/
def filePoint? (videoTrackNumber : ℤ) (es : List Element) : Option FilePoint :=
  match lastUint kEbmlIdCueTime es, matchingChildren videoTrackNumber es with
  | some time, some ps =>
      if time < 2 ^ 63 then
        some ⟨time, lastUint kEbmlIdCueClusterPos ps, lastUint kEbmlIdCueRelativePos ps⟩
      else none
  | _, _ => none

namespace FilePoint

def clusterPos (p : FilePoint) : ℤ := (p.cluster.map fun v : ℕ ↦ toInt64 v).getD (-1)

def relativePos (p : FilePoint) : ℤ := (p.relative.map fun v : ℕ ↦ toInt64 v).getD (-1)

def entry (timestampScale videoTrackNumber segmentDataStart : ℤ) (p : FilePoint) : CueEntry where
  timeMs := (toInt64 (p.time * timestampScale)).tdiv 1000000
  timestamp := p.time
  trackNumber := videoTrackNumber
  clusterPos :=
    if 0 ≤ p.clusterPos ∧ 0 ≤ segmentDataStart then toInt64 (segmentDataStart + p.clusterPos)
    else -1
  relativePos := p.relativePos

theorem clusterPos_lt (p : FilePoint) : p.clusterPos < 2 ^ 63 := by
  rw [clusterPos]
  cases p.cluster with
  | none => norm_num
  | some v => exact toInt64_lt v

end FilePoint

theorem cueEntry_cuePointOf (timestampScale videoTrackNumber segmentDataStart : ℤ)
    (es : List Element) :
    cueEntry timestampScale segmentDataStart (cuePointOf videoTrackNumber es) =
      (filePoint? videoTrackNumber es).map
        (FilePoint.entry timestampScale videoTrackNumber segmentDataStart) := by
  rw [cuePointOf, matchingPositions_eq, filePoint?]
  cases htime : lastUint kEbmlIdCueTime es with
  | none => cases matchingChildren videoTrackNumber es <;> simp [cueEntry]
  | some time =>
      cases hchildren : matchingChildren videoTrackNumber es with
      | none => simp [cueEntry]
      | some ps =>
          have htrack : (trackPositionsOf ps).track = videoTrackNumber := by
            have hmem := List.mem_of_getLast? hchildren
            simpa using (List.mem_filter.mp hmem).2
          have hsign : 0 ≤ toInt64 time ↔ time < 2 ^ 63 :=
            toInt64_natCast_nonneg_iff (lastUint_lt htime)
          dsimp only [Option.map_some, Option.getD_some]
          by_cases hfits : time < 2 ^ 63
          · have hexact : toInt64 time = time := toInt64_eq_self (by omega) (by omega)
            have hnonneg : (0 : ℤ) ≤ time := Int.natCast_nonneg time
            rw [if_pos hfits, cueEntry, hexact, if_pos ⟨hnonneg, rfl⟩, htrack]
            rfl
          · rw [if_neg hfits, cueEntry, if_neg fun h ↦ hfits (hsign.mp h.1)]
            rfl

/-- The elements after the header of the Cues element a byte string begins
with. -/
def cuesChildren (bytes : List UInt8) : Option (List Element) :=
  if bytes.length < 4 then none
  else do
    let (idWidth, id) ← readId bytes
    if id ≠ kEbmlIdCues then none
    else
      let (sizeWidth, _) ← readSize (bytes.drop idWidth)
      some (elements (bytes.drop (idWidth + sizeWidth)))

/-- `parse_cues_data` never faults. -/
theorem parseCuesData_eq {buf : List UInt8} (hlen : buf.length < 2 ^ 31)
    (timestampScale videoTrackNumber segmentDataStart : ℤ) :
    parseCuesData buf timestampScale videoTrackNumber segmentDataStart =
      .ok (((cuesChildren buf).map
        (cuesOf timestampScale videoTrackNumber segmentDataStart)).getD []) := by
  have hbuf := pointsTo_self buf
  rw [parseCuesData, cuesChildren]
  by_cases hshort : buf.length < 4
  · rw [if_pos hshort, if_pos (by omega)]
    rfl
  rw [if_neg hshort, if_neg (by omega), ebmlReadId_of_pointsTo hbuf, ok_bind]
  cases hid : readId buf with
  | none => rfl
  | some idp =>
      obtain ⟨idWidth, id⟩ := idp
      obtain ⟨-, -, hidLen⟩ := readId_eq_some hid
      have hleftId : toInt ((buf.length : ℤ) - idWidth) = (buf.drop idWidth).length := by
        rw [toInt_sub hidLen hlen, List.length_drop]
      have hId : PointsTo buf idWidth (buf.drop idWidth) := by
        simpa using hbuf.drop hidLen
      by_cases hcues : id = kEbmlIdCues
      · simp only [hcues, ne_eq, not_true_eq_false, if_false, hleftId,
          ebmlReadSize_of_pointsTo hId, ok_bind, Option.bind_eq_bind, Option.bind_some]
        cases hsize : readSize (buf.drop idWidth) with
        | none => rfl
        | some sizep =>
            obtain ⟨sizeWidth, size⟩ := sizep
            obtain ⟨-, -, hsizeLen, -⟩ := readSize_eq_some hsize
            rw [List.length_drop] at hsizeLen
            have hpos : toInt ((idWidth : ℤ) + sizeWidth) = (idWidth + sizeWidth : ℕ) :=
              toInt_add (by omega)
            have hleft : toInt ((buf.length : ℤ) - (idWidth + sizeWidth : ℕ)) =
                (buf.drop (idWidth + sizeWidth)).length := by
              rw [toInt_sub (by omega) hlen, List.length_drop]
            have hdata : PointsTo buf (idWidth + sizeWidth : ℕ)
                (buf.drop (idWidth + sizeWidth)) := by
              simpa using hbuf.drop (n := idWidth + sizeWidth) (by omega)
            simp only [hpos, hleft, Option.bind_some, Option.map_some, Option.getD_some]
            exact cues_scan hdata (by rw [List.length_drop]; omega) _ _ _
      · simp [hcues]

/-! ## Segment information -/

/-- The number of a track entry that is a video track. -/
def videoTrackNumber? (e : Element) : Option ℤ :=
  let children := elements e.payload
  let trackNum := ((lastUint kEbmlIdTrackNumber children).map fun v : ℕ ↦ toInt v).getD 0
  let trackType := ((lastUint kEbmlIdTrackType children).map fun v : ℕ ↦ toInt v).getD 0
  if trackType = 1 ∧ 0 < trackNum then some trackNum else none

def timestampScales (es : List Element) : List Element :=
  (childrenWith kEbmlIdInfo es).flatMap fun e ↦
    childrenWith kEbmlIdTimestampScale (elements e.payload)

/-- The numbers of all video tracks listed in the Tracks elements among `es`. -/
def videoTrackNumbers (es : List Element) : List ℤ :=
  ((childrenWith kEbmlIdTracks es).flatMap fun e ↦
    childrenWith kEbmlIdTrackEntry (elements e.payload)).filterMap videoTrackNumber?

def segmentInfoOf (es : List Element) : SegmentInfo where
  timestampScale :=
    ((timestampScales es).getLast?.map fun e : Element ↦ toInt64 e.uint).getD 1000000
  videoTrackNumber := (videoTrackNumbers es).getLast?.getD 1

theorem info_scan {buf : List UInt8} {p childBaseOffset : ℤ} {bytes : List UInt8}
    (h : PointsTo buf p bytes) (hlen : bytes.length < 2 ^ 31) (info : SegmentInfo) :
    ebmlScanChildren buf p bytes.length childBaseOffset (infoVisitor buf) info =
      .ok { info with
        timestampScale := (((childrenWith kEbmlIdTimestampScale (elements bytes)).getLast?).map
          fun e : Element ↦ toInt64 e.uint).getD info.timestampScale } := by
  refine ebmlScanChildren_eq_ok (fun es ↦ { info with
    timestampScale := (((childrenWith kEbmlIdTimestampScale es).getLast?).map
      fun e : Element ↦ toInt64 e.uint).getD info.timestampScale }) h hlen ?_
  intro es e _ hpayload _
  simp only [infoVisitor, ebmlReadUint_childAt hpayload, ok_bind, childAt_id,
    childrenWith_append, childrenWith_singleton, List.getLast?_append]
  split_ifs <;> simp

theorem trackEntry_scan {buf : List UInt8} {p childBaseOffset : ℤ} {bytes : List UInt8}
    (h : PointsTo buf p bytes) (hlen : bytes.length < 2 ^ 31) :
    ebmlScanChildren buf p bytes.length childBaseOffset (trackEntryVisitor buf) (0, 0) =
      .ok (((lastUint kEbmlIdTrackNumber (elements bytes)).map fun v : ℕ ↦ toInt v).getD 0,
        ((lastUint kEbmlIdTrackType (elements bytes)).map fun v : ℕ ↦ toInt v).getD 0) := by
  refine ebmlScanChildren_eq_ok (fun es ↦
    (((lastUint kEbmlIdTrackNumber es).map fun v : ℕ ↦ toInt v).getD 0,
      ((lastUint kEbmlIdTrackType es).map fun v : ℕ ↦ toInt v).getD 0)) h hlen
    fun es e _ hpayload _ ↦ ?_
  simp only [trackEntryVisitor, ebmlReadUint_childAt hpayload, ok_bind, childAt_id,
    lastUint_append, lastUint_singleton]
  by_cases hnumber : e.id = kEbmlIdTrackNumber
  · simp [hnumber, kEbmlIdTrackNumber, kEbmlIdTrackType]
  by_cases htype : e.id = kEbmlIdTrackType
  · simp [htype, kEbmlIdTrackNumber, kEbmlIdTrackType]
  · simp [hnumber, htype]

theorem tracks_scan {buf : List UInt8} {p childBaseOffset : ℤ} {bytes : List UInt8}
    (h : PointsTo buf p bytes) (hlen : bytes.length < 2 ^ 31) (info : SegmentInfo) :
    ebmlScanChildren buf p bytes.length childBaseOffset (tracksVisitor buf) info =
      .ok { info with
        videoTrackNumber := (((childrenWith kEbmlIdTrackEntry (elements bytes)).filterMap
          videoTrackNumber?).getLast?).getD info.videoTrackNumber } := by
  refine ebmlScanChildren_eq_ok (fun es ↦ { info with
    videoTrackNumber := (((childrenWith kEbmlIdTrackEntry es).filterMap
      videoTrackNumber?).getLast?).getD info.videoTrackNumber }) h hlen
    fun es e _ hpayload hpayloadLen ↦ ?_
  have hscan : ebmlScanChildren buf (childAt p childBaseOffset e).data
      (childAt p childBaseOffset e).avail 0 (trackEntryVisitor buf) (0, 0) = _ :=
    trackEntry_scan hpayload hpayloadLen
  simp only [tracksVisitor, childAt_id, hscan, ok_bind, childrenWith_append,
    childrenWith_singleton, List.filterMap_append, List.getLast?_append]
  by_cases hid : e.id = kEbmlIdTrackEntry
  · simp only [hid, ne_eq, not_true_eq_false, if_false, if_true, List.filterMap_cons,
      List.filterMap_nil, videoTrackNumber?]
    split_ifs <;> simp
  · simp [hid]

theorem segmentInfo_scan {buf : List UInt8} {p childBaseOffset : ℤ} {bytes : List UInt8}
    (h : PointsTo buf p bytes) (hlen : bytes.length < 2 ^ 31) :
    ebmlScanChildren buf p bytes.length childBaseOffset (segmentInfoVisitor buf) {} =
      .ok (segmentInfoOf (elements bytes)) := by
  apply ebmlScanChildren_eq_ok segmentInfoOf h hlen
  intro es e _ hpayload hpayloadLen
  have hinfo : ebmlScanChildren buf (childAt p childBaseOffset e).data
      (childAt p childBaseOffset e).avail 0 (infoVisitor buf) (segmentInfoOf es) = _ :=
    info_scan hpayload hpayloadLen _
  have htracks : ebmlScanChildren buf (childAt p childBaseOffset e).data
      (childAt p childBaseOffset e).avail 0 (tracksVisitor buf) (segmentInfoOf es) = _ :=
    tracks_scan hpayload hpayloadLen _
  simp only [segmentInfoVisitor, childAt_id, hinfo, htracks]
  simp only [segmentInfoOf, timestampScales, videoTrackNumbers, childrenWith_append,
    childrenWith_singleton, List.flatMap_append, List.filterMap_append, List.getLast?_append]
  by_cases hid : e.id = kEbmlIdInfo
  · simp [hid, kEbmlIdInfo, kEbmlIdTracks, Option.map_or]
  by_cases hid' : e.id = kEbmlIdTracks
  · simp [hid', kEbmlIdInfo, kEbmlIdTracks]
  · simp [hid, hid']

/-! ## The location of the Cues -/

def seekOf (es : List Element) : SeekState where
  seekIdVal := (lastUint kEbmlIdSeekID es).getD 0
  seekPosVal := (lastUint kEbmlIdSeekPos es).getD (2 ^ 64 - 1)
  gotId := (lastUint kEbmlIdSeekID es).isSome
  gotPos := (lastUint kEbmlIdSeekPos es).isSome

theorem seek_scan {buf : List UInt8} {p childBaseOffset : ℤ} {bytes : List UInt8}
    (h : PointsTo buf p bytes) (hlen : bytes.length < 2 ^ 31) :
    ebmlScanChildren buf p bytes.length childBaseOffset (seekVisitor buf) {} =
      .ok (seekOf (elements bytes)) := by
  apply ebmlScanChildren_eq_ok seekOf h hlen
  intro es e _ hpayload _
  simp only [seekVisitor, ebmlReadUint_childAt hpayload, ok_bind, childAt_id, seekOf,
    lastUint_append, lastUint_singleton]
  by_cases hid : e.id = kEbmlIdSeekID
  · simp [hid, kEbmlIdSeekID, kEbmlIdSeekPos]
  by_cases hpos : e.id = kEbmlIdSeekPos
  · simp [hpos, kEbmlIdSeekID, kEbmlIdSeekPos]
  · simp [hid, hpos]

/-- The SeekPosition of a Seek entry for the Cues element. -/
def seekPosition? (e : Element) : Option ℕ :=
  if lastUint kEbmlIdSeekID (elements e.payload) = some kEbmlIdCues then
    lastUint kEbmlIdSeekPos (elements e.payload)
  else none

/-- The positions that the Seek entries for the Cues give, in order. -/
def seekPositions (es : List Element) : List ℕ :=
  ((childrenWith kEbmlIdSeekHead es).flatMap fun e ↦
    childrenWith kEbmlIdSeek (elements e.payload)).filterMap seekPosition?

def cuesOffset (segmentDataStart : ℤ) (seekPos : ℕ) : ℤ :=
  toInt64 (segmentDataStart + toInt64 seekPos)

def locateCues (buf : List UInt8) (segmentDataStart : ℤ) (seekPos : ℕ) :
    Except Fault (Option CuesLocation) := do
  let cuesSz ← readCuesSize buf (cuesOffset segmentDataStart seekPos)
  .ok (some ⟨cuesOffset segmentDataStart seekPos, cuesSz, segmentDataStart⟩)

theorem seekHead_scan {buf : List UInt8} {p childBaseOffset : ℤ} {bytes : List UInt8}
    (h : PointsTo buf p bytes) (hlen : bytes.length < 2 ^ 31) (segmentDataStart : ℤ)
    (result : Option CuesLocation) :
    ebmlScanChildren buf p bytes.length childBaseOffset
        (seekHeadVisitor buf segmentDataStart) result =
      ((childrenWith kEbmlIdSeek (elements bytes)).filterMap seekPosition?).foldlM
        (fun _ seekPos ↦ locateCues buf segmentDataStart seekPos) result := by
  rw [List.foldlM_filterMap, childrenWith, List.foldlM_filter]
  apply ebmlScanChildren_eq_foldlM h hlen
  intro result e _ hpayload hpayloadLen
  have hscan : ebmlScanChildren buf (childAt p childBaseOffset e).data
      (childAt p childBaseOffset e).avail (childAt p childBaseOffset e).offset
      (seekVisitor buf) {} = .ok (seekOf (elements e.payload)) :=
    seek_scan hpayload hpayloadLen
  simp only [seekHeadVisitor, childAt_id, hscan, ok_bind, seekOf, seekPosition?, locateCues,
    cuesOffset]
  by_cases hid : e.id = kEbmlIdSeek
  · cases hseekId : lastUint kEbmlIdSeekID (elements e.payload) with
    | none => simp [hid, pure, Except.pure]
    | some id =>
        cases hseekPos : lastUint kEbmlIdSeekPos (elements e.payload) with
        | none => simp [hid, pure, Except.pure]
        | some pos =>
            by_cases hcues : id = kEbmlIdCues
            · simp [hid, hcues]
            · simp [hid, hcues, pure, Except.pure]
  · simp [hid, pure, Except.pure]

theorem foldlM_flatMap {σ α β ε : Type} (f : σ → β → Except ε σ) (g : α → List β) (s : σ)
    (xs : List α) :
    (xs.flatMap g).foldlM f s = xs.foldlM (fun s x ↦ (g x).foldlM f s) s := by
  induction xs generalizing s with
  | nil => rfl
  | cons x xs ih =>
      rw [List.flatMap_cons, List.foldlM_append, List.foldlM_cons]
      exact bind_congr fun s ↦ ih s

theorem cuesLocation_scan {buf : List UInt8} {p childBaseOffset : ℤ} {bytes : List UInt8}
    (h : PointsTo buf p bytes) (hlen : bytes.length < 2 ^ 31) (segmentDataStart : ℤ) :
    ebmlScanChildren buf p bytes.length childBaseOffset
        (cuesLocationVisitor buf segmentDataStart) none =
      (seekPositions (elements bytes)).foldlM
        (fun _ seekPos ↦ locateCues buf segmentDataStart seekPos) none := by
  rw [seekPositions, List.filterMap_flatMap, foldlM_flatMap, childrenWith, List.foldlM_filter]
  apply ebmlScanChildren_eq_foldlM h hlen
  intro result e _ hpayload hpayloadLen
  have hscan : ebmlScanChildren buf (childAt p childBaseOffset e).data
      (childAt p childBaseOffset e).avail (childAt p childBaseOffset e).offset
      (seekHeadVisitor buf segmentDataStart) result = _ :=
    seekHead_scan hpayload hpayloadLen segmentDataStart result
  rw [cuesLocationVisitor, hscan, childAt_id]
  by_cases hid : e.id = kEbmlIdSeekHead
  · simp [hid]
  · simp [hid, pure, Except.pure]

end EbmlParser

end Fmp4Packager
