import Fmp4Packager.HeaderRoundTrip

/-!
# Cues that are cut off

The first bytes of a Cues element give the entries of the cue points that are whole,
and one for the cue point in which the cut falls if as much of it as is there shows a
time and positions of the track.  The scan does not tell a number that is cut off from
a shorter one.
-/

namespace Fmp4Packager

open BigEndian Ebml

namespace EbmlParser

/-- What the children of a cue point say about a track. -/
structure CueNumbers where
  time : ℕ
  clusterPos : Option ℤ
  relativePos : ℤ
  deriving DecidableEq

/-- A cluster position that is negative as a signed number counts as missing. -/
def cueNumbers (videoTrackNumber segmentDataStart : ℤ) (es : List Element) : Option CueNumbers :=
  (filePoint? videoTrackNumber es).map fun p ↦
    ⟨p.time, if 0 ≤ p.clusterPos ∧ 0 ≤ segmentDataStart then some p.clusterPos else none,
      p.relativePos⟩

/-- Of the children of a Cues element the first `n` bytes are there.  If the cut falls
into a cue point, what is there of it says nothing about the track, or the same as the
next cue point of the track, from this one on. -/
def CutAgrees (videoTrackNumber segmentDataStart : ℤ) : List Item → ℕ → Prop
  | [], _ => True
  | item :: items, n =>
      if item.encode.length ≤ n then
        CutAgrees videoTrackNumber segmentDataStart items (n - item.encode.length)
      else
        item.id.value = kEbmlIdCuePoint →
          ∀ shown ∈ cueNumbers videoTrackNumber segmentDataStart (elements
              (item.payload.take (n - (item.id.width + item.sizeWidth.width)))),
            ((payloadsWith kEbmlIdCuePoint (item :: items)).filterMap fun payload ↦
              cueNumbers videoTrackNumber segmentDataStart (elements payload)).head? = some shown

/-- The entries read from the first `k` bytes are the first of those read from all. -/
def InventsNoEntry (timestampScale videoTrackNumber segmentDataStart : ℤ) (bytes : List UInt8)
    (k : ℕ) : Prop :=
  ∃ part whole,
    parseCuesData (bytes.take k) timestampScale videoTrackNumber segmentDataStart = .ok part ∧
      parseCuesData bytes timestampScale videoTrackNumber segmentDataStart = .ok whole ∧
        part <+: whole

variable {timestampScale videoTrackNumber segmentDataStart : ℤ}

def CueNumbers.entry (timestampScale videoTrackNumber segmentDataStart : ℤ) (n : CueNumbers) :
    CueEntry where
  timeMs := (toInt64 (n.time * timestampScale)).tdiv 1000000
  timestamp := n.time
  trackNumber := videoTrackNumber
  clusterPos := (n.clusterPos.map fun pos ↦ toInt64 (segmentDataStart + pos)).getD (-1)
  relativePos := n.relativePos

theorem cueEntry_eq_map_entry (timestampScale : ℤ) (es : List Element) :
    cueEntry timestampScale segmentDataStart (cuePointOf videoTrackNumber es) =
      (cueNumbers videoTrackNumber segmentDataStart es).map
        (CueNumbers.entry timestampScale videoTrackNumber segmentDataStart) := by
  rw [cueEntry_cuePointOf, cueNumbers, Option.map_map]
  congr 1
  funext p
  rw [FilePoint.entry, Function.comp_apply, CueNumbers.entry]
  split <;> rfl

theorem clusterPos_of_cueNumbers {es : List Element} {n : CueNumbers} {pos : ℤ}
    (h : cueNumbers videoTrackNumber segmentDataStart es = some n)
    (hpos : n.clusterPos = some pos) :
    (0 ≤ pos ∧ pos < 2 ^ 63) ∧ 0 ≤ segmentDataStart := by
  obtain ⟨p, -, rfl⟩ := Option.map_eq_some_iff.mp h
  obtain ⟨⟨hnonneg, hstart⟩, hsome⟩ := Option.ite_none_right_eq_some.mp hpos
  cases hsome
  exact ⟨⟨hnonneg, p.clusterPos_lt⟩, hstart⟩

theorem entry_injective (hstart : segmentDataStart < 2 ^ 63) {es es' : List Element}
    {n n' : CueNumbers} (hn : cueNumbers videoTrackNumber segmentDataStart es = some n)
    (hn' : cueNumbers videoTrackNumber segmentDataStart es' = some n')
    (hentry : n.entry timestampScale videoTrackNumber segmentDataStart =
      n'.entry timestampScale videoTrackNumber segmentDataStart) : n = n' := by
  have hwrap : ∀ pos, 0 ≤ pos → pos < 2 ^ 63 → 0 ≤ segmentDataStart →
      toInt64 (segmentDataStart + pos) % 2 ^ 64 = segmentDataStart + pos := by
    intro pos hnonneg hlt hstart'
    rw [toInt64_emod]
    omega
  obtain ⟨time, cluster, relative⟩ := n
  obtain ⟨time', cluster', relative'⟩ := n'
  simp only [CueNumbers.entry, CueEntry.mk.injEq, Nat.cast_inj] at hentry
  obtain ⟨-, rfl, -, hcluster, rfl⟩ := hentry
  cases hpos : cluster with
  | none =>
      cases hpos' : cluster' with
      | none => rfl
      | some pos' =>
          obtain ⟨⟨hnonneg', hlt'⟩, hstart'⟩ := clusterPos_of_cueNumbers hn' hpos'
          have hsum' := hwrap pos' hnonneg' hlt' hstart'
          rw [hpos, hpos', Option.map_none, Option.map_some, Option.getD_none,
            Option.getD_some] at hcluster
          rw [← hcluster] at hsum'
          omega
  | some pos =>
      obtain ⟨⟨hnonneg, hlt⟩, hstart'⟩ := clusterPos_of_cueNumbers hn hpos
      have hsum := hwrap pos hnonneg hlt hstart'
      cases hpos' : cluster' with
      | none =>
          rw [hpos, hpos', Option.map_none, Option.map_some, Option.getD_none,
            Option.getD_some] at hcluster
          rw [hcluster] at hsum
          omega
      | some pos' =>
          obtain ⟨⟨hnonneg', hlt'⟩, -⟩ := clusterPos_of_cueNumbers hn' hpos'
          have hsum' := hwrap pos' hnonneg' hlt' hstart'
          rw [hpos, hpos', Option.map_some, Option.map_some, Option.getD_some,
            Option.getD_some] at hcluster
          rw [hcluster, hsum'] at hsum
          have hsame : pos' = pos := by omega
          rw [hsame]

theorem cuesOf_eq_filterMap (es : List Element) :
    cuesOf timestampScale videoTrackNumber segmentDataStart es =
      ((childrenWith kEbmlIdCuePoint es).filterMap fun e ↦
        cueNumbers videoTrackNumber segmentDataStart (elements e.payload)).map
          (CueNumbers.entry timestampScale videoTrackNumber segmentDataStart) := by
  rw [cuesOf, List.map_filterMap]
  simp only [cueEntry_eq_map_entry]

theorem cuesOf_elements_nil :
    cuesOf timestampScale videoTrackNumber segmentDataStart (elements []) = [] := by
  rw [elements, elementsFrom_nil]
  rfl

/-- Cutting the bytes after the header of the Cues element cuts the payload. -/
theorem parseCuesData_take {items : List Item}
    {sizeWidth : SizeWidth (items.flatMap Item.encode).length}
    (hlen : (encodeElement cuesId (items.flatMap Item.encode) sizeWidth).length < 2 ^ 31)
    (timestampScale videoTrackNumber segmentDataStart : ℤ) (k : ℕ) :
    parseCuesData ((encodeElement cuesId (items.flatMap Item.encode) sizeWidth).take k)
        timestampScale videoTrackNumber segmentDataStart =
      .ok (cuesOf timestampScale videoTrackNumber segmentDataStart
        (elements ((items.flatMap Item.encode).take (k - (4 + sizeWidth.width))))) := by
  have hbegins := beginsWithHeader_encodeElement cuesId (items.flatMap Item.encode) sizeWidth []
  have hdrop := drop_encodeElement cuesId (items.flatMap Item.encode) sizeWidth []
  rw [List.append_nil] at hbegins hdrop
  rw [List.append_nil] at hdrop
  have hwidth : cuesId.width = 4 := rfl
  have hfull : 4 + sizeWidth.width ≤
      (encodeElement cuesId (items.flatMap Item.encode) sizeWidth).length := by
    rw [length_encodeElement, hwidth]
    omega
  generalize encodeElement cuesId (items.flatMap Item.encode) sizeWidth = bytes at *
  have hshort : (bytes.take k).length < 2 ^ 31 := by
    rw [List.length_take]
    omega
  rw [parseCuesData_eq hshort]
  congr 1
  rcases le_or_gt (4 + sizeWidth.width) k with hcut | hcut
  · have hthere : BeginsWithHeader cuesId sizeWidth.width (items.flatMap Item.encode).length
        (bytes.take k) := by
      refine ⟨hbegins.1, List.prefix_take_iff.mpr ⟨hbegins.2, ?_⟩⟩
      rwa [length_encodeHeader, hwidth]
    obtain ⟨hid, hsize⟩ := beginsWithHeader_iff.mp hthere
    rw [hwidth] at hid hsize hdrop
    have hchildren : cuesChildren (bytes.take k) =
        some (elements ((items.flatMap Item.encode).take (k - (4 + sizeWidth.width)))) := by
      rw [cuesChildren, if_neg (by rw [List.length_take]; omega), hid]
      simp only [Option.bind_eq_bind, Option.bind_some, hsize]
      have hvalue : cuesId.value = kEbmlIdCues := rfl
      rw [if_neg (not_not.mpr hvalue), List.drop_take, hdrop]
    rw [hchildren, Option.map_some, Option.getD_some]
  · have hnone : cuesChildren (bytes.take k) = none := by
      rw [cuesChildren]
      split
      · rfl
      · cases hid : readId (bytes.take k) with
        | none => rfl
        | some idp =>
            obtain ⟨hid', hsize'⟩ := beginsWithHeader_iff.mp hbegins
            have hsame := hid'.symm.trans (readVint_mono (List.take_prefix k bytes) hid)
            cases hsame
            cases hsize : readSize ((bytes.take k).drop 4) with
            | none => simp [hwidth, hsize]
            | some sizep =>
                obtain ⟨p, hvint, hp⟩ := Option.map_eq_some_iff.mp hsize
                rw [readSize, hwidth, readVint_mono ((List.take_prefix k bytes).drop 4) hvint,
                  Option.map_some, hp] at hsize'
                cases hsize'
                obtain ⟨-, -, hthere, -⟩ := readSize_eq_some hsize
                have hpos := sizeWidth.width_pos
                rw [List.length_drop, List.length_take] at hthere
                omega
    have hempty : k - (4 + sizeWidth.width) = 0 := by omega
    rw [hnone, hempty, List.take_zero, cuesOf_elements_nil]
    rfl

/-! ## What is there of the children -/

/-- The numbers of the cue points among the children. -/
def pointNumbers (videoTrackNumber segmentDataStart : ℤ) (es : List Element) : List CueNumbers :=
  (childrenWith kEbmlIdCuePoint es).filterMap fun e ↦
    cueNumbers videoTrackNumber segmentDataStart (elements e.payload)

theorem prefix_append_toList_iff {α : Type} (xs ys : List α) (x : Option α) :
    xs ++ x.toList <+: xs ++ ys ↔ ∀ y ∈ x, ys.head? = some y := by
  rw [List.prefix_append_right_inj]
  cases x with
  | none => simp
  | some x =>
      cases ys with
      | nil => simp
      | cons y ys => simp [eq_comm]

theorem pointNumbers_cons (e : Element) (es : List Element) :
    pointNumbers videoTrackNumber segmentDataStart (e :: es) =
      (if e.id = kEbmlIdCuePoint then
        (cueNumbers videoTrackNumber segmentDataStart (elements e.payload)).toList else []) ++
        pointNumbers videoTrackNumber segmentDataStart es := by
  by_cases hid : e.id = kEbmlIdCuePoint
  · rw [if_pos hid, pointNumbers, childrenWith, List.filter_cons_of_pos (by simpa using hid),
      List.filterMap_cons]
    cases cueNumbers videoTrackNumber segmentDataStart (elements e.payload) <;> rfl
  · rw [if_neg hid, pointNumbers, childrenWith, List.filter_cons_of_neg (by simpa using hid)]
    rfl

theorem pointNumbers_elementsFrom (videoTrackNumber segmentDataStart : ℤ) (items : List Item)
    (offset : ℕ) :
    pointNumbers videoTrackNumber segmentDataStart
        (elementsFrom offset (items.flatMap Item.encode)) =
      (payloadsWith kEbmlIdCuePoint items).filterMap fun payload ↦
        cueNumbers videoTrackNumber segmentDataStart (elements payload) := by
  have hmap := map_elementsFrom_append items [] offset
  rw [List.append_nil, elementsFrom_nil, List.map_nil, List.append_nil] at hmap
  have hpayloads := congrArg (fun ps : List (ℕ × List UInt8) ↦
    (ps.filter fun p ↦ p.1 = kEbmlIdCuePoint).map Prod.snd) hmap
  simp only [List.filter_map, List.map_map, Function.comp_def] at hpayloads
  rw [pointNumbers, childrenWith, payloadsWith, ← hpayloads, List.filterMap_map]
  rfl

theorem pointNumbers_take_prefix_iff (items : List Item) (offset n : ℕ) :
    pointNumbers videoTrackNumber segmentDataStart
          (elementsFrom offset ((items.flatMap Item.encode).take n)) <+:
        pointNumbers videoTrackNumber segmentDataStart
          (elementsFrom offset (items.flatMap Item.encode)) ↔
      CutAgrees videoTrackNumber segmentDataStart items n := by
  induction items generalizing offset n with
  | nil =>
      rw [CutAgrees, iff_true, List.flatMap_nil, List.take_nil]
  | cons item items ih =>
      have hall :=
        pointNumbers_elementsFrom videoTrackNumber segmentDataStart (item :: items) offset
      rw [CutAgrees]
      by_cases hwhole : item.encode.length ≤ n
      · rw [if_pos hwhole, List.flatMap_cons, elementsFrom_take_encode, if_pos hwhole,
          elementsFrom_encode, pointNumbers_cons, pointNumbers_cons, List.prefix_append_right_inj]
        exact ih _ _
      rw [if_neg hwhole, hall, List.flatMap_cons, elementsFrom_take_encode, if_neg hwhole]
      by_cases hcut : n ≤ item.id.width + item.sizeWidth.width
      · rw [if_pos hcut, Nat.sub_eq_zero_of_le hcut, List.take_zero, elements, elementsFrom_nil]
        simp [pointNumbers, childrenWith, cueNumbers, filePoint?, lastUint]
      · rw [if_neg hcut, pointNumbers_cons]
        by_cases hid : item.id.value = kEbmlIdCuePoint
        · have hlast := prefix_append_toList_iff [] ((payloadsWith kEbmlIdCuePoint
            (item :: items)).filterMap fun payload ↦
              cueNumbers videoTrackNumber segmentDataStart (elements payload))
            (cueNumbers videoTrackNumber segmentDataStart (elements
              (item.payload.take (n - (item.id.width + item.sizeWidth.width)))))
          simpa [hid, pointNumbers, childrenWith] using hlast
        · simp [hid, pointNumbers, childrenWith]

theorem map_prefix_map_iff {α β : Type} {f : α → β} {xs ys : List α}
    (hinj : ∀ x ∈ xs, ∀ y ∈ ys, f x = f y → x = y) : xs.map f <+: ys.map f ↔ xs <+: ys := by
  constructor
  · intro h
    induction xs generalizing ys with
    | nil => exact List.nil_prefix
    | cons x xs ih =>
        cases ys with
        | nil => simp at h
        | cons y ys =>
            rw [List.map_cons, List.map_cons, List.cons_prefix_cons] at h
            rw [List.cons_prefix_cons]
            refine ⟨hinj x List.mem_cons_self y List.mem_cons_self h.1, ih ?_ h.2⟩
            exact fun x' hx y' hy ↦
              hinj x' (List.mem_cons_of_mem x hx) y' (List.mem_cons_of_mem y hy)
  · exact fun h ↦ h.map f

/-- The first `k` bytes of a Cues element give an entry that the element does not give
exactly when they cut a cue point whose numbers then look like those of another. -/
theorem inventsNoEntry_iff (items : List Item)
    (sizeWidth : SizeWidth (items.flatMap Item.encode).length)
    (hlen : (encodeElement cuesId (items.flatMap Item.encode) sizeWidth).length < 2 ^ 31)
    (hstart : segmentDataStart < 2 ^ 63) (timestampScale : ℤ) (k : ℕ) :
    InventsNoEntry timestampScale videoTrackNumber segmentDataStart
        (encodeElement cuesId (items.flatMap Item.encode) sizeWidth) k ↔
      CutAgrees videoTrackNumber segmentDataStart items (k - (4 + sizeWidth.width)) := by
  have hpart := parseCuesData_take hlen timestampScale videoTrackNumber segmentDataStart
  have hwhole := hpart (encodeElement cuesId (items.flatMap Item.encode) sizeWidth).length
  have hpayload : (items.flatMap Item.encode).length ≤
      (encodeElement cuesId (items.flatMap Item.encode) sizeWidth).length -
        (4 + sizeWidth.width) := by
    have hwidth : cuesId.width = 4 := rfl
    rw [length_encodeElement, hwidth]
    omega
  rw [List.take_length, List.take_of_length_le hpayload] at hwhole
  rw [← pointNumbers_take_prefix_iff items 0, ← map_prefix_map_iff
    (f := CueNumbers.entry timestampScale videoTrackNumber segmentDataStart)]
  · rw [pointNumbers, pointNumbers, ← elements, ← elements, ← cuesOf_eq_filterMap,
      ← cuesOf_eq_filterMap, InventsNoEntry, hpart, hwhole]
    constructor
    · rintro ⟨part, whole, hp, hw, hsub⟩
      rwa [Except.ok.inj hp, Except.ok.inj hw]
    · exact fun hsub ↦ ⟨_, _, rfl, rfl, hsub⟩
  · intro n hn n' hn' hentry
    obtain ⟨e, -, hnumbers⟩ := List.mem_filterMap.mp hn
    obtain ⟨e', -, hnumbers'⟩ := List.mem_filterMap.mp hn'
    exact entry_injective hstart hnumbers hnumbers' hentry

def twoBytePositions : List Item :=
  [shortItem 1 kEbmlIdCueTrack (encode 1 1) (by decide) (by decide),
    shortItem 1 kEbmlIdCueClusterPos (encode 2 4096) (by decide) (by decide)]

def twoBytePoint : List Item :=
  [shortItem 1 kEbmlIdCueTime [5] (by decide) (by decide),
    shortItem 1 kEbmlIdCueTrackPos (twoBytePositions.flatMap Item.encode) (by decide) (by decide)]

/-- A cue point at 5 ms with the cluster position 4096. -/
def twoByteCluster : List Item :=
  [shortItem 1 kEbmlIdCuePoint (twoBytePoint.flatMap Item.encode) (by decide) (by decide)]

theorem inventsNoEntry_iff_twoByteCluster :
    InventsNoEntry 1000000 1 24
        (encodeElement cuesId (twoByteCluster.flatMap Item.encode) (.ofBounds 1 (by decide))) 12 ↔
      CutAgrees 1 24 twoByteCluster 7 :=
  inventsNoEntry_iff twoByteCluster (.ofBounds 1 (by decide)) (by decide) (by norm_num) 1000000 12

/-- Without its last byte the cluster position reads as 16. -/
theorem not_inventsNoEntry :
    ¬ ∀ (cues : List CuePoint) (bytes : List UInt8), EncodesCues cues bytes →
      bytes.length < 2 ^ 31 → ∀ (timestampScale videoTrackNumber segmentDataStart : ℤ) (k : ℕ),
        InventsNoEntry timestampScale videoTrackNumber segmentDataStart bytes k := by
  intro h
  have hpositions : EncodesPositions ⟨1, some 4096, none⟩
      (twoBytePositions.flatMap Item.encode) :=
    ⟨twoBytePositions, rfl, .cons ⟨by decide, by decide⟩ .nil,
      .cons ⟨by decide, by decide⟩ .nil, .nil⟩
  have hpoint : EncodesCuePoint ⟨5, [⟨1, some 4096, none⟩]⟩ (twoBytePoint.flatMap Item.encode) :=
    ⟨twoBytePoint, rfl, .cons ⟨by decide, by decide⟩ .nil, .cons hpositions .nil⟩
  have hencodes : EncodesCues [⟨5, [⟨1, some 4096, none⟩]⟩]
      (encodeElement cuesId (twoByteCluster.flatMap Item.encode) (.ofBounds 1 (by decide))) :=
    ⟨twoByteCluster, _, rfl, .cons hpoint .nil⟩
  obtain ⟨part, whole, hpart, hwhole, hsub⟩ := h _ _ hencodes (by decide) 1000000 1 24 18
  have hpart' : part = [⟨5, 5, 1, 40, -1⟩] := by
    have hread : parseCuesData ((encodeElement cuesId (twoByteCluster.flatMap Item.encode)
        (.ofBounds 1 (by decide))).take 18) 1000000 1 24 = .ok [⟨5, 5, 1, 40, -1⟩] := by
      decide +kernel
    exact Except.ok.inj (hpart.symm.trans hread)
  have hwhole' : whole = [⟨5, 5, 1, 4120, -1⟩] := by
    have hread : parseCuesData (encodeElement cuesId (twoByteCluster.flatMap Item.encode)
        (.ofBounds 1 (by decide))) 1000000 1 24 = .ok [⟨5, 5, 1, 4120, -1⟩] := by
      decide +kernel
    exact Except.ok.inj (hwhole.symm.trans hread)
  rw [hpart', hwhole'] at hsub
  exact absurd hsub (by decide)

end EbmlParser

end Fmp4Packager
