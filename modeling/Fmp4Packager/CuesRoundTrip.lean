import Fmp4Packager.EbmlMeaning

/-!
# Reading back an encoded Cues element

What a Cues element says, which byte strings encode it, and that
`parse_cues_data` recovers the entries of one track from each of them.
-/

namespace Fmp4Packager

open Ebml BigEndian

namespace EbmlParser

structure CueTrackPositions where
  track : ℕ
  clusterPosition : Option ℕ
  relativePosition : Option ℕ

structure CuePoint where
  time : ℕ
  positions : List CueTrackPositions

/-- The payload is `v` in at most eight bytes, leading zeros allowed. -/
def SpellsUint (v : ℕ) (payload : List UInt8) : Prop :=
  payload.length ≤ 8 ∧ decode payload = v

/-- The payload of a CueTrackPositions element: the three numbers in any order,
among any other elements. -/
def EncodesPositions (t : CueTrackPositions) (payload : List UInt8) : Prop :=
  ∃ items : List Item, payload = items.flatMap Item.encode ∧
    List.Forall₂ SpellsUint [t.track] (payloadsWith kEbmlIdCueTrack items) ∧
    List.Forall₂ SpellsUint t.clusterPosition.toList
      (payloadsWith kEbmlIdCueClusterPos items) ∧
    List.Forall₂ SpellsUint t.relativePosition.toList
      (payloadsWith kEbmlIdCueRelativePos items)

/-- The payload of a CuePoint element: the time and the track positions, among
any other elements. -/
def EncodesCuePoint (c : CuePoint) (payload : List UInt8) : Prop :=
  ∃ items : List Item, payload = items.flatMap Item.encode ∧
    List.Forall₂ SpellsUint [c.time] (payloadsWith kEbmlIdCueTime items) ∧
    List.Forall₂ EncodesPositions c.positions (payloadsWith kEbmlIdCueTrackPos items)

def cuesId : Id := ⟨4, kEbmlIdCues, by decide, by decide, by decide, by decide⟩

/-- A Cues element with the given cue points, among any other elements. -/
def EncodesCues (cues : List CuePoint) (bytes : List UInt8) : Prop :=
  ∃ (items : List Item) (sizeWidth : SizeWidth (items.flatMap Item.encode).length),
    bytes = encodeElement cuesId (items.flatMap Item.encode) sizeWidth ∧
      List.Forall₂ EncodesCuePoint cues (payloadsWith kEbmlIdCuePoint items)

/-- The entry of a cue point for a track, over unbounded integers: the last
positions given for the track count. -/
def expectedEntry (timestampScale videoTrackNumber segmentDataStart : ℤ) (c : CuePoint) :
    Option CueEntry :=
  (c.positions.filter fun t ↦ (t.track : ℤ) = videoTrackNumber).getLast?.map fun t ↦
    { timeMs := c.time * timestampScale / 1000000
      timestamp := c.time
      trackNumber := videoTrackNumber
      clusterPos := (t.clusterPosition.map fun pos : ℕ ↦ segmentDataStart + pos).getD (-1)
      relativePos := (t.relativePosition.map fun pos : ℕ ↦ (pos : ℤ)).getD (-1) }

/-- The numbers of the cue point for a track, and what is computed from them,
stay below `2^63`, and all track numbers below `2^31`. -/
structure CuePoint.Fits (timestampScale videoTrackNumber segmentDataStart : ℤ) (c : CuePoint) :
    Prop where
  time_lt : c.time < 2 ^ 63
  product_lt : c.time * timestampScale < 2 ^ 63
  track_lt : ∀ t ∈ c.positions, t.track < 2 ^ 31
  cluster_lt : ∀ t ∈ c.positions, t.track = videoTrackNumber →
    ∀ pos ∈ t.clusterPosition, segmentDataStart + pos < 2 ^ 63
  relative_lt : ∀ t ∈ c.positions, t.track = videoTrackNumber →
    ∀ pos ∈ t.relativePosition, pos < 2 ^ 63

theorem lastUint_flatMap_encode (id : ℕ) (items : List Item) :
    lastUint id (elements (items.flatMap Item.encode)) =
      (payloadsWith id items).getLast?.map fun payload ↦ decode (payload.take 8) := by
  rw [← map_payload_childrenWith, List.getLast?_map, Option.map_map, lastUint]
  rfl

theorem map_eq_map_of_forall₂ {α β γ : Type} {r : α → β → Prop} {f : α → γ} {g : β → γ}
    {xs : List α} {ys : List β} (h : List.Forall₂ r xs ys)
    (hfg : ∀ x ∈ xs, ∀ y, r x y → g y = f x) : ys.map g = xs.map f := by
  induction h with
  | nil => rfl
  | cons hhead _ ih =>
      rw [List.map_cons, List.map_cons, hfg _ List.mem_cons_self _ hhead,
        ih fun x hx ↦ hfg x (List.mem_cons_of_mem _ hx)]

theorem uint_of_spells {v : ℕ} {payload : List UInt8} (h : SpellsUint v payload) :
    decode (payload.take 8) = v := by
  rw [List.take_of_length_le h.1, h.2]

theorem lastUint_eq_getLast? {id : ℕ} {items : List Item} {vs : List ℕ}
    (h : List.Forall₂ SpellsUint vs (payloadsWith id items)) :
    lastUint id (elements (items.flatMap Item.encode)) = vs.getLast? := by
  have hvalues := map_eq_map_of_forall₂ h (f := fun v ↦ v) fun _ _ _ ↦ uint_of_spells
  rw [lastUint_flatMap_encode, ← List.getLast?_map, hvalues, List.map_id']

theorem lastUint_of_spells {id : ℕ} {items : List Item} {v : Option ℕ}
    (h : List.Forall₂ SpellsUint v.toList (payloadsWith id items)) :
    lastUint id (elements (items.flatMap Item.encode)) = v := by
  rw [lastUint_eq_getLast? h]
  cases v <;> rfl

/-- The locals of the CueTrackPositions scan after a whole element. -/
def CueTrackPositions.parsed (t : CueTrackPositions) : TrackPositions where
  track := toInt t.track
  clusterPos := (t.clusterPosition.map fun pos : ℕ ↦ toInt64 pos).getD (-1)
  relativePos := (t.relativePosition.map fun pos : ℕ ↦ toInt64 pos).getD (-1)

theorem trackPositionsOf_encodes {t : CueTrackPositions} {payload : List UInt8}
    (h : EncodesPositions t payload) : trackPositionsOf (elements payload) = t.parsed := by
  obtain ⟨items, rfl, htrack, hcluster, hrelative⟩ := h
  have htrack : List.Forall₂ SpellsUint (some t.track).toList _ := htrack
  rw [trackPositionsOf, lastUint_of_spells htrack, lastUint_of_spells hcluster,
    lastUint_of_spells hrelative]
  rfl

theorem matchingPositions_encodes {positions : List CueTrackPositions} {items : List Item}
    (h : List.Forall₂ EncodesPositions positions (payloadsWith kEbmlIdCueTrackPos items))
    (htrack : ∀ t ∈ positions, t.track < 2 ^ 31) (videoTrackNumber : ℤ) :
    matchingPositions videoTrackNumber (elements (items.flatMap Item.encode)) =
      (positions.filter fun t ↦ (t.track : ℤ) = videoTrackNumber).getLast?.map
        CueTrackPositions.parsed := by
  have hparsed := map_eq_map_of_forall₂ h (f := CueTrackPositions.parsed)
    (g := fun payload ↦ trackPositionsOf (elements payload)) fun _ _ _ ↦ trackPositionsOf_encodes
  have hfilter : (positions.map CueTrackPositions.parsed).filter
      (fun t ↦ t.track = videoTrackNumber) =
      (positions.filter fun t ↦ (t.track : ℤ) = videoTrackNumber).map
        CueTrackPositions.parsed := by
    rw [List.filter_map]
    congr 1
    apply List.filter_congr
    intro t ht
    simp only [Function.comp_apply, CueTrackPositions.parsed, toInt_natCast (htrack t ht)]
  rw [matchingPositions, ← List.getLast?_map, ← hfilter, ← hparsed,
    ← map_payload_childrenWith, List.map_map]
  rfl

theorem toInt64_getD_map {base : ℤ} {v : Option ℕ} (hv : ∀ pos ∈ v, pos < 2 ^ 63) :
    (v.map fun pos : ℕ ↦ toInt64 pos).getD base = (v.map fun pos : ℕ ↦ (pos : ℤ)).getD base := by
  cases v with
  | none => rfl
  | some pos =>
      have := hv pos rfl
      exact toInt64_eq_self (by omega) (by omega)

theorem cueEntry_encodes {c : CuePoint} {payload : List UInt8} (h : EncodesCuePoint c payload)
    {timestampScale videoTrackNumber segmentDataStart : ℤ} (hscale : 0 ≤ timestampScale)
    (hstart : 0 ≤ segmentDataStart)
    (hfits : c.Fits timestampScale videoTrackNumber segmentDataStart) :
    cueEntry timestampScale segmentDataStart
        (cuePointOf videoTrackNumber (elements payload)) =
      expectedEntry timestampScale videoTrackNumber segmentDataStart c := by
  obtain ⟨items, rfl, htime, hpositions⟩ := h
  have htime : List.Forall₂ SpellsUint (some c.time).toList _ := htime
  have htimeLt := hfits.time_lt
  have hcueTime : toInt64 c.time = c.time := toInt64_eq_self (by omega) (by omega)
  rw [cuePointOf, lastUint_of_spells htime, matchingPositions_encodes hpositions hfits.track_lt,
    expectedEntry]
  cases hlast : (c.positions.filter fun t ↦ (t.track : ℤ) = videoTrackNumber).getLast? with
  | none => simp [cueEntry]
  | some t =>
      have hmem := List.mem_of_getLast? hlast
      obtain ⟨hmem, htrack⟩ := List.mem_filter.mp hmem
      have htrackEq : (t.track : ℤ) = videoTrackNumber := by simpa using htrack
      have hproduct : toInt64 (c.time * timestampScale) = c.time * timestampScale := by
        apply toInt64_eq_self _ hfits.product_lt
        have : 0 ≤ (c.time : ℤ) * timestampScale := by positivity
        omega
      have hdiv : (c.time * timestampScale : ℤ).tdiv 1000000 =
          c.time * timestampScale / 1000000 :=
        Int.tdiv_eq_ediv_of_nonneg (by positivity)
      have hcluster : (if 0 ≤ t.parsed.clusterPos ∧ 0 ≤ segmentDataStart then
          toInt64 (segmentDataStart + t.parsed.clusterPos) else -1) =
          (t.clusterPosition.map fun pos : ℕ ↦ segmentDataStart + pos).getD (-1) := by
        cases hpos : t.clusterPosition with
        | none => simp [CueTrackPositions.parsed, hpos]
        | some pos =>
            have hlt := hfits.cluster_lt t hmem htrackEq pos hpos
            have hexact : toInt64 pos = pos := toInt64_eq_self (by omega) (by omega)
            have hsum : toInt64 (segmentDataStart + pos) = segmentDataStart + pos :=
              toInt64_eq_self (by omega) hlt
            simp [CueTrackPositions.parsed, hpos, hexact, hsum, hstart]
      have hrelative : t.parsed.relativePos =
          (t.relativePosition.map fun pos : ℕ ↦ (pos : ℤ)).getD (-1) :=
        toInt64_getD_map (hfits.relative_lt t hmem htrackEq)
      have htrackParsed : t.parsed.track = videoTrackNumber := by
        rw [CueTrackPositions.parsed, toInt_natCast (hfits.track_lt t hmem), htrackEq]
      simp only [Option.map_some, Option.getD_some, cueEntry, hcueTime, hproduct, hdiv, hcluster,
        hrelative, htrackParsed]
      simp

theorem cuesOf_encodes {cues : List CuePoint} {items : List Item}
    (h : List.Forall₂ EncodesCuePoint cues (payloadsWith kEbmlIdCuePoint items))
    {timestampScale videoTrackNumber segmentDataStart : ℤ} (hscale : 0 ≤ timestampScale)
    (hstart : 0 ≤ segmentDataStart)
    (hfits : ∀ c ∈ cues, c.Fits timestampScale videoTrackNumber segmentDataStart) :
    cuesOf timestampScale videoTrackNumber segmentDataStart
        (elements (items.flatMap Item.encode)) =
      cues.filterMap (expectedEntry timestampScale videoTrackNumber segmentDataStart) := by
  have hentries := map_eq_map_of_forall₂ h
    (f := expectedEntry timestampScale videoTrackNumber segmentDataStart)
    fun c hc payload hpayload ↦ cueEntry_encodes hpayload hscale hstart (hfits c hc)
  have hfound := congrArg (List.filterMap id) hentries
  rw [List.filterMap_map, List.filterMap_map] at hfound
  rw [← map_payload_childrenWith, List.filterMap_map] at hfound
  exact hfound

/-- `parse_cues_data` recovers the entries of one track from every encoding of
the cue points whose numbers fit. -/
theorem parseCuesData_encodes {cues : List CuePoint} {buf : List UInt8}
    (henc : EncodesCues cues buf) (hlen : buf.length < 2 ^ 31)
    {timestampScale segmentDataStart : ℤ} (videoTrackNumber : ℤ) (hscale : 0 ≤ timestampScale)
    (hstart : 0 ≤ segmentDataStart)
    (hfits : ∀ c ∈ cues, c.Fits timestampScale videoTrackNumber segmentDataStart) :
    parseCuesData buf timestampScale videoTrackNumber segmentDataStart =
      .ok (cues.filterMap
        (expectedEntry timestampScale videoTrackNumber segmentDataStart)) := by
  obtain ⟨items, sizeWidth, rfl, hcues⟩ := henc
  have hchildren : cuesChildren (encodeElement cuesId (items.flatMap Item.encode) sizeWidth) =
      some (elements (items.flatMap Item.encode)) := by
    have hid := readId_encodeElement cuesId (items.flatMap Item.encode) sizeWidth []
    have hsize := readSize_encodeElement cuesId (items.flatMap Item.encode) sizeWidth []
    have hdrop := drop_encodeElement cuesId (items.flatMap Item.encode) sizeWidth []
    simp only [List.append_nil] at hid hsize hdrop
    have hwidth : cuesId.width = 4 := rfl
    rw [cuesChildren, if_neg (by rw [length_encodeElement, hwidth]; omega), hid]
    simp only [Option.bind_eq_bind, Option.bind_some, hsize, hdrop]
    rfl
  rw [parseCuesData_eq hlen, hchildren, Option.map_some, Option.getD_some,
    cuesOf_encodes hcues hscale hstart hfits]

/-- Track `1` with a cluster at `100`. -/
def firstPositions : List Item :=
  [⟨⟨1, kEbmlIdCueTrack, by decide, by decide, by decide, by decide⟩, [1],
      ⟨1, by decide, by decide, by decide⟩, by decide⟩,
    ⟨⟨1, kEbmlIdCueClusterPos, by decide, by decide, by decide, by decide⟩, [100],
      ⟨1, by decide, by decide, by decide⟩, by decide⟩]

/-- Track `2` with the relative position `2^63`. -/
def secondPositions : List Item :=
  [⟨⟨1, kEbmlIdCueRelativePos, by decide, by decide, by decide, by decide⟩,
      [0x80, 0, 0, 0, 0, 0, 0, 0], ⟨1, by decide, by decide, by decide⟩, by decide⟩,
    ⟨⟨1, kEbmlIdCueTrack, by decide, by decide, by decide, by decide⟩, [2],
      ⟨1, by decide, by decide, by decide⟩, by decide⟩]

def cuePointItems : List Item :=
  [⟨⟨1, kEbmlIdCueTrackPos, by decide, by decide, by decide, by decide⟩,
      firstPositions.flatMap Item.encode, ⟨1, by decide, by decide, by decide⟩, by decide⟩,
    ⟨⟨1, kEbmlIdCueTime, by decide, by decide, by decide, by decide⟩, [5],
      ⟨1, by decide, by decide, by decide⟩, by decide⟩,
    ⟨⟨1, kEbmlIdCueTrackPos, by decide, by decide, by decide, by decide⟩,
      secondPositions.flatMap Item.encode, ⟨1, by decide, by decide, by decide⟩, by decide⟩]

def cuesItems : List Item :=
  [⟨⟨1, kEbmlIdCuePoint, by decide, by decide, by decide, by decide⟩,
    cuePointItems.flatMap Item.encode, ⟨1, by decide, by decide, by decide⟩, by decide⟩]

def twoTrackCues : List UInt8 :=
  encodeElement cuesId (cuesItems.flatMap Item.encode) ⟨1, by decide, by decide, by decide⟩

def twoTrackCuePoint : CuePoint := ⟨5, [⟨1, some 100, none⟩, ⟨2, none, some (2 ^ 63)⟩]⟩

theorem twoTrackCues_encodes : EncodesCues [twoTrackCuePoint] twoTrackCues := by
  have hfirst : EncodesPositions ⟨1, some 100, none⟩ (firstPositions.flatMap Item.encode) :=
    ⟨firstPositions, rfl, .cons ⟨by decide, by decide⟩ .nil,
      .cons ⟨by decide, by decide⟩ .nil, .nil⟩
  have hsecond : EncodesPositions ⟨2, none, some (2 ^ 63)⟩
      (secondPositions.flatMap Item.encode) :=
    ⟨secondPositions, rfl, .cons ⟨by decide, by decide⟩ .nil, .nil,
      .cons ⟨by decide, by decide⟩ .nil⟩
  have hcuePoint : EncodesCuePoint twoTrackCuePoint (cuePointItems.flatMap Item.encode) :=
    ⟨cuePointItems, rfl, .cons ⟨by decide, by decide⟩ .nil, .cons hfirst (.cons hsecond .nil)⟩
  exact ⟨cuesItems, _, rfl, .cons hcuePoint .nil⟩

theorem parseCuesData_encodes_first_track :
    parseCuesData twoTrackCues 1000000 1 0 =
      .ok ([twoTrackCuePoint].filterMap (expectedEntry 1000000 1 0)) :=
  parseCuesData_encodes twoTrackCues_encodes (by decide +kernel) 1 (by decide) (by decide)
    (List.forall_mem_singleton.mpr
      ⟨by decide, by decide, by decide, by decide, by decide⟩)

/-- The relative position `2^63` of the second track comes out negative. -/
theorem not_parseCuesData_encodes :
    ¬ ∀ (cues : List CuePoint) (buf : List UInt8), EncodesCues cues buf →
      buf.length < 2 ^ 31 → ∀ timestampScale videoTrackNumber segmentDataStart : ℤ,
      0 ≤ timestampScale → 0 ≤ segmentDataStart →
      (∀ c ∈ cues, c.time * timestampScale < 2 ^ 63 ∧ ∀ t ∈ c.positions, t.track < 2 ^ 31 ∧
        ∀ pos ∈ t.clusterPosition, segmentDataStart + pos < 2 ^ 63) →
      parseCuesData buf timestampScale videoTrackNumber segmentDataStart =
        .ok (cues.filterMap
          (expectedEntry timestampScale videoTrackNumber segmentDataStart)) := by
  intro h
  have hparsed := h _ _ twoTrackCues_encodes (by decide +kernel) 1000000 2 0 (by decide)
    (by decide) (List.forall_mem_singleton.mpr ⟨by decide, by decide⟩)
  exact absurd hparsed (by decide +kernel)

end EbmlParser

end Fmp4Packager
