import Fmp4Packager.CuesRoundTrip
import Fmp4Packager.EbmlSafety
import Mathlib.Tactic.IntervalCases

/-!
# Reading back an encoded file header

What the head of a Segment says about Cues, timestamps and tracks, which file
prefixes encode it, and that `parse_segment_info` and `parse_cues_location` recover
it from each of them.
-/

namespace Fmp4Packager

open Ebml BigEndian

namespace EbmlParser

structure SeekEntry where
  ids : List ℕ
  positions : List ℕ

structure TrackEntry where
  numbers : List ℕ
  types : List ℕ

/-- The contents of the SeekHead, Info and Tracks elements of a Segment. -/
structure SegmentHead where
  seekHeads : List (List SeekEntry)
  infos : List (List ℕ)
  tracks : List (List TrackEntry)

def SegmentHead.seekEntries (h : SegmentHead) : List SeekEntry := h.seekHeads.flatten

def SegmentHead.timestampScales (h : SegmentHead) : List ℕ := h.infos.flatten

def SegmentHead.trackEntries (h : SegmentHead) : List TrackEntry := h.tracks.flatten

/-- The payload of a master element: children with the given id for `xs`, among any
other elements. -/
def EncodesMany {α : Type} (id : ℕ) (encodes : α → List UInt8 → Prop) (xs : List α)
    (payload : List UInt8) : Prop :=
  ∃ items : List Item, payload = items.flatMap Item.encode ∧
    List.Forall₂ encodes xs (payloadsWith id items)

def EncodesSeek (s : SeekEntry) (payload : List UInt8) : Prop :=
  ∃ items : List Item, payload = items.flatMap Item.encode ∧
    List.Forall₂ SpellsUint s.ids (payloadsWith kEbmlIdSeekID items) ∧
    List.Forall₂ SpellsUint s.positions (payloadsWith kEbmlIdSeekPos items)

def EncodesTrackEntry (t : TrackEntry) (payload : List UInt8) : Prop :=
  ∃ items : List Item, payload = items.flatMap Item.encode ∧
    List.Forall₂ SpellsUint t.numbers (payloadsWith kEbmlIdTrackNumber items) ∧
    List.Forall₂ SpellsUint t.types (payloadsWith kEbmlIdTrackType items)

/-- The last child in the buffer, of which `present` bytes are there at most. -/
structure CutChild where
  child : Item
  present : ℕ
  ne_seekHead : child.id.value ≠ kEbmlIdSeekHead
  ne_info : child.id.value ≠ kEbmlIdInfo
  ne_tracks : child.id.value ≠ kEbmlIdTracks

/-- The children of the Segment that the buffer holds. -/
structure SegmentPart where
  children : List Item
  cutChild : Option CutChild

def SegmentPart.cutBytes (s : SegmentPart) : List UInt8 :=
  (s.cutChild.map fun c ↦ c.child.encode.take c.present).getD []

def SegmentPart.bytes (s : SegmentPart) : List UInt8 :=
  s.children.flatMap Item.encode ++ s.cutBytes

def SegmentPart.Encodes (s : SegmentPart) (h : SegmentHead) : Prop :=
  List.Forall₂ (EncodesMany kEbmlIdSeek EncodesSeek) h.seekHeads
      (payloadsWith kEbmlIdSeekHead s.children) ∧
    List.Forall₂ (EncodesMany kEbmlIdTimestampScale SpellsUint) h.infos
      (payloadsWith kEbmlIdInfo s.children) ∧
    List.Forall₂ (EncodesMany kEbmlIdTrackEntry EncodesTrackEntry) h.tracks
      (payloadsWith kEbmlIdTracks s.children)

def ebmlHeaderId : Id := .ofBounds 4 kEbmlIdEBMLHeader (by decide)

def segmentId : Id := .ofBounds 4 kEbmlIdSegment (by decide)

/-- A file up to some byte of its Segment. -/
structure FilePrefix where
  headerPayload : List UInt8
  headerSizeWidth : SizeWidth headerPayload.length
  segmentSize : ℕ
  segmentSizeWidth : SizeWidth segmentSize
  segment : SegmentPart
  covers : segment.bytes.length ≤ segmentSize

namespace FilePrefix

def header (f : FilePrefix) : List UInt8 :=
  encodeElement ebmlHeaderId f.headerPayload f.headerSizeWidth

def segmentHeader (f : FilePrefix) : List UInt8 :=
  encodeHeader segmentId f.segmentSizeWidth.width f.segmentSize

def bytes (f : FilePrefix) : List UInt8 := f.header ++ (f.segmentHeader ++ f.segment.bytes)

def segmentDataStart (f : FilePrefix) : ℕ := f.header.length + f.segmentHeader.length

end FilePrefix

/-- Of several ids or positions in one Seek entry the last ones count. -/
def SeekEntry.cuesPosition? (s : SeekEntry) : Option ℕ :=
  if s.ids.getLast? = some kEbmlIdCues then s.positions.getLast? else none

def SegmentHead.cuesPositions (h : SegmentHead) : List ℕ :=
  h.seekEntries.filterMap SeekEntry.cuesPosition?

def TrackEntry.videoNumber? (t : TrackEntry) : Option ℕ :=
  if t.types.getLast? = some 1 then t.numbers.getLast? else none

def SegmentHead.info (h : SegmentHead) : SegmentInfo where
  timestampScale := (h.timestampScales.getLast?.getD 1000000 : ℕ)
  videoTrackNumber := ((h.trackEntries.filterMap TrackEntry.videoNumber?).getLast?.getD 1 : ℕ)

/-- The bytes of the Cues element whose header lies at the front, or `0` where there is
none. -/
def WholeCuesSize (bytes : List UInt8) (total : ℤ) : Prop :=
  (∀ width size, BeginsWithHeader cuesId width size bytes → 0 < size →
      total = cuesId.width + width + size) ∧
    ((∀ width size, BeginsWithHeader cuesId width size bytes → size = 0) → total = 0)

/-- The numbers stay in the range of the variables that take them, and no entry for the
Cues leads in front of the buffer. -/
structure FilePrefix.Fits (f : FilePrefix) (h : SegmentHead) : Prop where
  scale_lt : ∀ scale ∈ h.timestampScales, scale < 2 ^ 63
  number_pos : ∀ t ∈ h.trackEntries, ∀ number ∈ t.numbers, 1 ≤ number ∧ number < 2 ^ 31
  type_pos : ∀ t ∈ h.trackEntries, ∀ trackType ∈ t.types, 1 ≤ trackType ∧ trackType < 2 ^ 31
  inside : ∀ position ∈ h.cuesPositions,
    ¬ OffsetEscapes f.bytes (cuesOffset f.segmentDataStart position)
  last_lt : ∀ position ∈ h.cuesPositions.getLast?, f.segmentDataStart + position < 2 ^ 63

theorem beginsWithHeader_segment (f : FilePrefix) :
    BeginsWithHeader segmentId f.segmentSizeWidth.width f.segmentSize
      (f.segmentHeader ++ f.segment.bytes) := by
  have hlt := f.segmentSizeWidth.size_lt
  exact ⟨⟨f.segmentSizeWidth.width_pos, f.segmentSizeWidth.width_le, by omega⟩,
    List.prefix_append ..⟩

theorem length_bytes (f : FilePrefix) :
    f.bytes.length = f.header.length + (f.segmentHeader.length + f.segment.bytes.length) := by
  simp [FilePrefix.bytes]

theorem length_header (f : FilePrefix) :
    f.header.length = 4 + f.headerSizeWidth.width + f.headerPayload.length :=
  length_encodeElement ..

theorem length_segmentHeader (f : FilePrefix) :
    f.segmentHeader.length = 4 + f.segmentSizeWidth.width :=
  length_encodeHeader ..

theorem readHeader_bytes (f : FilePrefix) :
    readHeader f.bytes = some ⟨kEbmlIdEBMLHeader, f.headerPayload.length,
      4 + f.headerSizeWidth.width⟩ := by
  obtain ⟨hid, hsize⟩ := beginsWithHeader_iff.mp (beginsWithHeader_encodeElement ebmlHeaderId
    f.headerPayload f.headerSizeWidth (f.segmentHeader ++ f.segment.bytes))
  have hmore : ¬ f.bytes.length ≤ ebmlHeaderId.width + f.headerSizeWidth.width := by
    have hwidth : ebmlHeaderId.width = 4 := rfl
    rw [length_bytes, length_header, length_segmentHeader]
    omega
  rw [readHeader, FilePrefix.bytes, FilePrefix.header, hid]
  simp only [Option.bind_eq_bind, Option.bind_some, hsize]
  exact if_neg hmore

/-- The scan of the whole buffer meets the EBML header first, and no second one. -/
theorem childrenWith_ebmlHeader (f : FilePrefix) :
    ∃ e, childrenWith kEbmlIdEBMLHeader (elements f.bytes) = [e] ∧
      e.offset + e.size = f.header.length := by
  have htail : ∀ offset, childrenWith kEbmlIdEBMLHeader
      (elementsFrom offset (f.segmentHeader ++ f.segment.bytes)) = [] := by
    intro offset
    refine List.filter_eq_nil_iff.mpr fun e he ↦ ?_
    rw [id_of_mem_elementsFrom_part (beginsWithHeader_segment f).1 List.prefix_rfl f.covers he]
    decide
  have hdrop : (f.bytes.drop (4 + f.headerSizeWidth.width)).drop f.headerPayload.length =
      f.segmentHeader ++ f.segment.bytes := by
    rw [List.drop_drop, ← length_header, FilePrefix.bytes, List.drop_left]
  rw [elements, elementsFrom_of_some (readHeader_bytes f)]
  refine ⟨⟨kEbmlIdEBMLHeader, f.headerPayload.length, 0 + (4 + f.headerSizeWidth.width),
    available f.headerPayload.length (f.bytes.drop (4 + f.headerSizeWidth.width))⟩, ?_, ?_⟩
  · rw [childrenWith, List.filter_cons, if_pos (by simp)]
    dsimp only
    rw [hdrop]
    split_ifs
    · rfl
    · rw [← childrenWith, htail]
  · rw [length_header]
    dsimp only
    omega

theorem segmentData_bytes {f : FilePrefix} (hmin : 32 ≤ f.bytes.length)
    (hlen : f.bytes.length < 2 ^ 31) :
    ¬ HeaderEscapes f.bytes ∧ segmentData f.bytes = some f.segmentDataStart ∧
      f.bytes.drop f.segmentDataStart = f.segment.bytes := by
  obtain ⟨e, he, hend⟩ := childrenWith_ebmlHeader f
  obtain ⟨hid, hsize⟩ := beginsWithHeader_iff.mp (beginsWithHeader_segment f)
  have hbytes := length_bytes f
  have hheader : headerEnd (elements f.bytes) = f.header.length := by
    rw [headerEnd, he, List.getLast?_singleton, Option.map_some, Option.getD_some, ← Nat.cast_add,
      hend]
    exact toInt_natCast (by omega)
  have hpos : 0 < f.header.length := by
    rw [length_header]
    omega
  have hdropHeader : f.bytes.drop f.header.length = f.segmentHeader ++ f.segment.bytes :=
    List.drop_left
  refine ⟨fun h ↦ ?_, ?_, ?_⟩
  · have := h.2
    omega
  · rw [segmentData, hheader, if_neg (by omega), Int.toNat_natCast, segmentDataAt, hdropHeader, hid]
    simp only [Option.bind_eq_bind, Option.bind_some]
    rw [← List.drop_drop, hdropHeader, hsize, Option.bind_some, FilePrefix.segmentDataStart,
      length_segmentHeader, ← Nat.add_assoc]
    exact if_neg (not_not_intro rfl)
  · rw [FilePrefix.segmentDataStart, ← List.drop_drop, hdropHeader, List.drop_left]

/-! ## The contents of the Segment -/

theorem payloads_segment {s : SegmentPart} {id : ℕ}
    (hid : id = kEbmlIdSeekHead ∨ id = kEbmlIdInfo ∨ id = kEbmlIdTracks) :
    (childrenWith id (elements s.bytes)).map Element.payload = payloadsWith id s.children := by
  apply map_payload_childrenWith_append
  intro e he
  rw [SegmentPart.cutBytes] at he
  cases hcut : s.cutChild with
  | none =>
      rw [hcut, Option.map_none, Option.getD_none, elementsFrom_of_none rfl] at he
      cases he
  | some c =>
      rw [hcut, Option.map_some, Option.getD_some] at he
      have hheader := beginsWithHeader_encodeElement c.child.id c.child.payload
        c.child.sizeWidth []
      have hpart : c.child.encode.take c.present <+:
          encodeHeader c.child.id _ _ ++ c.child.payload := List.take_prefix ..
      have heid := id_of_mem_elementsFrom_part hheader.1 hpart le_rfl he
      have hseekHead := c.ne_seekHead
      have hinfo := c.ne_info
      have htracks := c.ne_tracks
      rcases hid with rfl | rfl | rfl <;> rwa [heid]

/-- Children that encode `xs`, each of them read by `f`. -/
theorem childrenWith_encodesMany {α β : Type} {id : ℕ} {encodes : α → List UInt8 → Prop}
    {xs : List α} {payload : List UInt8} (h : EncodesMany id encodes xs payload)
    (f : Element → β) (expected : α → β)
    (hf : ∀ x ∈ xs, ∀ e : Element, encodes x e.payload → f e = expected x) :
    (childrenWith id (elements payload)).map f = xs.map expected := by
  obtain ⟨items, rfl, hitems⟩ := h
  rw [← map_payload_childrenWith, List.forall₂_map_right_iff] at hitems
  exact map_eq_map_of_forall₂ hitems hf

/-- The grandchildren with one id of the children that encode `xss`, read by `f`. -/
theorem flatMap_childrenWith_encodesMany {α β : Type} {id : ℕ}
    {encodes : α → List UInt8 → Prop} {xss : List (List α)} {es : List Element}
    (h : List.Forall₂ (EncodesMany id encodes) xss (es.map Element.payload))
    (f : Element → β) (expected : α → β)
    (hf : ∀ x ∈ xss.flatten, ∀ e : Element, encodes x e.payload → f e = expected x) :
    (es.flatMap fun e ↦ childrenWith id (elements e.payload)).map f =
      xss.flatten.map expected := by
  rw [List.forall₂_map_right_iff] at h
  have hchildren : es.map (fun e ↦ (childrenWith id (elements e.payload)).map f) =
      xss.map fun xs ↦ xs.map expected :=
    map_eq_map_of_forall₂ h fun xs hxs e he ↦
      childrenWith_encodesMany he f expected fun x hx ↦ hf x (List.mem_flatten_of_mem hxs hx)
  rw [List.map_flatMap, List.flatMap_def, List.map_flatten, ← hchildren]

theorem seekPosition?_encodes {s : SeekEntry} {e : Element} (h : EncodesSeek s e.payload) :
    seekPosition? e = s.cuesPosition? := by
  obtain ⟨items, hitems, hids, hpositions⟩ := h
  rw [seekPosition?, hitems, lastUint_eq_getLast? hids, lastUint_eq_getLast? hpositions]
  rfl

theorem seekPositions_segment {s : SegmentPart} {h : SegmentHead} (henc : s.Encodes h) :
    seekPositions (elements s.bytes) = h.cuesPositions := by
  have hseekHeads := henc.1
  rw [← payloads_segment (.inl rfl)] at hseekHeads
  have hentries := flatMap_childrenWith_encodesMany hseekHeads seekPosition?
    SeekEntry.cuesPosition? fun _ _ _ ↦ seekPosition?_encodes
  have hfound := congrArg (List.filterMap id) hentries
  rwa [List.filterMap_map, List.filterMap_map] at hfound

theorem timestampScales_segment {s : SegmentPart} {h : SegmentHead} (henc : s.Encodes h) :
    (timestampScales (elements s.bytes)).map Element.uint = h.timestampScales := by
  have hinfos := henc.2.1
  rw [← payloads_segment (.inr (.inl rfl))] at hinfos
  have hscales := flatMap_childrenWith_encodesMany hinfos Element.uint (fun v ↦ v)
    fun _ _ _ ↦ uint_of_spells
  rwa [List.map_id'] at hscales

theorem videoTrackNumber?_encodes {t : TrackEntry} {e : Element}
    (h : EncodesTrackEntry t e.payload)
    (hnumbers : ∀ number ∈ t.numbers, 1 ≤ number ∧ number < 2 ^ 31)
    (htypes : ∀ trackType ∈ t.types, 1 ≤ trackType ∧ trackType < 2 ^ 31) :
    videoTrackNumber? e = t.videoNumber?.map fun number : ℕ ↦ (number : ℤ) := by
  obtain ⟨items, hitems, hnumber, htype⟩ := h
  rw [videoTrackNumber?, hitems, lastUint_eq_getLast? hnumber, lastUint_eq_getLast? htype,
    TrackEntry.videoNumber?]
  have hexact : ∀ vs : List ℕ, (∀ v ∈ vs, 1 ≤ v ∧ v < 2 ^ 31) →
      (vs.getLast?.map fun v : ℕ ↦ toInt v).getD 0 = (vs.getLast?.getD 0 : ℕ) := by
    intro vs hvs
    cases hlast : vs.getLast? with
    | none => rfl
    | some v => exact toInt_natCast (hvs v (List.mem_of_getLast? hlast)).2
  rw [hexact _ hnumbers, hexact _ htypes]
  cases htypeLast : t.types.getLast? with
  | none => rfl
  | some trackType =>
      cases hnumberLast : t.numbers.getLast? with
      | none => simp
      | some number =>
          have := (hnumbers number (List.mem_of_getLast? hnumberLast)).1
          by_cases hvideo : trackType = 1
          · simp [hvideo]
            omega
          · simp [hvideo]

theorem videoTrackNumbers_segment {s : SegmentPart} {h : SegmentHead} (henc : s.Encodes h)
    (hnumbers : ∀ t ∈ h.trackEntries, ∀ number ∈ t.numbers, 1 ≤ number ∧ number < 2 ^ 31)
    (htypes : ∀ t ∈ h.trackEntries, ∀ trackType ∈ t.types, 1 ≤ trackType ∧ trackType < 2 ^ 31) :
    videoTrackNumbers (elements s.bytes) =
      (h.trackEntries.filterMap TrackEntry.videoNumber?).map fun number : ℕ ↦ (number : ℤ) := by
  have htracks := henc.2.2
  rw [← payloads_segment (.inr (.inr rfl))] at htracks
  have hentries := flatMap_childrenWith_encodesMany htracks videoTrackNumber?
    (fun t ↦ t.videoNumber?.map fun number : ℕ ↦ (number : ℤ)) fun t ht _ he ↦
      videoTrackNumber?_encodes he (hnumbers t ht) (htypes t ht)
  have hfound := congrArg (List.filterMap id) hentries
  rw [List.filterMap_map, List.filterMap_map] at hfound
  rw [List.map_filterMap]
  exact hfound

theorem segmentInfoOf_segment {s : SegmentPart} {h : SegmentHead} (henc : s.Encodes h)
    (hscales : ∀ scale ∈ h.timestampScales, scale < 2 ^ 63)
    (hnumbers : ∀ t ∈ h.trackEntries, ∀ number ∈ t.numbers, 1 ≤ number ∧ number < 2 ^ 31)
    (htypes : ∀ t ∈ h.trackEntries, ∀ trackType ∈ t.types, 1 ≤ trackType ∧ trackType < 2 ^ 31) :
    segmentInfoOf (elements s.bytes) = h.info := by
  have hscale : (timestampScales (elements s.bytes)).getLast?.map
      (fun e : Element ↦ toInt64 e.uint) =
      h.timestampScales.getLast?.map fun scale : ℕ ↦ (scale : ℤ) := by
    rw [← timestampScales_segment henc, List.getLast?_map, Option.map_map]
    cases hlast : (timestampScales (elements s.bytes)).getLast? with
    | none => rfl
    | some e =>
        have hmem : e.uint ∈ h.timestampScales := by
          rw [← timestampScales_segment henc]
          exact List.mem_map_of_mem (List.mem_of_getLast? hlast)
        have := hscales _ hmem
        exact congrArg some (toInt64_eq_self (by omega) (by omega))
  rw [segmentInfoOf, hscale, videoTrackNumbers_segment henc hnumbers htypes, List.getLast?_map,
    SegmentHead.info]
  congr 1
  · cases h.timestampScales.getLast? <;> rfl
  · cases (h.trackEntries.filterMap TrackEntry.videoNumber?).getLast? <;> rfl

/-! ## Where the Cues are -/

/-- Of runs that all end, the last one counts. -/
theorem foldlM_eq_getLast? {α σ : Type} (f : α → Except Fault σ) (s : σ) {xs : List α}
    (h : ∀ x ∈ xs, StaysInside (f x)) :
    xs.foldlM (fun _ x ↦ f x) s = (xs.getLast?.map f).getD (.ok s) := by
  induction xs using List.reverseRecOn with
  | nil => rfl
  | append_singleton xs x ih =>
      obtain ⟨t, ht⟩ : StaysInside (xs.foldlM (fun _ x ↦ f x) s) := by
        rw [foldlM_staysInside_iff]
        exact fun y hy ↦ h y (List.mem_append_left _ hy)
      rw [List.foldlM_append, ht, ok_bind, List.getLast?_concat, List.foldlM_cons]
      exact bind_pure (f x)

theorem readId_cues_width {bytes : List UInt8} {width : ℕ}
    (h : readId bytes = some (width, kEbmlIdCues)) : width = cuesId.width := by
  obtain ⟨⟨hone, height, hlow, hhigh⟩, -⟩ := readVint_eq_some_iff.mp h
  rw [kEbmlIdCues] at hlow hhigh
  change width = 4
  interval_cases width <;> omega

theorem wholeCuesSize_cuesSize (bytes : List UInt8) : WholeCuesSize bytes (cuesSize bytes) := by
  have hheader : ∀ width size, BeginsWithHeader cuesId width size bytes →
      readId bytes = some (cuesId.width, kEbmlIdCues) ∧
        readSize (bytes.drop cuesId.width) = some (width, size) :=
    fun _ _ ↦ beginsWithHeader_iff.mp
  have hnone : (∀ width size, ¬ BeginsWithHeader cuesId width size bytes) →
      WholeCuesSize bytes 0 :=
    fun h ↦ ⟨fun width size hbegins ↦ absurd hbegins (h width size), fun _ ↦ rfl⟩
  rw [cuesSize]
  cases hid : readId bytes with
  | none => exact hnone fun width size h ↦ by simpa [hid] using (hheader width size h).1
  | some p =>
      obtain ⟨idWidth, id⟩ := p
      dsimp only
      by_cases hcues : id = kEbmlIdCues
      swap
      · rw [if_neg hcues]
        refine hnone fun width size h ↦ hcues ?_
        have hpair := Option.some.inj (hid.symm.trans (hheader width size h).1)
        exact (Prod.mk.inj hpair).2
      rw [if_pos hcues]
      rw [hcues] at hid
      obtain rfl := readId_cues_width hid
      cases hsize : readSize (bytes.drop cuesId.width) with
      | none => exact hnone fun width size h ↦ by simpa [hsize] using (hheader width size h).2
      | some q =>
          obtain ⟨sizeWidth, size⟩ := q
          have hunique : ∀ w n, BeginsWithHeader cuesId w n bytes → w = sizeWidth ∧ n = size := by
            intro w n h
            have hpair := Option.some.inj (hsize.symm.trans (hheader w n h).2)
            exact ⟨(Prod.mk.inj hpair).1.symm, (Prod.mk.inj hpair).2.symm⟩
          refine ⟨fun w n h hn ↦ ?_, fun hall ↦ ?_⟩
          · obtain ⟨rfl, rfl⟩ := hunique w n h
            exact if_pos hn
          · have hzero := hall _ _ (beginsWithHeader_iff.mpr ⟨hid, hsize⟩)
            exact if_neg (by omega)

theorem readCuesSize_natCast {buf : List UInt8} (hlen : buf.length < 2 ^ 31) (offset : ℕ) :
    readCuesSize buf offset = .ok (cuesSize (buf.drop offset)) := by
  rw [readCuesSize_eq hlen]
  by_cases hbefore : offset < buf.length
  · have hpos : toInt offset = offset := toInt_natCast (by omega)
    have hinside : ¬ OffsetEscapes buf offset := by
      rw [OffsetEscapes, hpos]
      exact fun h ↦ absurd h.2 (by omega)
    rw [if_neg hinside, hpos, if_pos (by omega), Int.toNat_natCast]
  · rw [if_neg fun h ↦ absurd h.1 (by omega), if_neg (by omega),
      List.drop_eq_nil_of_le (by omega)]
    rfl

theorem locateCues_eq {buf : List UInt8} (hlen : buf.length < 2 ^ 31) {start position : ℕ}
    (hlt : start + position < 2 ^ 63) :
    ∃ total, locateCues buf start position = .ok (some ⟨start + position, total, start⟩) ∧
      WholeCuesSize (buf.drop (start + position)) total := by
  have hoffset : cuesOffset start position = (start + position : ℕ) := by
    rw [cuesOffset, toInt64_eq_self (v := (position : ℤ)) (by omega) (by omega),
      toInt64_eq_self (by omega) (by omega), Nat.cast_add]
  refine ⟨_, ?_, wholeCuesSize_cuesSize _⟩
  rw [locateCues, hoffset, readCuesSize_natCast hlen, ok_bind, Nat.cast_add]

theorem parseCuesLocation_bytes {f : FilePrefix} {h : SegmentHead} (henc : f.segment.Encodes h)
    (hmin : 32 ≤ f.bytes.length) (hlen : f.bytes.length < 2 ^ 31)
    (hinside : ∀ position ∈ h.cuesPositions,
      ¬ OffsetEscapes f.bytes (cuesOffset f.segmentDataStart position)) :
    parseCuesLocation f.bytes =
      (h.cuesPositions.getLast?.map (locateCues f.bytes f.segmentDataStart)).getD (.ok none) := by
  obtain ⟨hescape, hstart, hdrop⟩ := segmentData_bytes hmin hlen
  rw [parseCuesLocation_eq hlen, if_neg hescape, hstart]
  dsimp only
  rw [hdrop, seekPositions_segment henc]
  exact foldlM_eq_getLast? _ _ fun position hposition ↦
    (locateCues_staysInside_iff hlen _ _).mpr (hinside position hposition)

/-- Both parsers recover from every encoding of the head of a Segment what it says: the
last entry counts everywhere. -/
theorem headerParsers_encodes {f : FilePrefix} {h : SegmentHead} (henc : f.segment.Encodes h)
    (hmin : 32 ≤ f.bytes.length) (hlen : f.bytes.length < 2 ^ 31) (hfits : f.Fits h) :
    (parseCuesLocation f.bytes = .ok none ↔
        ∀ s ∈ h.seekEntries, s.ids.getLast? = some kEbmlIdCues → s.positions = []) ∧
      (∀ position ∈ h.cuesPositions.getLast?, ∃ total,
        parseCuesLocation f.bytes =
            .ok (some ⟨f.segmentDataStart + position, total, f.segmentDataStart⟩) ∧
          WholeCuesSize (f.bytes.drop (f.segmentDataStart + position)) total) ∧
      parseSegmentInfo f.bytes = .ok h.info := by
  have hlocation := parseCuesLocation_bytes henc hmin hlen hfits.inside
  have hfound : ∀ position ∈ h.cuesPositions.getLast?, ∃ total,
      parseCuesLocation f.bytes =
          .ok (some ⟨f.segmentDataStart + position, total, f.segmentDataStart⟩) ∧
        WholeCuesSize (f.bytes.drop (f.segmentDataStart + position)) total := by
    intro position hposition
    obtain ⟨total, hlocate, hwhole⟩ := locateCues_eq hlen (hfits.last_lt position hposition)
    rw [Option.mem_def.mp hposition] at hlocation
    exact ⟨total, hlocation.trans hlocate, hwhole⟩
  have hnone : h.cuesPositions = [] ↔
      ∀ s ∈ h.seekEntries, s.ids.getLast? = some kEbmlIdCues → s.positions = [] := by
    rw [SegmentHead.cuesPositions, List.filterMap_eq_nil_iff]
    refine forall₂_congr fun s _ ↦ ?_
    rw [SeekEntry.cuesPosition?]
    split_ifs with hcues
    · simp [hcues]
    · simp [hcues]
  refine ⟨?_, hfound, ?_⟩
  · rw [← hnone]
    cases hlast : h.cuesPositions.getLast? with
    | none =>
        rw [hlast] at hlocation
        exact iff_of_true hlocation (List.getLast?_eq_none_iff.mp hlast)
    | some position =>
        obtain ⟨total, hlocate, -⟩ := hfound position hlast
        refine iff_of_false ?_ ?_
        · rw [hlocate]
          exact fun heq ↦ nomatch heq
        · rintro hnil
          rw [hnil] at hlast
          cases hlast
  · obtain ⟨hescape, hstart, hdrop⟩ := segmentData_bytes hmin hlen
    rw [parseSegmentInfo_eq hlen, if_neg hescape, hstart, Option.map_some, Option.getD_some, hdrop,
      segmentInfoOf_segment henc hfits.scale_lt hfits.number_pos hfits.type_pos]

def shortItem (width value : ℕ) (payload : List UInt8)
    (hid : 1 ≤ width ∧ width ≤ 8 ∧ 2 ^ (7 * width) ≤ value ∧ value < 2 ^ (7 * width + 1))
    (hpayload : payload ≠ [] ∧ payload.length + 1 < 2 ^ (7 * 1)) : Item :=
  ⟨.ofBounds width value hid, payload, .ofBounds 1 ⟨le_rfl, by decide, hpayload.2⟩, hpayload.1⟩

/-- A SeekID for the Cues, and the position `44`. -/
def seekItems : List Item :=
  [shortItem 2 kEbmlIdSeekID [0x1C, 0x53, 0xBB, 0x6B] (by decide) (by decide),
    shortItem 2 kEbmlIdSeekPos [44] (by decide) (by decide)]

/-- A SeekID for the Tracks behind the one for the Cues. -/
def twoIdItems : List Item :=
  [shortItem 2 kEbmlIdSeekID [0x1C, 0x53, 0xBB, 0x6B] (by decide) (by decide),
    shortItem 2 kEbmlIdSeekID [0x16, 0x54, 0xAE, 0x6B] (by decide) (by decide),
    shortItem 2 kEbmlIdSeekPos [44] (by decide) (by decide)]

def seekHeadItems : List Item :=
  [shortItem 2 kEbmlIdSeek (seekItems.flatMap Item.encode) (by decide) (by decide)]

def twoIdSeekHeadItems : List Item :=
  [shortItem 2 kEbmlIdSeek (twoIdItems.flatMap Item.encode) (by decide) (by decide)]

def scaleItems : List Item :=
  [shortItem 3 kEbmlIdTimestampScale [0x0F, 0x42, 0x40] (by decide) (by decide)]

def trackItems : List Item :=
  [shortItem 1 kEbmlIdTrackNumber [2] (by decide) (by decide),
    shortItem 1 kEbmlIdTrackType [1] (by decide) (by decide)]

def trackEntryItems : List Item :=
  [shortItem 1 kEbmlIdTrackEntry (trackItems.flatMap Item.encode) (by decide) (by decide)]

/-- SeekHead, Info and Tracks, and of the Cues no more than their header. -/
def segmentWith (seekHead : List Item)
    (hpayload : seekHead.flatMap Item.encode ≠ [] ∧
      (seekHead.flatMap Item.encode).length + 1 < 2 ^ (7 * 1)) : SegmentPart where
  children :=
    [shortItem 4 kEbmlIdSeekHead (seekHead.flatMap Item.encode) (by decide) hpayload,
      shortItem 4 kEbmlIdInfo (scaleItems.flatMap Item.encode) (by decide) (by decide),
      shortItem 4 kEbmlIdTracks (trackEntryItems.flatMap Item.encode) (by decide) (by decide)]
  cutChild := some ⟨shortItem 4 kEbmlIdCues [0xBB, 0x82, 0xB3, 0x80] (by decide) (by decide), 5,
    by decide, by decide, by decide⟩

def fileWith (segment : SegmentPart) (covers : segment.bytes.length ≤ 1000) : FilePrefix where
  headerPayload := [0x42, 0x86, 0x81, 1]
  headerSizeWidth := .ofBounds 1 (by decide)
  segmentSize := 1000
  segmentSizeWidth := .ofBounds 2 (by decide)
  segment := segment
  covers := covers

def oneTrackFile : FilePrefix := fileWith (segmentWith seekHeadItems (by decide)) (by decide)

def twoIdFile : FilePrefix := fileWith (segmentWith twoIdSeekHeadItems (by decide)) (by decide)

def oneTrackHead : SegmentHead := ⟨[[⟨[kEbmlIdCues], [44]⟩]], [[1000000]], [[⟨[2], [1]⟩]]⟩

def twoIdHead : SegmentHead :=
  ⟨[[⟨[kEbmlIdCues, kEbmlIdTracks], [44]⟩]], [[1000000]], [[⟨[2], [1]⟩]]⟩

theorem encodesMany_scale :
    EncodesMany kEbmlIdTimestampScale SpellsUint [1000000] (scaleItems.flatMap Item.encode) :=
  ⟨scaleItems, rfl, .cons ⟨by decide, by decide⟩ .nil⟩

theorem encodesMany_track :
    EncodesMany kEbmlIdTrackEntry EncodesTrackEntry [⟨[2], [1]⟩]
      (trackEntryItems.flatMap Item.encode) :=
  ⟨trackEntryItems, rfl, .cons ⟨trackItems, rfl, .cons ⟨by decide, by decide⟩ .nil,
    .cons ⟨by decide, by decide⟩ .nil⟩ .nil⟩

theorem encodes_oneTrack : oneTrackFile.segment.Encodes oneTrackHead := by
  have hseek : EncodesSeek ⟨[kEbmlIdCues], [44]⟩ (seekItems.flatMap Item.encode) :=
    ⟨seekItems, rfl, .cons ⟨by decide, by decide⟩ .nil, .cons ⟨by decide, by decide⟩ .nil⟩
  exact ⟨.cons ⟨seekHeadItems, rfl, .cons hseek .nil⟩ .nil, .cons encodesMany_scale .nil,
    .cons encodesMany_track .nil⟩

theorem encodes_twoId : twoIdFile.segment.Encodes twoIdHead := by
  have hseek : EncodesSeek ⟨[kEbmlIdCues, kEbmlIdTracks], [44]⟩ (twoIdItems.flatMap Item.encode) :=
    ⟨twoIdItems, rfl, .cons ⟨by decide, by decide⟩ (.cons ⟨by decide, by decide⟩ .nil),
      .cons ⟨by decide, by decide⟩ .nil⟩
  exact ⟨.cons ⟨twoIdSeekHeadItems, rfl, .cons hseek .nil⟩ .nil, .cons encodesMany_scale .nil,
    .cons encodesMany_track .nil⟩

theorem fits_oneTrack : oneTrackFile.Fits oneTrackHead where
  scale_lt := by decide
  number_pos := by decide
  type_pos := by decide
  inside := by
    intro position hposition
    have hcues : oneTrackHead.cuesPositions = [44] := by decide
    obtain rfl := List.mem_singleton.mp (hcues ▸ hposition)
    exact fun h ↦ absurd h.2 (by decide)
  last_lt := by decide

theorem headerParsers_encodes_oneTrack :
    (parseCuesLocation oneTrackFile.bytes = .ok none ↔
        ∀ s ∈ oneTrackHead.seekEntries, s.ids.getLast? = some kEbmlIdCues → s.positions = []) ∧
      (∀ position ∈ oneTrackHead.cuesPositions.getLast?, ∃ total,
        parseCuesLocation oneTrackFile.bytes = .ok (some ⟨oneTrackFile.segmentDataStart + position,
            total, oneTrackFile.segmentDataStart⟩) ∧
          WholeCuesSize (oneTrackFile.bytes.drop (oneTrackFile.segmentDataStart + position))
            total) ∧
      parseSegmentInfo oneTrackFile.bytes = .ok oneTrackHead.info :=
  headerParsers_encodes encodes_oneTrack (by decide +kernel) (by decide +kernel) fits_oneTrack

example : parseCuesLocation oneTrackFile.bytes = .ok (some ⟨59, 9, 15⟩) := by decide +kernel

/-- The SeekID for the Tracks makes the parser pass over the entry. -/
theorem not_headerParsers_encodes :
    ¬ ∀ (f : FilePrefix) (h : SegmentHead), f.segment.Encodes h → 32 ≤ f.bytes.length →
      f.bytes.length < 2 ^ 31 → (∀ scale ∈ h.timestampScales, scale < 2 ^ 63) →
      (∀ t ∈ h.trackEntries, ∀ v ∈ t.numbers ++ t.types, 1 ≤ v ∧ v < 2 ^ 31) →
      (∀ s ∈ h.seekEntries, ∀ position ∈ s.positions, f.segmentDataStart + position < 2 ^ 63) →
      (parseCuesLocation f.bytes = .ok none ↔
        ∀ s ∈ h.seekEntries, ¬ (kEbmlIdCues ∈ s.ids ∧ s.positions ≠ [])) := by
  intro h
  have hmin : 32 ≤ twoIdFile.bytes.length := by decide +kernel
  have hlen : twoIdFile.bytes.length < 2 ^ 31 := by decide +kernel
  have hcues : twoIdHead.cuesPositions = [] := by decide
  have hnone : parseCuesLocation twoIdFile.bytes = .ok none := by
    rw [parseCuesLocation_bytes encodes_twoId hmin hlen (by simp [hcues]), hcues]
    rfl
  have hall := (h twoIdFile twoIdHead encodes_twoId hmin hlen (by decide) (by decide)
    (by decide)).mp hnone
  exact absurd hall (by decide)

end EbmlParser

end Fmp4Packager
