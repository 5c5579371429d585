import Fmp4Packager.InitRoundTrip

/-!
# The descriptors of an esds box

The sizes of the three nested descriptors are computed in eight bits and written as the
last byte of an expandable size, where a high bit announces another byte.  They agree
with the descriptors as long as none of them reaches 128.
-/

namespace Fmp4Packager

open BigEndian IsoBox

namespace Fmp4Writer

/-- The extradata that are written: as many bytes as the size byte says. -/
def writtenSize (p : AVCodecParameters) : ℕ := p.extradata.length % 256

/-- The parameters with the extradata that are written. -/
def withWritten (p : AVCodecParameters) : AVCodecParameters :=
  { p with extradata := p.extradata.take (writtenSize p) }

/-- What the writer puts behind the header of the elementary stream descriptor. -/
def esBody (p : AVCodecParameters) : List UInt8 :=
  encode 2 0 ++ [0] ++
    (descriptorHeader 0x04 (13 + 5 + UInt8.ofNat p.extradata.length) ++ decoderFields p ++
      (descriptorHeader 0x05 (UInt8.ofNat p.extradata.length) ++
        p.extradata.take (writtenSize p))) ++
    (descriptorHeader 0x06 1 ++ [0x02])

def esSize (p : AVCodecParameters) : UInt8 :=
  3 + 5 + (13 + 5 + UInt8.ofNat p.extradata.length) + 5 + 1

theorem toNat_dsiSize (p : AVCodecParameters) :
    (UInt8.ofNat p.extradata.length).toNat = writtenSize p := by
  rw [UInt8.toNat_ofNat', writtenSize]

theorem esdsPayload_eq_header (p : AVCodecParameters) :
    esdsPayload p = descriptorHeader 0x03 (esSize p) ++ esBody p := by
  simp only [esdsPayload, esBody, esSize, decoderFields, toNat_dsiSize, List.append_assoc]

theorem length_esBody (p : AVCodecParameters) : (esBody p).length = 32 + writtenSize p := by
  have hle : writtenSize p ≤ p.extradata.length := Nat.mod_le _ _
  simp only [esBody, descriptorHeader, List.length_append, length_encode, length_decoderFields,
    List.length_take, List.length_cons, List.length_nil]
  omega

theorem toNat_esSize (p : AVCodecParameters) : (esSize p).toNat = (32 + writtenSize p) % 256 := by
  have hdsi := toNat_dsiSize p
  simp only [esSize, UInt8.toNat_add, hdsi, UInt8.reduceToNat]
  omega

theorem length_withWritten (p : AVCodecParameters) :
    (withWritten p).extradata.length = writtenSize p := by
  exact List.length_take_of_le (Nat.mod_le _ _)

/-- Extradata that are not written leave no trace. -/
theorem esdsPayload_withWritten (p : AVCodecParameters) :
    esdsPayload (withWritten p) = esdsPayload p := by
  have hofNat : UInt8.ofNat (withWritten p).extradata.length = UInt8.ofNat p.extradata.length := by
    apply UInt8.toNat_inj.mp
    rw [length_withWritten, toNat_dsiSize, UInt8.toNat_ofNat', writtenSize, Nat.mod_mod]
  have htake : (withWritten p).extradata.take (writtenSize p) =
      p.extradata.take (writtenSize p) := by
    rw [withWritten, List.take_take, Nat.min_self]
  have hrate : bitRate (withWritten p) = bitRate p := rfl
  simp only [esdsPayload, hofNat, toNat_dsiSize, htake, hrate]

theorem readEsdsTree_of_le {p : AVCodecParameters} (hsize : writtenSize p ≤ 95) :
    readEsdsTree (fullLeaf ⟨'e', 's', 'd', 's'⟩ 0 0 (esdsPayload p)).data =
      some (p.extradata.take (writtenSize p)) := by
  have hread := readEsdsTree_esdsPayload (p := withWritten p) (by rwa [length_withWritten])
  rwa [esdsPayload_withWritten] at hread

theorem readBytes_eq_all {n : ℕ} {bytes front : List UInt8}
    (h : readBytes n bytes = some (front, [])) : n = bytes.length ∧ front = bytes := by
  obtain ⟨hle, h⟩ := Option.ite_none_right_eq_some.mp h
  obtain ⟨rfl, hrest⟩ := Prod.mk.injEq .. ▸ Option.some.inj h
  have hge := List.drop_eq_nil_iff.mp hrest
  exact ⟨by omega, List.take_of_length_le hge⟩

/-- The bytes behind the header: the id, the flags, and the tag of the first child. -/
theorem esBody_eq_cons (p : AVCodecParameters) :
    ∃ rest, esBody p = 0 :: 0 :: 0 :: 0x04 :: 0x80 :: rest :=
  ⟨_, rfl⟩

/-- A size of 128 or more takes the byte behind it for its last one. -/
theorem esDescriptor_fills {p : AVCodecParameters} {tag : UInt8} {es : List UInt8}
    (h : readDescriptor (esdsPayload p) = some (⟨tag, es⟩, [])) :
    writtenSize p ≤ 95 ∨ ∃ tail, es = 0 :: 0 :: 0x04 :: 0x80 :: tail := by
  have hsize := toNat_esSize p
  have hlength := length_esBody p
  have hmod : writtenSize p < 256 := Nat.mod_lt _ (by norm_num)
  rw [esdsPayload_eq_header, descriptorHeader, List.cons_append, readDescriptor] at h
  simp only [List.cons_append, List.nil_append, readLength_zeros] at h
  obtain ⟨⟨length, rest⟩, hread, h⟩ := Option.bind_eq_some_iff.mp h
  obtain ⟨⟨payload, rest'⟩, hpayload, h⟩ := Option.bind_eq_some_iff.mp h
  simp only [Option.some.injEq, Prod.mk.injEq, Descriptor.mk.injEq] at h
  obtain ⟨⟨-, rfl⟩, rfl⟩ := h
  obtain ⟨hall, rfl⟩ := readBytes_eq_all hpayload
  dsimp only at hall
  rw [readLength] at hread
  by_cases hsmall : (esSize p).toNat < 128
  · left
    rw [if_pos hsmall] at hread
    obtain ⟨rfl, rfl⟩ := Prod.mk.inj (Option.some.inj hread)
    omega
  · right
    obtain ⟨tail, htail⟩ := esBody_eq_cons p
    rw [if_neg hsmall, htail, readLength, if_pos (by decide)] at hread
    obtain ⟨-, rfl⟩ := Prod.mk.inj (Option.some.inj hread)
    exact ⟨tail, rfl⟩

theorem readEsdsTree_of_gt {p : AVCodecParameters} (hsize : 95 < writtenSize p) :
    readEsdsTree (fullLeaf ⟨'e', 's', 'd', 's'⟩ 0 0 (esdsPayload p)).data = none := by
  rw [Option.eq_none_iff_forall_ne_some]
  intro specific h
  simp only [readEsdsTree, fullLeaf, BoxTree.data, List.append_assoc,
    readVersionFlags_encode _ _ _ (by decide : 0 < 2 ^ 8) (by decide : 0 < 2 ^ 24),
    Option.bind_eq_bind, Option.bind_some] at h
  obtain ⟨payloads, hes, h⟩ := Option.bind_eq_some_iff.mp h
  rcases payloads with _ | ⟨es, _ | ⟨other, others⟩⟩
  · cases h
  · have hfills : readDescriptor (esdsPayload p) = some (⟨0x03, es⟩, []) :=
      readDescriptor_of_payloadsTagged hes
    rcases esDescriptor_fills hfills with hle | ⟨tail, rfl⟩
    · omega
    -- the tag of the first child has become the flags, and a size byte its tag
    have hid : readUInt 2 (0 :: 0 :: 0x04 :: 0x80 :: tail) = some (0, 0x04 :: 0x80 :: tail) := rfl
    have hflags : readUInt 1 (0x04 :: 0x80 :: tail) = some (4, 0x80 :: tail) := rfl
    have htag : payloadsTagged [0x04, 0x06] (0x80 :: tail) = none :=
      payloadsTagged_of_ne (by decide)
    have hbits : Nat.testBit 4 7 = false ∧ Nat.testBit 4 6 = false ∧ Nat.testBit 4 5 = false := by
      decide
    simp only [hid, hflags, hbits, readOptional, skipUrl, htag, Option.bind_some, Option.bind_none,
      Bool.false_eq_true, if_false, reduceCtorEq] at h
  · cases h

/-- The reader gets the extradata back exactly when every size is below 128. -/
theorem readEsdsTree_eq_some_iff {p : AVCodecParameters} :
    readEsdsTree (fullLeaf ⟨'e', 's', 'd', 's'⟩ 0 0 (esdsPayload p)).data = some p.extradata ↔
      p.extradata.length ≤ 95 := by
  constructor
  · intro hread
    by_cases hsize : writtenSize p ≤ 95
    · rw [readEsdsTree_of_le hsize] at hread
      have hlength := congrArg List.length (Option.some.inj hread)
      rw [List.length_take] at hlength
      omega
    · rw [readEsdsTree_of_gt (by omega)] at hread
      cases hread
  · exact readEsdsTree_esdsPayload

/-- `BuildInit` writes an esds box for the track, and a reader of the box finds nested
descriptors that fill it and hold the extradata. -/
structure EsdsDecodes (tracks : List Track) (t : Track) (p : AVCodecParameters) : Prop where
  written : buildInit tracks = .ok (encodeTrees [ftypTree, moovTree tracks])
  trak : trakTree t ∈ (moovTree tracks).childrenOfType ⟨'t', 'r', 'a', 'k'⟩
  esds : ∃ esds box,
    (trakTree t).find [⟨'m', 'd', 'i', 'a'⟩, ⟨'m', 'i', 'n', 'f'⟩, ⟨'s', 't', 'b', 'l'⟩,
      ⟨'s', 't', 's', 'd'⟩, ⟨'m', 'p', '4', 'a'⟩, ⟨'e', 's', 'd', 's'⟩] = some esds ∧
      (∀ b : BoxBuilder, (writeEsds b t).buf = b.buf ++ encodeTrees [esds]) ∧
      readBox 0 (encodeTrees [esds]) = some (box, []) ∧
      readEsdsTree box.payload = some p.extradata

theorem find_esds {t : Track} {p : AVCodecParameters} (hp : t.codecpar = some p)
    (haudio : p.codecType = .audio) (haac : p.codecId = .aac) :
    (trakTree t).find [⟨'m', 'd', 'i', 'a'⟩, ⟨'m', 'i', 'n', 'f'⟩, ⟨'s', 't', 'b', 'l'⟩,
      ⟨'s', 't', 's', 'd'⟩, ⟨'m', 'p', '4', 'a'⟩, ⟨'e', 's', 'd', 's'⟩] =
        some (fullLeaf ⟨'e', 's', 'd', 's'⟩ 0 0 (esdsPayload p)) := by
  have hmdia : ∀ path, (trakTree t).find (⟨'m', 'd', 'i', 'a'⟩ :: path) =
      (mdiaTree t).find path := by
    intro path
    rw [← List.singleton_append, BoxTree.find_append, find_trakTree_mdia, Option.bind_some]
  have hminf : ∀ path, (mdiaTree t).find (⟨'m', 'i', 'n', 'f'⟩ :: path) =
      (minfTree t).find path := fun _ ↦ rfl
  have hstsd : ∀ path, (minfTree t).find (⟨'s', 't', 'b', 'l'⟩ :: ⟨'s', 't', 's', 'd'⟩ :: path) =
      (stsdTree t).find path := by
    intro path
    have happend := BoxTree.find_append [⟨'s', 't', 'b', 'l'⟩, ⟨'s', 't', 's', 'd'⟩] path
      (minfTree t)
    rwa [(find_minfTree t).2, Option.bind_some] at happend
  have hentry : sampleEntryTrees t = [audioEntryTree t p] := by
    simp [sampleEntryTrees, hp, haudio]
  have hformat : sampleEntryFourCC t = ⟨'m', 'p', '4', 'a'⟩ := by
    simp [sampleEntryFourCC, hp, haac]
  have hesds : (stsdTree t).find [⟨'m', 'p', '4', 'a'⟩, ⟨'e', 's', 'd', 's'⟩] =
      some (fullLeaf ⟨'e', 's', 'd', 's'⟩ 0 0 (esdsPayload p)) := by
    rw [stsdTree, hentry, audioEntryTree, hformat, esdsTrees, hp]
    rfl
  rw [hmdia, hminf, hstsd, hesds]

theorem length_esdsPayload (p : AVCodecParameters) :
    (esdsPayload p).length = 37 + writtenSize p := by
  rw [esdsPayload_eq_header, List.length_append, length_esBody, descriptorHeader]
  simp only [List.length_cons, List.length_nil]
  omega

theorem readBox_esds (p : AVCodecParameters) :
    ∃ box, readBox 0 (encodeTrees [fullLeaf ⟨'e', 's', 'd', 's'⟩ 0 0 (esdsPayload p)]) =
      some (box, []) ∧
        box.payload = (fullLeaf ⟨'e', 's', 'd', 's'⟩ 0 0 (esdsPayload p)).data := by
  have hmod : writtenSize p < 256 := Nat.mod_lt _ (by norm_num)
  have hsize : 8 + (encode 1 0 ++ encode 3 0 ++ esdsPayload p).length < 2 ^ 32 := by
    simp only [List.length_append, length_encode, length_esdsPayload]
    omega
  rw [encodeTrees_cons, encodeTrees_nil]
  exact ⟨_, readBox_box 0 _ [] hsize, rfl⟩

theorem esdsDecodes_iff {tracks : List Track} {t : Track} {p : AVCodecParameters} (ht : t ∈ tracks)
    (hp : t.codecpar = some p) (haudio : p.codecType = .audio) (haac : p.codecId = .aac) :
    EsdsDecodes tracks t p ↔ p.extradata.length ≤ 95 := by
  rw [← readEsdsTree_eq_some_iff]
  have hfind := find_esds hp haudio haac
  obtain ⟨box, hbox, hpayload⟩ := readBox_esds p
  constructor
  · intro h
    obtain ⟨esds, box', hesds, -, hbox', hread⟩ := h.esds
    obtain rfl := Option.some.inj (hfind.symm.trans hesds)
    obtain ⟨rfl, -⟩ := Prod.mk.inj (Option.some.inj (hbox.symm.trans hbox'))
    rw [← hpayload]
    exact hread
  · intro hread
    refine ⟨buildInit_eq (List.ne_nil_of_mem ht), ?_, _, box, hfind, fun b ↦ ?_, hbox, ?_⟩
    · have htraks : (moovTree tracks).childrenOfType ⟨'t', 'r', 'a', 'k'⟩ =
          tracks.map trakTree :=
        filter_type_map trakTree ⟨'t', 'r', 'a', 'k'⟩ (fun _ ↦ rfl) tracks
      rw [htraks]
      exact List.mem_map_of_mem ht
    · rw [buf_writeEsds, esdsTrees, hp]
      rfl
    · rwa [hpayload]

/-- With a track to describe nothing is thrown, and the descriptors of an AAC track decode
back exactly when it has at most 95 bytes of extradata. -/
theorem buildInit_esds_iff {tracks : List Track} {t : Track} {p : AVCodecParameters}
    (ht : t ∈ tracks) (hp : t.codecpar = some p) (haudio : p.codecType = .audio)
    (haac : p.codecId = .aac) :
    (∃ message, buildInit tracks = .error message) ∨ EsdsDecodes tracks t p ↔
      p.extradata.length ≤ 95 := by
  rw [← esdsDecodes_iff ht hp haudio haac]
  constructor
  · rintro (⟨message, hthrow⟩ | hdecodes)
    · rw [buildInit_eq (List.ne_nil_of_mem ht)] at hthrow
      cases hthrow
    · exact hdecodes
  · exact Or.inr

theorem buildInit_esds_iff_two_tracks :
    (∃ message, buildInit [h264Track, aacTrack] = .error message) ∨
        EsdsDecodes [h264Track, aacTrack] aacTrack
          ⟨.audio, .aac, [0x11, 0x90], 0, 0, 0, 48000, 2⟩ ↔
      ([0x11, 0x90] : List UInt8).length ≤ 95 :=
  buildInit_esds_iff (by simp) rfl rfl rfl

/-- An AAC track with `n` bytes of extradata. -/
def aacTrackOfSize (n : ℕ) : Track where
  trackId := 1
  timescale := ⟨1, 48000⟩
  codecpar := some ⟨.audio, .aac, List.replicate n 0, 0, 0, 0, 48000, 2⟩

/-- With 96 bytes the size of the outer descriptor is 128. -/
theorem not_buildInit_esds :
    ¬ ∀ (tracks : List Track) (t : Track) (p : AVCodecParameters), t ∈ tracks →
      t.codecpar = some p → p.codecType = .audio → p.codecId = .aac →
        (∃ message, buildInit tracks = .error message) ∨ EsdsDecodes tracks t p := by
  intro h
  have hmem : aacTrackOfSize 96 ∈ [aacTrackOfSize 96] := List.mem_singleton_self _
  rcases h [aacTrackOfSize 96] (aacTrackOfSize 96) _ hmem rfl rfl rfl with
    ⟨message, hthrow⟩ | hdecodes
  · rw [buildInit_eq (List.ne_nil_of_mem hmem)] at hthrow
    cases hthrow
  · have hle := (esdsDecodes_iff hmem rfl rfl rfl).mp hdecodes
    rw [List.length_replicate] at hle
    exact absurd hle (by decide)

end Fmp4Writer

end Fmp4Packager
