import Fmp4Packager.CInt
import Fmp4Packager.Format.MovieReader
import Fmp4Packager.InitLayout
import Fmp4Packager.SegmentRoundTrip

/-!
# Reading an init segment back

The movie reader applied to the bytes of `buildInit`: the trees are found again, and
the boxes of a track say what the track was given.
-/

namespace Fmp4Packager

open BigEndian IsoBox

namespace Fmp4Writer

theorem length_wordBytes (words : List UInt32) : (wordBytes words).length = 4 * words.length := by
  induction words with
  | nil => rfl
  | cons v words ih =>
      rw [wordBytes, List.flatMap_cons, List.length_append, length_encode, ← wordBytes, ih,
        List.length_cons]
      omega

theorem length_mvhdMiddle : mvhdMiddle.length = 76 := by
  simp [mvhdMiddle, length_wordBytes, kIdentityMatrix]

theorem length_tkhdMiddle (t : Track) : (tkhdMiddle t).length = 52 := by
  simp [tkhdMiddle, length_wordBytes, kIdentityMatrix]

theorem readMvhd_mvhdTree (nextTrackId : UInt32) :
    readMvhd (mvhdTree nextTrackId).data = some nextTrackId.toNat := by
  simp only [readMvhd, mvhdTree, fullLeaf, BoxTree.data, List.append_assoc, timeWidth,
    readVersionFlags_encode _ _ _ (by decide : 1 < 2 ^ 8) (by decide : 0 < 2 ^ 24),
    readUInt_encode, readBytes_append _ length_mvhdMiddle, readUInt_encode_end, toNat_mod_u32,
    one_ne_zero, if_false, Option.bind_eq_bind, Option.bind_some, if_true]

theorem readTrex_trexTree (t : Track) : readTrex (trexTree t).data = some t.trackId.toNat := by
  have hlast : ∀ v, (wordBytes [1, 0, 0, v]).length = 16 := fun _ ↦ length_wordBytes _
  simp only [readTrex, trexTree, fullLeaf, BoxTree.data, List.append_assoc,
    readVersionFlags_encode _ _ _ (by decide : 0 < 2 ^ 8) (by decide : 0 < 2 ^ 24),
    readUInt_encode, readBytes_self (hlast _), toNat_mod_u32, Option.bind_eq_bind,
    Option.bind_some, if_true]

theorem readTkhd_tkhdTree (t : Track) :
    readTkhd (tkhdTree t).data = some ⟨t.trackId.toNat, (displaySize t).1.toNat / 2 ^ 16,
      (displaySize t).2.toNat / 2 ^ 16⟩ := by
  simp only [readTkhd, tkhdTree, fullLeaf, BoxTree.data, List.append_assoc, timeWidth,
    readVersionFlags_encode _ _ _ (by decide : 1 < 2 ^ 8) (by decide : 7 < 2 ^ 24),
    readUInt_encode, readBytes_append _ (length_tkhdMiddle t), readUInt_encode_end, toNat_mod_u32,
    one_ne_zero, if_false, Option.bind_eq_bind, Option.bind_some, if_true]

theorem readMdhd_mdhdTree (t : Track) :
    readMdhd (mdhdTree t).data = some t.timescale.denU32.toNat := by
  have hlast : ∀ v : ℕ, (encode 2 v ++ encode 2 0).length = 4 := fun v ↦ by simp
  simp only [readMdhd, mdhdTree, fullLeaf, BoxTree.data, List.append_assoc, timeWidth,
    readVersionFlags_encode _ _ _ (by decide : 1 < 2 ^ 8) (by decide : 0 < 2 ^ 24),
    readUInt_encode, readBytes_self (hlast _), toNat_mod_u32, one_ne_zero, if_false,
    Option.bind_eq_bind, Option.bind_some, if_true]

theorem ofBytes_handlerType (t : Track) :
    FourCC.ofBytes (handlerType t).bytes = some (handlerType t) := by
  rw [handlerType]
  split_ifs <;> rfl

theorem readHdlr_hdlrTree (t : Track) : readHdlr (hdlrTree t).data = some (handlerType t) := by
  have hreserved : (wordBytes [0, 0, 0]).length = 12 := length_wordBytes _
  have hname : (handlerName t).getLast? = some 0 := by simp [handlerName]
  simp only [readHdlr, hdlrTree, fullLeaf, BoxTree.data, List.append_assoc,
    readVersionFlags_encode _ _ _ (by decide : 0 < 2 ^ 8) (by decide : 0 < 2 ^ 24),
    readUInt_encode, readBytes_append _ (FourCC.length_bytes _),
    readBytes_append _ hreserved, Option.bind_eq_bind, Option.bind_some, hname, if_true,
    ofBytes_handlerType]

theorem readElst_elstTree (t : Track) :
    readElst (elstTree t).data = some [t.initialPadding.toInt] := by
  have hlast : (encode 2 1 ++ encode 2 0).length = 4 := by simp
  have hedit : readMany (readEdit 1) 1 (encode 8 0 ++
      (encode 8 t.initialPadding.toUInt64.toNat ++ (encode 2 1 ++ encode 2 0))) =
      some ([t.initialPadding.toInt], []) := by
    simp only [readMany, readEdit, timeWidth, readUInt_encode, readBytes_self hlast, one_ne_zero,
      if_false, toNat_mod_u64, signed_toUInt64, Option.bind_eq_bind, Option.bind_some,
      Option.pure_def]
  simp only [readElst, elstTree, fullLeaf, BoxTree.data, List.append_assoc,
    readVersionFlags_encode _ _ _ (by decide : 1 < 2 ^ 8) (by decide : 0 < 2 ^ 24),
    readUInt_encode, Option.bind_eq_bind, Option.bind_some]
  rw [show 1 % 256 ^ 4 = 1 from rfl, hedit]
  rfl

theorem readVisualEntry_visualEntryTree (t : Track) (p : AVCodecParameters) :
    readVisualEntry (visualEntryTree t p) =
      some (.visual (sampleEntryFourCC t) (UInt16.ofInt p.width).toNat
        (UInt16.ofInt p.height).toNat ((codecConfigTrees t).map fun c ↦ (c.type, c.data))) := by
  have hfront : visualFront.length = 24 := by
    simp [visualFront, sampleEntryFront, length_wordBytes]
  simp only [readVisualEntry, visualEntryTree, visualFields, BoxTree.data, BoxTree.type,
    BoxTree.children, List.append_assoc, readBytes_append _ hfront, readUInt_encode, toNat_mod_u16,
    Option.bind_eq_bind, Option.bind_some]

def decoderSpecificInfo (p : AVCodecParameters) : Descriptor := ⟨0x05, p.extradata⟩

/-- Object type, stream type, buffer size and bit rates. -/
def decoderFields (p : AVCodecParameters) : List UInt8 :=
  [0x40, 0x15] ++ encode 3 0 ++ encode 4 0 ++ encode 4 (bitRate p).toNat

def decoderConfigDescriptor (p : AVCodecParameters) : Descriptor :=
  ⟨0x04, decoderFields p ++ (decoderSpecificInfo p).encode⟩

def slConfigDescriptor : Descriptor := ⟨0x06, [0x02]⟩

def esDescriptor (p : AVCodecParameters) : Descriptor :=
  ⟨0x03, encode 2 0 ++ encode 1 0 ++
    ((decoderConfigDescriptor p).encode ++ slConfigDescriptor.encode)⟩

theorem length_decoderFields (p : AVCodecParameters) : (decoderFields p).length = 13 := by
  simp [decoderFields]

theorem length_decoderConfigDescriptor (p : AVCodecParameters) :
    (decoderConfigDescriptor p).payload.length = 18 + p.extradata.length := by
  simp only [decoderConfigDescriptor, decoderSpecificInfo, List.length_append,
    length_decoderFields, Descriptor.length_encode]
  omega

theorem length_esDescriptor (p : AVCodecParameters) :
    (esDescriptor p).payload.length = 32 + p.extradata.length := by
  simp only [esDescriptor, slConfigDescriptor, List.length_append, length_encode,
    Descriptor.length_encode, length_decoderConfigDescriptor, List.length_singleton]
  omega

/-- With at most 95 bytes of extradata every size fits one group of seven bits. -/
theorem esdsPayload_eq {p : AVCodecParameters} (hsize : p.extradata.length ≤ 95) :
    esdsPayload p = (esDescriptor p).encode := by
  have htoNat : (UInt8.ofNat p.extradata.length).toNat = p.extradata.length := by
    rw [UInt8.toNat_ofNat', Nat.mod_eq_of_lt (by omega)]
  have hconfig : 13 + 5 + UInt8.ofNat p.extradata.length =
      UInt8.ofNat (decoderConfigDescriptor p).payload.length := by
    apply UInt8.toNat_inj.mp
    rw [UInt8.toNat_add, htoNat, length_decoderConfigDescriptor, UInt8.toNat_ofNat']
    rfl
  have hes : 3 + 5 + (13 + 5 + UInt8.ofNat p.extradata.length) + 5 + 1 =
      UInt8.ofNat (esDescriptor p).payload.length := by
    apply UInt8.toNat_inj.mp
    simp only [UInt8.toNat_add, htoNat, length_esDescriptor, UInt8.toNat_ofNat', UInt8.reduceToNat]
    omega
  have htake : p.extradata.take (UInt8.ofNat p.extradata.length).toNat = p.extradata := by
    rw [htoNat, List.take_length]
  rw [esdsPayload, hes, hconfig, htake]
  simp [Descriptor.encode, descriptorHeader, decoderConfigDescriptor, decoderSpecificInfo,
    esDescriptor, slConfigDescriptor, decoderFields, encode]

theorem readEsdsTree_esdsPayload {p : AVCodecParameters} (hsize : p.extradata.length ≤ 95) :
    readEsdsTree (fullLeaf ⟨'e', 's', 'd', 's'⟩ 0 0 (esdsPayload p)).data =
      some p.extradata := by
  have hes : payloadsTagged [0x03] (esDescriptor p).encode = some [(esDescriptor p).payload] :=
    payloadsTagged_encode _ (by rw [length_esDescriptor]; omega)
  have hconfig : payloadsTagged [0x04, 0x06]
      ((decoderConfigDescriptor p).encode ++ slConfigDescriptor.encode) =
        some [(decoderConfigDescriptor p).payload, slConfigDescriptor.payload] := by
    have hread := payloadsTagged_flatMap [decoderConfigDescriptor p, slConfigDescriptor]
      (by simp [length_decoderConfigDescriptor, slConfigDescriptor]; omega)
    rwa [List.flatMap_cons, List.flatMap_singleton] at hread
  have hspecific : payloadsTagged [0x05] (decoderSpecificInfo p).encode = some [p.extradata] :=
    payloadsTagged_encode (decoderSpecificInfo p) (hsize.trans_lt (by decide))
  have hflags : ∀ i, Nat.testBit 0 i = false := Nat.zero_testBit
  rw [esdsPayload_eq hsize]
  simp only [readEsdsTree, fullLeaf, BoxTree.data, List.append_assoc,
    readVersionFlags_encode _ _ _ (by decide : 0 < 2 ^ 8) (by decide : 0 < 2 ^ 24), hes,
    Option.bind_eq_bind, Option.bind_some]
  simp only [esDescriptor, List.append_assoc, readUInt_encode, Option.bind_some, Nat.zero_mod,
    hflags, readOptional, skipUrl, Bool.false_eq_true, if_false, hconfig]
  simp only [decoderConfigDescriptor, readBytes_append _ (length_decoderFields p),
    Option.bind_some, hspecific]

theorem readAudioEntry_audioEntryTree {t : Track} {p : AVCodecParameters}
    (hp : t.codecpar = some p) (hsize : p.extradata.length ≤ 95) :
    readAudioEntry (audioEntryTree t p) =
      some (.audio (sampleEntryFourCC t) (channelCount p).toNat ((sampleRate p).toNat / 2 ^ 16)
        p.extradata) := by
  have hfront : audioFront.length = 16 := by simp [audioFront, sampleEntryFront, length_wordBytes]
  have hmiddle : audioMiddle.length = 6 := by simp [audioMiddle]
  have hesds : (audioEntryTree t p).find [⟨'e', 's', 'd', 's'⟩] =
      some (fullLeaf ⟨'e', 's', 'd', 's'⟩ 0 0 (esdsPayload p)) := by
    rw [audioEntryTree, esdsTrees, hp]
    rfl
  simp only [readAudioEntry, hesds, Option.bind_eq_bind, Option.bind_some,
    readEsds_of_readEsdsTree (readEsdsTree_esdsPayload hsize)]
  simp only [audioEntryTree, audioFields, BoxTree.data, BoxTree.type, List.append_assoc,
    readBytes_append _ hfront, readBytes_append _ hmiddle, readUInt_encode, readUInt_encode_end,
    toNat_mod_u16, toNat_mod_u32, Option.bind_some]

/-! ## Tracks -/

structure VideoParams (p : AVCodecParameters) : Prop where
  codecType : p.codecType = .video
  codecId : p.codecId = .h264 ∨ p.codecId = .hevc
  width : 1 ≤ p.width ∧ p.width ≤ 65535
  height : 1 ≤ p.height ∧ p.height ≤ 65535

structure AacParams (p : AVCodecParameters) : Prop where
  codecType : p.codecType = .audio
  codecId : p.codecId = .aac
  sampleRate : 1 ≤ p.sampleRate ∧ p.sampleRate ≤ 65535
  nbChannels : 1 ≤ p.nbChannels ∧ p.nbChannels ≤ 65535
  extradata : p.extradata.length ≤ 95

/-- A track that an init segment can describe. -/
structure Describable (t : Track) : Prop where
  trackId_lt : t.trackId.toNat < 2 ^ 32 - 1
  den : 1 ≤ t.timescale.den ∧ t.timescale.den < 2 ^ 31
  kind : ∃ p, t.codecpar = some p ∧ (VideoParams p ∨ AacParams p)

/-- The boxes behind the fields of a visual sample entry. -/
def configBoxes (p : AVCodecParameters) : List (FourCC × List UInt8) :=
  if p.extradata = [] then []
  else if p.codecId = .h264 then [(⟨'a', 'v', 'c', 'C'⟩, p.extradata)]
  else [(⟨'h', 'v', 'c', 'C'⟩, p.extradata)]

def visualFormat (p : AVCodecParameters) : FourCC :=
  if p.codecId = .h264 then ⟨'a', 'v', 'c', '1'⟩ else ⟨'h', 'e', 'v', '1'⟩

/-- What a movie says about a track is what the writer was given. -/
structure TrackRecovered (t : Track) (m : MovieTrack) : Prop where
  trackId : m.header.trackId = t.trackId.toNat
  timescale : (m.timescale : ℤ) = t.timescale.den
  video : ∀ p, t.codecpar = some p → p.codecType = .video →
    m.handler = ⟨'v', 'i', 'd', 'e'⟩ ∧
      (m.header.width : ℤ) = p.width ∧ (m.header.height : ℤ) = p.height ∧
      m.entries =
        [.visual (visualFormat p) m.header.width m.header.height (configBoxes p)]
  audio : ∀ p, t.codecpar = some p → p.codecType = .audio →
    m.handler = ⟨'s', 'o', 'u', 'n'⟩ ∧
      ∃ channelCount sampleRate : ℕ, (channelCount : ℤ) = p.nbChannels ∧
        (sampleRate : ℤ) = p.sampleRate ∧
        m.entries = [.audio ⟨'m', 'p', '4', 'a'⟩ channelCount sampleRate p.extradata]
  editList : m.editList =
    if isAudio t ∧ 0 < t.initialPadding then some [t.initialPadding.toInt] else none

theorem find_trakTree_mdia (t : Track) :
    (trakTree t).find [⟨'m', 'd', 'i', 'a'⟩] = some (mdiaTree t) := by
  rw [trakTree, edtsTrees]
  split_ifs <;> rfl

theorem find_minfTree (t : Track) :
    (minfTree t).find [⟨'d', 'i', 'n', 'f'⟩, ⟨'d', 'r', 'e', 'f'⟩] = some drefTree ∧
      (minfTree t).find [⟨'s', 't', 'b', 'l'⟩, ⟨'s', 't', 's', 'd'⟩] = some (stsdTree t) := by
  rw [minfTree, mediaHeaderTrees]
  split_ifs <;> exact ⟨rfl, rfl⟩

theorem readEdits_trakTree (t : Track) :
    readEdits (trakTree t) = some
      (if isAudio t ∧ 0 < t.initialPadding then some [t.initialPadding.toInt] else none) := by
  have hfind : (trakTree t).find [⟨'e', 'd', 't', 's'⟩, ⟨'e', 'l', 's', 't'⟩] =
      if isAudio t ∧ 0 < t.initialPadding then some (elstTree t) else none := by
    rw [trakTree, edtsTrees]
    split_ifs <;> rfl
  rw [readEdits, hfind]
  split_ifs
  · exact congrArg (Option.map some) (readElst_elstTree t)
  · rfl

theorem readEntries_node {type : FourCC} {children : List BoxTree} (hone : children.length = 1) :
    readEntries (.node type (entryCount 1) children) = some children := by
  simp only [readEntries, BoxTree.data, BoxTree.children, entryCount, List.append_assoc,
    readVersionFlags_encode _ _ _ (by decide : 0 < 2 ^ 8) (by decide : 0 < 2 ^ 24),
    readUInt_encode_end, Option.bind_eq_bind, Option.bind_some]
  exact if_pos hone.symm

theorem readTrak_trakTree {t : Track} {entry : BoxTree} {view : SampleEntry}
    (hentry : sampleEntryTrees t = [entry])
    (hview : readSampleEntry (handlerType t) entry = some view) :
    readTrak (trakTree t) = some
      { header := ⟨t.trackId.toNat, (displaySize t).1.toNat / 2 ^ 16,
          (displaySize t).2.toNat / 2 ^ 16⟩
        timescale := t.timescale.denU32.toNat
        handler := handlerType t
        dataReferences := 1
        entries := [view]
        editList :=
          if isAudio t ∧ 0 < t.initialPadding then some [t.initialPadding.toInt] else none } := by
  have htkhd : (trakTree t).find [⟨'t', 'k', 'h', 'd'⟩] = some (tkhdTree t) := rfl
  have hmdhd : (mdiaTree t).find [⟨'m', 'd', 'h', 'd'⟩] = some (mdhdTree t) := rfl
  have hhdlr : (mdiaTree t).find [⟨'h', 'd', 'l', 'r'⟩] = some (hdlrTree t) := rfl
  have hminf : (mdiaTree t).find [⟨'m', 'i', 'n', 'f'⟩] = some (minfTree t) := rfl
  have hdref : readEntries drefTree = some [urlTree] := readEntries_node rfl
  have hstsd : readEntries (stsdTree t) = some [entry] := by
    rw [stsdTree, hentry]
    exact readEntries_node rfl
  have hentries : [entry].mapM (readSampleEntry (handlerType t)) = some [view] := by
    simp [hview]
  simp only [readTrak, htkhd, readTkhd_tkhdTree, find_trakTree_mdia, hmdhd, readMdhd_mdhdTree,
    hhdlr, readHdlr_hdlrTree, hminf, find_minfTree, hdref, hstsd, hentries, readEdits_trakTree,
    Option.bind_eq_bind, Option.bind_some, List.length_singleton]

theorem toNat_shiftLeft_sixteen {v : ℤ} (hlow : 0 ≤ v) (hhigh : v ≤ 65535) :
    (((UInt32.ofInt v <<< 16).toNat / 2 ^ 16 : ℕ) : ℤ) = v := by
  have hv := toNat_uint32 v
  rw [Int.emod_eq_of_lt hlow (by omega)] at hv
  have hshift : (UInt32.ofInt v <<< 16).toNat = (UInt32.ofInt v).toNat * 2 ^ 16 % 2 ^ 32 := by
    rw [UInt32.toNat_shiftLeft, Nat.shiftLeft_eq]
    rfl
  omega

theorem toNat_uint16 {v : ℤ} (hlow : 0 ≤ v) (hhigh : v ≤ 65535) :
    ((UInt16.ofInt v).toNat : ℤ) = v := by
  rw [UInt16.ofInt, UInt16.toNat_ofNat']
  omega

theorem toNat_denU32 {t : Track} (hden : 1 ≤ t.timescale.den ∧ t.timescale.den < 2 ^ 31) :
    (t.timescale.denU32.toNat : ℤ) = t.timescale.den := by
  rw [AVRational.denU32, toNat_uint32]
  omega

theorem sampleEntryFourCC_video {t : Track} {p : AVCodecParameters} (hp : t.codecpar = some p)
    (hvideo : VideoParams p) : sampleEntryFourCC t = visualFormat p := by
  rcases hvideo.codecId with hid | hid <;> simp [sampleEntryFourCC, visualFormat, hp, hid]

theorem codecConfigTrees_video {t : Track} {p : AVCodecParameters} (hp : t.codecpar = some p)
    (hvideo : VideoParams p) :
    (codecConfigTrees t).map (fun c ↦ (c.type, c.data)) = configBoxes p := by
  by_cases hnil : p.extradata = []
  · simp [codecConfigTrees, configBoxes, hp, hnil]
  · rcases hvideo.codecId with hid | hid <;>
      simp [codecConfigTrees, codecConfigBoxName, configBoxes, hp, hid, hnil, BoxTree.type,
        BoxTree.data]

theorem readTrak_video {t : Track} {p : AVCodecParameters} (hp : t.codecpar = some p)
    (hden : 1 ≤ t.timescale.den ∧ t.timescale.den < 2 ^ 31) (hvideo : VideoParams p) :
    ∃ m, readTrak (trakTree t) = some m ∧ TrackRecovered t m := by
  have hisVideo : isVideo t = true := by simp [isVideo, hp, hvideo.codecType]
  have hhandler : handlerType t = ⟨'v', 'i', 'd', 'e'⟩ := if_pos hisVideo
  have hentry : sampleEntryTrees t = [visualEntryTree t p] := by
    simp [sampleEntryTrees, hp, hvideo.codecType]
  have hview : readSampleEntry (handlerType t) (visualEntryTree t p) =
      some (.visual (visualFormat p) (UInt16.ofInt p.width).toNat (UInt16.ofInt p.height).toNat
        (configBoxes p)) := by
    rw [hhandler, readSampleEntry, if_pos rfl, readVisualEntry_visualEntryTree,
      sampleEntryFourCC_video hp hvideo, codecConfigTrees_video hp hvideo]
  have hsize : displaySize t = (UInt32.ofInt p.width <<< 16, UInt32.ofInt p.height <<< 16) := by
    simp [displaySize, hp, hisVideo]
  obtain ⟨hw, hw'⟩ := hvideo.width
  obtain ⟨hh, hh'⟩ := hvideo.height
  have hwidth := toNat_shiftLeft_sixteen (v := p.width) (by omega) hw'
  have hheight := toNat_shiftLeft_sixteen (v := p.height) (by omega) hh'
  have hwidth' := toNat_uint16 (v := p.width) (by omega) hw'
  have hheight' := toNat_uint16 (v := p.height) (by omega) hh'
  refine ⟨_, readTrak_trakTree hentry hview, rfl, toNat_denU32 hden, fun q hq _ ↦ ?_,
    fun q hq haudio ↦ ?_, rfl⟩
  · obtain rfl := Option.some.inj (hq.symm.trans hp)
    rw [hsize]
    refine ⟨hhandler, hwidth, hheight, ?_⟩
    dsimp only
    rw [show (UInt16.ofInt q.width).toNat = (UInt32.ofInt q.width <<< 16).toNat / 2 ^ 16 by omega,
      show (UInt16.ofInt q.height).toNat = (UInt32.ofInt q.height <<< 16).toNat / 2 ^ 16 by omega]
  · obtain rfl := Option.some.inj (hq.symm.trans hp)
    rw [hvideo.codecType] at haudio
    cases haudio

theorem readTrak_aac {t : Track} {p : AVCodecParameters} (hp : t.codecpar = some p)
    (hden : 1 ≤ t.timescale.den ∧ t.timescale.den < 2 ^ 31) (haac : AacParams p) :
    ∃ m, readTrak (trakTree t) = some m ∧ TrackRecovered t m := by
  have hisVideo : isVideo t = false := by simp [isVideo, hp, haac.codecType]
  have hisAudio : isAudio t = true := by simp [isAudio, hp, haac.codecType]
  have hhandler : handlerType t = ⟨'s', 'o', 'u', 'n'⟩ := by simp [handlerType, hisVideo, hisAudio]
  have hentry : sampleEntryTrees t = [audioEntryTree t p] := by
    simp [sampleEntryTrees, hp, haac.codecType]
  have hformat : sampleEntryFourCC t = ⟨'m', 'p', '4', 'a'⟩ := by
    simp [sampleEntryFourCC, hp, haac.codecId]
  have hview : readSampleEntry (handlerType t) (audioEntryTree t p) =
      some (.audio ⟨'m', 'p', '4', 'a'⟩ (channelCount p).toNat ((sampleRate p).toNat / 2 ^ 16)
        p.extradata) := by
    rw [hhandler, readSampleEntry, if_neg (by decide), if_pos rfl,
      readAudioEntry_audioEntryTree hp haac.extradata, hformat]
  obtain ⟨hrate, hrate'⟩ := haac.sampleRate
  obtain ⟨hchannels, hchannels'⟩ := haac.nbChannels
  refine ⟨_, readTrak_trakTree hentry hview, rfl, toNat_denU32 hden, fun q hq hvideo ↦ ?_,
    fun q hq _ ↦ ?_, rfl⟩
  · obtain rfl := Option.some.inj (hq.symm.trans hp)
    rw [haac.codecType] at hvideo
    cases hvideo
  · obtain rfl := Option.some.inj (hq.symm.trans hp)
    refine ⟨hhandler, _, _, ?_, ?_, rfl⟩
    · rw [channelCount, if_pos (by omega)]
      exact toNat_uint16 (by omega) hchannels'
    · rw [sampleRate, if_pos (by omega)]
      exact toNat_shiftLeft_sixteen (by omega) hrate'

theorem exists_readTrak {t : Track} (h : Describable t) :
    ∃ m, readTrak (trakTree t) = some m ∧ TrackRecovered t m := by
  obtain ⟨p, hp, hvideo | haac⟩ := h.kind
  · exact readTrak_video hp h.den hvideo
  · exact readTrak_aac hp h.den haac

theorem follows_fullLeaf {type : FourCC} {version flags : ℕ} {payload : List UInt8}
    (htype : FourCC.ofBytes type.bytes = some type) (hleaf : containerFields type = none) :
    (fullLeaf type version flags payload).Follows containerFields :=
  .leaf htype hleaf

theorem follows_dinfTree : dinfTree.Follows containerFields := by
  refine .node rfl rfl fun child hchild ↦ ?_
  obtain rfl := List.mem_singleton.mp hchild
  refine .node rfl rfl fun child hchild ↦ ?_
  obtain rfl := List.mem_singleton.mp hchild
  exact follows_fullLeaf rfl rfl

theorem length_visualFields (p : AVCodecParameters) : (visualFields p).length = 78 := by
  simp [visualFields, visualFront, visualBack, sampleEntryFront, length_wordBytes]

theorem length_audioFields (p : AVCodecParameters) : (audioFields p).length = 28 := by
  simp [audioFields, audioFront, audioMiddle, sampleEntryFront, length_wordBytes]

theorem follows_visualEntryTree {t : Track} {p : AVCodecParameters} (hp : t.codecpar = some p)
    (hvideo : VideoParams p) : (visualEntryTree t p).Follows containerFields := by
  rw [visualEntryTree, sampleEntryFourCC_video hp hvideo]
  have hchildren : ∀ child ∈ codecConfigTrees t, child.Follows containerFields := by
    intro child hchild
    rcases hvideo.codecId with hid | hid <;>
      simp only [codecConfigTrees, codecConfigBoxName, hp, hid] at hchild <;>
      split at hchild
    · cases hchild
    · obtain rfl := List.mem_singleton.mp hchild
      exact .leaf rfl rfl
    · cases hchild
    · obtain rfl := List.mem_singleton.mp hchild
      exact .leaf rfl rfl
  rcases hvideo.codecId with hid | hid
  · rw [visualFormat, if_pos hid]
    exact .node rfl (by rw [length_visualFields]; rfl) hchildren
  · rw [visualFormat, if_neg (by rw [hid]; decide)]
    exact .node rfl (by rw [length_visualFields]; rfl) hchildren

theorem follows_audioEntryTree {t : Track} {p : AVCodecParameters} (hp : t.codecpar = some p)
    (haac : AacParams p) : (audioEntryTree t p).Follows containerFields := by
  have hformat : sampleEntryFourCC t = ⟨'m', 'p', '4', 'a'⟩ := by
    simp [sampleEntryFourCC, hp, haac.codecId]
  rw [audioEntryTree, hformat]
  refine .node rfl (by rw [length_audioFields]; rfl) fun child hchild ↦ ?_
  rw [esdsTrees, hp] at hchild
  obtain rfl := List.mem_singleton.mp hchild
  exact follows_fullLeaf rfl rfl

theorem follows_sampleEntry {t : Track} (h : Describable t) :
    ∀ child ∈ sampleEntryTrees t, child.Follows containerFields := by
  obtain ⟨p, hp, hkind⟩ := h.kind
  intro child hchild
  rcases hkind with hvideo | haac
  · simp only [sampleEntryTrees, hp, hvideo.codecType, List.mem_singleton] at hchild
    rw [hchild]
    exact follows_visualEntryTree hp hvideo
  · simp only [sampleEntryTrees, hp, haac.codecType, List.mem_singleton] at hchild
    rw [hchild]
    exact follows_audioEntryTree hp haac

theorem follows_stblTree {t : Track} (h : Describable t) :
    (stblTree t).Follows containerFields := by
  have hstsd : (stsdTree t).Follows containerFields := .node rfl rfl (follows_sampleEntry h)
  refine .node rfl rfl ?_
  simp only [List.forall_mem_cons]
  exact ⟨hstsd, follows_fullLeaf rfl rfl, follows_fullLeaf rfl rfl, follows_fullLeaf rfl rfl,
    follows_fullLeaf rfl rfl, List.forall_mem_nil _⟩

theorem follows_mdiaTree {t : Track} (h : Describable t) :
    (mdiaTree t).Follows containerFields := by
  have hheader : ∀ child ∈ mediaHeaderTrees t, child.Follows containerFields := by
    intro child hchild
    rw [mediaHeaderTrees] at hchild
    split_ifs at hchild
    · obtain rfl := List.mem_singleton.mp hchild
      exact follows_fullLeaf rfl rfl
    · obtain rfl := List.mem_singleton.mp hchild
      exact follows_fullLeaf rfl rfl
    · cases hchild
  have hminf : (minfTree t).Follows containerFields := by
    refine .node rfl rfl ?_
    simp only [List.forall_mem_append, List.forall_mem_cons]
    exact ⟨hheader, follows_dinfTree, follows_stblTree h, List.forall_mem_nil _⟩
  refine .node rfl rfl ?_
  simp only [List.forall_mem_cons]
  exact ⟨follows_fullLeaf rfl rfl, follows_fullLeaf rfl rfl, hminf, List.forall_mem_nil _⟩

theorem follows_trakTree {t : Track} (h : Describable t) :
    (trakTree t).Follows containerFields := by
  have hedts : ∀ child ∈ edtsTrees t, child.Follows containerFields := by
    intro child hchild
    rw [edtsTrees] at hchild
    split_ifs at hchild
    · obtain rfl := List.mem_singleton.mp hchild
      refine .node rfl rfl fun child hchild ↦ ?_
      obtain rfl := List.mem_singleton.mp hchild
      exact follows_fullLeaf rfl rfl
    · cases hchild
  refine .node rfl rfl ?_
  simp only [List.cons_append, List.forall_mem_cons, List.forall_mem_append]
  exact ⟨follows_fullLeaf rfl rfl, hedts, follows_mdiaTree h, List.forall_mem_nil _⟩

theorem follows_moovTree {tracks : List Track} (h : ∀ t ∈ tracks, Describable t) :
    (moovTree tracks).Follows containerFields := by
  have hmvex : (BoxTree.node ⟨'m', 'v', 'e', 'x'⟩ [] (tracks.map trexTree)).Follows
      containerFields := by
    refine .node rfl rfl (List.forall_mem_map.mpr fun t _ ↦ ?_)
    exact follows_fullLeaf rfl rfl
  refine .node rfl rfl ?_
  simp only [List.forall_mem_cons]
  exact ⟨follows_fullLeaf rfl rfl, hmvex,
    List.forall_mem_map.mpr fun t ht ↦ follows_trakTree (h t ht)⟩

/-! ## The movie -/

/-- A movie that describes the given tracks and no others. -/
structure MovieRecovered (tracks : List Track) (m : Movie) : Prop where
  boxTypes : m.boxTypes = [⟨'f', 't', 'y', 'p'⟩, ⟨'m', 'o', 'o', 'v'⟩]
  trexIds : m.trexIds = tracks.map fun t ↦ t.trackId.toNat
  nextTrackId : ∀ t ∈ tracks, t.trackId.toNat < m.nextTrackId
  tracks : List.Forall₂ TrackRecovered tracks m.tracks

theorem foldl_max_trackId (bound : ℕ) (tracks : List Track) (m : UInt32)
    (hm : m.toNat < bound) (hbound : ∀ t ∈ tracks, t.trackId.toNat < bound) :
    m.toNat ≤ (tracks.foldl (fun maxTid t ↦ max maxTid t.trackId) m).toNat ∧
      (tracks.foldl (fun maxTid t ↦ max maxTid t.trackId) m).toNat < bound ∧
      ∀ t ∈ tracks,
        t.trackId.toNat ≤ (tracks.foldl (fun maxTid t ↦ max maxTid t.trackId) m).toNat := by
  induction tracks generalizing m with
  | nil => exact ⟨le_rfl, hm, List.forall_mem_nil _⟩
  | cons t tracks ih =>
      have hmax : (max m t.trackId).toNat = max m.toNat t.trackId.toNat := by
        rw [UInt32.max_def]
        split_ifs with hle
        · exact (max_eq_right (UInt32.le_iff_toNat_le.mp hle)).symm
        · rw [UInt32.le_iff_toNat_le] at hle
          exact (max_eq_left (by omega)).symm
      have ht := hbound t List.mem_cons_self
      obtain ⟨hle, hlt, hall⟩ := ih (max m t.trackId) (by omega)
        fun u hu ↦ hbound u (List.mem_cons_of_mem _ hu)
      rw [List.foldl_cons]
      refine ⟨by omega, hlt, List.forall_mem_cons.mpr ⟨by omega, hall⟩⟩

theorem exists_mapM {α β γ : Type} (r : α → γ → Prop) (f : β → Option γ) (g : α → β)
    {xs : List α} (h : ∀ x ∈ xs, ∃ y, f (g x) = some y ∧ r x y) :
    ∃ ys, (xs.map g).mapM f = some ys ∧ List.Forall₂ r xs ys := by
  induction xs with
  | nil => exact ⟨[], rfl, .nil⟩
  | cons x xs ih =>
      obtain ⟨y, hy, hxy⟩ := h x List.mem_cons_self
      obtain ⟨ys, hys, hall⟩ := ih fun x hx ↦ h x (List.mem_cons_of_mem _ hx)
      refine ⟨y :: ys, ?_, .cons hxy hall⟩
      simp [hy, hys]

theorem lt_nextTrackId {tracks : List Track} (h : ∀ t ∈ tracks, Describable t) :
    ∀ t ∈ tracks, t.trackId.toNat < (maxTrackId tracks + 1).toNat := by
  obtain ⟨-, hlt, hall⟩ := foldl_max_trackId (2 ^ 32 - 1) tracks 0 (by decide)
    fun t ht ↦ (h t ht).trackId_lt
  intro t ht
  have hone : (maxTrackId tracks + 1).toNat = (maxTrackId tracks).toNat + 1 := by
    rw [UInt32.toNat_add, Nat.mod_eq_of_lt]
    · rfl
    · exact Nat.add_lt_of_lt_sub hlt
  rw [hone]
  exact Nat.lt_succ_of_le (hall t ht)

theorem filter_type_map (tree : Track → BoxTree) (type : FourCC)
    (htype : ∀ t, (tree t).type = type) (tracks : List Track) :
    (tracks.map tree).filter (fun t ↦ t.type = type) = tracks.map tree := by
  rw [List.filter_eq_self]
  exact List.forall_mem_map.mpr fun t _ ↦ decide_eq_true (htype t)

theorem mapM_readTrex (tracks : List Track) :
    (tracks.map trexTree).mapM (fun t ↦ readTrex t.data) =
      some (tracks.map fun t ↦ t.trackId.toNat) := by
  induction tracks with
  | nil => rfl
  | cons t tracks ih => simp [readTrex_trexTree, ih]

theorem readTrees_init {tracks : List Track} (h : ∀ t ∈ tracks, Describable t)
    (hsize : (encodeTrees [ftypTree, moovTree tracks]).length < 2 ^ 32) :
    readTrees containerFields (encodeTrees [ftypTree, moovTree tracks]) =
      some [ftypTree, moovTree tracks] := by
  apply readTrees_encodeTrees _ hsize
  simp only [List.forall_mem_cons]
  exact ⟨.leaf rfl rfl, follows_moovTree h, List.forall_mem_nil _⟩

theorem readMovie_encodeTrees {tracks : List Track} (h : ∀ t ∈ tracks, Describable t)
    (hsize : (encodeTrees [ftypTree, moovTree tracks]).length < 2 ^ 32) :
    ∃ movie, readMovie (encodeTrees [ftypTree, moovTree tracks]) = some movie ∧
      MovieRecovered tracks movie := by
  have hmoov : [ftypTree, moovTree tracks].find?
      (fun t ↦ t.type = (⟨'m', 'o', 'o', 'v'⟩ : FourCC)) = some (moovTree tracks) := rfl
  have hmvhd : (moovTree tracks).find [⟨'m', 'v', 'h', 'd'⟩] =
      some (mvhdTree (maxTrackId tracks + 1)) := rfl
  have hmvex : (moovTree tracks).find [⟨'m', 'v', 'e', 'x'⟩] =
      some (.node ⟨'m', 'v', 'e', 'x'⟩ [] (tracks.map trexTree)) := rfl
  have htrexs : (BoxTree.node ⟨'m', 'v', 'e', 'x'⟩ [] (tracks.map trexTree)).childrenOfType
      ⟨'t', 'r', 'e', 'x'⟩ = tracks.map trexTree :=
    filter_type_map trexTree ⟨'t', 'r', 'e', 'x'⟩ (fun _ ↦ rfl) tracks
  have htraks : (moovTree tracks).childrenOfType ⟨'t', 'r', 'a', 'k'⟩ = tracks.map trakTree :=
    filter_type_map trakTree ⟨'t', 'r', 'a', 'k'⟩ (fun _ ↦ rfl) tracks
  obtain ⟨views, hviews, hrecovered⟩ := exists_mapM TrackRecovered readTrak trakTree
    fun t ht ↦ exists_readTrak (h t ht)
  refine ⟨⟨_, _, _, views⟩, ?_, rfl, rfl, lt_nextTrackId h, hrecovered⟩
  simp only [readMovie, readTrees_init h hsize, hmoov, hmvhd, readMvhd_mvhdTree, hmvex, htrexs,
    mapM_readTrex, htraks, hviews, Option.bind_eq_bind, Option.bind_some]
  rfl

/-- An init segment consists of boxes that are tiled by their children down to the data
boxes, and a movie reader recovers from it the tracks it was built for. -/
theorem readMovie_buildInit {tracks : List Track} (hne : tracks ≠ [])
    (h : ∀ t ∈ tracks, Describable t)
    (hsize : ∀ bytes, buildInit tracks = .ok bytes → bytes.length < 2 ^ 32) :
    ∃ bytes boxes movie, buildInit tracks = .ok bytes ∧
      readTrees containerFields bytes = some boxes ∧ encodeTrees boxes = bytes ∧
      readMovie bytes = some movie ∧ MovieRecovered tracks movie := by
  have hbuild := buildInit_eq hne
  have htrees := readTrees_init h (hsize _ hbuild)
  obtain ⟨movie, hread, hrecovered⟩ := readMovie_encodeTrees h (hsize _ hbuild)
  exact ⟨_, _, movie, hbuild, htrees, rfl, hread, hrecovered⟩

/-! An H.264 track, and an AAC track with a padding. -/

def h264Track : Track where
  trackId := 1
  timescale := ⟨1, 16000⟩
  codecpar := some ⟨.video, .h264, [0x01, 0x42, 0x00, 0x1F, 0xFF, 0xE1], 1280, 720, 0, 0, 0⟩

def aacTrack : Track where
  trackId := 2
  timescale := ⟨1, 48000⟩
  codecpar := some ⟨.audio, .aac, [0x11, 0x90], 0, 0, 0, 48000, 2⟩
  initialPadding := 1024

theorem describable_samples : ∀ t ∈ [h264Track, aacTrack], Describable t := by
  simp only [List.forall_mem_cons]
  exact ⟨⟨by decide, by decide, _, rfl, .inl ⟨rfl, .inl rfl, by decide, by decide⟩⟩,
    ⟨by decide, by decide, _, rfl, .inr ⟨rfl, rfl, by decide, by decide, by decide⟩⟩,
    List.forall_mem_nil _⟩

theorem length_buildInit_samples (bytes : List UInt8)
    (hbytes : buildInit [h264Track, aacTrack] = .ok bytes) : bytes.length < 2 ^ 32 := by
  rw [buildInit_eq (by simp)] at hbytes
  obtain rfl := Except.ok.inj hbytes
  decide +kernel

theorem readMovie_buildInit_two_tracks :
    ∃ bytes boxes movie, buildInit [h264Track, aacTrack] = .ok bytes ∧
      readTrees containerFields bytes = some boxes ∧ encodeTrees boxes = bytes ∧
      readMovie bytes = some movie ∧ MovieRecovered [h264Track, aacTrack] movie :=
  readMovie_buildInit (by simp) describable_samples length_buildInit_samples

end Fmp4Writer

end Fmp4Packager
