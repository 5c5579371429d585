import Fmp4Packager.Format.BoxTree
import Fmp4Packager.InitSegment

/-!
# The layout of an init segment

The boxes that each writer of the init segment appends, as trees.  The builder's
placeholders and back-patched sizes disappear here: `buildInit` emits the bytes of
two trees.
-/

namespace Fmp4Packager

open BigEndian IsoBox BoxBuilder

namespace Fmp4Writer

def wordBytes (words : List UInt32) : List UInt8 := words.flatMap fun v ↦ encode 4 v.toNat

/-- A data box that starts with a version and flags. -/
def fullLeaf (type : FourCC) (version flags : ℕ) (payload : List UInt8) : BoxTree :=
  .leaf type (encode 1 version ++ encode 3 flags ++ payload)

def ftypTree : BoxTree :=
  .leaf ⟨'f', 't', 'y', 'p'⟩ (FourCC.bytes ⟨'i', 's', 'o', '6'⟩ ++ encode 4 1 ++
    FourCC.bytes ⟨'i', 's', 'o', '6'⟩ ++ FourCC.bytes ⟨'i', 's', 'o', '5'⟩ ++
    FourCC.bytes ⟨'d', 'a', 's', 'h'⟩)

/-- Rate, volume and matrix, with the reserved fields around them. -/
def mvhdMiddle : List UInt8 :=
  encode 4 0x00010000 ++ encode 2 0x0100 ++ encode 2 0 ++ (encode 4 0 ++ encode 4 0) ++
    wordBytes kIdentityMatrix ++ wordBytes (List.replicate 6 0)

def mvhdTree (nextTrackId : UInt32) : BoxTree :=
  fullLeaf ⟨'m', 'v', 'h', 'd'⟩ 1 0 (encode 8 0 ++ encode 8 0 ++
    encode 4 kMovieTimescale.toNat ++ encode 8 0 ++ mvhdMiddle ++ encode 4 nextTrackId.toNat)

def trexTree (t : Track) : BoxTree :=
  fullLeaf ⟨'t', 'r', 'e', 'x'⟩ 0 0
    (encode 4 t.trackId.toNat ++ wordBytes [1, 0, 0, if isVideo t then 0x01010000 else 0])

/-- Layer, volume and matrix, with the reserved fields around them. -/
def tkhdMiddle (t : Track) : List UInt8 :=
  (encode 4 0 ++ encode 4 0) ++ encode 2 0 ++ encode 2 0 ++
    encode 2 (if isAudio t then 0x0100 else 0 : UInt16).toNat ++ encode 2 0 ++
    wordBytes kIdentityMatrix

/-- Width and height in 16.16 format. -/
def displaySize (t : Track) : UInt32 × UInt32 :=
  match t.codecpar with
  | some p =>
      if isVideo t then (UInt32.ofInt p.width <<< 16, UInt32.ofInt p.height <<< 16) else (0, 0)
  | none => (0, 0)

def tkhdTree (t : Track) : BoxTree :=
  fullLeaf ⟨'t', 'k', 'h', 'd'⟩ 1 7 (encode 8 0 ++ encode 8 0 ++ encode 4 t.trackId.toNat ++
    encode 4 0 ++ encode 8 0 ++ tkhdMiddle t ++ encode 4 (displaySize t).1.toNat ++
    encode 4 (displaySize t).2.toNat)

def mdhdTree (t : Track) : BoxTree :=
  fullLeaf ⟨'m', 'd', 'h', 'd'⟩ 1 0 (encode 8 0 ++ encode 8 0 ++
    encode 4 t.timescale.denU32.toNat ++ encode 8 0 ++
    encode 2 (packLanguage (t.language.getD undLanguage)).toNat ++ encode 2 0)

def handlerType (t : Track) : FourCC :=
  if isVideo t then ⟨'v', 'i', 'd', 'e'⟩
  else if isAudio t then ⟨'s', 'o', 'u', 'n'⟩
  else ⟨'h', 'i', 'n', 't'⟩

def handlerName (t : Track) : List UInt8 :=
  ((if isVideo t then "VideoHandler" else "SoundHandler").toList.map fun c ↦
    UInt8.ofNat c.toNat) ++ [0]

def hdlrTree (t : Track) : BoxTree :=
  fullLeaf ⟨'h', 'd', 'l', 'r'⟩ 0 0 (encode 4 0 ++ (handlerType t).bytes ++
    wordBytes [0, 0, 0] ++ handlerName t)

def vmhdTree : BoxTree :=
  fullLeaf ⟨'v', 'm', 'h', 'd'⟩ 0 1 (encode 2 0 ++ (encode 2 0 ++ encode 2 0 ++ encode 2 0))

def smhdTree : BoxTree := fullLeaf ⟨'s', 'm', 'h', 'd'⟩ 0 0 (encode 2 0 ++ encode 2 0)

/-- Version, flags and the number of the entries that follow. -/
def entryCount (n : ℕ) : List UInt8 := encode 1 0 ++ encode 3 0 ++ encode 4 n

def urlTree : BoxTree := fullLeaf ⟨'u', 'r', 'l', ' '⟩ 0 1 []

def drefTree : BoxTree := .node ⟨'d', 'r', 'e', 'f'⟩ (entryCount 1) [urlTree]

def dinfTree : BoxTree := .node ⟨'d', 'i', 'n', 'f'⟩ [] [drefTree]

def codecConfigTrees (t : Track) : List BoxTree :=
  match t.codecpar with
  | none => []
  | some p =>
      if p.extradata.length = 0 then []
      else (codecConfigBoxName t).toList.map fun name ↦ .leaf name p.extradata

def descriptorHeader (tag innerSize : UInt8) : List UInt8 := [tag, 0x80, 0x80, 0x80, innerSize]

def bitRate (p : AVCodecParameters) : UInt32 :=
  UInt32.ofInt (if p.bitRate ≠ 0 then p.bitRate else 128000)

/-- The descriptors, with the sizes that the source computes in 8 bits. -/
def esdsPayload (p : AVCodecParameters) : List UInt8 :=
  let dsiSize := UInt8.ofNat p.extradata.length
  descriptorHeader 0x03 (3 + 5 + (13 + 5 + dsiSize) + 5 + 1) ++ encode 2 0 ++ [0] ++
    (descriptorHeader 0x04 (13 + 5 + dsiSize) ++
      ([0x40, 0x15] ++ encode 3 0 ++ encode 4 0 ++ encode 4 (bitRate p).toNat) ++
      (descriptorHeader 0x05 dsiSize ++ p.extradata.take dsiSize.toNat)) ++
    (descriptorHeader 0x06 1 ++ [0x02])

def esdsTrees (t : Track) : List BoxTree :=
  t.codecpar.toList.map fun p ↦ fullLeaf ⟨'e', 's', 'd', 's'⟩ 0 0 (esdsPayload p)

/-- Reserved bytes and the data reference index. -/
def sampleEntryFront : List UInt8 := List.replicate 6 0 ++ encode 2 1

def visualFront : List UInt8 :=
  sampleEntryFront ++ (encode 2 0 ++ encode 2 0 ++ wordBytes [0, 0, 0])

/-- Resolution, frame count, compressor name and depth. -/
def visualBack : List UInt8 :=
  wordBytes [0x00480000, 0x00480000, 0] ++ encode 2 1 ++ ([0] ++ List.replicate 31 0) ++
    encode 2 0x0018 ++ encode 2 0xFFFF

def visualFields (p : AVCodecParameters) : List UInt8 :=
  visualFront ++ encode 2 (UInt16.ofInt p.width).toNat ++
    encode 2 (UInt16.ofInt p.height).toNat ++ visualBack

def visualEntryTree (t : Track) (p : AVCodecParameters) : BoxTree :=
  .node (sampleEntryFourCC t) (visualFields p) (codecConfigTrees t)

def channelCount (p : AVCodecParameters) : UInt16 :=
  UInt16.ofInt (if 0 < p.nbChannels then p.nbChannels else 2)

def sampleRate (p : AVCodecParameters) : UInt32 :=
  UInt32.ofInt (if 0 < p.sampleRate then p.sampleRate else 48000) <<< 16

def audioFront : List UInt8 := sampleEntryFront ++ wordBytes [0, 0]

/-- The sample size, and reserved fields. -/
def audioMiddle : List UInt8 := encode 2 16 ++ encode 2 0 ++ encode 2 0

def audioFields (p : AVCodecParameters) : List UInt8 :=
  audioFront ++ encode 2 (channelCount p).toNat ++ audioMiddle ++ encode 4 (sampleRate p).toNat

def audioEntryTree (t : Track) (p : AVCodecParameters) : BoxTree :=
  .node (sampleEntryFourCC t) (audioFields p) (esdsTrees t)

def sampleEntryTrees (t : Track) : List BoxTree :=
  match t.codecpar with
  | none => []
  | some p =>
      match p.codecType with
      | .video => [visualEntryTree t p]
      | .audio => [audioEntryTree t p]
      | .other => []

def stsdTree (t : Track) : BoxTree :=
  .node ⟨'s', 't', 's', 'd'⟩ (entryCount 1) (sampleEntryTrees t)

def emptyTable (type : FourCC) (zeros : ℕ) : BoxTree :=
  fullLeaf type 0 0 (wordBytes (List.replicate zeros 0))

def stblTree (t : Track) : BoxTree :=
  .node ⟨'s', 't', 'b', 'l'⟩ [] [stsdTree t, emptyTable ⟨'s', 't', 't', 's'⟩ 1,
    emptyTable ⟨'s', 't', 's', 'c'⟩ 1, emptyTable ⟨'s', 't', 's', 'z'⟩ 2,
    emptyTable ⟨'s', 't', 'c', 'o'⟩ 1]

def mediaHeaderTrees (t : Track) : List BoxTree :=
  if isVideo t then [vmhdTree] else if isAudio t then [smhdTree] else []

def minfTree (t : Track) : BoxTree :=
  .node ⟨'m', 'i', 'n', 'f'⟩ [] (mediaHeaderTrees t ++ [dinfTree, stblTree t])

def mdiaTree (t : Track) : BoxTree :=
  .node ⟨'m', 'd', 'i', 'a'⟩ [] [mdhdTree t, hdlrTree t, minfTree t]

def elstTree (t : Track) : BoxTree :=
  fullLeaf ⟨'e', 'l', 's', 't'⟩ 1 0 (encode 4 1 ++ encode 8 0 ++
    encode 8 t.initialPadding.toUInt64.toNat ++ encode 2 1 ++ encode 2 0)

/-- Only audio tracks with a padding have an edit list. -/
def edtsTrees (t : Track) : List BoxTree :=
  if isAudio t ∧ 0 < t.initialPadding then [.node ⟨'e', 'd', 't', 's'⟩ [] [elstTree t]] else []

def trakTree (t : Track) : BoxTree :=
  .node ⟨'t', 'r', 'a', 'k'⟩ [] (tkhdTree t :: edtsTrees t ++ [mdiaTree t])

def maxTrackId (tracks : List Track) : UInt32 :=
  tracks.foldl (fun maxTid t ↦ max maxTid t.trackId) 0

def moovTree (tracks : List Track) : BoxTree :=
  .node ⟨'m', 'o', 'o', 'v'⟩ [] (mvhdTree (maxTrackId tracks + 1) ::
    .node ⟨'m', 'v', 'e', 'x'⟩ [] (tracks.map trexTree) :: tracks.map trakTree)

/-! ## What each writer appends -/

@[simp] theorem encodeTrees_nil : encodeTrees [] = [] := by rw [encodeTrees]

@[simp] theorem encodeTrees_cons (t : BoxTree) (ts : List BoxTree) :
    encodeTrees (t :: ts) = box t.type t.body ++ encodeTrees ts := by
  rw [encodeTrees]

theorem buf_foldl_u32 (b : BoxBuilder) (words : List UInt32) :
    (words.foldl BoxBuilder.u32 b).buf = b.buf ++ wordBytes words := by
  induction words generalizing b with
  | nil => simp [wordBytes]
  | cons v words ih => simp [ih, wordBytes]

theorem buf_endBox_tree {b b' : BoxBuilder} {t : BoxTree}
    (hbuf : b'.buf = b.buf ++ (encode 4 0 ++ t.type.bytes) ++ t.body) :
    (b'.endBox b.buf.length).buf = b.buf ++ encodeTrees [t] := by
  rw [encodeTrees_cons, encodeTrees_nil, List.append_nil]
  exact buf_endBox hbuf

theorem buf_endFullBox_tree {b b' : BoxBuilder} {type : FourCC} (version : UInt8)
    (flags : UInt32) {payload : List UInt8}
    (hbuf : b'.buf = b.buf ++ (encode 4 0 ++ type.bytes ++
      (encode 1 version.toNat ++ encode 3 flags.toNat)) ++ payload) :
    (b'.endBox b.buf.length).buf =
      b.buf ++ encodeTrees [fullLeaf type version.toNat flags.toNat payload] := by
  apply buf_endBox_tree
  rw [hbuf]
  simp [fullLeaf, BoxTree.type, BoxTree.body]

theorem buf_writeFtyp (b : BoxBuilder) : (writeFtyp b).buf = b.buf ++ encodeTrees [ftypTree] := by
  simp only [writeFtyp, beginBox_snd]
  apply buf_endBox_tree
  simp [ftypTree, BoxTree.type, BoxTree.body]

theorem buf_writeMvhd (b : BoxBuilder) (nextTrackId : UInt32) :
    (writeMvhd b nextTrackId).buf = b.buf ++ encodeTrees [mvhdTree nextTrackId] := by
  simp only [writeMvhd, beginFullBox_snd]
  apply buf_endFullBox_tree 1 0
  simp [mvhdMiddle, buf_foldl_u32, wordBytes]

theorem buf_writeTrex (b : BoxBuilder) (t : Track) :
    (writeTrex b t.trackId (isVideo t)).buf = b.buf ++ encodeTrees [trexTree t] := by
  simp only [writeTrex, beginFullBox_snd]
  apply buf_endFullBox_tree 0 0
  simp [wordBytes]

theorem buf_writeTkhd (b : BoxBuilder) (t : Track) :
    (writeTkhd b t).buf = b.buf ++ encodeTrees [tkhdTree t] := by
  simp only [writeTkhd, beginFullBox_snd]
  apply buf_endFullBox_tree 1 7
  rw [displaySize]
  cases t.codecpar with
  | none => simp [tkhdMiddle, buf_foldl_u32]
  | some p => by_cases hvideo : isVideo t <;> simp [hvideo, tkhdMiddle, buf_foldl_u32]

theorem buf_writeMdhd (b : BoxBuilder) (t : Track) :
    (writeMdhd b t).buf = b.buf ++ encodeTrees [mdhdTree t] := by
  simp only [writeMdhd, beginFullBox_snd]
  apply buf_endFullBox_tree 1 0
  simp

theorem buf_writeHdlr (b : BoxBuilder) (t : Track) :
    (writeHdlr b t).buf = b.buf ++ encodeTrees [hdlrTree t] := by
  simp only [writeHdlr, beginFullBox_snd]
  apply buf_endFullBox_tree 0 0
  simp [handlerType, handlerName, wordBytes]

theorem buf_writeVmhd (b : BoxBuilder) : (writeVmhd b).buf = b.buf ++ encodeTrees [vmhdTree] := by
  simp only [writeVmhd, beginFullBox_snd]
  apply buf_endFullBox_tree 0 1
  simp

theorem buf_writeSmhd (b : BoxBuilder) : (writeSmhd b).buf = b.buf ++ encodeTrees [smhdTree] := by
  simp only [writeSmhd, beginFullBox_snd]
  apply buf_endFullBox_tree 0 0
  simp

theorem buf_writeDinf (b : BoxBuilder) : (writeDinf b).buf = b.buf ++ encodeTrees [dinfTree] := by
  have hurl : ∀ b' : BoxBuilder, ((b'.beginFullBox ⟨'u', 'r', 'l', ' '⟩ 0 1).1.endBox
      b'.buf.length).buf = b'.buf ++ encodeTrees [urlTree] := by
    intro b'
    apply buf_endFullBox_tree 0 1
    simp
  have hdref : ∀ b' : BoxBuilder,
      ((((((b'.beginFullBox ⟨'d', 'r', 'e', 'f'⟩ 0 0).1.u32 1).beginFullBox
        ⟨'u', 'r', 'l', ' '⟩ 0 1).1.endBox ((b'.beginFullBox ⟨'d', 'r', 'e', 'f'⟩ 0 0).1.u32
          1).buf.length)).endBox b'.buf.length).buf = b'.buf ++ encodeTrees [drefTree] := by
    intro b'
    apply buf_endBox_tree
    rw [hurl]
    simp [drefTree, entryCount, BoxTree.type, BoxTree.body]
  simp only [writeDinf, beginBox_snd, beginFullBox_snd]
  apply buf_endBox_tree
  rw [hdref]
  simp [dinfTree, BoxTree.type, BoxTree.body]

theorem buf_writeCodecConfig (b : BoxBuilder) (t : Track) :
    (writeCodecConfig b t).buf = b.buf ++ encodeTrees (codecConfigTrees t) := by
  rw [writeCodecConfig, codecConfigTrees]
  cases t.codecpar with
  | none => simp
  | some p =>
      dsimp only
      split
      · simp
      · cases codecConfigBoxName t with
        | none => simp
        | some name =>
            apply buf_endBox_tree
            simp [BoxTree.type, BoxTree.body]

theorem buf_writeDescriptorHeader (b : BoxBuilder) (tag innerSize : UInt8) :
    (writeDescriptorHeader b tag innerSize).buf = b.buf ++ descriptorHeader tag innerSize := by
  simp [writeDescriptorHeader, descriptorHeader]

theorem buf_writeEsds (b : BoxBuilder) (t : Track) :
    (writeEsds b t).buf = b.buf ++ encodeTrees (esdsTrees t) := by
  rw [writeEsds, esdsTrees]
  cases t.codecpar with
  | none => simp
  | some p =>
      have hdsi : ∀ (b' : BoxBuilder) (dsiSize : UInt8),
          (if 0 < dsiSize then b'.bytes (some p.extradata) dsiSize.toNat else b').buf =
            b'.buf ++ p.extradata.take dsiSize.toNat := by
        intro b' dsiSize
        split
        · exact buf_bytes ..
        next hzero =>
          obtain rfl : dsiSize = 0 :=
            UInt8.toNat_inj.mp (by simpa [UInt8.lt_iff_toNat_lt] using hzero)
          simp
      simp only [beginFullBox_snd, Option.toList_some, List.map_singleton, esdsPayload]
      generalize UInt8.ofNat p.extradata.length = dsiSize
      apply buf_endFullBox_tree 0 0
      simp [buf_writeDescriptorHeader, hdsi, bitRate]

theorem buf_writeVideoSampleEntry (b : BoxBuilder) (t : Track) (p : AVCodecParameters) :
    (writeVideoSampleEntry b t p).buf = b.buf ++ encodeTrees [visualEntryTree t p] := by
  simp only [writeVideoSampleEntry, beginBox_snd]
  apply buf_endBox_tree
  rw [buf_writeCodecConfig]
  simp [visualEntryTree, visualFields, visualFront, visualBack, sampleEntryFront, wordBytes,
    BoxTree.type, BoxTree.body]

theorem buf_writeAudioSampleEntry (b : BoxBuilder) (t : Track) (p : AVCodecParameters) :
    (writeAudioSampleEntry b t p).buf = b.buf ++ encodeTrees [audioEntryTree t p] := by
  simp only [writeAudioSampleEntry, beginBox_snd]
  apply buf_endBox_tree
  rw [buf_writeEsds]
  simp [audioEntryTree, audioFields, audioFront, audioMiddle, sampleEntryFront, wordBytes,
    channelCount, sampleRate, BoxTree.type, BoxTree.body]

theorem buf_writeStsd (b : BoxBuilder) (t : Track) :
    (writeStsd b t).buf = b.buf ++ encodeTrees [stsdTree t] := by
  simp only [writeStsd, beginFullBox_snd]
  apply buf_endBox_tree
  rw [stsdTree, sampleEntryTrees]
  cases t.codecpar with
  | none => simp [entryCount, BoxTree.type, BoxTree.body]
  | some p =>
      cases hkind : p.codecType <;>
        simp [hkind, buf_writeVideoSampleEntry, buf_writeAudioSampleEntry, entryCount,
          BoxTree.type, BoxTree.body]

theorem buf_writeEmptyTable (b : BoxBuilder) (type : FourCC) (zeros : ℕ) :
    (writeEmptyTable b type zeros).buf = b.buf ++ encodeTrees [emptyTable type zeros] := by
  simp only [writeEmptyTable, beginFullBox_snd]
  apply buf_endFullBox_tree 0 0
  rw [buf_foldl_u32, buf_beginFullBox]

theorem buf_writeStbl (b : BoxBuilder) (t : Track) :
    (writeStbl b t).buf = b.buf ++ encodeTrees [stblTree t] := by
  simp only [writeStbl, beginBox_snd]
  apply buf_endBox_tree
  simp only [buf_writeEmptyTable, buf_writeStsd, buf_beginBox]
  simp [stblTree, BoxTree.type, BoxTree.body]

theorem buf_writeMinf (b : BoxBuilder) (t : Track) :
    (writeMinf b t).buf = b.buf ++ encodeTrees [minfTree t] := by
  have hheader : ∀ b' : BoxBuilder,
      (if isVideo t then writeVmhd b' else if isAudio t then writeSmhd b' else b').buf =
        b'.buf ++ encodeTrees (mediaHeaderTrees t) := by
    intro b'
    rw [mediaHeaderTrees]
    split_ifs
    · exact buf_writeVmhd b'
    · exact buf_writeSmhd b'
    · simp
  simp only [writeMinf, beginBox_snd]
  apply buf_endBox_tree
  rw [buf_writeStbl, buf_writeDinf, hheader]
  simp [minfTree, encodeTrees_append, BoxTree.type, BoxTree.body]

theorem buf_writeMdia (b : BoxBuilder) (t : Track) :
    (writeMdia b t).buf = b.buf ++ encodeTrees [mdiaTree t] := by
  simp only [writeMdia, beginBox_snd]
  apply buf_endBox_tree
  rw [buf_writeMinf, buf_writeHdlr, buf_writeMdhd]
  simp [mdiaTree, BoxTree.type, BoxTree.body]

theorem buf_writeEdtsForPriming (b : BoxBuilder) (t : Track) :
    (if isAudio t then writeEdtsForPriming b t else b).buf =
      b.buf ++ encodeTrees (edtsTrees t) := by
  have helst : ∀ b' : BoxBuilder,
      ((((((((b'.beginFullBox ⟨'e', 'l', 's', 't'⟩ 1 0).1.u32 1).u64 0).s64
        t.initialPadding).u16 1).u16 0)).endBox b'.buf.length).buf =
        b'.buf ++ encodeTrees [elstTree t] := by
    intro b'
    apply buf_endFullBox_tree 1 0
    simp
  rw [edtsTrees]
  by_cases haudio : isAudio t
  swap
  · simp [haudio]
  by_cases hpadding : t.initialPadding ≤ 0
  · have hnot : ¬ 0 < t.initialPadding := by simpa using hpadding
    simp [haudio, writeEdtsForPriming, hpadding, hnot]
  · rw [if_pos haudio, if_pos ⟨haudio, by simpa using hpadding⟩]
    simp only [writeEdtsForPriming, if_neg hpadding, beginBox_snd, beginFullBox_snd]
    apply buf_endBox_tree
    rw [helst]
    simp [BoxTree.type, BoxTree.body]

theorem buf_writeTrak (b : BoxBuilder) (t : Track) :
    (writeTrak b t).buf = b.buf ++ encodeTrees [trakTree t] := by
  simp only [writeTrak, beginBox_snd]
  apply buf_endBox_tree
  rw [buf_writeMdia, buf_writeEdtsForPriming, buf_writeTkhd]
  simp [trakTree, encodeTrees_append, BoxTree.type, BoxTree.body]

theorem buf_foldl_tracks {write : BoxBuilder → Track → BoxBuilder} {tree : Track → BoxTree}
    (hwrite : ∀ b t, (write b t).buf = b.buf ++ encodeTrees [tree t]) (b : BoxBuilder)
    (tracks : List Track) :
    (tracks.foldl write b).buf = b.buf ++ encodeTrees (tracks.map tree) := by
  induction tracks generalizing b with
  | nil => simp
  | cons t tracks ih => simp [ih, hwrite]

theorem buf_writeMoov (b : BoxBuilder) (tracks : List Track) :
    (writeMoov b tracks).buf = b.buf ++ encodeTrees [moovTree tracks] := by
  have hmvex : ∀ b' : BoxBuilder, ((tracks.foldl (fun b t ↦ writeTrex b t.trackId (isVideo t))
      (b'.beginBox ⟨'m', 'v', 'e', 'x'⟩).1).endBox b'.buf.length).buf =
      b'.buf ++ encodeTrees [.node ⟨'m', 'v', 'e', 'x'⟩ [] (tracks.map trexTree)] := by
    intro b'
    apply buf_endBox_tree
    rw [buf_foldl_tracks buf_writeTrex]
    simp [BoxTree.type, BoxTree.body]
  simp only [writeMoov, beginBox_snd]
  apply buf_endBox_tree
  rw [buf_foldl_tracks buf_writeTrak, hmvex, buf_writeMvhd]
  simp [moovTree, maxTrackId, BoxTree.type, BoxTree.body]

theorem buildInit_eq {tracks : List Track} (hne : tracks ≠ []) :
    buildInit tracks = .ok (encodeTrees [ftypTree, moovTree tracks]) := by
  rw [buildInit, if_neg (by simpa using hne), buf_writeMoov, buf_writeFtyp]
  simp

end Fmp4Writer

end Fmp4Packager
