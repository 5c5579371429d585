import Fmp4Packager.Fmp4Writer

/-!
# The init segment writer

`buildInit` emits ftyp and moov for a set of tracks.  As in the media segment
writer, each `write…` function is the source function of that name.
-/

namespace Fmp4Packager

open IsoBox

namespace Fmp4Writer

def kMovieTimescale : UInt32 := 1000

def kIdentityMatrix : List UInt32 :=
  [0x00010000, 0, 0, 0, 0x00010000, 0, 0, 0, 0x40000000]

/-- Three letters as five-bit offsets from `0x60`; anything shorter is
`und`. -/
def packLanguage (lang3 : List UInt8) : UInt16 :=
  if lang3.length < 3 then 0x55C4
  else
    (lang3.take 3).foldl (fun (v : UInt16) (c : UInt8) ↦
      let c := if 0x41 ≤ c ∧ c ≤ 0x5A then c - 0x41 + 0x61 else c
      let off := (c - 0x60).toUInt16 &&& 0x1F
      (v <<< 5) ||| off) 0

def isVideo (t : Track) : Bool := t.codecpar.any fun p ↦ p.codecType = .video

def isAudio (t : Track) : Bool := t.codecpar.any fun p ↦ p.codecType = .audio

def sampleEntryFourCC (t : Track) : FourCC :=
  match t.codecpar with
  | none => ⟨'?', '?', '?', '?'⟩
  | some p =>
      match p.codecId with
      | .h264 => ⟨'a', 'v', 'c', '1'⟩
      | .hevc => ⟨'h', 'e', 'v', '1'⟩
      | .aac => ⟨'m', 'p', '4', 'a'⟩
      | .other => ⟨'?', '?', '?', '?'⟩

/-- `none` is the empty name. -/
def codecConfigBoxName (t : Track) : Option FourCC :=
  match t.codecpar with
  | none => none
  | some p =>
      match p.codecId with
      | .h264 => some ⟨'a', 'v', 'c', 'C'⟩
      | .hevc => some ⟨'h', 'v', 'c', 'C'⟩
      | .aac | .other => none

def writeDescriptorHeader (b : BoxBuilder) (tag innerSize : UInt8) : BoxBuilder :=
  ((((b.u8 tag).u8 0x80).u8 0x80).u8 0x80).u8 innerSize

def writeFtyp (b : BoxBuilder) : BoxBuilder :=
  let (b, start) := b.beginBox ⟨'f', 't', 'y', 'p'⟩
  let b := b.type ⟨'i', 's', 'o', '6'⟩
  let b := b.u32 1
  let b := b.type ⟨'i', 's', 'o', '6'⟩
  let b := b.type ⟨'i', 's', 'o', '5'⟩
  let b := b.type ⟨'d', 'a', 's', 'h'⟩
  b.endBox start

def writeMvhd (b : BoxBuilder) (nextTrackId : UInt32) : BoxBuilder :=
  let (b, start) := b.beginFullBox ⟨'m', 'v', 'h', 'd'⟩ 1 0
  let b := b.u64 0
  let b := b.u64 0
  let b := b.u32 kMovieTimescale
  let b := b.u64 0
  let b := b.u32 0x00010000
  let b := b.u16 0x0100
  let b := b.u16 0
  let b := (b.u32 0).u32 0
  let b := kIdentityMatrix.foldl BoxBuilder.u32 b
  let b := (List.replicate 6 0).foldl BoxBuilder.u32 b
  let b := b.u32 nextTrackId
  b.endBox start

def writeTrex (b : BoxBuilder) (trackId : UInt32) (isVideo : Bool) : BoxBuilder :=
  let (b, start) := b.beginFullBox ⟨'t', 'r', 'e', 'x'⟩ 0 0
  let b := b.u32 trackId
  let b := b.u32 1
  let b := b.u32 0
  let b := b.u32 0
  let b := b.u32 (if isVideo then 0x01010000 else 0)
  b.endBox start

def writeTkhd (b : BoxBuilder) (t : Track) : BoxBuilder :=
  let (b, start) := b.beginFullBox ⟨'t', 'k', 'h', 'd'⟩ 1 0x000007
  let b := b.u64 0
  let b := b.u64 0
  let b := b.u32 t.trackId
  let b := b.u32 0
  let b := b.u64 0
  let b := (b.u32 0).u32 0
  let b := b.u16 0
  let b := b.u16 0
  let b := b.u16 (if isAudio t then 0x0100 else 0)
  let b := b.u16 0
  let b := kIdentityMatrix.foldl BoxBuilder.u32 b
  let b :=
    match t.codecpar with
    | some p =>
        if isVideo t then
          (b.u32 (UInt32.ofInt p.width <<< 16)).u32 (UInt32.ofInt p.height <<< 16)
        else (b.u32 0).u32 0
    | none => (b.u32 0).u32 0
  b.endBox start

def undLanguage : List UInt8 := [0x75, 0x6E, 0x64]

def writeMdhd (b : BoxBuilder) (t : Track) : BoxBuilder :=
  let (b, start) := b.beginFullBox ⟨'m', 'd', 'h', 'd'⟩ 1 0
  let b := b.u64 0
  let b := b.u64 0
  let b := b.u32 t.timescale.denU32
  let b := b.u64 0
  let b := b.u16 (packLanguage (t.language.getD undLanguage))
  let b := b.u16 0
  b.endBox start

def writeHdlr (b : BoxBuilder) (t : Track) : BoxBuilder :=
  let (b, start) := b.beginFullBox ⟨'h', 'd', 'l', 'r'⟩ 0 0
  let b := b.u32 0
  let b := b.type
    (if isVideo t then ⟨'v', 'i', 'd', 'e'⟩
      else if isAudio t then ⟨'s', 'o', 'u', 'n'⟩
      else ⟨'h', 'i', 'n', 't'⟩)
  let b := ((b.u32 0).u32 0).u32 0
  let b := b.string (if isVideo t then "VideoHandler" else "SoundHandler")
  b.endBox start

def writeVmhd (b : BoxBuilder) : BoxBuilder :=
  let (b, start) := b.beginFullBox ⟨'v', 'm', 'h', 'd'⟩ 0 1
  let b := b.u16 0
  let b := ((b.u16 0).u16 0).u16 0
  b.endBox start

def writeSmhd (b : BoxBuilder) : BoxBuilder :=
  let (b, start) := b.beginFullBox ⟨'s', 'm', 'h', 'd'⟩ 0 0
  let b := (b.u16 0).u16 0
  b.endBox start

def writeDinf (b : BoxBuilder) : BoxBuilder :=
  let (b, dinf) := b.beginBox ⟨'d', 'i', 'n', 'f'⟩
  let (b, dref) := b.beginFullBox ⟨'d', 'r', 'e', 'f'⟩ 0 0
  let b := b.u32 1
  let (b, url) := b.beginFullBox ⟨'u', 'r', 'l', ' '⟩ 0 1
  let b := b.endBox url
  let b := b.endBox dref
  b.endBox dinf

def writeCodecConfig (b : BoxBuilder) (t : Track) : BoxBuilder :=
  match t.codecpar with
  | none => b
  | some p =>
      if p.extradata.length = 0 then b
      else
        match codecConfigBoxName t with
        | none => b
        | some name =>
            let (b, start) := b.beginBox name
            let b := b.bytes (some p.extradata) p.extradata.length
            b.endBox start

def writeEsds (b : BoxBuilder) (t : Track) : BoxBuilder :=
  match t.codecpar with
  | none => b
  | some p =>
      -- the sizes are computed in 8 bits
      let dsiSize := UInt8.ofNat p.extradata.length
      let dcdInnerSize := 13 + 5 + dsiSize
      let esInnerSize := 3 + 5 + dcdInnerSize + 5 + 1
      let (b, start) := b.beginFullBox ⟨'e', 's', 'd', 's'⟩ 0 0
      let b := writeDescriptorHeader b 0x03 esInnerSize
      let b := b.u16 0
      let b := b.u8 0
      let b := writeDescriptorHeader b 0x04 dcdInnerSize
      let b := b.u8 0x40
      let b := b.u8 0x15
      let b := b.u24 0
      let b := b.u32 0
      let b := b.u32 (UInt32.ofInt (if p.bitRate ≠ 0 then p.bitRate else 128000))
      let b := writeDescriptorHeader b 0x05 dsiSize
      let b := if 0 < dsiSize then b.bytes (some p.extradata) dsiSize.toNat else b
      let b := writeDescriptorHeader b 0x06 1
      let b := b.u8 0x02
      b.endBox start

def writeVideoSampleEntry (b : BoxBuilder) (t : Track) (p : AVCodecParameters) : BoxBuilder :=
  let (b, start) := b.beginBox (sampleEntryFourCC t)
  let b := (List.replicate 6 0).foldl BoxBuilder.u8 b
  let b := b.u16 1
  let b := b.u16 0
  let b := b.u16 0
  let b := ((b.u32 0).u32 0).u32 0
  let b := b.u16 (UInt16.ofInt p.width)
  let b := b.u16 (UInt16.ofInt p.height)
  let b := b.u32 0x00480000
  let b := b.u32 0x00480000
  let b := b.u32 0
  let b := b.u16 1
  let b := b.u8 0
  let b := (List.replicate 31 0).foldl BoxBuilder.u8 b
  let b := b.u16 0x0018
  let b := b.u16 0xFFFF
  let b := writeCodecConfig b t
  b.endBox start

def writeAudioSampleEntry (b : BoxBuilder) (t : Track) (p : AVCodecParameters) : BoxBuilder :=
  let (b, start) := b.beginBox (sampleEntryFourCC t)
  let b := (List.replicate 6 0).foldl BoxBuilder.u8 b
  let b := b.u16 1
  let b := (b.u32 0).u32 0
  let channels := if 0 < p.nbChannels then p.nbChannels else 2
  let b := b.u16 (UInt16.ofInt channels)
  let b := b.u16 16
  let b := b.u16 0
  let b := b.u16 0
  let sr := UInt32.ofInt (if 0 < p.sampleRate then p.sampleRate else 48000)
  let b := b.u32 (sr <<< 16)
  let b := writeEsds b t
  b.endBox start

def writeStsd (b : BoxBuilder) (t : Track) : BoxBuilder :=
  let (b, start) := b.beginFullBox ⟨'s', 't', 's', 'd'⟩ 0 0
  let b := b.u32 1
  let b :=
    match t.codecpar with
    | none => b
    | some p =>
        match p.codecType with
        | .video => writeVideoSampleEntry b t p
        | .audio => writeAudioSampleEntry b t p
        | .other => b
  b.endBox start

/-- An empty table box whose fields are `zeros` zero words. -/
def writeEmptyTable (b : BoxBuilder) (fourcc : FourCC) (zeros : ℕ) : BoxBuilder :=
  let (b, p) := b.beginFullBox fourcc 0 0
  let b := (List.replicate zeros 0).foldl BoxBuilder.u32 b
  b.endBox p

def writeStbl (b : BoxBuilder) (t : Track) : BoxBuilder :=
  let (b, start) := b.beginBox ⟨'s', 't', 'b', 'l'⟩
  let b := writeStsd b t
  let b := writeEmptyTable b ⟨'s', 't', 't', 's'⟩ 1
  let b := writeEmptyTable b ⟨'s', 't', 's', 'c'⟩ 1
  let b := writeEmptyTable b ⟨'s', 't', 's', 'z'⟩ 2
  let b := writeEmptyTable b ⟨'s', 't', 'c', 'o'⟩ 1
  b.endBox start

def writeMinf (b : BoxBuilder) (t : Track) : BoxBuilder :=
  let (b, start) := b.beginBox ⟨'m', 'i', 'n', 'f'⟩
  let b := if isVideo t then writeVmhd b else if isAudio t then writeSmhd b else b
  let b := writeDinf b
  let b := writeStbl b t
  b.endBox start

def writeMdia (b : BoxBuilder) (t : Track) : BoxBuilder :=
  let (b, start) := b.beginBox ⟨'m', 'd', 'i', 'a'⟩
  let b := writeMdhd b t
  let b := writeHdlr b t
  let b := writeMinf b t
  b.endBox start

def writeEdtsForPriming (b : BoxBuilder) (t : Track) : BoxBuilder :=
  if t.initialPadding ≤ 0 then b
  else
    let (b, edts) := b.beginBox ⟨'e', 'd', 't', 's'⟩
    let (b, elst) := b.beginFullBox ⟨'e', 'l', 's', 't'⟩ 1 0
    let b := b.u32 1
    let b := b.u64 0
    let b := b.s64 t.initialPadding
    let b := b.u16 1
    let b := b.u16 0
    let b := b.endBox elst
    b.endBox edts

def writeTrak (b : BoxBuilder) (t : Track) : BoxBuilder :=
  let (b, start) := b.beginBox ⟨'t', 'r', 'a', 'k'⟩
  let b := writeTkhd b t
  let b := if isAudio t then writeEdtsForPriming b t else b
  let b := writeMdia b t
  b.endBox start

def writeMoov (b : BoxBuilder) (tracks : List Track) : BoxBuilder :=
  let (b, start) := b.beginBox ⟨'m', 'o', 'o', 'v'⟩
  let maxTid := tracks.foldl (fun maxTid t ↦ max maxTid t.trackId) 0
  let b := writeMvhd b (maxTid + 1)
  let (b, mvex) := b.beginBox ⟨'m', 'v', 'e', 'x'⟩
  let b := tracks.foldl (fun b t ↦ writeTrex b t.trackId (isVideo t)) b
  let b := b.endBox mvex
  let b := tracks.foldl writeTrak b
  b.endBox start

def buildInit (tracks : List Track) : Except String (List UInt8) :=
  if tracks.isEmpty then .error "Fmp4Writer::BuildInit: no tracks"
  else .ok (writeMoov (writeFtyp {}) tracks).buf

theorem buildInit_eq_ok {tracks : List Track} (hne : tracks ≠ []) :
    ∃ bytes, buildInit tracks = .ok bytes := by
  rw [buildInit, if_neg (by simpa using hne)]
  exact ⟨_, rfl⟩

end Fmp4Writer

end Fmp4Packager
