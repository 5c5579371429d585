import Fmp4Packager.Format.BoxTree
import Fmp4Packager.Format.Descriptor

/-!
# A reader for init segments

Reads the movie box of an init segment the way a player does: the box tree first,
then the fields of the boxes that describe the tracks.  Both versions of a box are
understood, optional descriptor fields are skipped when their flags announce them,
and boxes that say nothing about a track are passed over.
-/

namespace IsoBox

open BigEndian

/-- The containers of a movie box, and the bytes before their first child. -/
def containerFields (type : FourCC) : Option ℕ :=
  [(⟨'m', 'o', 'o', 'v'⟩, 0), (⟨'m', 'v', 'e', 'x'⟩, 0), (⟨'t', 'r', 'a', 'k'⟩, 0),
    (⟨'e', 'd', 't', 's'⟩, 0), (⟨'m', 'd', 'i', 'a'⟩, 0), (⟨'m', 'i', 'n', 'f'⟩, 0),
    (⟨'d', 'i', 'n', 'f'⟩, 0), (⟨'s', 't', 'b', 'l'⟩, 0), (⟨'d', 'r', 'e', 'f'⟩, 8),
    (⟨'s', 't', 's', 'd'⟩, 8), (⟨'a', 'v', 'c', '1'⟩, 78), (⟨'h', 'e', 'v', '1'⟩, 78),
    (⟨'m', 'p', '4', 'a'⟩, 28)].lookup type

/-- The width of times and durations. -/
def timeWidth (version : ℕ) : ℕ := if version = 0 then 4 else 8

/-- `next_track_ID`. -/
def readMvhd (payload : List UInt8) : Option ℕ := do
  let (version, _, rest) ← readVersionFlags payload
  let (_, rest) ← readUInt (timeWidth version) rest
  let (_, rest) ← readUInt (timeWidth version) rest
  let (_, rest) ← readUInt 4 rest
  let (_, rest) ← readUInt (timeWidth version) rest
  let (_, rest) ← readBytes 76 rest
  let (nextTrackId, rest) ← readUInt 4 rest
  if rest = [] then some nextTrackId else none

/-- `track_ID`. -/
def readTrex (payload : List UInt8) : Option ℕ := do
  let (_, _, rest) ← readVersionFlags payload
  let (trackId, rest) ← readUInt 4 rest
  let (_, rest) ← readBytes 16 rest
  if rest = [] then some trackId else none

structure TrackHeader where
  trackId : ℕ
  width : ℕ
  height : ℕ
  deriving DecidableEq, Repr

/-- Width and height count in units of `2^-16`; their whole parts are taken. -/
def readTkhd (payload : List UInt8) : Option TrackHeader := do
  let (version, _, rest) ← readVersionFlags payload
  let (_, rest) ← readUInt (timeWidth version) rest
  let (_, rest) ← readUInt (timeWidth version) rest
  let (trackId, rest) ← readUInt 4 rest
  let (_, rest) ← readUInt 4 rest
  let (_, rest) ← readUInt (timeWidth version) rest
  let (_, rest) ← readBytes 52 rest
  let (width, rest) ← readUInt 4 rest
  let (height, rest) ← readUInt 4 rest
  if rest = [] then some ⟨trackId, width / 2 ^ 16, height / 2 ^ 16⟩ else none

/-- The media timescale. -/
def readMdhd (payload : List UInt8) : Option ℕ := do
  let (version, _, rest) ← readVersionFlags payload
  let (_, rest) ← readUInt (timeWidth version) rest
  let (_, rest) ← readUInt (timeWidth version) rest
  let (timescale, rest) ← readUInt 4 rest
  let (_, rest) ← readUInt (timeWidth version) rest
  let (_, rest) ← readBytes 4 rest
  if rest = [] then some timescale else none

/-- The kind of media that a track carries; the name behind it ends in a zero. -/
def readHdlr (payload : List UInt8) : Option FourCC := do
  let (_, _, rest) ← readVersionFlags payload
  let (_, rest) ← readUInt 4 rest
  let (handler, rest) ← readBytes 4 rest
  let (_, name) ← readBytes 12 rest
  if name.getLast? = some 0 then FourCC.ofBytes handler else none

/-- `media_time` of one edit; `-1` announces an empty edit. -/
def readEdit (version : ℕ) (bytes : List UInt8) : Option (ℤ × List UInt8) := do
  let (_, rest) ← readUInt (timeWidth version) bytes
  let (mediaTime, rest) ← readUInt (timeWidth version) rest
  let (_, rest) ← readBytes 4 rest
  some (signed (timeWidth version) mediaTime, rest)

def readElst (payload : List UInt8) : Option (List ℤ) := do
  let (version, _, rest) ← readVersionFlags payload
  let (count, rest) ← readUInt 4 rest
  let (edits, rest) ← readMany (readEdit version) count rest
  if rest = [] then some edits else none

/-- The children of a counted list of boxes. -/
def readEntries (t : BoxTree) : Option (List BoxTree) := do
  let (_, _, rest) ← readVersionFlags t.data
  let (count, _) ← readUInt 4 rest
  if count = t.children.length then some t.children else none

def descriptorOfTag (tag : UInt8) (ds : List Descriptor) : Option (List UInt8) :=
  (ds.find? fun d ↦ d.tag = tag).map Descriptor.payload

/-- The URL of an elementary stream: a length byte and that many characters. -/
def skipUrl (present : Bool) (bytes : List UInt8) : Option (List UInt8) :=
  if present then do
    let (length, rest) ← readUInt 1 bytes
    (readBytes length rest).map Prod.snd
  else some bytes

/-- The decoder specific information of the elementary stream. -/
def readEsds (payload : List UInt8) : Option (List UInt8) := do
  let (_, _, rest) ← readVersionFlags payload
  let descriptors ← readDescriptors rest
  let es ← descriptorOfTag 0x03 descriptors
  let (_, rest) ← readUInt 2 es
  let (flags, rest) ← readUInt 1 rest
  let (_, rest) ← readOptional (flags.testBit 7) 2 rest
  let rest ← skipUrl (flags.testBit 6) rest
  let (_, rest) ← readOptional (flags.testBit 5) 2 rest
  let descriptors ← readDescriptors rest
  let decoderConfig ← descriptorOfTag 0x04 descriptors
  let (_, rest) ← readBytes 13 decoderConfig
  let descriptors ← readDescriptors rest
  descriptorOfTag 0x05 descriptors

/-- The decoder specific information of an elementary stream descriptor that fills the
payload; its two children fill it, and what the first of them holds fills that one. -/
def readEsdsTree (payload : List UInt8) : Option (List UInt8) := do
  let (_, _, rest) ← readVersionFlags payload
  let [es] ← payloadsTagged [0x03] rest | none
  let (_, rest) ← readUInt 2 es
  let (flags, rest) ← readUInt 1 rest
  let (_, rest) ← readOptional (flags.testBit 7) 2 rest
  let rest ← skipUrl (flags.testBit 6) rest
  let (_, rest) ← readOptional (flags.testBit 5) 2 rest
  let [decoderConfig, _] ← payloadsTagged [0x04, 0x06] rest | none
  let (_, rest) ← readBytes 13 decoderConfig
  let [specific] ← payloadsTagged [0x05] rest | none
  some specific

theorem exists_descriptorOfTag {tag : UInt8} {tags bytes payload : List UInt8}
    {payloads : List (List UInt8)}
    (h : payloadsTagged (tag :: tags) bytes = some (payload :: payloads)) :
    ∃ ds, readDescriptors bytes = some ds ∧ descriptorOfTag tag ds = some payload := by
  obtain ⟨ds, hds, h⟩ := Option.bind_eq_some_iff.mp h
  obtain ⟨htags, hpayloads⟩ := Option.ite_none_right_eq_some.mp h
  obtain ⟨d, others, rfl, rfl, -⟩ := List.map_eq_cons_iff.mp htags
  obtain ⟨rfl, -⟩ := List.cons.inj (Option.some.inj hpayloads)
  exact ⟨_, hds, by simp [descriptorOfTag]⟩

/-- A reader that picks the descriptors out by their tags finds the same. -/
theorem readEsds_of_readEsdsTree {payload specific : List UInt8}
    (h : readEsdsTree payload = some specific) : readEsds payload = some specific := by
  rw [readEsdsTree] at h
  obtain ⟨⟨version, flags, rest⟩, hversion, h⟩ := Option.bind_eq_some_iff.mp h
  obtain ⟨payloads, hes, h⟩ := Option.bind_eq_some_iff.mp h
  rcases payloads with _ | ⟨es, _ | ⟨_, _⟩⟩
  · cases h
  swap
  · cases h
  obtain ⟨⟨id, rest⟩, hid, h⟩ := Option.bind_eq_some_iff.mp h
  obtain ⟨⟨esFlags, rest⟩, hflags, h⟩ := Option.bind_eq_some_iff.mp h
  obtain ⟨⟨stream, rest⟩, hstream, h⟩ := Option.bind_eq_some_iff.mp h
  obtain ⟨rest, hurl, h⟩ := Option.bind_eq_some_iff.mp h
  obtain ⟨⟨ocr, rest⟩, hocr, h⟩ := Option.bind_eq_some_iff.mp h
  obtain ⟨payloads, hchildren, h⟩ := Option.bind_eq_some_iff.mp h
  rcases payloads with _ | ⟨config, _ | ⟨sl, _ | ⟨_, _⟩⟩⟩
  · cases h
  · cases h
  swap
  · cases h
  obtain ⟨⟨fields, rest⟩, hfields, h⟩ := Option.bind_eq_some_iff.mp h
  obtain ⟨payloads, hspecific, h⟩ := Option.bind_eq_some_iff.mp h
  rcases payloads with _ | ⟨found, _ | ⟨_, _⟩⟩
  · cases h
  swap
  · cases h
  obtain rfl := Option.some.inj h
  obtain ⟨ds, hds, hes⟩ := exists_descriptorOfTag hes
  obtain ⟨ds', hds', hconfig⟩ := exists_descriptorOfTag hchildren
  obtain ⟨ds'', hds'', hfound⟩ := exists_descriptorOfTag hspecific
  simp only [readEsds, hversion, hds, hes, hid, hflags, hstream, hurl, hocr, hds', hconfig,
    hfields, hds'', hfound, Option.bind_eq_bind, Option.bind_some]

/-- How the samples of a track are coded.  The boxes of a visual entry are those
behind its fields. -/
inductive SampleEntry where
  | visual (format : FourCC) (width height : ℕ) (boxes : List (FourCC × List UInt8))
  | audio (format : FourCC) (channelCount sampleRate : ℕ) (config : List UInt8)
  deriving DecidableEq, Repr

def readVisualEntry (t : BoxTree) : Option SampleEntry := do
  let (_, rest) ← readBytes 24 t.data
  let (width, rest) ← readUInt 2 rest
  let (height, _) ← readUInt 2 rest
  some (.visual t.type width height (t.children.map fun child ↦ (child.type, child.data)))

def readAudioEntry (t : BoxTree) : Option SampleEntry := do
  let (_, rest) ← readBytes 16 t.data
  let (channelCount, rest) ← readUInt 2 rest
  let (_, rest) ← readBytes 6 rest
  let (sampleRate, _) ← readUInt 4 rest
  let esds ← t.find [⟨'e', 's', 'd', 's'⟩]
  let config ← readEsds esds.data
  some (.audio t.type channelCount (sampleRate / 2 ^ 16) config)

def readSampleEntry (handler : FourCC) (t : BoxTree) : Option SampleEntry :=
  if handler = ⟨'v', 'i', 'd', 'e'⟩ then readVisualEntry t
  else if handler = ⟨'s', 'o', 'u', 'n'⟩ then readAudioEntry t
  else none

structure MovieTrack where
  header : TrackHeader
  timescale : ℕ
  handler : FourCC
  dataReferences : ℕ
  entries : List SampleEntry
  editList : Option (List ℤ)
  deriving DecidableEq, Repr

/-- The media times of the edits of a track that has an edit list. -/
def readEdits (t : BoxTree) : Option (Option (List ℤ)) :=
  match t.find [⟨'e', 'd', 't', 's'⟩, ⟨'e', 'l', 's', 't'⟩] with
  | none => some none
  | some elst => (readElst elst.data).map some

def readTrak (t : BoxTree) : Option MovieTrack := do
  let tkhd ← t.find [⟨'t', 'k', 'h', 'd'⟩]
  let header ← readTkhd tkhd.data
  let mdia ← t.find [⟨'m', 'd', 'i', 'a'⟩]
  let mdhd ← mdia.find [⟨'m', 'd', 'h', 'd'⟩]
  let timescale ← readMdhd mdhd.data
  let hdlr ← mdia.find [⟨'h', 'd', 'l', 'r'⟩]
  let handler ← readHdlr hdlr.data
  let minf ← mdia.find [⟨'m', 'i', 'n', 'f'⟩]
  let dref ← minf.find [⟨'d', 'i', 'n', 'f'⟩, ⟨'d', 'r', 'e', 'f'⟩]
  let references ← readEntries dref
  let stsd ← minf.find [⟨'s', 't', 'b', 'l'⟩, ⟨'s', 't', 's', 'd'⟩]
  let entries ← readEntries stsd
  let entries ← entries.mapM (readSampleEntry handler)
  let editList ← readEdits t
  some ⟨header, timescale, handler, references.length, entries, editList⟩

/-- What a player learns from an init segment. -/
structure Movie where
  boxTypes : List FourCC
  nextTrackId : ℕ
  trexIds : List ℕ
  tracks : List MovieTrack
  deriving DecidableEq, Repr

def readMovie (bytes : List UInt8) : Option Movie := do
  let boxes ← readTrees containerFields bytes
  let moov ← boxes.find? fun t ↦ t.type = ⟨'m', 'o', 'o', 'v'⟩
  let mvhd ← moov.find [⟨'m', 'v', 'h', 'd'⟩]
  let nextTrackId ← readMvhd mvhd.data
  let mvex ← moov.find [⟨'m', 'v', 'e', 'x'⟩]
  let trexIds ← (mvex.childrenOfType ⟨'t', 'r', 'e', 'x'⟩).mapM fun t ↦ readTrex t.data
  let tracks ← (moov.childrenOfType ⟨'t', 'r', 'a', 'k'⟩).mapM readTrak
  some ⟨boxes.map BoxTree.type, nextTrackId, trexIds, tracks⟩

end IsoBox
