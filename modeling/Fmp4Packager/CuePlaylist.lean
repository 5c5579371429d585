import Fmp4Packager.CuesTruncation
import Fmp4Packager.HeaderRoundTrip
import Fmp4Packager.Playback

/-!
# From the bytes of a file to its playlist

The head of the file says where its Cues are and how their times count, the Cues say
where a segment may start, and the playlist lists what lies between.
-/

namespace Fmp4Packager

open Ebml EbmlParser Demuxer

/-- `avio_read` returns the bytes of the file, as many as there are. -/
def Media.ReadsBytes (m : Media) (bytes : List UInt8) : Prop :=
  ∀ offset n : ℕ, m.avioRead offset n = (bytes.drop offset).take n

/-- A file as a muxer writes it: a head within the part that is read first, and a whole
Cues element where the head says. -/
structure MkvFile where
  bytes : List UInt8
  front : FilePrefix
  head : SegmentHead
  cuesPosition : ℕ
  cues : List CuePoint
  cuesElement : List UInt8
  rest : List UInt8
  front_bytes : bytes.take kHeaderSize = front.bytes
  front_length : 32 ≤ front.bytes.length
  front_encodes : front.segment.Encodes head
  front_fits : front.Fits head
  cues_position : head.cuesPositions.getLast? = some cuesPosition
  cues_bytes : bytes.drop (front.segmentDataStart + cuesPosition) = cuesElement ++ rest
  cues_encodes : EncodesCues cues cuesElement
  cues_length : cuesElement.length ≤ 32 * 1024 * 1024
  chunk_length : 12 ≤ (cuesElement ++ rest).length
  cues_fit : ∀ c ∈ cues, c.Fits head.info.timestampScale head.info.videoTrackNumber
    front.segmentDataStart

namespace MkvFile

/-- The cues of the video track. -/
def entries (f : MkvFile) : List CueEntry :=
  f.cues.filterMap (expectedEntry f.head.info.timestampScale f.head.info.videoTrackNumber
    f.front.segmentDataStart)

/-- Their times in milliseconds. -/
def cueTimes (f : MkvFile) : List ℤ := f.entries.map CueEntry.timeMs

theorem front_lt (f : MkvFile) : f.front.bytes.length < 2 ^ 31 := by
  have hlen : f.front.bytes.length ≤ kHeaderSize := by
    rw [← f.front_bytes, List.length_take]
    exact min_le_left ..
  have hsize : kHeaderSize < 2 ^ 31 := by decide
  omega

theorem parseSegmentInfo_front (f : MkvFile) :
    parseSegmentInfo f.front.bytes = .ok f.head.info := by
  obtain ⟨hescape, hstart, hdrop⟩ := segmentData_bytes f.front_length f.front_lt
  have hfits := f.front_fits
  rw [parseSegmentInfo_eq f.front_lt, if_neg hescape, hstart, Option.map_some, Option.getD_some,
    hdrop, segmentInfoOf_segment f.front_encodes hfits.scale_lt hfits.number_pos hfits.type_pos]

theorem parseCuesLocation_front (f : MkvFile) :
    ∃ total, parseCuesLocation f.front.bytes = .ok (some
      ⟨f.front.segmentDataStart + f.cuesPosition, total, f.front.segmentDataStart⟩) := by
  obtain ⟨total, hlocate, -⟩ :=
    locateCues_eq f.front_lt (f.front_fits.last_lt _ f.cues_position)
  refine ⟨total, ?_⟩
  rw [parseCuesLocation_bytes f.front_encodes f.front_length f.front_lt f.front_fits.inside,
    f.cues_position]
  exact hlocate

theorem parseCuesData_cuesElement (f : MkvFile) :
    parseCuesData f.cuesElement f.head.info.timestampScale f.head.info.videoTrackNumber
      f.front.segmentDataStart = .ok f.entries := by
  obtain ⟨items, sizeWidth, helement, hpoints⟩ := f.cues_encodes
  have hlen : (encodeElement cuesId (items.flatMap Item.encode) sizeWidth).length < 2 ^ 31 := by
    have := f.cues_length
    rw [← helement]
    omega
  have hpayload : (items.flatMap Item.encode).length ≤
      f.cuesElement.length - (4 + sizeWidth.width) := by
    have hwidth : cuesId.width = 4 := rfl
    rw [helement, length_encodeElement, hwidth]
    omega
  have hwhole := parseCuesData_take hlen f.head.info.timestampScale f.head.info.videoTrackNumber
    f.front.segmentDataStart f.cuesElement.length
  rw [← helement, List.take_length, List.take_of_length_le hpayload] at hwhole
  have hscale : 0 ≤ f.head.info.timestampScale := Int.natCast_nonneg _
  rw [hwhole, cuesOf_encodes hpoints hscale (Int.natCast_nonneg _) f.cues_fit, entries]

/-- The chunk that is read at the Cues holds their header. -/
theorem readHeader_chunk (f : MkvFile) :
    ∃ width size, 4 + width + size = f.cuesElement.length ∧
      readId ((f.cuesElement ++ f.rest).take 32) = some (4, kEbmlIdCues) ∧
        readSize (((f.cuesElement ++ f.rest).take 32).drop 4) = some (width, size) := by
  obtain ⟨items, sizeWidth, helement, -⟩ := f.cues_encodes
  have hbegins := beginsWithHeader_encodeElement cuesId (items.flatMap Item.encode) sizeWidth f.rest
  rw [← helement] at hbegins
  have hchunk : BeginsWithHeader cuesId sizeWidth.width (items.flatMap Item.encode).length
      ((f.cuesElement ++ f.rest).take 32) := by
    refine ⟨hbegins.1, List.prefix_take_iff.mpr ⟨hbegins.2, ?_⟩⟩
    have hwidth : cuesId.width = 4 := rfl
    have hle := sizeWidth.width_le
    rw [length_encodeHeader, hwidth]
    omega
  obtain ⟨hid, hsize⟩ := beginsWithHeader_iff.mp hchunk
  exact ⟨sizeWidth.width, (items.flatMap Item.encode).length,
    by rw [helement, length_encodeElement]; rfl, hid, hsize⟩

/-- What `EnsureCueIndex` reads from a file are the cues of its video track. -/
theorem readCueEntries_eq {m : Media} {f : MkvFile} (hreads : m.ReadsBytes f.bytes) :
    readCueEntries m = .ok (some f.entries) := by
  obtain ⟨total, hlocation⟩ := f.parseCuesLocation_front
  obtain ⟨width, size, hwhole, hid, hsize⟩ := f.readHeader_chunk
  have hhead : m.avioRead 0 kHeaderSize = f.front.bytes := by
    rw [← f.front_bytes]
    exact hreads 0 kHeaderSize
  have hcues : ∀ n, m.avioRead (f.front.segmentDataStart + f.cuesPosition) n =
      (f.cuesElement ++ f.rest).take n := by
    intro n
    rw [← f.cues_bytes, ← hreads, Nat.cast_add]
  have hfront : f.front.bytes.isEmpty = false := by
    have := f.front_length
    rw [List.isEmpty_eq_false_iff, ← List.length_pos_iff]
    omega
  have hchunkLength : 12 ≤ ((f.cuesElement ++ f.rest).take 32).length ∧
      ((f.cuesElement ++ f.rest).take 32).length ≤ 32 := by
    have := f.chunk_length
    rw [List.length_take]
    omega
  have hbuf : (f.cuesElement ++ f.rest).take (min (4 + width + size) (32 * 1024 * 1024)) =
      f.cuesElement := by
    have := f.cues_length
    rw [hwhole, min_eq_left this, List.take_left]
  have hcuesElement : f.cuesElement.isEmpty = false := by
    rw [List.isEmpty_eq_false_iff, ← List.length_pos_iff]
    omega
  rw [readCueEntries, hhead]
  simp only [hfront, Bool.false_eq_true, if_false, f.parseSegmentInfo_front, hlocation, ok_bind,
    hcues]
  generalize (f.cuesElement ++ f.rest).take 32 = chunk at hid hsize hchunkLength
  have hchunk := pointsTo_self chunk
  have hpayload : PointsTo chunk (4 : ℕ) (chunk.drop 4) := by
    have hdrop := hchunk.drop (n := 4) (by omega)
    rwa [zero_add] at hdrop
  have hleft : toInt (chunk.length - (4 : ℕ)) = (chunk.drop 4).length := by
    rw [List.length_drop, ← Nat.cast_sub (by omega)]
    exact toInt_natCast (by omega)
  rw [if_neg (not_lt.mpr hchunkLength.1), ebmlReadId_of_pointsTo hchunk, hid]
  simp only [ok_bind, ne_eq, not_true_eq_false, if_false]
  rw [hleft, ebmlReadSize_of_pointsTo hpayload, hsize]
  simp only [ok_bind, Option.getD_some, hbuf, hcuesElement, Bool.false_eq_true, if_false,
    f.parseCuesData_cuesElement]

theorem fileCues_eq {m : Media} {f : MkvFile} (hreads : m.ReadsBytes f.bytes) :
    fileCues m = f.entries := by
  rw [fileCues, readCueEntries_eq hreads]

end MkvFile

theorem head?_filterKeyframes (raw : List ℤ) (targetDurationMs : ℤ) :
    (filterKeyframes raw targetDurationMs).head? = raw.head? := by
  match raw with
  | [] => rfl
  | [time] => rfl
  | first :: second :: rest =>
      simp only [filterKeyframes]
      split <;> rfl

namespace Server

open HlsManifest Session

variable {δ ε α : Type} {files : List Char → Media} {c : AacCodec δ ε α}

theorem sum_segmentDurations_filterKeyframes {times : List ℤ} {first last : ℤ}
    (hfirst : times.head? = some first) (hlast : times.getLast? = some last) (step : ℤ) :
    (segmentDurations (filterKeyframes times step)).sum =
      ((last - first : ℤ) : ℚ) / 1000 := by
  rw [← head?_filterKeyframes times step] at hfirst
  rw [← getLast?_filterKeyframes times step] at hlast
  obtain ⟨rest, hkeyframes⟩ := List.head?_eq_some_iff.mp hfirst
  rw [hkeyframes] at hlast ⊢
  rw [sum_segmentDurations]
  rw [List.getLast?_eq_getLast_of_ne_nil (List.cons_ne_nil first rest)] at hlast
  rw [Option.some.inj hlast]

/-- In every run: whoever gets a playlist of a file reads from it the durations between
those of its cues that count as boundaries, and all of them together span the cues. -/
theorem playlist_lists_cues {infohash : List Char} {f : MkvFile}
    (hreads : (files infohash).ReadsBytes f.bytes) (hinOrder : f.cueTimes.Pairwise (· < ·))
    (faults : Set String) (now : ℤ) (moves : List Move)
    (hopens : CallRun.Always (serverStep files c)
      (ThreadPool.Meets (OpensFiles files faults)) moves (startUp now)) :
    ∀ h ∈ (CallRun.finalState (serverStep files c) moves (startUp now)).threads,
      AsksManifest h.path infohash →
        ∀ body, h.stage.got "application/vnd.apple.mpegurl" = some body →
          ∃ p, readPlaylist body = some p ∧ p.ended = true ∧
            p.segments.map Playlist.Segment.duration =
              segmentDurations (filterKeyframes f.cueTimes 10000) ∧
            ∀ first ∈ f.cueTimes.head?, ∀ last ∈ f.cueTimes.getLast?,
              (p.segments.map Playlist.Segment.duration).sum =
                ((last - first : ℤ) : ℚ) / 1000 := by
  intro h hmem hasks body hgot
  have hholds : ServingHolds files c faults _ :=
    ThreadPool.Holds.finalState (serving_keeps files c faults) (servingHolds_startUp now) hopens
  obtain ⟨hinfohash, -⟩ := asksManifest_path hasks
  obtain ⟨_, _, htrue⟩ := hholds.truthful hmem (Stage.final_of_got hgot)
  obtain ⟨infohash', n, text, hasks', hlength, hgenerate, rfl⟩ := htrue.of_got_playlist hgot
  obtain rfl := hasks.unique hasks'
  have hboundaries : fileBoundaries (files infohash) = filterKeyframes f.cueTimes 10000 := by
    rw [fileBoundaries, MkvFile.fileCues_eq hreads]
    rfl
  rw [hboundaries] at hlength hgenerate
  have hsorted := hinOrder.sublist (filterKeyframes_sublist f.cueTimes 10000)
  obtain ⟨target, hread⟩ := read_of_generate hlength hsorted hinfohash hgenerate
  refine ⟨_, (readPlaylist_bodyOfString text).trans hread, rfl, ?_,
    fun first hfirst last hlast ↦ ?_⟩
  · exact map_duration_listed ..
  · rw [manifestPlaylist, map_duration_listed]
    exact sum_segmentDurations_filterKeyframes hfirst hlast 10000

/-! The file with three cues, element by element. -/

def mkvItem (width value : ℕ) (payload : List UInt8)
    (h : (1 ≤ width ∧ width ≤ 8 ∧ 2 ^ (7 * width) ≤ value ∧ value < 2 ^ (7 * width + 1)) ∧
      payload ≠ [] ∧ payload.length + 1 < 2 ^ (7 * 1)) : Item :=
  shortItem width value payload h.1 h.2

def threeCueSeek : List Item :=
  [mkvItem 2 kEbmlIdSeekID [0x1C, 0x53, 0xBB, 0x6B] (by decide),
    mkvItem 2 kEbmlIdSeekPos [0x13] (by decide)]

def threeCueSeekHead : List Item :=
  [mkvItem 2 kEbmlIdSeek (threeCueSeek.flatMap Item.encode) (by decide)]

def cuePositions51 : List Item :=
  [mkvItem 1 kEbmlIdCueTrack [1] (by decide), mkvItem 1 kEbmlIdCueClusterPos [0x33] (by decide)]

/-- The children of a cue point with the cluster position 51. -/
def cuePointAt (time : Item) : List Item :=
  [time, mkvItem 1 kEbmlIdCueTrackPos (cuePositions51.flatMap Item.encode) (by decide)]

def threeCueItems : List Item :=
  [mkvItem 1 kEbmlIdCuePoint
      ((cuePointAt (mkvItem 1 kEbmlIdCueTime [0] (by decide))).flatMap Item.encode) (by decide),
    mkvItem 1 kEbmlIdCuePoint
      ((cuePointAt (mkvItem 1 kEbmlIdCueTime [0x27, 0x10] (by decide))).flatMap Item.encode)
      (by decide),
    mkvItem 1 kEbmlIdCuePoint
      ((cuePointAt (mkvItem 1 kEbmlIdCueTime [0x4E, 0x20] (by decide))).flatMap Item.encode)
      (by decide)]

def threeCuePoints : List CuePoint :=
  [⟨0, [⟨1, some 51, none⟩]⟩, ⟨10000, [⟨1, some 51, none⟩]⟩, ⟨20000, [⟨1, some 51, none⟩]⟩]

def threeCueFront : FilePrefix where
  headerPayload := []
  headerSizeWidth := .ofBounds 1 (by decide)
  segmentSize := 65
  segmentSizeWidth := .ofBounds 1 (by decide)
  segment :=
    ⟨[mkvItem 4 kEbmlIdSeekHead (threeCueSeekHead.flatMap Item.encode) (by decide),
      mkvItem 4 kEbmlIdCues (threeCueItems.flatMap Item.encode) (by decide)], none⟩
  covers := by decide

def threeCueHead : SegmentHead := ⟨[[⟨[kEbmlIdCues], [19]⟩]], [], []⟩

theorem encodes_threeCueHead : threeCueFront.segment.Encodes threeCueHead := by
  have hseek : EncodesSeek ⟨[kEbmlIdCues], [19]⟩ (threeCueSeek.flatMap Item.encode) :=
    ⟨threeCueSeek, rfl, .cons ⟨by decide, by decide⟩ .nil, .cons ⟨by decide, by decide⟩ .nil⟩
  exact ⟨.cons ⟨threeCueSeekHead, rfl, .cons hseek .nil⟩ .nil, .nil, .nil⟩

theorem fits_threeCueHead : threeCueFront.Fits threeCueHead where
  scale_lt := by decide
  number_pos := by decide
  type_pos := by decide
  inside := by
    intro position hposition
    have hcues : threeCueHead.cuesPositions = [19] := by decide
    obtain rfl := List.mem_singleton.mp (hcues ▸ hposition)
    exact fun h ↦ absurd h.2 (by decide)
  last_lt := by decide

theorem encodesCuePoint_cuePointAt {time : Item} {value : ℕ}
    (hvalue : SpellsUint value time.payload)
    (htime : payloadsWith kEbmlIdCueTime (cuePointAt time) = [time.payload])
    (hpositions : payloadsWith kEbmlIdCueTrackPos (cuePointAt time) =
      [cuePositions51.flatMap Item.encode]) :
    EncodesCuePoint ⟨value, [⟨1, some 51, none⟩]⟩ ((cuePointAt time).flatMap Item.encode) := by
  refine ⟨cuePointAt time, rfl, ?_, ?_⟩
  · rw [htime]
    exact .cons hvalue .nil
  · rw [hpositions]
    exact .cons ⟨cuePositions51, rfl, .cons ⟨by decide, by decide⟩ .nil,
      .cons ⟨by decide, by decide⟩ .nil, .nil⟩ .nil

theorem encodesCues_threeCuePoints : EncodesCues threeCuePoints (threeCueBytes.drop 29) :=
  ⟨threeCueItems, .ofBounds 1 (by decide), by decide +kernel,
    .cons (encodesCuePoint_cuePointAt ⟨by decide, by decide⟩ rfl rfl)
      (.cons (encodesCuePoint_cuePointAt ⟨by decide, by decide⟩ rfl rfl)
        (.cons (encodesCuePoint_cuePointAt ⟨by decide, by decide⟩ rfl rfl) .nil))⟩

def threeCueMkv : MkvFile where
  bytes := threeCueBytes
  front := threeCueFront
  head := threeCueHead
  cuesPosition := 19
  cues := threeCuePoints
  cuesElement := threeCueBytes.drop 29
  rest := []
  front_bytes := by decide +kernel
  front_length := by decide +kernel
  front_encodes := encodes_threeCueHead
  front_fits := fits_threeCueHead
  cues_position := by decide
  cues_bytes := by decide +kernel
  cues_encodes := encodesCues_threeCuePoints
  cues_length := by decide
  chunk_length := by decide
  cues_fit := by
    refine List.forall_mem_cons.mpr ⟨?_, List.forall_mem_cons.mpr ⟨?_,
      List.forall_mem_cons.mpr ⟨?_, List.forall_mem_nil _⟩⟩⟩
    all_goals exact ⟨by decide, by decide, by decide, by decide, by decide⟩

theorem cueTimes_threeCueMkv : threeCueMkv.cueTimes = [0, 10000, 20000] := by
  decide +kernel

theorem playlist_lists_cues_two_segments :
    ∃ h ∈ (CallRun.finalState (serverStep (fun _ ↦ threeCueFile) noCodec) threeCueRun
      (startUp 0)).threads,
      ∃ body p, h.stage.got "application/vnd.apple.mpegurl" = some body ∧
        readPlaylist body = some p ∧ p.ended = true ∧
          p.segments.map Playlist.Segment.duration = [10, 10] := by
  have hreads : threeCueFile.ReadsBytes threeCueMkv.bytes := fun _ _ ↦ rfl
  obtain ⟨text, -, hgot⟩ := exists_got_threeCuePlaylist
  have hplaylist := List.mem_of_getElem? playlist_threeCueRun
  obtain ⟨p, hread, hended, hdurations, -⟩ := @playlist_lists_cues Unit Unit Unit
    (fun _ ↦ threeCueFile) noCodec (sampleInfohash.map Char.toLower) threeCueMkv hreads
    (by rw [cueTimes_threeCueMkv]; decide) ∅ 0 threeCueRun opensFiles_threeCueRun _ hplaylist
    asksManifest_threeCuePlaylist _ hgot
  refine ⟨_, hplaylist, _, p, hgot, hread, hended, ?_⟩
  rw [hdurations, cueTimes_threeCueMkv]
  decide +kernel

end Server

end Fmp4Packager
