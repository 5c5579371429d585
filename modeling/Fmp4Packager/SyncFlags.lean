import Fmp4Packager.InitRoundTrip
import Fmp4Packager.SegmentFields

/-!
# Sync samples

A player takes the flags of the first sample of a fragment from the trun and those of
the others from the trex of the track.  For a video track the first is always a sync
sample and the others never are; whether a sample is a keyframe is not written.
-/

namespace Fmp4Packager

open BigEndian IsoBox

namespace Fmp4Writer

def trexFieldsView (t : Track) : TrexFields where
  trackId := t.trackId.toNat
  defaultSampleDuration := 0
  defaultSampleSize := 0
  defaultSampleFlags := if isVideo t then 0x01010000 else 0

theorem readTrexFields_trex (t : Track) (rest : List UInt8) :
    readTrexFields (encode 4 t.trackId.toNat ++
      wordBytes [1, 0, 0, if isVideo t then 0x01010000 else 0] ++ rest) =
        some (trexFieldsView t, rest) := by
  simp only [readTrexFields, wordBytes, List.flatMap_cons, List.flatMap_nil, List.append_nil,
    List.append_assoc, readUInt_encode, toNat_mod_u32, Option.bind_eq_bind, Option.bind_some,
    Option.pure_def, trexFieldsView]
  split <;> rfl

theorem readSizedBox_trex (t : Track) (rest : List UInt8) :
    readSizedBox ⟨'t', 'r', 'e', 'x'⟩ (readFull 0 0 readTrexFields)
      (box (trexTree t).type (trexTree t).body ++ rest) =
        some (.written (4 + 20) (trexFieldsView t), rest) := by
  have hlen : (encode 4 t.trackId.toNat ++
      wordBytes [1, 0, 0, if isVideo t then 0x01010000 else 0]).length = 20 := by
    rw [List.length_append, length_encode, length_wordBytes]
    rfl
  rw [← hlen]
  exact readSizedBox_fullBox (by decide) (by decide) (readTrexFields_trex t rest)

theorem exists_readSizedBox_mvhd (nextTrackId : UInt32) (rest : List UInt8) :
    ∃ mvhd, readSizedBox ⟨'m', 'v', 'h', 'd'⟩ (readFull 1 0 (readBytes 108))
      (box (mvhdTree nextTrackId).type (mvhdTree nextTrackId).body ++ rest) =
        some (mvhd, rest) :=
  ⟨_, readSizedBox_fullBox (by decide) (by decide)
    (readBytes_append rest (by simp [length_mvhdMiddle]))⟩

theorem readMoovTrexs_moov (tracks : List Track) :
    readMoovTrexs tracks.length (moovTree tracks).body =
      some (tracks.map fun t ↦ .written (4 + 20) (trexFieldsView t), []) := by
  have htrexs (rest : List UInt8) :
      readMany (readSizedBox ⟨'t', 'r', 'e', 'x'⟩ (readFull 0 0 readTrexFields)) tracks.length
        (tracks.flatMap (fun t ↦ box (trexTree t).type (trexTree t).body) ++ rest) =
          some (tracks.map fun t ↦ .written (4 + 20) (trexFieldsView t), rest) :=
    readMany_flatMap _ _ tracks (fun t _ rest ↦ readSizedBox_trex t rest) rest
  have htrexBytes : encodeTrees (tracks.map trexTree) =
      tracks.flatMap fun t ↦ box (trexTree t).type (trexTree t).body := by
    rw [encodeTrees_eq_flatMap, List.map_map, List.flatMap_map]
    rfl
  have hlayout : (moovTree tracks).body =
      box (mvhdTree (maxTrackId tracks + 1)).type (mvhdTree (maxTrackId tracks + 1)).body ++
        (box ⟨'m', 'v', 'e', 'x'⟩
          (tracks.flatMap fun t ↦ box (trexTree t).type (trexTree t).body) ++
            encodeTrees (tracks.map trakTree)) := by
    rw [moovTree, BoxTree.body, List.nil_append, encodeTrees_cons, encodeTrees_cons,
      BoxTree.body, List.nil_append, htrexBytes]
    rfl
  have hmvex : readSizedBox ⟨'m', 'v', 'e', 'x'⟩
      (readMany (readSizedBox ⟨'t', 'r', 'e', 'x'⟩ (readFull 0 0 readTrexFields)) tracks.length)
      (box ⟨'m', 'v', 'e', 'x'⟩
        (tracks.flatMap fun t ↦ box (trexTree t).type (trexTree t).body) ++
          encodeTrees (tracks.map trakTree)) =
        some (.written _ (tracks.map fun t ↦ .written (4 + 20) (trexFieldsView t)),
          encodeTrees (tracks.map trakTree)) :=
    readSizedBox_box (htrexs _)
  obtain ⟨mvhd, hmvhd⟩ := exists_readSizedBox_mvhd (maxTrackId tracks + 1)
    (box ⟨'m', 'v', 'e', 'x'⟩
      (tracks.flatMap fun t ↦ box (trexTree t).type (trexTree t).body) ++
        encodeTrees (tracks.map trakTree))
  simp only [readMoovTrexs, hlayout, hmvhd, hmvex, Option.bind_eq_bind, Option.bind_some,
    Option.pure_def]
  rfl

theorem readInitTrexs_init (tracks : List Track) :
    readInitTrexs tracks.length (encodeTrees [ftypTree, moovTree tracks]) =
      some (tracks.map trexFieldsView) := by
  have hftyp (rest : List UInt8) :
      readSizedBox ⟨'f', 't', 'y', 'p'⟩ (readBytes 20) (box ftypTree.type ftypTree.body ++ rest) =
        some (.written 20 ftypTree.body, rest) :=
    readSizedBox_box (readBytes_append rest (by simp [ftypTree, BoxTree.body]))
  have hmoov : readSizedBox ⟨'m', 'o', 'o', 'v'⟩ (readMoovTrexs tracks.length)
      (box ⟨'m', 'o', 'o', 'v'⟩ (moovTree tracks).body) =
        some (.written _ (tracks.map fun t ↦ .written (4 + 20) (trexFieldsView t)), []) :=
    readSizedBox_last (readMoovTrexs_moov tracks)
  have hlayout : encodeTrees [ftypTree, moovTree tracks] =
      box ftypTree.type ftypTree.body ++ box ⟨'m', 'o', 'o', 'v'⟩ (moovTree tracks).body := by
    rw [encodeTrees_cons, encodeTrees_cons, encodeTrees_nil, List.append_nil]
    rfl
  simp only [readInitTrexs, hlayout, hftyp, hmoov, Option.bind_eq_bind, Option.bind_some,
    Option.pure_def, SizedBox.written, List.map_map]
  rfl

/-- Which samples of a video track a reader takes for sync samples. -/
def syncMarks (trex : TrexFields) (traf : TrafFields) : List Bool :=
  (traf.sampleFlags trex.defaultSampleFlags).map isSync

theorem syncMarks_view {t : Track} (hvideo : isVideo t = true) (dataOffset : ℕ)
    (input : TrackInput) :
    syncMarks (trexFieldsView t) (trafFieldsView dataOffset input) =
      match input.2.1 with
      | [] => []
      | _ :: rest => true :: rest.map fun _ ↦ false := by
  have hfirst : isSync 0x02000000 = true := by decide
  have hothers : isSync 0x01010000 = false := by decide
  rw [syncMarks, trafFieldsView, trexFieldsView, TrafFields.sampleFlags]
  cases hsamples : input.2.1 with
  | nil => rfl
  | cons first rest =>
      simp only [hvideo, if_true, List.isEmpty_cons, Bool.false_eq_true, if_false,
        SizedBox.written, TrunFields.sampleFlags, trunFieldsView, List.map_cons, List.map_map,
        runSampleView, Option.getD_none, hfirst, Function.comp_def, hothers]

theorem syncMarks_eq_isKeyframe_iff {t : Track} (hvideo : isVideo t = true) (dataOffset : ℕ)
    (input : TrackInput) :
    syncMarks (trexFieldsView t) (trafFieldsView dataOffset input) =
        input.2.1.map Sample.isKeyframe ↔
      (∀ s ∈ input.2.1.head?, s.isKeyframe = true) ∧
        ∀ s ∈ input.2.1.tail, s.isKeyframe = false := by
  rw [syncMarks_view hvideo]
  cases input.2.1 with
  | nil => simp
  | cons first rest =>
      rw [List.map_cons, List.cons.injEq, List.map_inj_left]
      simp only [List.head?_cons, Option.mem_some_iff, forall_eq', List.tail_cons, eq_comm]

/-- The keyframes of a video track are the samples that a reader marks exactly when the
first sample is a keyframe and no other is. -/
theorem syncMarks_iff (sequenceNumber : UInt32) (initTracks tracks : List Track)
    (samplesPerTrack : List (List Sample)) (tfdtPerTrack : List Int64)
    (hinit : initTracks ≠ []) (hsamples : tracks.length = samplesPerTrack.length)
    (htfdt : tracks.length = tfdtPerTrack.length) :
    ∃ init trexs bytes f, buildInit initTracks = .ok init ∧
      readInitTrexs initTracks.length init = some trexs ∧
      buildSegment sequenceNumber tracks samplesPerTrack tfdtPerTrack = .ok bytes ∧
      readSegmentFields 0xB05 (samplesPerTrack.map List.length) bytes = some f ∧
      ∀ (t : Track) (i j : ℕ) (samples : List Sample), isVideo t = true →
        initTracks[j]? = some t → tracks[i]? = some t → samplesPerTrack[i]? = some samples →
        ∃ trex traf, trexs[j]? = some trex ∧ trex.trackId = t.trackId.toNat ∧
          f.moof.content.trafs[i]? = some traf ∧
          traf.content.tfhd.content = t.trackId.toNat ∧
          (syncMarks trex traf.content = samples.map Sample.isKeyframe ↔
            (∀ s ∈ samples.head?, s.isKeyframe = true) ∧
              ∀ s ∈ samples.tail, s.isKeyframe = false) := by
  obtain ⟨inputs, rfl, rfl, -, hbuild, hread⟩ :=
    buildSegment_fields sequenceNumber hsamples htfdt
  refine ⟨_, _, _, _, buildInit_eq hinit, readInitTrexs_init initTracks, hbuild, hread, ?_⟩
  intro t i j samples hvideo hj hi hs
  rw [List.getElem?_map, Option.map_eq_some_iff] at hi hs
  obtain ⟨input, hinput, rfl⟩ := hi
  obtain ⟨input', hinput', rfl⟩ := hs
  obtain rfl := Option.some.inj (hinput.symm.trans hinput')
  obtain ⟨dataOffset, htraf⟩ := getElem?_trafs_fieldsView sequenceNumber hinput
  refine ⟨trexFieldsView input.1, _, ?_, rfl, htraf, rfl, ?_⟩
  · rw [List.getElem?_map, hj, Option.map_some]
  · exact syncMarks_eq_isKeyframe_iff hvideo dataOffset input

def avcTrack : Track := ⟨1, ⟨1, 16000⟩, some ⟨.video, .h264, [], 1280, 720, 0, 0, 0⟩, none, 0⟩

/-- The sample list of the source's tests: only the first is a keyframe. -/
theorem syncMarks_iff_oneKeyframe :
    ∃ init trexs bytes f trex traf, buildInit [avcTrack] = .ok init ∧
      readInitTrexs 1 init = some trexs ∧
      buildSegment 1 [avcTrack] [[⟨none, 0, 0, 640, 0, true⟩, ⟨none, 0, 640, 640, 0, false⟩]] [0] =
        .ok bytes ∧
      readSegmentFields 0xB05 [2] bytes = some f ∧ trexs[0]? = some trex ∧
      f.moof.content.trafs[0]? = some traf ∧ syncMarks trex traf.content = [true, false] := by
  obtain ⟨init, trexs, bytes, f, hinit, htrexs, hbuild, hread, hmarks⟩ :=
    syncMarks_iff 1 [avcTrack] [avcTrack]
      [[⟨none, 0, 0, 640, 0, true⟩, ⟨none, 0, 640, 640, 0, false⟩]] [0] (by simp) rfl rfl
  obtain ⟨trex, traf, htrex, -, htraf, -, hiff⟩ := hmarks avcTrack 0 0 _ rfl rfl rfl rfl
  exact ⟨init, trexs, bytes, f, trex, traf, hinit, htrexs, hbuild, hread, htrex, htraf,
    hiff.mpr (by simp)⟩

def twoKeyframes : List Sample := [⟨none, 0, 0, 640, 0, true⟩, ⟨none, 0, 640, 640, 0, true⟩]

/-- Of two keyframes a reader finds the first. -/
theorem not_syncMarks_twoKeyframes :
    ∃ init trexs bytes f trex traf, buildInit [avcTrack] = .ok init ∧
      readInitTrexs 1 init = some trexs ∧
      buildSegment 1 [avcTrack] [twoKeyframes] [0] = .ok bytes ∧
      readSegmentFields 0xB05 [2] bytes = some f ∧ trexs = [trex] ∧
      f.moof.content.trafs = [traf] ∧
      syncMarks trex traf.content ≠ twoKeyframes.map Sample.isKeyframe :=
  ⟨_, _, _, _, _, _, buildInit_eq (by simp), readInitTrexs_init [avcTrack],
    buildSegment_eq 1 rfl rfl, readSegmentFields_segmentBytes 1 _, rfl, rfl, by decide⟩

end Fmp4Writer

end Fmp4Packager
