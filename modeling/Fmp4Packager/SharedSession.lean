import Fmp4Packager.FailedReopen
import Fmp4Packager.General.CallHistory
import Fmp4Packager.InitLayout
import Fmp4Packager.SeekReplay

/-!
# A session shared by handlers

`GenerateSegment` holds the lock of the session twice: for the first init segment, and
for the build.  Between the two, other handlers may call the session.  Seen by its
results, it is nevertheless as if every call had held the lock throughout, at the time
of its last section.
-/

namespace Fmp4Packager

namespace Session

variable {δ ε α : Type}

/-- What runs under the lock of a session.  The two sections of a request for a segment
carry its window. -/
inductive Section where
  | getKeyframesMs
  | generateInitSegment
  | firstInit (w : Window)
  | build (reopen : Reopen) (w : Window)
  deriving DecidableEq, Repr

/-- What a call on a session comes to. -/
inductive Answer where
  | keyframes (result : Except Stop (List ℤ))
  | init (result : Except Stop (List UInt8))
  | segment (result : Except Stop (List UInt8))

/-- A section, with the answer to the call that it ends. -/
def runSection (m : Media) (c : AacCodec δ ε α) :
    Section → Session δ ε α → Option Answer × Session δ ε α
  | .getKeyframesMs, s => (some (.keyframes (s.getKeyframesMs m).1), (s.getKeyframesMs m).2)
  | .generateInitSegment, s => (some (.init s.generateInitSegment.1), s.generateInitSegment.2)
  | .firstInit _, s =>
      match s.generateInitSegment with
      | (.error stop, s) => (some (.segment (.error stop)), s)
      | (.ok _, s) => (none, s)
  | .build reopen w, s =>
      (some (.segment (s.buildSegmentLocked m c reopen w).1),
        (s.buildSegmentLocked m c reopen w).2)

/-- A call that holds the lock throughout. -/
def answer (m : Media) (c : AacCodec δ ε α) : Call → Session δ ε α → Answer × Session δ ε α
  | .getKeyframesMs, s => (.keyframes (s.getKeyframesMs m).1, (s.getKeyframesMs m).2)
  | .generateInitSegment, s => (.init s.generateInitSegment.1, s.generateInitSegment.2)
  | .generateSegment reopen w, s =>
      (.segment (s.generateSegment m c reopen w).1, (s.generateSegment m c reopen w).2)

/-- The calls that a section ends.  A request that fails with the first init segment
does not come to an opening. -/
def ended : Section → Session δ ε α → List Call
  | .getKeyframesMs, _ => [.getKeyframesMs]
  | .generateInitSegment, _ => [.generateInitSegment]
  | .firstInit w, s =>
      match s.generateInitSegment.1 with
      | .error _ => [.generateSegment .allocFails w]
      | .ok _ => []
  | .build reopen w, _ => [.generateSegment reopen w]

/-- The init segment is never empty, so that it is built once. -/
def InitSound (s : Session δ ε α) : Prop := s.initBuilt = true → s.initCache ≠ []

/-- The build of a segment finds the init segment built. -/
def BuildsAfterInit : Section → Session δ ε α → Prop
  | .build _ _, s => s.initBuilt = true
  | _, _ => True

/-- The first session is the second, or has the init segment that the second has yet to
build. -/
inductive Ahead : Session δ ε α → Session δ ε α → Prop
  | same {s : Session δ ε α} : Ahead s s
  | init {s : Session δ ε α} {tracks : List Fmp4Writer.Track} {bytes : List UInt8}
      (hnot : s.initBuilt = false) (htracks : s.initTracks = .ok tracks)
      (hbytes : Fmp4Writer.buildInit tracks = .ok bytes) :
      Ahead { s with initCache := bytes, initBuilt := true } s

theorem buildInit_ne_nil {tracks : List Fmp4Writer.Track} {bytes : List UInt8}
    (h : Fmp4Writer.buildInit tracks = .ok bytes) : bytes ≠ [] := by
  by_cases hne : tracks = []
  · rw [hne] at h
    cases h
  · rw [Fmp4Writer.buildInit_eq hne] at h
    cases h
    intro hnil
    have hlength := congrArg List.length hnil
    rw [Fmp4Writer.encodeTrees_cons, List.length_append, IsoBox.length_box] at hlength
    simp only [List.length_nil] at hlength
    omega

/-- The three ways of `GenerateInitSegment`. -/
inductive InitStep (s : Session δ ε α) : Except Stop (List UInt8) → Session δ ε α → Prop
  | cached (hbuilt : s.initBuilt = true) (hne : s.initCache ≠ []) : InitStep s (.ok s.initCache) s
  | fails (stop : Stop) (hnot : ¬(s.initBuilt = true ∧ s.initCache ≠ [])) :
      InitStep s (.error stop) s
  | builds (tracks : List Fmp4Writer.Track) (bytes : List UInt8)
      (hnot : ¬(s.initBuilt = true ∧ s.initCache ≠ [])) (htracks : s.initTracks = .ok tracks)
      (hbytes : Fmp4Writer.buildInit tracks = .ok bytes) :
      InitStep s (.ok bytes) { s with initCache := bytes, initBuilt := true }

theorem generateInitSegment_initStep (s : Session δ ε α) :
    InitStep s s.generateInitSegment.1 s.generateInitSegment.2 := by
  rw [generateInitSegment]
  split
  · next h => exact .cached h.1 h.2
  · next hnot =>
      cases htracks : s.initTracks with
      | error stop => exact .fails stop hnot
      | ok tracks =>
          dsimp only
          cases hbytes : Fmp4Writer.buildInit tracks with
          | error what => exact .fails _ hnot
          | ok bytes => exact .builds tracks bytes hnot htracks hbytes

theorem generateInitSegment_of_built {s : Session δ ε α} (hbuilt : s.initBuilt = true)
    (hne : s.initCache ≠ []) : s.generateInitSegment = (.ok s.initCache, s) := by
  rw [generateInitSegment, if_pos ⟨hbuilt, hne⟩]

/-- What the index of a stream has no part in. -/
def trackOf (stream : AVStream) : AVCodecParameters × Option (List UInt8) :=
  (stream.codecpar, trackLanguage stream)

/-- The tracks, from what is looked up of the two streams. -/
def tracksFrom (aac : Option (AacTranscoder δ ε α)) (aacCodecpar : Option AVCodecParameters)
    (video audio : Except Stop (Option (AVCodecParameters × Option (List UInt8)))) :
    Except Stop (List Fmp4Writer.Track) := do
  let vid ← video
  let videoTracks := vid.toList.map fun vid ↦
    { trackId := 1, timescale := kVideoOutTb, codecpar := some vid.1, language := vid.2 }
  match aac, aacCodecpar with
  | some aac, some codecpar =>
      let aud ← audio
      .ok (videoTracks ++ [{
        trackId := 2, timescale := kAudioOutTb, codecpar := some codecpar,
        language := aud.bind Prod.snd, initialPadding := Int64.ofInt aac.initialPadding }])
  | _, _ => .ok videoTracks

theorem initTracks_eq (s : Session δ ε α) :
    s.initTracks = tracksFrom s.aac s.aacCodecpar (s.demuxer.videoStream.map (Option.map trackOf))
      (s.demuxer.audioStream.map (Option.map trackOf)) := by
  rw [initTracks, tracksFrom]
  cases s.demuxer.videoStream with
  | error stop => rfl
  | ok vid =>
      cases s.aac with
      | none => cases vid <;> rfl
      | some aac =>
          cases s.aacCodecpar with
          | none => cases vid <;> rfl
          | some codecpar =>
              cases s.demuxer.audioStream with
              | error stop => rfl
              | ok aud => cases vid <;> cases aud <;> rfl

end Session

namespace Demuxer

/-- The index entries of a stream are not its track. -/
theorem streamAt_withIndex (m : Media) {d : Demuxer} {video : AVStream}
    (hvideo : d.streamAt d.videoStreamIdx = .ok video) (idx : ℤ) :
    ((d.withIndex m video).streamAt idx).map Session.trackOf =
      (d.streamAt idx).map Session.trackOf := by
  obtain ⟨ctx, hctx, hnonneg, hget⟩ := streamAt_eq_ok hvideo
  have hset : (d.withIndex m video).fmtCtx = some { ctx with
      streams := ctx.streams.set d.videoStreamIdx.toNat (indexCues m d.cachedCues video) } := by
    rw [withIndex, hctx]
    rfl
  rw [streamAt, streamAt, hset, hctx]
  dsimp only
  split
  · rfl
  · next hidx =>
      by_cases heq : idx.toNat = d.videoStreamIdx.toNat
      · rw [heq, List.getElem?_set_self (List.getElem?_eq_some_iff.mp hget).1, hget]
        rfl
      · rw [List.getElem?_set_ne (Ne.symm heq)]

theorem streamAt_addCueIndexEntries (m : Media) (d : Demuxer) (idx : ℤ) :
    ((d.addCueIndexEntries m).2.streamAt idx).map Session.trackOf =
      (d.streamAt idx).map Session.trackOf := by
  rw [addCueIndexEntries_eq]
  split
  · split
    · rfl
    · next video hvideo => exact streamAt_withIndex m hvideo idx
  · rfl

theorem streamAt_ensureCueIndex (m : Media) (d : Demuxer) (idx : ℤ) :
    ((d.ensureCueIndex m).2.streamAt idx).map Session.trackOf =
      (d.streamAt idx).map Session.trackOf := by
  rw [ensureCueIndex]
  split
  · exact streamAt_addCueIndexEntries m d idx
  · split
    · rfl
    · split
      · rfl
      · rfl
      · rw [streamAt_addCueIndexEntries]
        rfl

theorem keyframesMs_snd (m : Media) (d : Demuxer) :
    (d.keyframesMs m).2 = (d.ensureCueIndex m).2 := by
  rw [keyframesMs]
  split
  · next h => rw [h]
  · next h => rw [h]

end Demuxer

namespace Session

theorem initTracks_getKeyframesMs (m : Media) (s : Session δ ε α) :
    (s.getKeyframesMs m).2.initTracks = s.initTracks := by
  have hsame := Demuxer.ensureCueIndex_sameOpening m s.demuxer
  have hdemuxer : (s.getKeyframesMs m).2.demuxer = (s.demuxer.ensureCueIndex m).2 :=
    Demuxer.keyframesMs_snd m s.demuxer
  have hmap : ∀ x : Except Stop AVStream, ((do let stream ← x; .ok (some stream)) :
      Except Stop (Option AVStream)).map (Option.map trackOf) = (x.map trackOf).map some := by
    intro x
    cases x <;> rfl
  have hvideo : (s.getKeyframesMs m).2.demuxer.videoStream.map (Option.map trackOf) =
      s.demuxer.videoStream.map (Option.map trackOf) := by
    rw [hdemuxer, Demuxer.videoStream, Demuxer.videoStream, hsame.video]
    split
    · rw [hmap, hmap, Demuxer.streamAt_ensureCueIndex]
    · rfl
  have haudio : (s.getKeyframesMs m).2.demuxer.audioStream.map (Option.map trackOf) =
      s.demuxer.audioStream.map (Option.map trackOf) := by
    rw [hdemuxer, Demuxer.audioStream, Demuxer.audioStream, hsame.audio]
    split
    · rw [hmap, hmap, Demuxer.streamAt_ensureCueIndex]
    · rfl
  rw [initTracks_eq, initTracks_eq s, hvideo, haudio]
  rfl

/-! ## One section -/

theorem generateInitSegment_of_tracks {s : Session δ ε α} {tracks : List Fmp4Writer.Track}
    {bytes : List UInt8} (hnot : s.initBuilt = false) (htracks : s.initTracks = .ok tracks)
    (hbytes : Fmp4Writer.buildInit tracks = .ok bytes) :
    s.generateInitSegment = (.ok bytes, { s with initCache := bytes, initBuilt := true }) := by
  rw [generateInitSegment, if_neg (by simp [hnot]), htracks]
  simp only [hbytes]

theorem InitSound.generateInitSegment {s : Session δ ε α} (h : InitSound s) :
    InitSound s.generateInitSegment.2 := by
  have hstep := generateInitSegment_initStep s
  generalize s.generateInitSegment = result at hstep ⊢
  obtain ⟨outcome, s'⟩ := result
  dsimp only at hstep ⊢
  cases hstep with
  | cached hbuilt hne => exact h
  | fails stop hnot => exact h
  | builds tracks bytes hnot htracks hbytes => exact fun _ ↦ buildInit_ne_nil hbytes

theorem buildSegmentLocked_initBuilt (m : Media) (c : AacCodec δ ε α) (reopen : Reopen)
    (w : Window) (s : Session δ ε α) :
    (buildSegmentLocked m c reopen w s).2.initBuilt = s.initBuilt ∧
      (buildSegmentLocked m c reopen w s).2.initCache = s.initCache := by
  have hstep := buildSegmentLocked_buildStep m c reopen w s
  generalize buildSegmentLocked m c reopen w s = result at hstep ⊢
  obtain ⟨outcome, s'⟩ := result
  cases hstep with
  | cached bytes hhit => exact ⟨rfl, rfl⟩
  | seekFails stop d hmiss hseek => exact ⟨rfl, rfl⟩
  | streamFails stop d hmiss hseek hstreams => exact ⟨rfl, rfl⟩
  | builds d vid aud hmiss hseek hvid haud =>
      obtain ⟨packets, hbuild⟩ := buildFromPackets_eq c w vid aud (afterSeek c w d s)
        (leftQueue_afterSeek c w d s)
      rw [hbuild]
      exact ⟨rfl, rfl⟩

/-- A section never takes the init segment back. -/
theorem runSection_initSound (m : Media) (c : AacCodec δ ε α) (sec : Section)
    {s : Session δ ε α} (h : InitSound s) :
    InitSound (runSection m c sec s).2 ∧
      (s.initBuilt = true → (runSection m c sec s).2.initBuilt = true) := by
  have hinit : InitSound s.generateInitSegment.2 ∧
      (s.initBuilt = true → s.generateInitSegment.2.initBuilt = true) := by
    refine ⟨h.generateInitSegment, fun hbuilt ↦ ?_⟩
    rw [generateInitSegment_of_built hbuilt (h hbuilt)]
    exact hbuilt
  cases sec with
  | getKeyframesMs => exact ⟨h, id⟩
  | generateInitSegment => exact hinit
  | firstInit w =>
      rw [runSection]
      split
      · next heq =>
          rw [heq] at hinit
          exact hinit
      · next heq =>
          rw [heq] at hinit
          exact hinit
  | build reopen w =>
      obtain ⟨hbuilt, hcache⟩ := buildSegmentLocked_initBuilt m c reopen w s
      refine ⟨fun h' ↦ ?_, fun h' ↦ hbuilt.trans h'⟩
      rw [show (runSection m c (.build reopen w) s).2.initCache = s.initCache from hcache]
      exact h (hbuilt.symm.trans h')

/-- A section of the session that is ahead answers the calls that it ends as the other
session does, and leaves it ahead. -/
theorem ahead_step (m : Media) (c : AacCodec δ ε α) (sec : Section) {s s' : Session δ ε α}
    (hbuild : BuildsAfterInit sec s) (h : InitSound s ∧ Ahead s s') :
    (InitSound (runSection m c sec s).2 ∧
        Ahead (runSection m c sec s).2 (CallRun.finalState (answer m c) (ended sec s) s')) ∧
      CallRun.results (answer m c) (ended sec s) s' = (runSection m c sec s).1.toList := by
  obtain ⟨hsound, hahead⟩ := h
  refine and_assoc.mpr ⟨(runSection_initSound m c sec hsound).1, ?_⟩
  cases sec with
  | getKeyframesMs =>
      cases hahead with
      | same => exact ⟨.same, rfl⟩
      | @init _ tracks bytes hnot htracks hbytes =>
          have hahead : Ahead
              { (s'.getKeyframesMs m).2 with initCache := bytes, initBuilt := true }
              (s'.getKeyframesMs m).2 :=
            .init hnot ((initTracks_getKeyframesMs m s').trans htracks) hbytes
          exact ⟨hahead, rfl⟩
  | generateInitSegment =>
      cases hahead with
      | same => exact ⟨.same, rfl⟩
      | @init _ tracks bytes hnot htracks hbytes =>
          have hcached : ({ s' with initCache := bytes, initBuilt := true } :
              Session δ ε α).generateInitSegment = _ :=
            generateInitSegment_of_built rfl (buildInit_ne_nil hbytes)
          have hgenerate := generateInitSegment_of_tracks hnot htracks hbytes
          simp only [runSection, ended, CallRun.results, CallRun.finalState, List.foldl_cons,
            List.foldl_nil, answer, hcached, hgenerate]
          exact ⟨.same, rfl⟩
  | firstInit w =>
      cases hahead with
      | same =>
          have hstep := generateInitSegment_initStep s
          cases hgenerate : s.generateInitSegment with
          | mk outcome s₁ =>
              rw [hgenerate] at hstep
              dsimp only at hstep
              cases hstep with
              | cached hbuilt hne =>
                  simp only [runSection, ended, hgenerate]
                  exact ⟨.same, rfl⟩
              | fails stop hnot =>
                  have hmissing : s.initBuilt = false := by
                    by_contra hbuilt
                    have hbuilt : s.initBuilt = true := by simpa using hbuilt
                    exact hnot ⟨hbuilt, hsound hbuilt⟩
                  have hsegment : s.generateSegment m c .allocFails w = (.error stop, s) := by
                    rw [generateSegment, hmissing, hgenerate]
                    rfl
                  simp only [runSection, ended, hgenerate, CallRun.results, CallRun.finalState,
                    List.foldl_cons, List.foldl_nil, answer, hsegment]
                  exact ⟨.same, rfl⟩
              | builds tracks bytes hnot htracks hbytes =>
                  have hmissing : s.initBuilt = false := by
                    by_contra hbuilt
                    have hbuilt : s.initBuilt = true := by simpa using hbuilt
                    exact hnot ⟨hbuilt, hsound hbuilt⟩
                  simp only [runSection, ended, hgenerate]
                  exact ⟨.init hmissing htracks hbytes, rfl⟩
      | @init _ tracks bytes hnot htracks hbytes =>
          have hcached : ({ s' with initCache := bytes, initBuilt := true } :
              Session δ ε α).generateInitSegment = _ :=
            generateInitSegment_of_built rfl (buildInit_ne_nil hbytes)
          simp only [runSection, ended, hcached]
          exact ⟨.init hnot htracks hbytes, rfl⟩
  | build reopen w =>
      have hbuilt : s.initBuilt = true := hbuild
      have hsegment : s'.generateSegment m c reopen w = s.buildSegmentLocked m c reopen w := by
        cases hahead with
        | same => rw [generateSegment, if_pos hbuilt]
        | init hnot htracks hbytes =>
            rw [generateSegment, if_neg (by simp [hnot]),
              generateInitSegment_of_tracks hnot htracks hbytes]
      simp only [runSection, ended, CallRun.results, CallRun.finalState, List.foldl_cons,
        List.foldl_nil, answer, hsegment]
      exact ⟨.same, rfl⟩

end Session

end Fmp4Packager
