import Fmp4Packager.DemuxerSteps
import Fmp4Packager.General.CallRun
import Fmp4Packager.VideoSeams

/-!
# A session after a failed re-open

A seek closes the input before it opens it again.  When the opening fails, the
session is left with a null context, or with an open context that has no video
stream, and the next call that needs the context goes wrong.  Calls that are
answered from the caches do not.
-/

namespace Fmp4Packager

namespace Session

open EbmlParser Demuxer

variable {δ ε α : Type}

/-- A call on a session, with the outcome of the re-opening if it comes to one. -/
inductive Call where
  | getKeyframesMs
  | generateInitSegment
  | generateSegment (reopen : Reopen) (w : Window)
  deriving DecidableEq, Repr

def perform (m : Media) (c : AacCodec δ ε α) :
    Call → Session δ ε α → Except Stop Unit × Session δ ε α
  | .getKeyframesMs, s => ((s.getKeyframesMs m).1.map fun _ ↦ (), (s.getKeyframesMs m).2)
  | .generateInitSegment, s => (s.generateInitSegment.1.map fun _ ↦ (), s.generateInitSegment.2)
  | .generateSegment reopen w, s =>
      ((s.generateSegment m c reopen w).1.map fun _ ↦ (), (s.generateSegment m c reopen w).2)

theorem settles_map {β γ : Type} {f : β → γ} {outcome : Except Stop β} :
    Settles (outcome.map f) ↔ Settles outcome := by
  cases outcome <;> exact Iff.rfl

/-- The re-openings of a call find a file with `n` streams. -/
def Call.WellFormed (n : ℕ) : Call → Prop
  | .generateSegment reopen _ => ReopensWith n reopen
  | _ => True

/-- The state has what the call needs: an open context, with a video stream if the
call seeks, or the answer in a cache. -/
def CanAnswer : Call → Session δ ε α → Prop
  | .getKeyframesMs, s => s.demuxer.fmtCtx.isSome ∨ s.demuxer.KeyframesAtHand
  | .generateInitSegment, s => s.demuxer.fmtCtx.isSome ∨ s.initBuilt ∧ s.initCache ≠ []
  | .generateSegment _ w, s => s.demuxer.Ready ∨ (s.segmentCache.lookup w.segmentIdx).isSome

/-- What holds of a session on a file with `n` streams, whatever has failed: only a
seek closes the context, and only with a video stream; and no seek comes before
the first init segment. -/
structure Consistent (n : ℕ) (s : Session δ ε α) : Prop where
  bounded : s.demuxer.Bounded n
  isSome_or : s.demuxer.fmtCtx.isSome ∨ 0 ≤ s.demuxer.videoStreamIdx
  readyUntilInit : s.initBuilt = false → s.demuxer.Ready

theorem initTracks_settles_iff {n : ℕ} {s : Session δ ε α} (h : Consistent n s) :
    Settles s.initTracks ↔ s.demuxer.fmtCtx.isSome := by
  have hvideo := h.bounded.videoStream_settles_iff
  rw [initTracks]
  cases hvid : s.demuxer.videoStream with
  | error stop =>
      rw [hvid] at hvideo
      refine hvideo.trans ⟨fun hsome ↦ ?_, fun hsome _ ↦ hsome⟩
      exact h.isSome_or.elim id hsome
  | ok vid =>
      rw [hvid] at hvideo
      have hopen : s.demuxer.fmtCtx.isSome :=
        h.isSome_or.elim id (hvideo.mp trivial)
      refine iff_of_true ?_ hopen
      obtain ⟨aud, haud⟩ := h.bounded.audioStream_of_open hopen
      rw [ok_bind]
      split
      · rw [haud]
        trivial
      · trivial

theorem generateInitSegment_settles_iff {n : ℕ} {s : Session δ ε α} (h : Consistent n s) :
    Settles s.generateInitSegment.1 ↔
      s.demuxer.fmtCtx.isSome ∨ s.initBuilt ∧ s.initCache ≠ [] := by
  have htracks := initTracks_settles_iff h
  rw [generateInitSegment]
  by_cases hbuilt : s.initBuilt ∧ s.initCache ≠ []
  · rw [if_pos hbuilt]
    exact iff_of_true trivial (.inr hbuilt)
  · rw [if_neg hbuilt]
    cases hinit : s.initTracks with
    | error stop =>
        rw [hinit] at htracks
        exact htracks.trans (by tauto)
    | ok tracks =>
        rw [hinit] at htracks
        refine iff_of_true ?_ (.inl (htracks.mp trivial))
        dsimp only
        split <;> trivial

theorem segmentOutcome_settles (w : Window) (vid : AVStream)
    (aacCodecpar : Option AVCodecParameters) (hasAac : Bool)
    (videoSamples audioSamples : List Sample) :
    Settles (segmentOutcome w vid aacCodecpar hasAac videoSamples audioSamples) := by
  rw [segmentOutcome]
  split
  · trivial
  · obtain ⟨bytes, hbytes⟩ := segmentBytes_eq_ok w vid aacCodecpar hasAac
      (fixVideoDurations videoSamples) audioSamples
    rw [hbytes]
    trivial

/-- A segment that is not cached is built exactly from an open context with a video
stream. -/
theorem buildSegmentLocked_step {n : ℕ} {m : Media} (c : AacCodec δ ε α) {reopen : Reopen}
    (w : Window) {s : Session δ ε α} (h : Consistent n s) (hbuilt : s.initBuilt = true)
    (hreopen : ReopensWith n reopen) {read : Option (List CueEntry)}
    (hread : readCueEntries m = .ok read) :
    (Settles (buildSegmentLocked m c reopen w s).1 ↔
        s.demuxer.Ready ∨ (s.segmentCache.lookup w.segmentIdx).isSome) ∧
      Consistent n (buildSegmentLocked m c reopen w s).2 := by
  have hnot : s.initBuilt ≠ false := by simp [hbuilt]
  obtain ⟨hsettles, hbounded, hready⟩ :=
    h.bounded.seekToMs hreopen hread (audioDecodeStartMs w.segmentStartMs)
  have hisSome := seekToMs_isSome_or m reopen (audioDecodeStartMs w.segmentStartMs) h.isSome_or
  have hstep := buildSegmentLocked_buildStep m c reopen w s
  generalize buildSegmentLocked m c reopen w s = result at hstep ⊢
  obtain ⟨outcome, s'⟩ := result
  cases hstep with
  | cached bytes hhit => exact ⟨iff_of_true trivial (.inr (by simp [hhit])), h⟩
  | seekFails stop d hmiss hseek =>
      rw [hseek] at hsettles hbounded hisSome
      rw [hmiss, Option.isSome_none, Bool.false_eq_true, or_false]
      exact ⟨hsettles, hbounded, hisSome, fun h ↦ absurd h hnot⟩
  | streamFails stop d hmiss hseek hstreams =>
      rw [hseek] at hbounded hready
      obtain ⟨vid, hvid⟩ := hbounded.videoStream_of_ready (hready rfl)
      obtain ⟨aud, haud⟩ := hbounded.audioStream_of_open (hready rfl).1
      exact absurd haud (hstreams vid aud hvid)
  | builds d vid aud hmiss hseek hvid haud =>
      rw [hseek] at hsettles hbounded hready
      obtain ⟨packets, hbuild⟩ := buildFromPackets_eq c w vid aud (afterSeek c w d s)
        (leftQueue_afterSeek c w d s)
      rw [hbuild]
      refine ⟨iff_of_true (segmentOutcome_settles ..) (.inl (hsettles.mp trivial)), ?_⟩
      exact ⟨⟨hbounded.streams, hbounded.video, hbounded.audio⟩, .inl (hready rfl).1,
        fun h ↦ absurd h hnot⟩

theorem generateSegment_step {n : ℕ} {m : Media} (c : AacCodec δ ε α) {reopen : Reopen}
    (w : Window) {s : Session δ ε α} (h : Consistent n s) (hreopen : ReopensWith n reopen)
    {read : Option (List CueEntry)} (hread : readCueEntries m = .ok read) :
    (Settles (s.generateSegment m c reopen w).1 ↔
        s.demuxer.Ready ∨ (s.segmentCache.lookup w.segmentIdx).isSome) ∧
      Consistent n (s.generateSegment m c reopen w).2 := by
  rcases generateSegment_cases m c reopen w s with
    ⟨built, bytes, ⟨stop, hnot, hinit, hsegment⟩ | ⟨hbuilt, hsegment⟩⟩
  · have hready := h.readyUntilInit hnot
    have hsettles := (generateInitSegment_settles_iff h).mpr (.inl hready.1)
    rw [hinit] at hsettles
    rw [hsegment]
    exact ⟨iff_of_true hsettles (.inl hready), h.bounded, h.isSome_or, fun _ ↦ hready⟩
  · rw [hsegment]
    have hs' : Consistent n { s with initBuilt := built, initCache := bytes } :=
      ⟨h.bounded, h.isSome_or, fun hnot ↦ by simp [hbuilt] at hnot⟩
    exact buildSegmentLocked_step c w hs' hbuilt hreopen hread

/-- One call: it returns or throws exactly when the state can answer it, and the
session stays consistent. -/
theorem perform_step {n : ℕ} {m : Media} (c : AacCodec δ ε α) {read : Option (List CueEntry)}
    (hread : readCueEntries m = .ok read) (call : Call) (s : Session δ ε α)
    (hcall : call.WellFormed n) (h : Consistent n s) :
    (Settles (perform m c call s).1 ↔ CanAnswer call s) ∧
      Consistent n (perform m c call s).2 := by
  cases call with
  | getKeyframesMs =>
      have hsame := ensureCueIndex_sameOpening m s.demuxer
      have hbounded := h.bounded.ensureCueIndex m
      have hsettles := h.bounded.ensureCueIndex_settles_iff hread
      have hisSome := h.isSome_or
      rw [← hsame.isSome, ← hsame.video] at hisSome
      cases hensure : s.demuxer.ensureCueIndex m with
      | mk outcome d =>
          rw [hensure] at hsame hbounded hsettles hisSome
          have hconsistent : Consistent n { s with demuxer := d } :=
            ⟨hbounded, hisSome, fun hnot ↦ by
              have hready := h.readyUntilInit hnot
              exact ⟨hsame.isSome.trans hready.1, hsame.video.symm ▸ hready.2⟩⟩
          rw [perform, settles_map, getKeyframesMs, keyframesMs, hensure]
          cases outcome with
          | error stop => exact ⟨hsettles, hconsistent⟩
          | ok value => exact ⟨hsettles, hconsistent⟩
  | generateInitSegment =>
      obtain ⟨built, bytes, hframe, hmono, -⟩ := generateInitSegment_frame s
      rw [perform, settles_map, hframe]
      refine ⟨generateInitSegment_settles_iff h, h.bounded, h.isSome_or, fun hnot ↦ ?_⟩
      refine h.readyUntilInit (by_contra fun hbuilt ↦ ?_)
      have hbuilt := hmono (by simpa using hbuilt)
      exact absurd (hbuilt.symm.trans hnot) (by decide)
  | generateSegment reopen w =>
      rw [perform, settles_map]
      exact generateSegment_step c w h hcall hread

theorem create_cases {c : AacCodec δ ε α} {reopen : Reopen} {s : Session δ ε α}
    (hcreate : create c reopen = .ok s) :
    ∃ d, Demuxer.create reopen = (.ok (), d) ∧
      ((d.audioStream = .ok none ∧ s = { demuxer := d }) ∨
        ∃ aud o, d.audioStream = .ok (some aud) ∧ c.openCodec aud.codecpar = .ok o ∧
          s = { demuxer := d
                aac := some (AacTranscoder.ofOpened o)
                aacCodecpar := some o.codecpar }) := by
  rw [create] at hcreate
  cases hopen : Demuxer.create reopen with
  | mk outcome d =>
      rw [hopen] at hcreate
      cases outcome with
      | error stop => cases hcreate
      | ok value =>
          refine ⟨d, rfl, ?_⟩
          cases haudio : d.audioStream with
          | error stop =>
              simp only [haudio, ok_bind, error_bind] at hcreate
              cases hcreate
          | ok aud =>
              simp only [haudio, ok_bind] at hcreate
              split at hcreate
              · cases hcreate
                exact .inl ⟨rfl, rfl⟩
              · split at hcreate
                · cases hcreate
                · next o ho =>
                    cases hcreate
                    exact .inr ⟨_, o, rfl, ho, rfl⟩

/-- A constructed session has empty caches, and a transcoder exactly when it has the
parameters of one. -/
theorem create_eq_ok {c : AacCodec δ ε α} {reopen : Reopen} {s : Session δ ε α}
    (hcreate : create c reopen = .ok s) :
    Demuxer.create reopen = (.ok (), s.demuxer) ∧
      (s.initBuilt = false ∧ s.segmentCache = ∅ ∧ s.audioFrameCache = ∅) ∧
      (∃ aud, s.demuxer.audioStream = .ok aud) ∧ s.aac.isSome = s.aacCodecpar.isSome := by
  obtain ⟨d, hopen, ⟨haudio, rfl⟩ | ⟨aud, o, haudio, -, rfl⟩⟩ := create_cases hcreate
  · exact ⟨hopen, ⟨rfl, rfl, rfl⟩, ⟨_, haudio⟩, rfl⟩
  · exact ⟨hopen, ⟨rfl, rfl, rfl⟩, ⟨_, haudio⟩, rfl⟩

theorem create_consistent {n : ℕ} {c : AacCodec δ ε α} {reopen : Reopen} {s : Session δ ε α}
    (hcreate : create c reopen = .ok s) (hreopen : ReopensWith n reopen) : Consistent n s := by
  obtain ⟨hopen, -, -, -⟩ := create_eq_ok hcreate
  have hfresh : Bounded n {} := ⟨fun _ h ↦ (by cases h), by simp only; omega, by simp only; omega⟩
  have hbounded := hfresh.openInput hreopen
  rw [← Demuxer.create, hopen] at hbounded
  obtain ⟨ctx, -, hvideo, hctx⟩ := openInput_eq_ok hopen
  have hready : s.demuxer.Ready := by
    rw [hctx]
    exact ⟨rfl, hvideo⟩
  exact ⟨hbounded, .inl hready.1, fun _ ↦ hready⟩

/-- In a run of calls on a constructed session, whichever re-openings fail, every
call returns or throws exactly when every call finds a state that can answer
it. -/
theorem calls_settle_iff {n : ℕ} {m : Media} {c : AacCodec δ ε α}
    {read : Option (List CueEntry)} (hread : readCueEntries m = .ok read) {reopen : Reopen}
    {s : Session δ ε α} (hcreate : create c reopen = .ok s) (hreopen : ReopensWith n reopen)
    {calls : List Call} (hcalls : ∀ call ∈ calls, call.WellFormed n) :
    CallRun.Always (perform m c) (fun call s ↦ Settles (perform m c call s).1) calls s ↔
      CallRun.Always (perform m c) CanAnswer calls s :=
  CallRun.always_congr _ (fun call s hcall h _ ↦ (perform_step c hread call s hcall h).2)
    (fun call s hcall h ↦ (perform_step c hread call s hcall h).1)
    (CallRun.always_of_forall (fun call hcall _ ↦ hcalls call hcall) s)
    (create_consistent hcreate hreopen)

/-- A segment whose re-opening fails, and the same segment once more. -/
def failedSegmentTwice : List Call :=
  [.generateSegment (.openInputFails "Connection refused") ⟨0, 0, 10000⟩,
    .generateSegment (.opened (videoFile threeKeyframes).context) ⟨0, 0, 10000⟩]

theorem wellFormed_failedSegmentTwice : ∀ call ∈ failedSegmentTwice, call.WellFormed 1 := by
  intro call hcall
  rcases List.mem_pair.mp hcall with rfl | rfl
  · trivial
  · exact ⟨rfl, by decide, by decide⟩

theorem calls_settle_iff_failedSegmentTwice :
    CallRun.Always (perform (videoFile threeKeyframes) noCodec)
        (fun call s ↦ Settles (perform (videoFile threeKeyframes) noCodec call s).1)
        failedSegmentTwice { demuxer := (Demuxer.create (.opened (videoFile []).context)).2 } ↔
      CallRun.Always (perform (videoFile threeKeyframes) noCodec) CanAnswer failedSegmentTwice
        { demuxer := (Demuxer.create (.opened (videoFile []).context)).2 } :=
  calls_settle_iff (n := 1) rfl
    (show create noCodec (.opened (videoFile []).context) = .ok _ from rfl)
    ⟨rfl, by decide, by decide⟩ wellFormed_failedSegmentTwice

theorem not_calls_settle :
    ¬ ∀ (n : ℕ) (m : Media) (c : AacCodec Unit Unit Unit) (read : Option (List CueEntry))
        (reopen : Reopen) (s : Session Unit Unit Unit) (calls : List Call),
      readCueEntries m = .ok read → create c reopen = .ok s → ReopensWith n reopen →
      (∀ call ∈ calls, call.WellFormed n) →
      CallRun.Always (perform m c) (fun call s ↦ Settles (perform m c call s).1) calls s := by
  intro h
  have hrun := h 1 (videoFile threeKeyframes) noCodec none (.opened (videoFile []).context) _
    failedSegmentTwice rfl rfl ⟨rfl, by decide, by decide⟩ wellFormed_failedSegmentTwice
  exact hrun.2.1

end Session

end Fmp4Packager
