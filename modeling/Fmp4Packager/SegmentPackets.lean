import Fmp4Packager.General.ListCut
import Fmp4Packager.Session

/-!
# What a build reads

The packets that a build reads fall into those before its first keyframe, the run
of the segment, and those from the boundary keyframe on.  The run gives the video
samples.  The audio packets that pass the preroll cut are decoded in order, and it
makes no difference at which points in between the encoder is drained.
-/

namespace Fmp4Packager

namespace Session

variable {δ ε α : Type}

def isVideo (videoIdx : ℤ) (pkt : AVPacket) : Bool := pkt.streamIndex = videoIdx

def isAudio (i : BuildInputs) (pkt : AVPacket) : Bool :=
  pkt.streamIndex ≠ i.videoIdx ∧ pkt.streamIndex = i.audioIdx

def keyframeFrom (videoIdx : ℤ) (vid : AVStream) (ms : ℤ) (pkt : AVPacket) : Bool :=
  isVideo videoIdx pkt && pkt.key && decide (ms ≤ videoPktMs vid pkt)

abbrev startsRun (i : BuildInputs) : AVPacket → Bool :=
  keyframeFrom i.videoIdx i.vidStream i.segmentStartMs

abbrev endsRun (i : BuildInputs) : AVPacket → Bool :=
  keyframeFrom i.videoIdx i.vidStream i.segmentEndMs

def beforeRun (i : BuildInputs) (packets : List AVPacket) : List AVPacket :=
  ListCut.before (keyframeFrom i.videoIdx i.vidStream) i.segmentStartMs packets

def runOnwards (i : BuildInputs) (packets : List AVPacket) : List AVPacket :=
  ListCut.onwards (keyframeFrom i.videoIdx i.vidStream) i.segmentStartMs packets

/-- From the first keyframe of the window up to the boundary keyframe. -/
def segmentRun (i : BuildInputs) (packets : List AVPacket) : List AVPacket :=
  ListCut.between (keyframeFrom i.videoIdx i.vidStream) i.segmentStartMs i.segmentEndMs packets

def boundaryOnwards (i : BuildInputs) (packets : List AVPacket) : List AVPacket :=
  ListCut.onwards (keyframeFrom i.videoIdx i.vidStream) i.segmentEndMs (runOnwards i packets)

def samplesOf (videoIdx : ℤ) (vid : AVStream) (packets : List AVPacket) : List Sample :=
  (packets.filter (isVideo videoIdx)).filterMap (videoSample vid)

/-- The audio packets that the drain past the boundary looks at. -/
def audioPastBoundary (i : BuildInputs) (past : List AVPacket) : List AVPacket :=
  if 0 ≤ i.audioIdx ∧ i.audStream.isSome then
    (past.filter fun pkt ↦ pkt.streamIndex = i.audioIdx).takeWhile fun pkt ↦
      audioPktMs i pkt ≤ i.segmentEndMs + kAudioLookaheadMs
  else []

/-- The packets that the preroll cut lets through. -/
def pastPreroll (i : BuildInputs) (pkts : List AVPacket) : List AVPacket :=
  pkts.filter fun pkt ↦ audioDecodeStartMs i.segmentStartMs ≤ audioPktMs i pkt

/-- The audio packets that are decoded, in order. -/
def acceptedAudio (i : BuildInputs) (packets : List AVPacket) : List AVPacket :=
  pastPreroll i ((beforeRun i packets ++ segmentRun i packets).filter (isAudio i) ++
    audioPastBoundary i (boundaryOnwards i packets).tail)

theorem pastPreroll_append (i : BuildInputs) (xs ys : List AVPacket) :
    pastPreroll i (xs ++ ys) = pastPreroll i xs ++ pastPreroll i ys :=
  List.filter_append ..

theorem pastPreroll_singleton (i : BuildInputs) (pkt : AVPacket) :
    pastPreroll i [pkt] =
      if audioDecodeStartMs i.segmentStartMs ≤ audioPktMs i pkt then [pkt] else [] := by
  rw [pastPreroll, List.filter_singleton]
  split <;> rename_i h <;> simp [h]

def storeFrame (frames : KeyedCache ℤ (List UInt8)) (ep : AVPacket) :
    KeyedCache ℤ (List UInt8) :=
  if ep.pts ≠ avNoptsValue ∧ ep.data ≠ [] then
    frames.insert (audioFrameIndexForPts ep.pts) ep.data
  else frames

def keepFrame (cache : KeyedCache ℤ (List UInt8)) (ep : AVPacket) :
    KeyedCache ℤ (List UInt8) :=
  if ep.pts ≠ avNoptsValue ∧ ep.data ≠ [] then
    KeyedCache.tryEmplace (audioFrameIndexForPts ep.pts) ep.data cache
  else cache

theorem foldl_cacheAudioPkt (encPkts : List AVPacket) (a : AudioBuild δ ε α) :
    encPkts.foldl cacheAudioPkt a =
      { a with
        thisBuildAac := encPkts.foldl storeFrame a.thisBuildAac
        audioFrameCache := encPkts.foldl keepFrame a.audioFrameCache } := by
  induction encPkts generalizing a with
  | nil => rfl
  | cons ep rest ih =>
      rw [List.foldl_cons, ih, List.foldl_cons, List.foldl_cons, cacheAudioPkt, storeFrame,
        keepFrame]
      split <;> rfl

theorem drainAac_of_none (c : AacCodec δ ε α) (cutoff : ℤ) {a : AudioBuild δ ε α}
    (hnone : a.aac = none) : drainAac c cutoff a = a := by
  rw [drainAac, hnone]

theorem drainAac_of_some (c : AacCodec δ ε α) (cutoff : ℤ) {a : AudioBuild δ ε α}
    {t : AacTranscoder δ ε α} (hsome : a.aac = some t) :
    drainAac c cutoff a =
      let r := t.encodeUntil c cutoff
      { aac := some r.1
        audioFrameCache := r.2.2.foldl keepFrame a.audioFrameCache
        thisBuildAac := r.2.2.foldl storeFrame a.thisBuildAac
        sentFrames := a.sentFrames ++ r.2.1 } := by
  rw [drainAac, hsome]
  exact foldl_cacheAudioPkt _ _

theorem decodeAac_of_none (c : AacCodec δ ε α) (pkt : AVPacket) {a : AudioBuild δ ε α}
    (hnone : a.aac = none) : decodeAac c a pkt = a := by
  obtain ⟨aac, cache, frames, sent⟩ := a
  subst hnone
  rfl

/-- Nothing is left to encode before the cutoff. -/
def Drained (c : AacCodec δ ε α) (cutoff : ℤ) (a : AudioBuild δ ε α) : Prop :=
  drainAac c cutoff a = a

theorem drained_drainAac (c : AacCodec δ ε α) (cutoff : ℤ) (a : AudioBuild δ ε α) :
    Drained c cutoff (drainAac c cutoff a) := by
  rw [Drained]
  cases haac : a.aac with
  | none => rw [drainAac_of_none c cutoff haac, drainAac_of_none c cutoff haac]
  | some t =>
      rw [drainAac_of_some c cutoff haac, drainAac_of_some c cutoff rfl]
      simp only [AacTranscoder.encodeUntil_encodeUntil, List.foldl_nil, List.append_nil]

theorem drained_of_empty (c : AacCodec δ ε α) (cutoff : ℤ) {a : AudioBuild δ ε α}
    (hempty : ∀ t ∈ a.aac, t.leftQueue = []) : Drained c cutoff a := by
  rw [Drained]
  cases haac : a.aac with
  | none => rw [drainAac_of_none c cutoff haac]
  | some t =>
      rw [drainAac_of_some c cutoff haac,
        AacTranscoder.encodeUntil_of_empty c cutoff (hempty t haac)]
      simp only [List.foldl_nil, List.append_nil, ← haac]

theorem drainAac_decodeAac_drainAac (c : AacCodec δ ε α) (cutoff : ℤ) (pkt : AVPacket)
    (a : AudioBuild δ ε α) :
    drainAac c cutoff (decodeAac c (drainAac c cutoff a) pkt) =
      drainAac c cutoff (decodeAac c a pkt) := by
  cases haac : a.aac with
  | none => rw [drainAac_of_none c cutoff haac]
  | some t =>
      have hleft : (decodeAac c (drainAac c cutoff a) pkt).aac =
          some ((t.encodeUntil c cutoff).1.decode c pkt) := by
        rw [drainAac_of_some c cutoff haac]
        rfl
      have hright : (decodeAac c a pkt).aac = some (t.decode c pkt) := by
        rw [decodeAac, haac]
        rfl
      rw [drainAac_of_some c cutoff hleft, drainAac_of_some c cutoff hright,
        AacTranscoder.encodeUntil_decode c cutoff pkt t, drainAac_of_some c cutoff haac]
      simp only [decodeAac, List.foldl_append, List.append_assoc]

theorem drainAac_foldl_drainAac (c : AacCodec δ ε α) (cutoff : ℤ) (pkts : List AVPacket)
    (a : AudioBuild δ ε α) :
    drainAac c cutoff (pkts.foldl (decodeAac c) (drainAac c cutoff a)) =
      drainAac c cutoff (pkts.foldl (decodeAac c) a) := by
  induction pkts using List.reverseRecOn with
  | nil => exact drained_drainAac c cutoff a
  | append_singleton pkts pkt ih =>
      simp only [List.foldl_append, List.foldl_cons, List.foldl_nil]
      rw [← drainAac_decodeAac_drainAac, ih, drainAac_decodeAac_drainAac]

/-- What the main loop does to the audio side for one packet. -/
def audioStep (c : AacCodec δ ε α) (i : BuildInputs) (a : AudioBuild δ ε α) (pkt : AVPacket) :
    AudioBuild δ ε α :=
  if isAudio i pkt then
    drainAac c (audioCutoffPts i.segmentEndMs) (decodeFromPreroll c i a pkt)
  else a

theorem foldl_decodeFromPreroll (c : AacCodec δ ε α) (i : BuildInputs) (pkts : List AVPacket)
    (a : AudioBuild δ ε α) :
    pkts.foldl (decodeFromPreroll c i) a = (pastPreroll i pkts).foldl (decodeAac c) a := by
  induction pkts generalizing a with
  | nil => rfl
  | cons pkt rest ih =>
      rw [List.foldl_cons, ih, ← List.singleton_append, pastPreroll_append, List.foldl_append,
        pastPreroll_singleton, decodeFromPreroll]
      split <;> rfl

/-- Folding the step over a part of the packets drains what the audio packets in it
amount to. -/
theorem foldl_audioStep (c : AacCodec δ ε α) (i : BuildInputs) (pkts : List AVPacket)
    {a : AudioBuild δ ε α} (hdrained : Drained c (audioCutoffPts i.segmentEndMs) a) :
    pkts.foldl (audioStep c i) a =
      drainAac c (audioCutoffPts i.segmentEndMs)
        ((pastPreroll i (pkts.filter (isAudio i))).foldl (decodeAac c) a) := by
  induction pkts using List.reverseRecOn with
  | nil => exact hdrained.symm
  | append_singleton pkts pkt ih =>
      rw [List.foldl_append, ih, List.foldl_cons, List.foldl_nil, audioStep, List.filter_append,
        pastPreroll_append, List.foldl_append]
      by_cases haudio : isAudio i pkt
      · rw [if_pos haudio, decodeFromPreroll, List.filter_cons_of_pos haudio, List.filter_nil,
          pastPreroll_singleton]
        split
        · exact drainAac_decodeAac_drainAac c _ pkt _
        · exact drained_drainAac c _ _
      · rw [if_neg haudio, List.filter_cons_of_neg haudio, List.filter_nil]
        rfl

theorem drainLoop_eq (c : AacCodec δ ε α) (i : BuildInputs) (past : List AVPacket)
    (a : AudioBuild δ ε α) :
    (drainLoop c i past a).1 =
      (((past.filter fun pkt ↦ pkt.streamIndex = i.audioIdx).takeWhile fun pkt ↦
        audioPktMs i pkt ≤ i.segmentEndMs + kAudioLookaheadMs).foldl
          (decodeFromPreroll c i) a) := by
  induction past generalizing a with
  | nil => rfl
  | cons pkt past ih =>
      rw [drainLoop]
      by_cases haudio : pkt.streamIndex = i.audioIdx
      · rw [if_neg (not_not.mpr haudio), List.filter_cons_of_pos (by simpa using haudio)]
        by_cases hms : i.segmentEndMs + kAudioLookaheadMs < audioPktMs i pkt
        · rw [if_pos hms, List.takeWhile_cons_of_neg (by simpa using hms), List.foldl_nil]
        · rw [if_neg hms, ih, List.takeWhile_cons_of_pos (by simpa using hms), List.foldl_cons]
      · rw [if_pos haudio, ih, List.filter_cons_of_neg (by simpa using haudio)]

theorem foldl_decodeAac_of_none (c : AacCodec δ ε α) (pkts : List AVPacket)
    {a : AudioBuild δ ε α} (hnone : a.aac = none) : pkts.foldl (decodeAac c) a = a := by
  induction pkts with
  | nil => rfl
  | cons pkt rest ih => rw [List.foldl_cons, decodeAac_of_none c pkt hnone, ih]

theorem finishAtBoundary_eq (c : AacCodec δ ε α) (i : BuildInputs) (past : List AVPacket)
    (a : AudioBuild δ ε α) :
    (finishAtBoundary c i past a).1 =
      drainAac c (audioCutoffPts i.segmentEndMs)
        ((pastPreroll i (audioPastBoundary i past)).foldl (decodeAac c) a) := by
  rw [finishAtBoundary, audioPastBoundary]
  by_cases haac : a.aac.isSome
  · by_cases hstream : 0 ≤ i.audioIdx ∧ i.audStream.isSome
    · rw [if_pos ⟨haac, hstream⟩, if_pos hstream, ← foldl_decodeFromPreroll, ← drainLoop_eq]
    · rw [if_neg fun h ↦ hstream h.2, if_neg hstream]
      rfl
  · have hnone : a.aac = none := by simpa using haac
    rw [if_neg fun h ↦ haac h.1, foldl_decodeAac_of_none c _ hnone]

/-! ## The main loop, part by part -/

theorem isVideo_iff {videoIdx : ℤ} {pkt : AVPacket} :
    isVideo videoIdx pkt ↔ pkt.streamIndex = videoIdx := by
  simp [isVideo]

theorem keyframeFrom_iff {videoIdx : ℤ} {vid : AVStream} {ms : ℤ} {pkt : AVPacket} :
    keyframeFrom videoIdx vid ms pkt ↔
      pkt.streamIndex = videoIdx ∧ pkt.key = true ∧ ms ≤ videoPktMs vid pkt := by
  simp [keyframeFrom, isVideo, and_assoc]

theorem audioStep_of_video (c : AacCodec δ ε α) (i : BuildInputs) {pkt : AVPacket}
    (a : AudioBuild δ ε α) (hvideo : pkt.streamIndex = i.videoIdx) : audioStep c i a pkt = a := by
  rw [audioStep, if_neg (by simp [isAudio, hvideo])]

theorem readLoop_of_not_video (c : AacCodec δ ε α) (i : BuildInputs) {pkt : AVPacket}
    (packets : List AVPacket) (b : BuildState δ ε α) (hvideo : pkt.streamIndex ≠ i.videoIdx) :
    readLoop c i (pkt :: packets) b =
      readLoop c i packets { b with audio := audioStep c i b.audio pkt } := by
  rw [readLoop, if_neg hvideo, audioStep]
  by_cases haudio : pkt.streamIndex = i.audioIdx
  · have hstep : isAudio i pkt := by
      rw [isAudio, decide_eq_true_iff]
      exact ⟨hvideo, haudio⟩
    rw [if_pos hstep]
    by_cases haac : b.audio.aac.isSome
    · rw [if_pos ⟨haudio, haac⟩]
    · have hnone : b.audio.aac = none := by simpa using haac
      have hdecode : decodeFromPreroll c i b.audio pkt = b.audio := by
        rw [decodeFromPreroll, decodeAac_of_none c pkt hnone, ite_self]
      rw [if_neg fun h ↦ haac h.2, hdecode, drainAac_of_none c _ hnone]
  · rw [if_neg fun h ↦ haudio h.1, if_neg (by simp [isAudio, haudio])]

theorem readLoop_skip (c : AacCodec δ ε α) (i : BuildInputs) (skip rest : List AVPacket)
    (a : AudioBuild δ ε α) (samples : List Sample)
    (hskip : ∀ pkt ∈ skip, ¬startsRun i pkt) :
    readLoop c i (skip ++ rest) ⟨a, samples, false, false⟩ =
      readLoop c i rest ⟨skip.foldl (audioStep c i) a, samples, false, false⟩ := by
  induction skip generalizing a with
  | nil => rfl
  | cons pkt skip ih =>
      have hpkt := hskip pkt List.mem_cons_self
      have htail := fun q hq ↦ hskip q (List.mem_cons_of_mem pkt hq)
      rw [List.cons_append, List.foldl_cons]
      by_cases hvideo : pkt.streamIndex = i.videoIdx
      · have hlate :
            (!pkt.key || decide (videoPktMs i.vidStream pkt < i.segmentStartMs)) = true := by
          simpa [keyframeFrom_iff, hvideo, imp_iff_not_or] using hpkt
        rw [readLoop, if_pos hvideo, hlate, Bool.not_false, Bool.true_and, if_pos rfl,
          ih a htail, audioStep_of_video c i a hvideo]
      · rw [readLoop_of_not_video c i _ _ hvideo, ih _ htail]

theorem readLoop_start (c : AacCodec δ ε α) (i : BuildInputs) {pkt : AVPacket}
    (rest : List AVPacket) (a : AudioBuild δ ε α) (samples : List Sample)
    (hstart : startsRun i pkt) :
    readLoop c i (pkt :: rest) ⟨a, samples, false, false⟩ =
      readLoop c i (pkt :: rest) ⟨a, samples, true, false⟩ := by
  obtain ⟨hvideo, hkey, hms⟩ := keyframeFrom_iff.mp hstart
  have hlate : (!pkt.key || decide (videoPktMs i.vidStream pkt < i.segmentStartMs)) = false := by
    simpa [hkey] using hms
  rw [readLoop, readLoop, if_pos hvideo, if_pos hvideo, hlate, Bool.and_false, Bool.and_false]
  rfl

theorem samplesOf_cons_of_video {videoIdx : ℤ} (vid : AVStream) {pkt : AVPacket}
    (packets : List AVPacket) (hvideo : pkt.streamIndex = videoIdx) :
    samplesOf videoIdx vid (pkt :: packets) =
      (videoSample vid pkt).toList ++ samplesOf videoIdx vid packets := by
  rw [samplesOf, List.filter_cons_of_pos (isVideo_iff.mpr hvideo), List.filterMap_cons]
  cases videoSample vid pkt <;> rfl

theorem samplesOf_cons_of_not_video {videoIdx : ℤ} (vid : AVStream) {pkt : AVPacket}
    (packets : List AVPacket) (hvideo : pkt.streamIndex ≠ videoIdx) :
    samplesOf videoIdx vid (pkt :: packets) = samplesOf videoIdx vid packets := by
  rw [samplesOf, List.filter_cons_of_neg (by rwa [isVideo_iff]), samplesOf]

theorem readLoop_run (c : AacCodec δ ε α) (i : BuildInputs) (run rest : List AVPacket)
    (a : AudioBuild δ ε α) (samples : List Sample)
    (hrun : ∀ pkt ∈ run, ¬endsRun i pkt) :
    readLoop c i (run ++ rest) ⟨a, samples, true, false⟩ =
      readLoop c i rest ⟨run.foldl (audioStep c i) a,
        samples ++ samplesOf i.videoIdx i.vidStream run, true, false⟩ := by
  induction run generalizing a samples with
  | nil => simp [samplesOf]
  | cons pkt run ih =>
      have hpkt := hrun pkt List.mem_cons_self
      have htail := fun q hq ↦ hrun q (List.mem_cons_of_mem pkt hq)
      rw [List.cons_append, List.foldl_cons]
      by_cases hvideo : pkt.streamIndex = i.videoIdx
      · have hinside :
            (pkt.key && decide (i.segmentEndMs ≤ videoPktMs i.vidStream pkt)) = false := by
          simpa [keyframeFrom_iff, hvideo] using hpkt
        rw [readLoop, if_pos hvideo, hinside, Bool.not_true, Bool.false_and, if_neg (by decide),
          if_neg (by decide), ih _ _ htail, samplesOf_cons_of_video _ _ hvideo,
          audioStep_of_video c i a hvideo, List.append_assoc]
      · rw [readLoop_of_not_video c i _ _ hvideo, ih _ _ htail,
          samplesOf_cons_of_not_video _ _ hvideo]

theorem readLoop_boundary (c : AacCodec δ ε α) (i : BuildInputs) {pkt : AVPacket}
    (past : List AVPacket) (a : AudioBuild δ ε α) (samples : List Sample)
    (hend : endsRun i pkt) :
    readLoop c i (pkt :: past) ⟨a, samples, true, false⟩ =
      (⟨(finishAtBoundary c i past a).1, samples, true, true⟩,
        (finishAtBoundary c i past a).2) := by
  obtain ⟨hvideo, hkey, hms⟩ := keyframeFrom_iff.mp hend
  have hlate : (pkt.key && decide (i.segmentEndMs ≤ videoPktMs i.vidStream pkt)) = true := by
    simpa [hkey] using hms
  rw [readLoop, if_pos hvideo, hlate, Bool.not_true, Bool.false_and, if_neg (by decide),
    if_pos rfl]

theorem segmentRun_append_boundaryOnwards (i : BuildInputs) (packets : List AVPacket) :
    segmentRun i packets ++ boundaryOnwards i packets = runOnwards i packets :=
  ListCut.before_append_onwards ..

theorem readLoop_upToBoundary (c : AacCodec δ ε α) (i : BuildInputs) (packets : List AVPacket)
    (a : AudioBuild δ ε α) :
    ∃ seen, readLoop c i packets { audio := a } =
        readLoop c i (boundaryOnwards i packets)
          ⟨(beforeRun i packets ++ segmentRun i packets).foldl (audioStep c i) a,
            samplesOf i.videoIdx i.vidStream (segmentRun i packets),
            seen, false⟩ ∧
      (boundaryOnwards i packets ≠ [] → seen = true) := by
  have hskip : ∀ pkt ∈ beforeRun i packets, ¬startsRun i pkt :=
    fun _ ↦ ListCut.not_cutsAt_of_mem_before
  have hrun : ∀ pkt ∈ segmentRun i packets, ¬endsRun i pkt :=
    fun _ ↦ ListCut.not_cutsAt_of_mem_before
  have hwhole : beforeRun i packets ++ runOnwards i packets = packets :=
    ListCut.before_append_onwards ..
  have hsplit := segmentRun_append_boundaryOnwards i packets
  conv => enter [1, seen, 1, 1]; rw [← hwhole]
  rw [List.foldl_append]
  cases honwards : runOnwards i packets with
  | nil =>
      rw [honwards] at hsplit
      obtain ⟨hrun, hbound⟩ := List.append_eq_nil_iff.mp hsplit
      rw [hrun, hbound, readLoop_skip c i _ _ _ _ hskip]
      exact ⟨false, rfl, fun h ↦ absurd rfl h⟩
  | cons pkt rest =>
      have hstart : startsRun i pkt :=
        ListCut.cutsAt_of_onwards_eq_cons honwards
      rw [readLoop_skip c i _ _ _ _ hskip, readLoop_start c i _ _ _ hstart, ← honwards, ← hsplit,
        readLoop_run c i _ _ _ _ hrun, List.nil_append]
      exact ⟨true, rfl, fun _ ↦ rfl⟩

/-- The state in which the main loop and the last drain leave the build. -/
theorem readPackets_eq (c : AacCodec δ ε α) (i : BuildInputs) (packets : List AVPacket)
    {a : AudioBuild δ ε α} (hdrained : Drained c (audioCutoffPts i.segmentEndMs) a) :
    (readPackets c i packets a).1.videoSamples =
        samplesOf i.videoIdx i.vidStream (segmentRun i packets) ∧
      (readPackets c i packets a).1.audio =
        drainAac c (audioCutoffPts i.segmentEndMs)
          ((acceptedAudio i packets).foldl (decodeAac c) a) := by
  obtain ⟨seen, hloop, hseen⟩ := readLoop_upToBoundary c i packets a
  rw [readPackets, hloop, foldl_audioStep c i _ hdrained, acceptedAudio, pastPreroll_append,
    List.foldl_append]
  cases hbound : boundaryOnwards i packets with
  | nil =>
      have hpast : pastPreroll i (audioPastBoundary i []) = [] := by
        rw [audioPastBoundary]
        split <;> rfl
      rw [List.tail_nil, hpast]
      exact ⟨rfl, drained_drainAac c _ _⟩
  | cons pkt past =>
      have hend : endsRun i pkt := ListCut.cutsAt_of_onwards_eq_cons hbound
      rw [hseen (by simp [hbound]), readLoop_boundary c i past _ _ hend, List.tail_cons]
      refine ⟨rfl, ?_⟩
      rw [finishAtBoundary_eq]
      exact drainAac_foldl_drainAac ..

end Session

end Fmp4Packager
