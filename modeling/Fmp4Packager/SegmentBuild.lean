import Fmp4Packager.SegmentPackets

/-!
# What a build returns

A build that has seeked and reset the transcoder returns the segment made of the
video samples of its run and of one audio sample for each requested frame that
its own encoder, or failing that the session's cache, provides.
-/

namespace Fmp4Packager

open Fmp4Writer

namespace Session

variable {δ ε α : Type}

def encodedPackets (c : AacCodec δ ε α) (cutoff : ℤ) (aac : Option (AacTranscoder δ ε α))
    (pkts : List AVPacket) : List AVPacket :=
  match aac with
  | none => []
  | some t => (t.transcode c cutoff pkts).2.2

def framesSent (c : AacCodec δ ε α) (cutoff : ℤ) (aac : Option (AacTranscoder δ ε α))
    (pkts : List AVPacket) : List (AacFrame α) :=
  match aac with
  | none => []
  | some t => (t.transcode c cutoff pkts).2.1

theorem foldl_decodeAac_of_some (c : AacCodec δ ε α) (pkts : List AVPacket)
    {a : AudioBuild δ ε α} {t : AacTranscoder δ ε α} (hsome : a.aac = some t) :
    pkts.foldl (decodeAac c) a =
      { a with aac := some (pkts.foldl (AacTranscoder.decode c) t) } := by
  induction pkts generalizing a t with
  | nil => rw [List.foldl_nil, List.foldl_nil, ← hsome]
  | cons pkt rest ih =>
      have hdecode : (decodeAac c a pkt).aac = some (t.decode c pkt) := by
        rw [decodeAac, hsome]
        rfl
      rw [List.foldl_cons, List.foldl_cons, ih hdecode]
      rfl

theorem drainAac_foldl_decodeAac (c : AacCodec δ ε α) (cutoff : ℤ) (pkts : List AVPacket)
    (a : AudioBuild δ ε α) :
    drainAac c cutoff (pkts.foldl (decodeAac c) a) =
      { aac := a.aac.map fun t ↦ (t.transcode c cutoff pkts).1
        audioFrameCache := (encodedPackets c cutoff a.aac pkts).foldl keepFrame a.audioFrameCache
        thisBuildAac := (encodedPackets c cutoff a.aac pkts).foldl storeFrame a.thisBuildAac
        sentFrames := a.sentFrames ++ framesSent c cutoff a.aac pkts } := by
  cases haac : a.aac with
  | none =>
      rw [foldl_decodeAac_of_none c pkts haac, drainAac_of_none c cutoff haac]
      obtain ⟨aac, cache, frames, sent⟩ := a
      simp only at haac
      simp [encodedPackets, framesSent, haac]
  | some t =>
      rw [foldl_decodeAac_of_some c pkts haac, drainAac_of_some c cutoff rfl]
      rfl

theorem segmentBytes_eq_ok (w : Window) (vid : AVStream) (aacCodecpar : Option AVCodecParameters)
    (hasAac : Bool) (videoSamples audioSamples : List Sample) :
    ∃ bytes, segmentBytes w vid aacCodecpar hasAac videoSamples audioSamples = .ok bytes := by
  rw [segmentBytes, buildSegment, if_neg (by simp)]
  exact ⟨_, rfl⟩

theorem fixGaps_eq_nil {samples : List Sample} : fixGaps samples = [] ↔ samples = [] := by
  match samples with
  | [] => simp [fixGaps]
  | [s] => simp [fixGaps]
  | s :: next :: rest => simp [fixGaps]

theorem fixLast_eq_nil {samples : List Sample} : fixLast samples = [] ↔ samples = [] := by
  match samples with
  | [] => simp [fixLast]
  | [s] => simp [fixLast]
  | [s, last] => simp [fixLast]
  | s :: t :: u :: rest => simp [fixLast]

theorem fixVideoDurations_eq_nil {samples : List Sample} :
    fixVideoDurations samples = [] ↔ samples = [] := by
  rw [fixVideoDurations, fixLast_eq_nil, fixGaps_eq_nil]

/-- What the build returns for its samples. -/
def segmentOutcome (w : Window) (vid : AVStream) (aacCodecpar : Option AVCodecParameters)
    (hasAac : Bool) (videoSamples audioSamples : List Sample) : Except Stop (List UInt8) :=
  if videoSamples = [] then .error (noVideoSamples w.segmentIdx)
  else
    (segmentBytes w vid aacCodecpar hasAac (fixVideoDurations videoSamples)
      audioSamples).mapError Stop.exception

theorem lookup_evictSegments_self (segmentIdx : ℤ) (fuel : ℕ)
    (cache : KeyedCache ℤ (List UInt8)) :
    (evictSegments segmentIdx fuel cache).lookup segmentIdx = cache.lookup segmentIdx := by
  induction fuel generalizing cache with
  | zero => rfl
  | succ fuel ih =>
      rw [evictSegments]
      split
      · dsimp only
        split
        · rfl
        · next hne => rw [ih, AList.lookup_erase_ne fun h ↦ hne h.symm]
      · rfl

theorem lookup_evictSegments_of_some {segmentIdx j : ℤ} {fuel : ℕ}
    {cache : KeyedCache ℤ (List UInt8)} {bytes : List UInt8}
    (h : (evictSegments segmentIdx fuel cache).lookup j = some bytes) :
    cache.lookup j = some bytes := by
  induction fuel generalizing cache with
  | zero => exact h
  | succ fuel ih =>
      rw [evictSegments] at h
      split at h
      · dsimp only at h
        split at h
        · exact h
        · have herase := ih h
          have hne : j ≠ cache.keys.foldl min segmentIdx := fun heq ↦ by
            rw [heq, AList.lookup_erase] at herase
            exact absurd herase (by simp)
          rwa [AList.lookup_erase_ne hne] at herase
      · exact h

/-- The frames that this build's encoder provides. -/
def ownFrames (encPkts : List AVPacket) : KeyedCache ℤ (List UInt8) := encPkts.foldl storeFrame ∅

def audioOutput (hasAac : Bool) (encPkts : List AVPacket) (cache : KeyedCache ℤ (List UInt8))
    (frames : List ℤ) : List Sample :=
  if hasAac then outputAudioFrames (ownFrames encPkts) (encPkts.foldl keepFrame cache) frames
  else []

def cacheAfter (hasAac : Bool) (encPkts : List AVPacket) (cache : KeyedCache ℤ (List UInt8)) :
    KeyedCache ℤ (List UInt8) :=
  if hasAac then KeyedCache.evict kMaxCachedAudioFrames (encPkts.foldl keepFrame cache)
  else encPkts.foldl keepFrame cache

def buildPackets (c : AacCodec δ ε α) (w : Window) (vid : AVStream) (aud : Option AVStream)
    (s : Session δ ε α) : List AVPacket :=
  encodedPackets c (audioCutoffPts w.segmentEndMs) s.aac
    (acceptedAudio (buildInputs w vid aud s.demuxer) s.demuxer.packets)

/-- The video samples of a build over the packets of the demuxer `d`. -/
def runSamples (w : Window) (vid : AVStream) (aud : Option AVStream) (d : Demuxer) : List Sample :=
  samplesOf d.videoStreamIdx vid (segmentRun (buildInputs w vid aud d) d.packets)

def buildOutcome (c : AacCodec δ ε α) (w : Window) (vid : AVStream) (aud : Option AVStream)
    (s : Session δ ε α) : Except Stop (List UInt8) :=
  segmentOutcome w vid s.aacCodecpar s.aac.isSome (runSamples w vid aud s.demuxer)
    (audioOutput s.aac.isSome (buildPackets c w vid aud s) s.audioFrameCache
      (outputFrames (s.aac.map AacTranscoder.initialPadding) w))

def segmentsAfter (segmentIdx : ℤ) (outcome : Except Stop (List UInt8))
    (cache : KeyedCache ℤ (List UInt8)) : KeyedCache ℤ (List UInt8) :=
  match outcome with
  | .ok bytes =>
      evictSegments segmentIdx (cache.insert segmentIdx bytes).keys.length
        (cache.insert segmentIdx bytes)
  | .error _ => cache

theorem buildFromPackets_eq (c : AacCodec δ ε α) (w : Window) (vid : AVStream)
    (aud : Option AVStream) (s : Session δ ε α) (hempty : ∀ t ∈ s.aac, t.leftQueue = []) :
    ∃ packets, buildFromPackets c w vid aud s =
      (buildOutcome c w vid aud s, { s with
        demuxer := { s.demuxer with packets := packets }
        aac := s.aac.map fun t ↦
          (t.transcode c (audioCutoffPts w.segmentEndMs)
            (acceptedAudio (buildInputs w vid aud s.demuxer) s.demuxer.packets)).1
        audioFrameCache :=
          cacheAfter s.aac.isSome (buildPackets c w vid aud s) s.audioFrameCache
        segmentCache :=
          segmentsAfter w.segmentIdx (buildOutcome c w vid aud s) s.segmentCache }) := by
  let i := buildInputs w vid aud s.demuxer
  have hdrained : Drained c (audioCutoffPts i.segmentEndMs)
      ⟨s.aac, s.audioFrameCache, ∅, []⟩ := drained_of_empty c _ hempty
  obtain ⟨hvideo, haudio⟩ := readPackets_eq c i s.demuxer.packets hdrained
  rw [drainAac_foldl_decodeAac] at haudio
  generalize hread : readPackets c i s.demuxer.packets ⟨s.aac, s.audioFrameCache, ∅, []⟩ = r
    at hvideo haudio
  obtain ⟨⟨audio, samples, seen, hit⟩, packets⟩ := r
  dsimp only at hvideo haudio
  subst hvideo haudio
  refine ⟨packets, ?_⟩
  rw [buildFromPackets, hread]
  by_cases hsamples : samplesOf i.videoIdx i.vidStream (segmentRun i s.demuxer.packets) = []
  · have houtcome : buildOutcome c w vid aud s = .error (noVideoSamples w.segmentIdx) :=
      if_pos hsamples
    have hfixed := fixVideoDurations_eq_nil.mpr hsamples
    rw [houtcome]
    simp only [hfixed, List.isEmpty_nil, if_true]
    rfl
  · -- named as the loops name them, by the fields of `i`
    let own := encodedPackets c (audioCutoffPts i.segmentEndMs) s.aac
      (acceptedAudio i s.demuxer.packets)
    obtain ⟨bytes, hbytes⟩ := segmentBytes_eq_ok w vid s.aacCodecpar s.aac.isSome
      (fixVideoDurations (samplesOf i.videoIdx i.vidStream (segmentRun i s.demuxer.packets)))
      (if s.aac.isSome = true then
        outputAudioFrames (own.foldl storeFrame ∅) (own.foldl keepFrame s.audioFrameCache)
          (outputFrames (s.aac.map AacTranscoder.initialPadding) w)
      else [])
    have houtcome : buildOutcome c w vid aud s = .ok bytes :=
      (if_neg hsamples).trans (congrArg (Except.mapError Stop.exception) hbytes)
    have hfixed : (fixVideoDurations (samplesOf i.videoIdx i.vidStream
        (segmentRun i s.demuxer.packets))).isEmpty = false := by
      rw [List.isEmpty_eq_false_iff]
      exact fun h ↦ hsamples (fixVideoDurations_eq_nil.mp h)
    rw [houtcome]
    simp only [own] at hbytes
    simp only [hfixed, Bool.false_eq_true, if_false, Option.isSome_map, hbytes,
      lookup_evictSegments_self, AList.lookup_insert, Option.getD_some]
    rfl

/-- The session after the seek to a window and the reset of the transcoder. -/
def afterSeek (c : AacCodec δ ε α) (w : Window) (d : Demuxer) (s : Session δ ε α) :
    Session δ ε α :=
  { s with
    demuxer := d
    aac := s.aac.map fun aac ↦ aac.reset c (resetPts w aac) }

/-- With nothing cached for the index, the build runs over the packets of the
seek. -/
theorem buildSegmentLocked_of_seek {m : Media} (c : AacCodec δ ε α) {reopen : Reopen} {w : Window}
    {s : Session δ ε α} {d : Demuxer} {vid : AVStream} {aud : Option AVStream}
    (hmiss : s.segmentCache.lookup w.segmentIdx = none)
    (hseek : s.demuxer.seekToMs m reopen (audioDecodeStartMs w.segmentStartMs) = (.ok (), d))
    (hvid : d.videoStream = .ok (some vid)) (haud : d.audioStream = .ok aud) :
    buildSegmentLocked m c reopen w s = buildFromPackets c w vid aud (afterSeek c w d s) := by
  rw [buildSegmentLocked, hmiss, hseek]
  simp only [hvid, haud]
  rfl

theorem leftQueue_afterSeek (c : AacCodec δ ε α) (w : Window) (d : Demuxer)
    (s : Session δ ε α) : ∀ t ∈ (afterSeek c w d s).aac, t.leftQueue = [] := by
  intro t ht
  obtain ⟨aac, -, rfl⟩ := Option.mem_map.mp ht
  rfl

theorem buildSegmentLocked_fst {m : Media} (c : AacCodec δ ε α) {reopen : Reopen} {w : Window}
    {s : Session δ ε α} {d : Demuxer} {vid : AVStream} {aud : Option AVStream}
    (hmiss : s.segmentCache.lookup w.segmentIdx = none)
    (hseek : s.demuxer.seekToMs m reopen (audioDecodeStartMs w.segmentStartMs) = (.ok (), d))
    (hvid : d.videoStream = .ok (some vid)) (haud : d.audioStream = .ok aud) :
    (buildSegmentLocked m c reopen w s).1 = buildOutcome c w vid aud (afterSeek c w d s) := by
  obtain ⟨packets, hbuild⟩ := buildFromPackets_eq c w vid aud (afterSeek c w d s)
    (leftQueue_afterSeek c w d s)
  rw [buildSegmentLocked_of_seek c hmiss hseek hvid haud, hbuild]

/-- What `buildSegmentLocked` does with a session. -/
inductive BuildStep (m : Media) (c : AacCodec δ ε α) (reopen : Reopen) (w : Window)
    (s : Session δ ε α) : Except Stop (List UInt8) → Session δ ε α → Prop
  | cached (bytes : List UInt8) (hhit : s.segmentCache.lookup w.segmentIdx = some bytes) :
      BuildStep m c reopen w s (.ok bytes) s
  | seekFails (stop : Stop) (d : Demuxer) (hmiss : s.segmentCache.lookup w.segmentIdx = none)
      (hseek : s.demuxer.seekToMs m reopen (audioDecodeStartMs w.segmentStartMs) =
        (.error stop, d)) :
      BuildStep m c reopen w s (.error stop) { s with demuxer := d }
  | streamFails (stop : Stop) (d : Demuxer)
      (hmiss : s.segmentCache.lookup w.segmentIdx = none)
      (hseek : s.demuxer.seekToMs m reopen (audioDecodeStartMs w.segmentStartMs) = (.ok (), d))
      (hstreams : ∀ vid aud, d.videoStream = .ok (some vid) → d.audioStream ≠ .ok aud) :
      BuildStep m c reopen w s (.error stop) (afterSeek c w d s)
  | builds (d : Demuxer) (vid : AVStream) (aud : Option AVStream)
      (hmiss : s.segmentCache.lookup w.segmentIdx = none)
      (hseek : s.demuxer.seekToMs m reopen (audioDecodeStartMs w.segmentStartMs) = (.ok (), d))
      (hvid : d.videoStream = .ok (some vid)) (haud : d.audioStream = .ok aud) :
      BuildStep m c reopen w s (buildFromPackets c w vid aud (afterSeek c w d s)).1
        (buildFromPackets c w vid aud (afterSeek c w d s)).2

theorem buildSegmentLocked_buildStep (m : Media) (c : AacCodec δ ε α) (reopen : Reopen)
    (w : Window) (s : Session δ ε α) :
    BuildStep m c reopen w s (buildSegmentLocked m c reopen w s).1
      (buildSegmentLocked m c reopen w s).2 := by
  cases hcache : s.segmentCache.lookup w.segmentIdx with
  | some bytes =>
      rw [buildSegmentLocked, hcache]
      exact .cached bytes hcache
  | none =>
      rcases hseek : s.demuxer.seekToMs m reopen (audioDecodeStartMs w.segmentStartMs) with
        ⟨stop | ⟨⟩, d⟩
      · rw [buildSegmentLocked, hcache, hseek]
        exact .seekFails stop d hcache hseek
      · rcases hvid : d.videoStream with stop | vid
        · rw [buildSegmentLocked, hcache, hseek]
          simp only [hvid]
          exact .streamFails stop d hcache hseek (by simp [hvid])
        rcases haud : d.audioStream with stop | aud
        · rw [buildSegmentLocked, hcache, hseek]
          simp only [hvid, haud]
          exact .streamFails stop d hcache hseek (by simp [haud])
        rcases vid with _ | vid
        · rw [buildSegmentLocked, hcache, hseek]
          simp only [hvid, haud]
          exact .streamFails .nullStream d hcache hseek (by simp [hvid])
        · rw [buildSegmentLocked_of_seek c hcache hseek hvid haud]
          exact .builds d vid aud hcache hseek hvid haud

/-- The init segment leaves everything but its own cache as it is. -/
theorem generateInitSegment_frame (s : Session δ ε α) :
    ∃ built bytes, s.generateInitSegment.2 = { s with initBuilt := built, initCache := bytes } ∧
      (s.initBuilt = true → built = true) ∧
      ((∃ bytes, s.generateInitSegment.1 = .ok bytes) → built = true) := by
  rw [generateInitSegment]
  split
  · next hbuilt => exact ⟨s.initBuilt, s.initCache, rfl, id, fun _ ↦ hbuilt.1⟩
  · split
    · exact ⟨s.initBuilt, s.initCache, rfl, id, fun ⟨_, h⟩ ↦ by cases h⟩
    · split
      · exact ⟨s.initBuilt, s.initCache, rfl, id, fun ⟨_, h⟩ ↦ by cases h⟩
      · exact ⟨true, _, rfl, fun _ ↦ rfl, fun _ ↦ rfl⟩

/-- A request fails with the init segment, or goes on to the build. -/
theorem generateSegment_cases (m : Media) (c : AacCodec δ ε α) (reopen : Reopen) (w : Window)
    (s : Session δ ε α) :
    ∃ built bytes,
      (∃ stop, s.initBuilt = false ∧ s.generateInitSegment.1 = .error stop ∧
        s.generateSegment m c reopen w =
          (.error stop, { s with initBuilt := built, initCache := bytes })) ∨
      built = true ∧ s.generateSegment m c reopen w =
        buildSegmentLocked m c reopen w { s with initBuilt := built, initCache := bytes } := by
  obtain ⟨built, bytes, hframe, -, hok⟩ := generateInitSegment_frame s
  rw [generateSegment]
  cases hbuilt : s.initBuilt with
  | true => exact ⟨true, s.initCache, .inr ⟨rfl, by rw [if_pos rfl, ← hbuilt]⟩⟩
  | false =>
      refine ⟨built, bytes, ?_⟩
      rcases hinit : s.generateInitSegment with ⟨stop | data, s'⟩
      · rw [hinit] at hframe
        obtain rfl : s' = _ := hframe
        exact .inl ⟨stop, rfl, rfl, rfl⟩
      · rw [hinit] at hframe hok
        obtain rfl : s' = _ := hframe
        exact .inr ⟨hok ⟨data, rfl⟩, rfl⟩

end Session

end Fmp4Packager
