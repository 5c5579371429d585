import Fmp4Packager.FailedReopen
import Fmp4Packager.FrameFallback
import Fmp4Packager.SeekReplay

/-!
# Segments after a history of requests

Seen from outside, a session is its two caches: a request fails and leaves them
alone, or finds its segment, or builds it from the file and the cached frames.  A
segment is the same after every history exactly when no other build leaves a frame
in the cache that it has to fall back on.
-/

namespace Fmp4Packager

namespace Session

open Demuxer Server

variable {δ ε α : Type}

def fileVideo (m : Media) : Option AVStream :=
  match (indexedFile m).videoStream with
  | .ok vid => vid
  | .error _ => none

def fileAudio (m : Media) : Option AVStream :=
  match (indexedFile m).audioStream with
  | .ok aud => aud
  | .error _ => none

/-- The demuxer from which the build of a window reads. -/
def fileAt (m : Media) (w : Window) : Demuxer :=
  soughtFile m (audioDecodeStartMs w.segmentStartMs)

def ownSamples (m : Media) (w : Window) : List Sample :=
  match fileVideo m with
  | none => []
  | some vid => runSamples w vid (fileAudio m) (fileAt m w)

/-- The transcoder of a session as the build of a window resets it. -/
def resetAac (c : AacCodec δ ε α) (s : Session δ ε α) (w : Window) :
    Option (AacTranscoder δ ε α) :=
  s.aac.map fun aac ↦ aac.reset c (resetPts w aac)

def ownPackets (m : Media) (c : AacCodec δ ε α) (s : Session δ ε α) (w : Window) :
    List AVPacket :=
  match fileVideo m with
  | none => []
  | some vid => encodedPackets c (audioCutoffPts w.segmentEndMs) (resetAac c s w)
      (acceptedAudio (buildInputs w vid (fileAudio m) (fileAt m w)) (fileAt m w).packets)

/-- What the build of a window returns over a cache of frames. -/
def outcomeWith (m : Media) (c : AacCodec δ ε α) (s : Session δ ε α) (w : Window)
    (cache : KeyedCache ℤ (List UInt8)) : Except Stop (List UInt8) :=
  match fileVideo m with
  | none => .error .nullStream
  | some vid => segmentOutcome w vid s.aacCodecpar s.aac.isSome (ownSamples m w)
      (audioOutput s.aac.isSome (ownPackets m c s w) cache
        (outputFrames (s.aac.map AacTranscoder.initialPadding) w))

/-- `Reset` forgets what the decoder and the encoder have processed. -/
structure FlushForgets (c : AacCodec δ ε α) : Prop where
  decoder : ∀ d d', c.flushDecoder d = c.flushDecoder d'
  encoder : ∀ e e', c.flushEncoder e = c.flushEncoder e'

/-- What a session keeps of the session `s₀` it was, whatever it has served. -/
structure LikeNew (m : Media) (s₀ s : Session δ ε α) : Prop where
  demuxer : ReadsFile m s.demuxer
  initialPadding :
    s.aac.map AacTranscoder.initialPadding = s₀.aac.map AacTranscoder.initialPadding
  codecpar : s.aacCodecpar = s₀.aacCodecpar

theorem reset_eq_reset {c : AacCodec δ ε α} (hflush : FlushForgets c)
    {t t' : AacTranscoder δ ε α} (hpadding : t.initialPadding = t'.initialPadding)
    (nextPts48k : ℤ) : t.reset c nextPts48k = t'.reset c nextPts48k := by
  obtain ⟨decoder, encoder, padding, hpos, left, right, pts⟩ := t
  obtain ⟨decoder', encoder', padding', hpos', left', right', pts'⟩ := t'
  obtain rfl : padding = padding' := hpadding
  simp only [AacTranscoder.reset, hflush.decoder decoder decoder', hflush.encoder encoder encoder']

theorem LikeNew.resetAac_eq {m : Media} {c : AacCodec δ ε α} (hflush : FlushForgets c)
    {s₀ s : Session δ ε α} (h : LikeNew m s₀ s) (w : Window) :
    resetAac c s w = resetAac c s₀ w := by
  have hpadding := h.initialPadding
  rw [resetAac, resetAac]
  cases haac : s.aac with
  | none =>
      rw [haac] at hpadding
      cases haac₀ : s₀.aac with
      | none => rfl
      | some t₀ => rw [haac₀] at hpadding; cases hpadding
  | some t =>
      rw [haac] at hpadding
      cases haac₀ : s₀.aac with
      | none => rw [haac₀] at hpadding; cases hpadding
      | some t₀ =>
          rw [haac₀] at hpadding
          have hpadding : t.initialPadding = t₀.initialPadding := Option.some.inj hpadding
          rw [Option.map_some, Option.map_some, reset_eq_reset hflush hpadding, resetPts, resetPts,
            hpadding]

/-- A session seen from outside. -/
structure Caches where
  segments : KeyedCache ℤ (List UInt8)
  frames : KeyedCache ℤ (List UInt8)

def caches (s : Session δ ε α) : Caches := ⟨s.segmentCache, s.audioFrameCache⟩

def Caches.afterBuild (m : Media) (c : AacCodec δ ε α) (s₀ : Session δ ε α) (w : Window)
    (k : Caches) : Caches where
  segments := segmentsAfter w.segmentIdx (outcomeWith m c s₀ w k.frames) k.segments
  frames := cacheAfter s₀.aac.isSome (ownPackets m c s₀ w) k.frames

/-- The requests that a session answers, and what they do to its caches. -/
inductive CacheStep (m : Media) (c : AacCodec δ ε α) (s₀ : Session δ ε α) (w : Window)
    (k : Caches) : Except Stop (List UInt8) → Caches → Prop
  | fails (stop : Stop) : CacheStep m c s₀ w k (.error stop) k
  | hit (bytes : List UInt8) (h : k.segments.lookup w.segmentIdx = some bytes) :
      CacheStep m c s₀ w k (.ok bytes) k
  | build (hvideo : HasVideo m) (hcues : ∃ read, readCueEntries m = .ok read) :
      CacheStep m c s₀ w k (outcomeWith m c s₀ w k.frames) (k.afterBuild m c s₀ w)

theorem fileStreams_of_ok {m : Media} {w : Window} {vid : Option AVStream} {aud : Option AVStream}
    (hvid : (fileAt m w).videoStream = .ok vid) (haud : (fileAt m w).audioStream = .ok aud) :
    fileVideo m = vid ∧ fileAudio m = aud := by
  have hvid : (indexedFile m).videoStream = .ok vid := hvid
  have haud : (indexedFile m).audioStream = .ok aud := haud
  rw [fileVideo, hvid, fileAudio, haud]
  exact ⟨rfl, rfl⟩

theorem buildPackets_fileAt {m : Media} {c : AacCodec δ ε α} (hflush : FlushForgets c)
    {s₀ s : Session δ ε α} (h : LikeNew m s₀ s) (w : Window) {vid : AVStream}
    {aud : Option AVStream} (hvid : (fileAt m w).videoStream = .ok (some vid))
    (haud : (fileAt m w).audioStream = .ok aud) :
    buildPackets c w vid aud (afterSeek c w (fileAt m w) s) = ownPackets m c s₀ w := by
  obtain ⟨hfileVideo, hfileAudio⟩ := fileStreams_of_ok hvid haud
  have hreset : (afterSeek c w (fileAt m w) s).aac = resetAac c s₀ w := h.resetAac_eq hflush w
  rw [buildPackets, hreset, ownPackets, hfileVideo, hfileAudio]
  rfl

/-- After the seek, the build over the packets of the file comes to the outcome of
the window over the cached frames. -/
theorem buildFromPackets_fileAt {m : Media} {c : AacCodec δ ε α} (hflush : FlushForgets c)
    {s₀ s : Session δ ε α} (h : LikeNew m s₀ s) (w : Window) {vid : AVStream}
    {aud : Option AVStream} (hvid : (fileAt m w).videoStream = .ok (some vid))
    (haud : (fileAt m w).audioStream = .ok aud) :
    ∃ packets aac, (buildFromPackets c w vid aud (afterSeek c w (fileAt m w) s)) =
      (outcomeWith m c s₀ w s.audioFrameCache, { s with
        demuxer := { fileAt m w with packets := packets }
        aac := aac
        segmentCache := (s.caches.afterBuild m c s₀ w).segments
        audioFrameCache := (s.caches.afterBuild m c s₀ w).frames }) ∧
      aac.map AacTranscoder.initialPadding = s₀.aac.map AacTranscoder.initialPadding := by
  obtain ⟨hfileVideo, hfileAudio⟩ := fileStreams_of_ok hvid haud
  have hreset : (afterSeek c w (fileAt m w) s).aac = resetAac c s₀ w := h.resetAac_eq hflush w
  have hisSome : (resetAac c s₀ w).isSome = s₀.aac.isSome := Option.isSome_map
  have hpadding : (resetAac c s₀ w).map AacTranscoder.initialPadding =
      s₀.aac.map AacTranscoder.initialPadding := by
    rw [resetAac, Option.map_map]
    rfl
  have hpackets := buildPackets_fileAt hflush h w hvid haud
  have houtcome : buildOutcome c w vid aud (afterSeek c w (fileAt m w) s) =
      outcomeWith m c s₀ w s.audioFrameCache := by
    have hcodecpar : (afterSeek c w (fileAt m w) s).aacCodecpar = s₀.aacCodecpar := h.codecpar
    rw [buildOutcome, hpackets, hreset, hisSome, hpadding, hcodecpar, outcomeWith, ownSamples,
      hfileVideo, hfileAudio]
    rfl
  obtain ⟨packets, hbuild⟩ := buildFromPackets_eq c w vid aud (afterSeek c w (fileAt m w) s)
    (leftQueue_afterSeek c w (fileAt m w) s)
  rw [houtcome, hpackets, hreset, hisSome] at hbuild
  refine ⟨packets, _, hbuild, ?_⟩
  rw [Option.map_map, ← hpadding]
  congr 1
  funext t
  exact AacTranscoder.transcode_initialPadding ..

/-- Building, a session takes one of the steps of its caches, and stays like new. -/
theorem buildSegmentLocked_cacheStep {m : Media} {c : AacCodec δ ε α} (hflush : FlushForgets c)
    {s₀ s : Session δ ε α} (h : LikeNew m s₀ s) {reopen : Reopen} (hsame : SameFile m reopen)
    (w : Window) :
    CacheStep m c s₀ w s.caches (buildSegmentLocked m c reopen w s).1
        (buildSegmentLocked m c reopen w s).2.caches ∧
      LikeNew m s₀ (buildSegmentLocked m c reopen w s).2 := by
  have hreads := h.demuxer.seekToMs hsame (audioDecodeStartMs w.segmentStartMs)
  have hstep := buildSegmentLocked_buildStep m c reopen w s
  generalize buildSegmentLocked m c reopen w s = result at hstep ⊢
  obtain ⟨outcome, s'⟩ := result
  cases hstep with
  | cached bytes hhit => exact ⟨.hit bytes hhit, h⟩
  | seekFails stop d hmiss hseek =>
      rw [hseek] at hreads
      exact ⟨.fails stop, hreads, h.initialPadding, h.codecpar⟩
  | streamFails stop d hmiss hseek hstreams =>
      rw [hseek] at hreads
      refine ⟨.fails stop, hreads, ?_, h.codecpar⟩
      rw [← h.initialPadding]
      exact Option.map_map ..
  | builds d vid aud hmiss hseek hvid haud =>
      rw [hseek] at hreads
      obtain ⟨hd, hvideo, hcues⟩ := h.demuxer.seekToMs_eq hsame hseek
      obtain rfl : d = fileAt m w := hd
      obtain ⟨packets, aac, hbuild, hpadding⟩ := buildFromPackets_fileAt hflush h w hvid haud
      rw [hbuild]
      exact ⟨.build hvideo hcues, ⟨hreads.timeBases, hreads.video, hreads.audio, hreads.uncached,
        hreads.cached⟩, hpadding, h.codecpar⟩

theorem generateSegment_cacheStep {m : Media} {c : AacCodec δ ε α} (hflush : FlushForgets c)
    {s₀ s : Session δ ε α} (h : LikeNew m s₀ s) {reopen : Reopen} (hsame : SameFile m reopen)
    (w : Window) :
    CacheStep m c s₀ w s.caches (s.generateSegment m c reopen w).1
        (s.generateSegment m c reopen w).2.caches ∧
      LikeNew m s₀ (s.generateSegment m c reopen w).2 := by
  rcases generateSegment_cases m c reopen w s with
    ⟨built, bytes, ⟨stop, -, -, hsegment⟩ | ⟨-, hsegment⟩⟩
  · rw [hsegment]
    exact ⟨.fails stop, h.demuxer, h.initialPadding, h.codecpar⟩
  · have h' : LikeNew m s₀ { s with initBuilt := built, initCache := bytes } :=
      ⟨h.demuxer, h.initialPadding, h.codecpar⟩
    rw [hsegment]
    exact buildSegmentLocked_cacheStep hflush h' hsame w

/-! ## One step of the caches -/

/-- The file can be seeked, and has video for the window. -/
structure Buildable (m : Media) (w : Window) : Prop where
  video : HasVideo m
  cues : ∃ read, readCueEntries m = .ok read
  samples : ownSamples m w ≠ []

/-- No build of an accepted segment leaves a frame in an empty cache that the window
requests and its own encoder lacks. -/
def NoFallback (m : Media) (c : AacCodec δ ε α) (keyframes : List ℤ) (s₀ : Session δ ε α)
    (w : Window) : Prop :=
  ∀ idx w', segmentWindow keyframes idx = some w' →
    ∀ j ∈ outputFrames (s₀.aac.map AacTranscoder.initialPadding) w,
      j ∉ frameIndices (ownPackets m c s₀ w) →
        j ∉ cacheAfter s₀.aac.isSome (ownPackets m c s₀ w') ∅

theorem outcomeWith_eq_of_forall {m : Media} {c : AacCodec δ ε α} {s₀ : Session δ ε α}
    {w : Window} {cache : KeyedCache ℤ (List UInt8)}
    (h : ∀ j ∈ outputFrames (s₀.aac.map AacTranscoder.initialPadding) w,
      j ∉ frameIndices (ownPackets m c s₀ w) → j ∉ cache) :
    outcomeWith m c s₀ w cache = outcomeWith m c s₀ w ∅ := by
  rw [outcomeWith, outcomeWith, audioOutput_eq_of_forall h]

theorem ownSamples_ne_nil_of_ok {m : Media} {c : AacCodec δ ε α} {s₀ : Session δ ε α} {w : Window}
    {cache : KeyedCache ℤ (List UInt8)} {bytes : List UInt8}
    (h : outcomeWith m c s₀ w cache = .ok bytes) : ownSamples m w ≠ [] := by
  rw [outcomeWith] at h
  split at h
  · cases h
  · rw [segmentOutcome] at h
    split at h
    · cases h
    · next hne => exact hne

/-- What the caches hold after any requests, with regard to the window `w`: frames
that some build leaves in an empty cache, and for `w` itself what it is over an
empty cache, if it never falls back. -/
structure CachesFor (m : Media) (c : AacCodec δ ε α) (keyframes : List ℤ) (s₀ : Session δ ε α)
    (w : Window) (k : Caches) : Prop where
  frames : ∀ j ∈ k.frames, ∃ idx w', segmentWindow keyframes idx = some w' ∧
    j ∈ cacheAfter s₀.aac.isSome (ownPackets m c s₀ w') ∅
  segment : ∀ bytes, k.segments.lookup w.segmentIdx = some bytes → Buildable m w ∧
    (NoFallback m c keyframes s₀ w → outcomeWith m c s₀ w ∅ = .ok bytes)

/-- Over the frames of such caches, a build of `w` comes out as over none. -/
theorem CachesFor.outcomeWith_eq {m : Media} {c : AacCodec δ ε α} {keyframes : List ℤ}
    {s₀ : Session δ ε α} {w : Window} {k : Caches} (h : CachesFor m c keyframes s₀ w k)
    (hno : NoFallback m c keyframes s₀ w) :
    outcomeWith m c s₀ w k.frames = outcomeWith m c s₀ w ∅ := by
  apply outcomeWith_eq_of_forall
  intro j hj hown hcache
  obtain ⟨idx, w', hw', hleft⟩ := h.frames j hcache
  exact hno idx w' hw' j hj hown hleft

theorem CachesFor.of_ok {m : Media} {c : AacCodec δ ε α} {keyframes : List ℤ}
    {s₀ : Session δ ε α} {w : Window} {k k' : Caches} (h : CachesFor m c keyframes s₀ w k)
    {bytes : List UInt8} (hstep : CacheStep m c s₀ w k (.ok bytes) k') :
    Buildable m w ∧ (NoFallback m c keyframes s₀ w → outcomeWith m c s₀ w ∅ = .ok bytes) := by
  generalize houtcome : (Except.ok bytes : Except Stop (List UInt8)) = outcome at hstep
  cases hstep with
  | fails stop => cases houtcome
  | hit bytes' hhit =>
      cases houtcome
      exact h.segment bytes hhit
  | build hvideo hcues =>
      refine ⟨⟨hvideo, hcues, ownSamples_ne_nil_of_ok houtcome.symm⟩, fun hno ↦ ?_⟩
      exact (h.outcomeWith_eq hno).symm

theorem CachesFor.step {m : Media} {c : AacCodec δ ε α} {keyframes : List ℤ}
    {s₀ : Session δ ε α} {w w' : Window} {idx : ℤ} {k k' : Caches}
    (hw : segmentWindow keyframes w.segmentIdx = some w)
    (hw' : segmentWindow keyframes idx = some w') (h : CachesFor m c keyframes s₀ w k)
    {outcome : Except Stop (List UInt8)} (hstep : CacheStep m c s₀ w' k outcome k') :
    CachesFor m c keyframes s₀ w k' := by
  cases hstep with
  | fails stop => exact h
  | hit bytes hhit => exact h
  | build hvideo hcues =>
      constructor
      · intro j hj
        rcases mem_cacheAfter hj with hold | hnew
        · exact h.frames j hold
        · exact ⟨idx, w', hw', hnew⟩
      · intro bytes hbytes
        have hbuild : CacheStep m c s₀ w' k (outcomeWith m c s₀ w' k.frames)
            (k.afterBuild m c s₀ w') := .build hvideo hcues
        simp only [Caches.afterBuild, segmentsAfter] at hbytes
        cases houtcome : outcomeWith m c s₀ w' k.frames with
        | error stop =>
            rw [houtcome] at hbytes
            exact h.segment bytes hbytes
        | ok built =>
            rw [houtcome] at hbytes hbuild
            have hinsert := lookup_evictSegments_of_some hbytes
            by_cases heq : w.segmentIdx = w'.segmentIdx
            · obtain rfl : w = w' := by
                have hidx := (segmentWindow_eq_some.mp hw').2.1
                rw [heq, hidx, hw'] at hw
                exact (Option.some.inj hw).symm
              rw [AList.lookup_insert] at hinsert
              cases hinsert
              exact h.of_ok hbuild
            · rw [AList.lookup_insert_ne heq] at hinsert
              exact h.segment bytes hinsert

structure Opened (m : Media) (s₀ s : Session δ ε α) : Prop extends LikeNew m s₀ s where
  isSome_fmtCtx : s.demuxer.fmtCtx.isSome

theorem Opened.generateInitSegment_ok {m : Media} {s₀ s : Session δ ε α} (h : Opened m s₀ s)
    (hvideo : HasVideo m) (haudio : HasAudio m) : ∃ bytes, s.generateInitSegment.1 = .ok bytes := by
  obtain ⟨vid, hvid⟩ := h.demuxer.videoStream_ok hvideo h.isSome_fmtCtx
  obtain ⟨aud, haud⟩ := (h.demuxer.audioStream_ok_iff h.isSome_fmtCtx).mpr haudio
  have htracks : ∃ tracks, s.initTracks = .ok tracks ∧ tracks ≠ [] := by
    rw [initTracks, hvid, ok_bind]
    split
    · rw [haud, ok_bind]
      exact ⟨_, rfl, by simp⟩
    · exact ⟨_, rfl, by simp⟩
  obtain ⟨tracks, htracks, hne⟩ := htracks
  obtain ⟨bytes, hbytes⟩ := Fmp4Writer.buildInit_eq_ok hne
  rw [generateInitSegment]
  split
  · exact ⟨_, rfl⟩
  · rw [htracks]
    simp only [hbytes]
    exact ⟨_, rfl⟩

/-- Over the open file a window that is not cached is built. -/
theorem Opened.buildSegmentLocked_eq {m : Media} {c : AacCodec δ ε α} (hflush : FlushForgets c)
    {s₀ s : Session δ ε α} (h : Opened m s₀ s) (hvideo : HasVideo m)
    (hcues : ∃ read, readCueEntries m = .ok read) (haudio : HasAudio m) {w : Window}
    (hmiss : s.segmentCache.lookup w.segmentIdx = none) :
    (buildSegmentLocked m c (.opened m.context) w s).1 =
        outcomeWith m c s₀ w s.audioFrameCache ∧
      (buildSegmentLocked m c (.opened m.context) w s).2.caches =
        s.caches.afterBuild m c s₀ w ∧
      Opened m s₀ (buildSegmentLocked m c (.opened m.context) w s).2 := by
  obtain ⟨read, hread⟩ := hcues
  have hsame : SameFile m (.opened m.context) := rfl
  have hseek := h.demuxer.seekToMs_opened hvideo h.isSome_fmtCtx hread
    (audioDecodeStartMs w.segmentStartMs)
  have hreads := h.demuxer.seekToMs hsame (audioDecodeStartMs w.segmentStartMs)
  rw [hseek] at hreads
  have hisSome : (fileAt m w).fmtCtx.isSome :=
    (addCueIndexEntries_sameOpening m (openedFile m)).isSome
  obtain ⟨vid, hvid⟩ := hreads.videoStream_ok hvideo hisSome
  obtain ⟨aud, haud⟩ := (hreads.audioStream_ok_iff hisSome).mpr haudio
  obtain ⟨packets, aac, hbuild, hpadding⟩ :=
    buildFromPackets_fileAt hflush h.toLikeNew w hvid haud
  rw [buildSegmentLocked_of_seek c hmiss hseek hvid haud]
  rw [show soughtFile m (audioDecodeStartMs w.segmentStartMs) = fileAt m w from rfl, hbuild]
  exact ⟨rfl, rfl, ⟨⟨hreads.timeBases, hreads.video, hreads.audio, hreads.uncached,
    hreads.cached⟩, hpadding, h.codecpar⟩, hisSome⟩

theorem Opened.generateSegment_eq {m : Media} {c : AacCodec δ ε α} (hflush : FlushForgets c)
    {s₀ s : Session δ ε α} (h : Opened m s₀ s) (hvideo : HasVideo m)
    (hcues : ∃ read, readCueEntries m = .ok read) (haudio : HasAudio m) {w : Window}
    (hmiss : s.segmentCache.lookup w.segmentIdx = none) :
    (s.generateSegment m c (.opened m.context) w).1 = outcomeWith m c s₀ w s.audioFrameCache ∧
      (s.generateSegment m c (.opened m.context) w).2.caches = s.caches.afterBuild m c s₀ w ∧
      Opened m s₀ (s.generateSegment m c (.opened m.context) w).2 := by
  obtain ⟨data, hinit⟩ := h.generateInitSegment_ok hvideo haudio
  rcases generateSegment_cases m c (.opened m.context) w s with
    ⟨built, bytes, ⟨stop, -, hstop, -⟩ | ⟨-, hsegment⟩⟩
  · cases hinit.symm.trans hstop
  · have hopened : Opened m s₀ { s with initBuilt := built, initCache := bytes } :=
      ⟨⟨h.demuxer, h.initialPadding, h.codecpar⟩, h.isSome_fmtCtx⟩
    rw [hsegment]
    exact hopened.buildSegmentLocked_eq hflush hvideo hcues haudio hmiss

theorem create_opened {m : Media} {c : AacCodec δ ε α} {s : Session δ ε α}
    (hcreate : create c (.opened m.context) = .ok s) :
    Opened m s s ∧ HasAudio m ∧ s.aac.isSome = s.aacCodecpar.isSome := by
  obtain ⟨hopen, -, haudio, haac⟩ := create_eq_ok hcreate
  obtain ⟨ctx, hctx, -, hdemuxer⟩ := openInput_eq_ok hopen
  cases hctx
  have hreads : ReadsFile m s.demuxer := by
    rw [hdemuxer]
    refine ⟨fun ctx hctx ↦ ?_, rfl, rfl, fun _ ↦ rfl, fun hcached ↦ by cases hcached⟩
    cases hctx
    rfl
  have hisSome : s.demuxer.fmtCtx.isSome := by
    rw [hdemuxer]
    rfl
  exact ⟨⟨⟨hreads, rfl, rfl⟩, hisSome⟩, (hreads.audioStream_ok_iff hisSome).mp haudio, haac⟩

theorem outcomeWith_eq_ok {m : Media} (c : AacCodec δ ε α) (s₀ : Session δ ε α) {w : Window}
    (hbuildable : Buildable m w) (cache : KeyedCache ℤ (List UInt8)) :
    ∃ bytes, outcomeWith m c s₀ w cache = .ok bytes := by
  have hsamples := hbuildable.samples
  rw [outcomeWith]
  cases hvid : fileVideo m with
  | none =>
      rw [ownSamples, hvid] at hsamples
      exact absurd rfl hsamples
  | some vid =>
      obtain ⟨bytes, hbytes⟩ := segmentBytes_eq_ok w vid s₀.aacCodecpar s₀.aac.isSome
        (fixVideoDurations (ownSamples m w)) (audioOutput s₀.aac.isSome (ownPackets m c s₀ w) cache
          (outputFrames (s₀.aac.map AacTranscoder.initialPadding) w))
      refine ⟨bytes, ?_⟩
      simp only [segmentOutcome, if_neg hsamples, hbytes]
      rfl

theorem length_lt_of_fallback {m : Media} {c : AacCodec δ ε α} {s₀ : Session δ ε α} {w : Window}
    {cache : KeyedCache ℤ (List UInt8)} (haac : s₀.aac.isSome = true)
    (hcodecpar : s₀.aacCodecpar.isSome) {j : ℤ}
    (hj : j ∈ outputFrames (s₀.aac.map AacTranscoder.initialPadding) w)
    (hown : j ∉ frameIndices (ownPackets m c s₀ w)) (hcache : j ∈ cache)
    {bytes bytes' : List UInt8} (hbytes : outcomeWith m c s₀ w ∅ = .ok bytes)
    (hbytes' : outcomeWith m c s₀ w cache = .ok bytes') : bytes.length < bytes'.length := by
  have hsamples := ownSamples_ne_nil_of_ok hbytes
  rw [outcomeWith] at hbytes hbytes'
  cases hvid : fileVideo m with
  | none => rw [ownSamples, hvid] at hsamples; exact absurd rfl hsamples
  | some vid =>
      simp only [hvid, haac, segmentOutcome, if_neg hsamples] at hbytes hbytes'
      have hok : ∀ {outcome : Except String (List UInt8)} {bytes : List UInt8},
          outcome.mapError Stop.exception = .ok bytes → outcome = .ok bytes := by
        intro outcome bytes h
        cases outcome with
        | error what => cases h
        | ok bytes => cases h; rfl
      exact length_segmentBytes_lt w vid hcodecpar _ (audioOutput_sublist ..)
        (length_audioOutput_lt hj hown hcache) (hok hbytes) (hok hbytes')

theorem ownPackets_of_none (m : Media) (c : AacCodec δ ε α) {s₀ : Session δ ε α}
    (hnone : s₀.aac = none) (w : Window) : ownPackets m c s₀ w = [] := by
  rw [ownPackets, resetAac, hnone]
  split <;> rfl

theorem lookup_segmentsAfter_empty {segmentIdx j : ℤ} (hne : j ≠ segmentIdx)
    (outcome : Except Stop (List UInt8)) :
    (segmentsAfter segmentIdx outcome ∅).lookup j = none := by
  cases outcome with
  | error stop => exact AList.lookup_empty j
  | ok bytes =>
      by_contra hsome
      obtain ⟨found, hfound⟩ := Option.ne_none_iff_exists'.mp hsome
      have hinsert := lookup_evictSegments_of_some hfound
      rw [AList.lookup_insert_ne hne, AList.lookup_empty] at hinsert
      cases hinsert

theorem afterBuild_caches_create {m : Media} {c : AacCodec δ ε α} {reopen : Reopen}
    {s₀ : Session δ ε α} (hcreate : create c reopen = .ok s₀) (w : Window) :
    s₀.caches.afterBuild m c s₀ w =
      ⟨segmentsAfter w.segmentIdx (outcomeWith m c s₀ w ∅) ∅,
        cacheAfter s₀.aac.isSome (ownPackets m c s₀ w) ∅⟩ := by
  obtain ⟨-, ⟨-, hsegments, hframes⟩, -, -⟩ := create_eq_ok hcreate
  rw [caches, hsegments, hframes]
  rfl

/-! ## Histories -/

/-- A request for a segment, with the outcome of the re-opening if it comes to
one. -/
structure Request where
  window : Window
  reopen : Reopen

/-- The window is that of its index, and the re-opening finds the file. -/
def Request.WellFormed (m : Media) (keyframes : List ℤ) (q : Request) : Prop :=
  segmentWindow keyframes q.window.segmentIdx = some q.window ∧ SameFile m q.reopen

def serve (m : Media) (c : AacCodec δ ε α) (q : Request) (s : Session δ ε α) :
    Except Stop (List UInt8) × Session δ ε α :=
  s.generateSegment m c q.reopen q.window

/-- Two histories of requests, each followed by a successful request for `w`, end
with the same bytes. -/
def SameBytes (m : Media) (c : AacCodec δ ε α) (keyframes : List ℤ) (s₀ : Session δ ε α)
    (w : Window) : Prop :=
  ∀ (history history' : List Request) (reopen reopen' : Reopen) (bytes bytes' : List UInt8),
    (∀ q ∈ history, q.WellFormed m keyframes) → (∀ q ∈ history', q.WellFormed m keyframes) →
    SameFile m reopen → SameFile m reopen' →
    (serve m c ⟨w, reopen⟩ (CallRun.finalState (serve m c) history s₀)).1 = .ok bytes →
    (serve m c ⟨w, reopen'⟩ (CallRun.finalState (serve m c) history' s₀)).1 = .ok bytes' →
    bytes = bytes'

/-- After a history, a request for `w` that succeeds returns what it returns over
empty caches, if it never falls back. -/
theorem serve_eq_ok {m : Media} {c : AacCodec δ ε α} (hflush : FlushForgets c)
    {keyframes : List ℤ} {s₀ : Session δ ε α} (hcreate : create c (.opened m.context) = .ok s₀)
    {w : Window} (hw : segmentWindow keyframes w.segmentIdx = some w) {history : List Request}
    (hhistory : ∀ q ∈ history, q.WellFormed m keyframes) {reopen : Reopen}
    (hsame : SameFile m reopen) {bytes : List UInt8}
    (hok : (serve m c ⟨w, reopen⟩ (CallRun.finalState (serve m c) history s₀)).1 = .ok bytes) :
    Buildable m w ∧ (NoFallback m c keyframes s₀ w → outcomeWith m c s₀ w ∅ = .ok bytes) := by
  obtain ⟨-, ⟨-, hsegments, hframes⟩, -, -⟩ := create_eq_ok hcreate
  obtain ⟨hopened, -, -⟩ := create_opened hcreate
  have hempty : CachesFor m c keyframes s₀ w s₀.caches := by
    constructor
    · intro j hj
      rw [caches, hframes] at hj
      exact absurd hj (by simp)
    · intro bytes hbytes
      rw [caches, hsegments, AList.lookup_empty] at hbytes
      cases hbytes
  have hserve : ∀ q s, Request.WellFormed m keyframes q →
      (LikeNew m s₀ s ∧ CachesFor m c keyframes s₀ w s.caches) →
        LikeNew m s₀ (serve m c q s).2 ∧ CachesFor m c keyframes s₀ w (serve m c q s).2.caches := by
    rintro q s ⟨hwindow, hfile⟩ ⟨hlike, hcaches⟩
    obtain ⟨hstep, hlike'⟩ := generateSegment_cacheStep hflush hlike hfile q.window
    exact ⟨hlike', hcaches.step hw hwindow hstep⟩
  obtain ⟨hlike, hcaches⟩ :=
    CallRun.finalState_of_invariant hserve hhistory ⟨hopened.toLikeNew, hempty⟩
  obtain ⟨hstep, -⟩ := generateSegment_cacheStep hflush hlike hsame w
  rw [show (generateSegment m c reopen w _).1 = _ from hok] at hstep
  exact hcaches.of_ok hstep

/-- A window that some build leaves a frame for comes out longer after that
build. -/
theorem noFallback_of_sameBytes {m : Media} {c : AacCodec δ ε α} (hflush : FlushForgets c)
    {keyframes : List ℤ} {s₀ : Session δ ε α} (hcreate : create c (.opened m.context) = .ok s₀)
    {w : Window} (hw : segmentWindow keyframes w.segmentIdx = some w)
    (hbytes : SameBytes m c keyframes s₀ w) (hbuildable : Buildable m w) :
    NoFallback m c keyframes s₀ w := by
  intro idx w' hw' j hj hown hleft
  have hidx : w'.segmentIdx = idx := (segmentWindow_eq_some.mp hw').2.1
  have hne : w.segmentIdx ≠ w'.segmentIdx := by
    intro heq
    rw [heq, hidx, hw'] at hw
    obtain rfl : w' = w := Option.some.inj hw
    exact hown (mem_frameIndices_of_mem_cacheAfter hleft)
  have haac : s₀.aac.isSome = true := by
    by_contra hnone
    rw [ownPackets_of_none m c (by simpa using hnone)] at hleft
    simpa [frameIndices] using mem_frameIndices_of_mem_cacheAfter hleft
  obtain ⟨-, ⟨-, hsegments, hframes⟩, -, -⟩ := create_eq_ok hcreate
  obtain ⟨hopened, haudio, hcodecpar⟩ := create_opened hcreate
  obtain ⟨hfirst, -, -⟩ := hopened.generateSegment_eq hflush hbuildable.video hbuildable.cues haudio
    (w := w) (by rw [hsegments, AList.lookup_empty])
  obtain ⟨-, hcaches, hopened'⟩ := hopened.generateSegment_eq hflush hbuildable.video
    hbuildable.cues haudio (w := w') (by rw [hsegments, AList.lookup_empty])
  rw [afterBuild_caches_create hcreate] at hcaches
  obtain ⟨hsecond, -, -⟩ := hopened'.generateSegment_eq hflush hbuildable.video hbuildable.cues
    haudio (w := w) (by
      rw [show Session.segmentCache _ = _ from congrArg Caches.segments hcaches]
      exact lookup_segmentsAfter_empty hne _)
  rw [show Session.audioFrameCache _ = _ from congrArg Caches.frames hcaches] at hsecond
  rw [hframes] at hfirst
  obtain ⟨bytes, hfresh⟩ := outcomeWith_eq_ok c s₀ hbuildable ∅
  obtain ⟨bytes', hlater⟩ := outcomeWith_eq_ok c s₀ hbuildable
    (cacheAfter s₀.aac.isSome (ownPackets m c s₀ w') ∅)
  have hlt := length_lt_of_fallback haac (hcodecpar ▸ haac) hj hown hleft hfresh hlater
  have hsame : SameFile m (.opened m.context) := rfl
  have heq := hbytes [] [⟨w', .opened m.context⟩] _ _ bytes bytes' (by simp)
    (by
      intro q hq
      rw [List.mem_singleton.mp hq]
      exact ⟨hidx ▸ hw', hsame⟩) hsame hsame (hfirst.trans hfresh) (hsecond.trans hlater)
  rw [heq] at hlt
  exact absurd hlt (lt_irrefl _)

/-- The bytes of a segment are the same after every history if and only if it cannot
be built, or no build leaves a frame that it falls back on. -/
theorem sameBytes_iff {m : Media} {c : AacCodec δ ε α} (hflush : FlushForgets c)
    {keyframes : List ℤ} {s₀ : Session δ ε α} (hcreate : create c (.opened m.context) = .ok s₀)
    {w : Window} (hw : segmentWindow keyframes w.segmentIdx = some w) :
    SameBytes m c keyframes s₀ w ↔ (Buildable m w → NoFallback m c keyframes s₀ w) := by
  constructor
  · intro hbytes hbuildable
    exact noFallback_of_sameBytes hflush hcreate hw hbytes hbuildable
  · intro hcond history history' reopen reopen' bytes bytes' hhistory hhistory' hsame hsame'
      hok hok'
    obtain ⟨hbuildable, hfresh⟩ := serve_eq_ok hflush hcreate hw hhistory hsame hok
    obtain ⟨-, hfresh'⟩ := serve_eq_ok hflush hcreate hw hhistory' hsame' hok'
    have hno := hcond hbuildable
    exact Except.ok.inj ((hfresh hno).symm.trans (hfresh' hno))

/-! A file with cues at 0, 10000 and 20000 ms and one audio packet, at 8000 ms.  The
second segment encodes it as frame 375, which the first one requests and, from its
own anchor, encodes as frame -1. -/

def threeCueBytes : List UInt8 :=
  -- EBML header, Segment, SeekHead with a Seek for the Cues
  [0x1A, 0x45, 0xDF, 0xA3, 0x80, 0x18, 0x53, 0x80, 0x67, 0xC1, 0x11, 0x4D, 0x9B, 0x74, 0x8E,
    0x4D, 0xBB, 0x8B, 0x53, 0xAB, 0x84, 0x1C, 0x53, 0xBB, 0x6B, 0x53, 0xAC, 0x81, 0x13] ++
  -- Cues with three cue points
  [0x1C, 0x53, 0xBB, 0x6B, 0xA9,
    0xBB, 0x8B, 0xB3, 0x81, 0x00, 0xB7, 0x86, 0xF7, 0x81, 0x01, 0xF1, 0x81, 0x33,
    0xBB, 0x8C, 0xB3, 0x82, 0x27, 0x10, 0xB7, 0x86, 0xF7, 0x81, 0x01, 0xF1, 0x81, 0x33,
    0xBB, 0x8C, 0xB3, 0x82, 0x4E, 0x20, 0xB7, 0x86, 0xF7, 0x81, 0x01, 0xF1, 0x81, 0x33]

def lateAudio : List AVPacket :=
  [⟨0, 0, 0, 10000, true, [1]⟩, ⟨1, 8000, 8000, 0, true, [7]⟩, ⟨0, 10000, 10000, 10000, true, [2]⟩,
    ⟨0, 20000, 20000, 0, true, [3]⟩]

def lateAudioFile : Media where
  context := ⟨[millisecondStream .video, millisecondStream .audio], 0, 1, 20000000⟩
  avioRead := fun offset n ↦ (threeCueBytes.drop offset.toNat).take n
  packetsFromOffset := fun _ _ ↦ lateAudio
  packetsFromTimestamp := fun _ _ _ ↦ lateAudio

/-- Decodes every packet to silence, and encodes every frame to one byte. -/
def silentCodec : AacCodec Unit Unit ℤ where
  openCodec := fun codecpar ↦ .ok ⟨(), (), 1024, codecpar⟩
  decode := fun _ _ ↦ ((), List.replicate 1024 (0, 0))
  flushDecoder := id
  encode := fun _ frame ↦ ((), [⟨1, frame.pts, frame.pts, 1024, true, [9]⟩])
  flushEncoder := id

def lateAudioSession : Session Unit Unit ℤ where
  demuxer := (Demuxer.create (.opened lateAudioFile.context)).2
  aac := some (AacTranscoder.ofOpened ⟨(), (), 1024, (millisecondStream .audio).codecpar⟩)
  aacCodecpar := some (millisecondStream .audio).codecpar

theorem create_lateAudio :
    create silentCodec (.opened lateAudioFile.context) = .ok lateAudioSession := rfl

theorem flushForgets_silentCodec : FlushForgets silentCodec := ⟨fun _ _ ↦ rfl, fun _ _ ↦ rfl⟩

theorem sameBytes_iff_lateAudio :
    SameBytes lateAudioFile silentCodec [0, 10000, 20000] lateAudioSession ⟨0, 0, 10000⟩ ↔
      (Buildable lateAudioFile ⟨0, 0, 10000⟩ →
        NoFallback lateAudioFile silentCodec [0, 10000, 20000] lateAudioSession ⟨0, 0, 10000⟩) :=
  sameBytes_iff flushForgets_silentCodec create_lateAudio rfl

theorem buildable_lateAudio : Buildable lateAudioFile ⟨0, 0, 10000⟩ where
  video := by
    rw [HasVideo]
    decide
  cues := by
    have hread : readCueEntries lateAudioFile =
        .ok (some [⟨0, 0, 1, 61, -1⟩, ⟨10000, 10000, 1, 61, -1⟩, ⟨20000, 20000, 1, 61, -1⟩]) := by
      decide +kernel
    exact ⟨_, hread⟩
  samples := by
    have hsamples : (ownSamples lateAudioFile ⟨0, 0, 10000⟩).isEmpty = false := by
      decide +kernel
    exact List.isEmpty_eq_false_iff.mp hsamples

theorem not_sameBytes :
    ¬∀ (keyframes : List ℤ) (w : Window), segmentWindow keyframes w.segmentIdx = some w →
      SameBytes lateAudioFile silentCodec keyframes lateAudioSession w := by
  intro h
  have hbytes := h [0, 10000, 20000] ⟨0, 0, 10000⟩ rfl
  have hno := noFallback_of_sameBytes flushForgets_silentCodec create_lateAudio rfl hbytes
    buildable_lateAudio
  have hrequested : 375 ∈ outputFrames
      (lateAudioSession.aac.map AacTranscoder.initialPadding) ⟨0, 0, 10000⟩ := by
    decide +kernel
  have hown : 375 ∉ frameIndices
      (ownPackets lateAudioFile silentCodec lateAudioSession ⟨0, 0, 10000⟩) := by
    decide +kernel
  have hleft : ((cacheAfter lateAudioSession.aac.isSome
      (ownPackets lateAudioFile silentCodec lateAudioSession ⟨1, 10000, 20000⟩) ∅).lookup
        375).isSome = true := by
    decide +kernel
  exact hno 1 ⟨1, 10000, 20000⟩ rfl 375 hrequested hown (AList.lookup_isSome.mp hleft)

end Session

end Fmp4Packager
