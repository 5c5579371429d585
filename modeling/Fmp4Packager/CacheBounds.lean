import Fmp4Packager.FailedReopen

/-!
# The size of the caches

The audio cache is cut back in every build.  The segment cache loses its smallest
index, unless that is the segment just built: it grows past its limit exactly when a
full cache holds later segments only.
-/

namespace Fmp4Packager

namespace Session

open Demuxer

variable {δ ε α : Type}

structure CachesBounded (s : Session δ ε α) : Prop where
  segments : s.segmentCache.keys.length ≤ kMaxCachedSegments
  frames : s.audioFrameCache.keys.length ≤ kMaxCachedAudioFrames

/-- After a call the caches are within their limits, and a segment that it has
returned is cached. -/
structure BoundedAfter (m : Media) (c : AacCodec δ ε α) (call : Call) (s : Session δ ε α) :
    Prop where
  bounded : CachesBounded (perform m c call s).2
  cached : ∀ reopen w bytes, call = .generateSegment reopen w →
    (s.generateSegment m c reopen w).1 = .ok bytes →
      (s.generateSegment m c reopen w).2.segmentCache.lookup w.segmentIdx = some bytes

/-- The session has the init segment, or can make it. -/
def HasInit (s : Session δ ε α) : Prop :=
  s.initBuilt = true ∨ ∃ bytes, s.generateInitSegment.1 = .ok bytes

/-- The request comes to a build with video: its index is not cached, the seek
succeeds, and there is a video sample for the window. -/
structure ComesToBuild (m : Media) (reopen : Reopen) (w : Window) (s : Session δ ε α) :
    Prop where
  init : HasInit s
  miss : s.segmentCache.lookup w.segmentIdx = none
  samples : ∃ d vid aud,
    s.demuxer.seekToMs m reopen (audioDecodeStartMs w.segmentStartMs) = (.ok (), d) ∧
      d.videoStream = .ok (some vid) ∧ d.audioStream = .ok aud ∧ runSamples w vid aud d ≠ []

/-- A segment that the call builds finds room in the cache, or a smaller index. -/
def FindsRoom (m : Media) (call : Call) (s : Session δ ε α) : Prop :=
  ∀ reopen w, call = .generateSegment reopen w → ComesToBuild m reopen w s →
    s.segmentCache.keys.length < kMaxCachedSegments ∨ ∃ j ∈ s.segmentCache, j < w.segmentIdx

theorem foldl_min_spec (a : ℤ) (xs : List ℤ) :
    xs.foldl min a ∈ a :: xs ∧ ∀ x ∈ a :: xs, xs.foldl min a ≤ x :=
  List.min?_eq_some_iff.mp List.min?_cons'

theorem evictSegments_of_le {segmentIdx : ℤ} {cache : KeyedCache ℤ (List UInt8)}
    (hle : cache.keys.length ≤ kMaxCachedSegments) (fuel : ℕ) :
    evictSegments segmentIdx fuel cache = cache := by
  cases fuel with
  | zero => rfl
  | succ fuel => rw [evictSegments, if_neg (not_lt.mpr hle)]

/-- From within its limit the cache stays there exactly when there is room, or
something to evict for the new segment. -/
theorem length_evictSegments_insert_le_iff {segmentIdx : ℤ} (bytes : List UInt8)
    {cache : KeyedCache ℤ (List UInt8)} (hmiss : cache.lookup segmentIdx = none)
    (hle : cache.keys.length ≤ kMaxCachedSegments) :
    (evictSegments segmentIdx (cache.insert segmentIdx bytes).keys.length
        (cache.insert segmentIdx bytes)).keys.length ≤ kMaxCachedSegments ↔
      cache.keys.length < kMaxCachedSegments ∨ ∃ j ∈ cache, j < segmentIdx := by
  have hlength := KeyedCache.length_keys_insert bytes (AList.lookup_eq_none.mp hmiss)
  generalize hgrown : cache.insert segmentIdx bytes = grown at hlength ⊢
  by_cases hroom : cache.keys.length < kMaxCachedSegments
  · rw [evictSegments_of_le (by omega)]
    exact iff_of_true (by omega) (.inl hroom)
  · obtain ⟨hmem, hmin⟩ := foldl_min_spec segmentIdx grown.keys
    rw [hlength, evictSegments, if_pos (by omega)]
    dsimp only
    by_cases hself : grown.keys.foldl min segmentIdx = segmentIdx
    · -- the new segment is the smallest, and stays
      rw [if_pos hself]
      refine iff_of_false (by omega) ?_
      rintro (hlt | ⟨j, hj, hlt⟩)
      · exact hroom hlt
      · have hgrownj : j ∈ grown := by
          rw [← hgrown]
          exact (AList.mem_insert cache).mpr (.inr hj)
        have := hmin j (List.mem_cons_of_mem _ (AList.mem_keys.mp hgrownj))
        omega
    · have holdest : grown.keys.foldl min segmentIdx ∈ grown :=
        AList.mem_keys.mpr ((List.mem_cons.mp hmem).resolve_left hself)
      have herased := KeyedCache.length_keys_erase holdest
      rw [if_neg hself, evictSegments_of_le (by omega)]
      have hsmaller := lt_of_le_of_ne (hmin segmentIdx List.mem_cons_self) hself
      rw [← hgrown] at holdest hsmaller hself
      have hcached := ((AList.mem_insert cache).mp holdest).resolve_left hself
      exact iff_of_true (by omega) (.inr ⟨_, hcached, hsmaller⟩)

theorem length_cacheAfter_le (hasAac : Bool) (pkts : List AVPacket)
    {cache : KeyedCache ℤ (List UInt8)} (hnone : hasAac = false → pkts = [])
    (hle : cache.keys.length ≤ kMaxCachedAudioFrames) :
    (cacheAfter hasAac pkts cache).keys.length ≤ kMaxCachedAudioFrames := by
  rw [cacheAfter]
  split
  · exact KeyedCache.length_keys_evict_le ..
  · next haac => rwa [hnone (by simpa using haac)]

theorem buildPackets_of_none (c : AacCodec δ ε α) (w : Window) (vid : AVStream)
    (aud : Option AVStream) {s : Session δ ε α} (hnone : s.aac.isSome = false) :
    buildPackets c w vid aud s = [] := by
  have haac : s.aac = none := by simpa using hnone
  rw [buildPackets, haac]
  rfl

theorem segmentOutcome_eq_ok_iff (w : Window) (vid : AVStream)
    (aacCodecpar : Option AVCodecParameters) (hasAac : Bool)
    (videoSamples audioSamples : List Sample) :
    (∃ bytes, segmentOutcome w vid aacCodecpar hasAac videoSamples audioSamples = .ok bytes) ↔
      videoSamples ≠ [] := by
  rw [segmentOutcome]
  by_cases hnil : videoSamples = []
  · rw [if_pos hnil]
    simp [hnil]
  · obtain ⟨bytes, hbytes⟩ := segmentBytes_eq_ok w vid aacCodecpar hasAac
      (fixVideoDurations videoSamples) audioSamples
    rw [if_neg hnil, hbytes]
    exact iff_of_true ⟨bytes, rfl⟩ hnil

theorem buildFromPackets_bounded (c : AacCodec δ ε α) {w : Window} (vid : AVStream)
    (aud : Option AVStream) (d : Demuxer) {s : Session δ ε α} (h : CachesBounded s)
    (hmiss : s.segmentCache.lookup w.segmentIdx = none) :
    (CachesBounded (buildFromPackets c w vid aud (afterSeek c w d s)).2 ↔
        (runSamples w vid aud d ≠ [] → s.segmentCache.keys.length < kMaxCachedSegments ∨
          ∃ j ∈ s.segmentCache, j < w.segmentIdx)) ∧
      ∀ bytes, (buildFromPackets c w vid aud (afterSeek c w d s)).1 = .ok bytes →
        (buildFromPackets c w vid aud (afterSeek c w d s)).2.segmentCache.lookup w.segmentIdx =
          some bytes := by
  obtain ⟨packets, hbuild⟩ := buildFromPackets_eq c w vid aud (afterSeek c w d s)
    (leftQueue_afterSeek c w d s)
  have hframes := length_cacheAfter_le (afterSeek c w d s).aac.isSome
    (buildPackets c w vid aud (afterSeek c w d s))
    (fun hnone ↦ buildPackets_of_none c w vid aud hnone) h.frames
  have hok : (∃ bytes, buildOutcome c w vid aud (afterSeek c w d s) = .ok bytes) ↔
      runSamples w vid aud d ≠ [] := segmentOutcome_eq_ok_iff ..
  rw [hbuild]
  cases houtcome : buildOutcome c w vid aud (afterSeek c w d s) with
  | error stop =>
      rw [houtcome] at hok
      refine ⟨iff_of_true ⟨h.segments, hframes⟩ fun hsamples ↦ ?_,
        fun bytes hbytes ↦ by cases hbytes⟩
      obtain ⟨bytes, hbytes⟩ := hok.mpr hsamples
      cases hbytes
  | ok built =>
      rw [houtcome] at hok
      have hsegments := length_evictSegments_insert_le_iff built hmiss h.segments
      have hsamples : runSamples w vid aud d ≠ [] := hok.mp ⟨built, rfl⟩
      constructor
      · rw [← hsegments]
        exact ⟨fun hafter _ ↦ hafter.segments, fun hroom ↦ ⟨hroom hsamples, hframes⟩⟩
      · intro bytes hbytes
        cases hbytes
        exact (lookup_evictSegments_self ..).trans (AList.lookup_insert _)

/-- With the init segment at hand, a request keeps the caches within their limits
exactly when it finds room. -/
theorem buildSegmentLocked_bounded (m : Media) (c : AacCodec δ ε α) (reopen : Reopen) (w : Window)
    {s : Session δ ε α} (hinit : s.initBuilt = true) (h : CachesBounded s) :
    (CachesBounded (buildSegmentLocked m c reopen w s).2 ↔
        (ComesToBuild m reopen w s → s.segmentCache.keys.length < kMaxCachedSegments ∨
          ∃ j ∈ s.segmentCache, j < w.segmentIdx)) ∧
      ∀ bytes, (buildSegmentLocked m c reopen w s).1 = .ok bytes →
        (buildSegmentLocked m c reopen w s).2.segmentCache.lookup w.segmentIdx = some bytes := by
  have hstep := buildSegmentLocked_buildStep m c reopen w s
  generalize buildSegmentLocked m c reopen w s = result at hstep ⊢
  obtain ⟨outcome, s'⟩ := result
  cases hstep with
  | cached bytes hhit =>
      refine ⟨iff_of_true h fun hbuild ↦ ?_, fun found hfound ↦ by cases hfound; exact hhit⟩
      cases hhit.symm.trans hbuild.miss
  | seekFails stop d hmiss hseek =>
      refine ⟨iff_of_true ⟨h.segments, h.frames⟩ fun hbuild ↦ ?_,
        fun bytes hbytes ↦ by cases hbytes⟩
      obtain ⟨d', vid, aud, hseek', -⟩ := hbuild.samples
      cases hseek.symm.trans hseek'
  | streamFails stop d hmiss hseek hstreams =>
      refine ⟨iff_of_true ⟨h.segments, h.frames⟩ fun hbuild ↦ ?_,
        fun bytes hbytes ↦ by cases hbytes⟩
      obtain ⟨d', vid, aud, hseek', hvid, haud, -⟩ := hbuild.samples
      cases hseek.symm.trans hseek'
      exact absurd haud (hstreams vid aud hvid)
  | builds d vid aud hmiss hseek hvid haud =>
      obtain ⟨hbounded, hcached⟩ := buildFromPackets_bounded c vid aud d h hmiss
      refine ⟨hbounded.trans (imp_congr_left ⟨fun hsamples ↦ ?_, fun hbuild ↦ ?_⟩), hcached⟩
      · exact ⟨.inl hinit, hmiss, d, vid, aud, hseek, hvid, haud, hsamples⟩
      · obtain ⟨d', vid', aud', hseek', hvid', haud', hsamples⟩ := hbuild.samples
        cases hseek.symm.trans hseek'
        cases hvid.symm.trans hvid'
        cases haud.symm.trans haud'
        exact hsamples

theorem generateSegment_bounded (m : Media) (c : AacCodec δ ε α) (reopen : Reopen) (w : Window)
    {s : Session δ ε α} (h : CachesBounded s) :
    (CachesBounded (s.generateSegment m c reopen w).2 ↔
        (ComesToBuild m reopen w s → s.segmentCache.keys.length < kMaxCachedSegments ∨
          ∃ j ∈ s.segmentCache, j < w.segmentIdx)) ∧
      ∀ bytes, (s.generateSegment m c reopen w).1 = .ok bytes →
        (s.generateSegment m c reopen w).2.segmentCache.lookup w.segmentIdx = some bytes := by
  obtain ⟨built, data, hframe, -, hok⟩ := generateInitSegment_frame s
  rw [generateSegment]
  cases hbuilt : s.initBuilt with
  | true => exact buildSegmentLocked_bounded m c reopen w hbuilt h
  | false =>
      rcases hgenerate : s.generateInitSegment with ⟨stop | bytes, s'⟩
      · rw [hgenerate] at hframe
        obtain rfl : s' = _ := hframe
        refine ⟨iff_of_true ⟨h.segments, h.frames⟩ fun hbuild ↦ ?_,
          fun bytes hbytes ↦ by cases hbytes⟩
        rcases hbuild.init with hinit | ⟨bytes, hbytes⟩
        · cases hbuilt.symm.trans hinit
        · rw [hgenerate] at hbytes
          cases hbytes
      · rw [hgenerate] at hframe hok
        obtain rfl : s' = _ := hframe
        have hinit : built = true := hok ⟨bytes, rfl⟩
        obtain ⟨hbounded, hcached⟩ := buildSegmentLocked_bounded m c reopen w
          (s := { s with initBuilt := built, initCache := data }) hinit ⟨h.segments, h.frames⟩
        refine ⟨hbounded.trans (imp_congr_left ?_), hcached⟩
        constructor
        · exact fun hbuild ↦ ⟨.inr ⟨bytes, by rw [hgenerate]⟩, hbuild.miss, hbuild.samples⟩
        · exact fun hbuild ↦ ⟨.inl hinit, hbuild.miss, hbuild.samples⟩

theorem boundedAfter_iff {m : Media} {c : AacCodec δ ε α} (call : Call) {s : Session δ ε α}
    (h : CachesBounded s) : BoundedAfter m c call s ↔ FindsRoom m call s := by
  cases call with
  | getKeyframesMs =>
      refine iff_of_true ⟨⟨h.segments, h.frames⟩, ?_⟩ ?_
      · rintro _ _ _ ⟨⟩
      · rintro _ _ ⟨⟩
  | generateInitSegment =>
      obtain ⟨built, data, hframe, -⟩ := generateInitSegment_frame s
      refine iff_of_true ⟨?_, ?_⟩ ?_
      · rw [perform, hframe]
        exact ⟨h.segments, h.frames⟩
      · rintro _ _ _ ⟨⟩
      · rintro _ _ ⟨⟩
  | generateSegment reopen w =>
      obtain ⟨hbounded, hcached⟩ := generateSegment_bounded m c reopen w h
      constructor
      · rintro ⟨hafter, -⟩ _ _ ⟨⟩
        exact hbounded.mp hafter
      · intro hroom
        refine ⟨hbounded.mpr (hroom reopen w rfl), ?_⟩
        rintro _ _ bytes ⟨⟩
        exact hcached bytes

theorem create_cachesBounded {c : AacCodec δ ε α} {reopen : Reopen} {s : Session δ ε α}
    (hcreate : create c reopen = .ok s) : CachesBounded s := by
  obtain ⟨-, ⟨-, hsegments, hframes⟩, -⟩ := create_eq_ok hcreate
  refine ⟨?_, ?_⟩
  · rw [hsegments]
    exact Nat.zero_le _
  · rw [hframes]
    exact Nat.zero_le _

/-- In a run of calls on a constructed session the caches stay within their limits
exactly when no segment is built below all the others of a full cache. -/
theorem caches_bounded_iff {m : Media} {c : AacCodec δ ε α} {reopen : Reopen}
    {s : Session δ ε α} (hcreate : create c reopen = .ok s) (calls : List Call) :
    CallRun.Always (perform m c) (BoundedAfter m c) calls s ↔
      CallRun.Always (perform m c) (FindsRoom m) calls s :=
  CallRun.always_congr _ (fun _ s _ _ (hafter : BoundedAfter m c _ s) ↦ hafter.bounded)
    (fun call _ (_ : True) h ↦ boundedAfter_iff call h)
    (CallRun.always_of_forall (fun _ _ _ ↦ trivial) s) (create_cachesBounded hcreate)

/-! Going back through a file of 51 segments, one build after the other. -/

def keyframeEvery10s : List AVPacket :=
  (List.range 52).map fun i : ℕ ↦ ⟨0, 10000 * i, 10000 * i, 10000, true, [1]⟩

def backwards : List Call :=
  (List.range 51).map fun i : ℕ ↦
    .generateSegment (.opened (videoFile keyframeEvery10s).context)
      ⟨50 - i, 10000 * (50 - i), 10000 * (51 - i)⟩

def videoSession : Session Unit Unit Unit where
  demuxer := (Demuxer.create (.opened (videoFile []).context)).2

theorem caches_bounded_iff_backwards :
    CallRun.Always (perform (videoFile keyframeEvery10s) noCodec)
        (BoundedAfter (videoFile keyframeEvery10s) noCodec) backwards videoSession ↔
      CallRun.Always (perform (videoFile keyframeEvery10s) noCodec)
        (FindsRoom (videoFile keyframeEvery10s)) backwards videoSession :=
  caches_bounded_iff (show create noCodec (.opened (videoFile []).context) = .ok _ from rfl)
    backwards

theorem length_segmentCache_backwards :
    (CallRun.finalState (perform (videoFile keyframeEvery10s) noCodec) backwards
      videoSession).segmentCache.keys.length = 51 := by
  decide +kernel

theorem not_caches_bounded :
    ¬ ∀ (m : Media) (c : AacCodec Unit Unit Unit) (reopen : Reopen) (s : Session Unit Unit Unit)
        (calls : List Call),
      create c reopen = .ok s → CallRun.Always (perform m c) (BoundedAfter m c) calls s := by
  intro h
  have hcreate : create noCodec (.opened (videoFile []).context) = .ok videoSession := rfl
  have hrun := h (videoFile keyframeEvery10s) noCodec _ videoSession backwards hcreate
  have hbounded := (hrun.finalState (fun _ _ hafter ↦ hafter.bounded)
    (create_cachesBounded hcreate)).segments
  rw [length_segmentCache_backwards] at hbounded
  exact absurd hbounded (by decide)

end Session

end Fmp4Packager
