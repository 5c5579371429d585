import Fmp4Packager.RequestHistory
import Fmp4Packager.SharedSession

/-!
# What a session serves of its file

Whatever a session has been asked for, and whichever openings have failed, it lists the
boundaries of its file, its init segment is that of a session just made, and what it
returns or caches for a window is cut from the file for that window.
-/

namespace Fmp4Packager

open Demuxer

/-- The message with which an opening fails. -/
def Reopen.failure : Reopen → Option String
  | .readerFails what => some what
  | .allocFails => some "avformat_alloc_context failed"
  | .openInputFails err => some ("avformat_open_input: " ++ err)
  | .streamInfoFails _ => some "avformat_find_stream_info failed"
  | .opened _ => none

/-- The opening finds the file, or fails with one of the messages. -/
structure FindsFile (m : Media) (faults : Set String) (reopen : Reopen) : Prop where
  sameFile : SameFile m reopen
  failure : ∀ what ∈ reopen.failure, what ∈ faults

/-- The media library has found streams that exist, and the parser gets through the
cues. -/
structure Playable (m : Media) : Prop where
  video : HasVideo m
  audio : HasAudio m
  cues : ∃ read, readCueEntries m = .ok read

/-- What may lead to an access without meaning: an input that is closed, or such a file. -/
def Broken (m : Media) (d : Demuxer) : Prop := d.fmtCtx = none ∨ ¬Playable m

theorem not_broken_iff {m : Media} {d : Demuxer} :
    ¬Broken m d ↔ d.fmtCtx.isSome ∧ Playable m := by
  rw [Broken, not_or, not_not, Option.isSome_iff_ne_none]

namespace Demuxer

theorem SameFile.eq_opened {m : Media} {reopen : Reopen} (h : SameFile m reopen) :
    reopen = .opened m.context ∨ ∃ what, reopen.failure = some what := by
  cases reopen with
  | opened ctx => exact .inl (by rw [show ctx = m.context from h])
  | _ => exact .inr ⟨_, rfl⟩

theorem openInput_exception {d : Demuxer} {reopen : Reopen} {what : String}
    (h : (d.openInput reopen).1 = .error (.exception what)) :
    reopen.failure = some what ∨
      ∃ ctx, reopen = .opened ctx ∧ ctx.bestVideo < 0 ∧ what = "No video stream found" := by
  cases reopen with
  | opened ctx =>
      rw [openInput] at h
      dsimp only at h
      split at h
      · next hvideo =>
          cases h
          exact .inr ⟨ctx, rfl, hvideo, rfl⟩
      · cases h
  | readerFails what => cases h; exact .inl rfl
  | allocFails => cases h; exact .inl rfl
  | openInputFails err => cases h; exact .inl rfl
  | streamInfoFails ctx => cases h; exact .inl rfl

/-- Over the open file a seek throws what a failing opening throws. -/
theorem ReadsFile.seekToMs_fails {m : Media} {d : Demuxer} (h : ReadsFile m d)
    (hplayable : Playable m) (hopen : d.fmtCtx.isSome) {reopen : Reopen} {what : String}
    (hfailure : reopen.failure = some what) (targetMs : ℤ) :
    (d.seekToMs m reopen targetMs).1 = .error (.exception what) := by
  obtain ⟨read, hread⟩ := hplayable.cues
  obtain ⟨hensured, -⟩ := h.ensureCueIndex
  have hok := h.ensureCueIndex_ok hplayable.video hopen hread
  have hsameOpening := ensureCueIndex_sameOpening m d
  cases hensure : d.ensureCueIndex m with
  | mk outcome d₁ =>
      rw [hensure] at hensured hok hsameOpening
      dsimp only at hensured hok hsameOpening
      subst hok
      obtain ⟨video, hstream⟩ :=
        hensured.exists_streamAt hplayable.video (hsameOpening.isSome.trans hopen)
      rw [seekToMs_of_ensured _ targetMs hensure hstream, Demuxer.openAndSeek]
      cases reopen with
      | opened ctx => cases hfailure
      | _ => cases hfailure; rfl

/-- A seek throws only what the opening throws. -/
theorem seekToMs_exception {m : Media} {d : Demuxer} {reopen : Reopen} {targetMs : ℤ}
    {what : String} (h : (d.seekToMs m reopen targetMs).1 = .error (.exception what)) :
    ∃ torn : Demuxer, (torn.openInput reopen).1 = .error (.exception what) := by
  rw [seekToMs] at h
  split at h
  · next stop d' hensure =>
      cases h
      exact (ensureCueIndex_error (congrArg Prod.fst hensure) trivial).elim
  · next d' hensure =>
      split at h
      · next stop hvideo =>
          cases h
          exact (streamAt_error hvideo trivial).elim
      · dsimp only at h
        rw [openAndSeek] at h
        split at h
        · next stop d'' hopen =>
            cases h
            exact ⟨_, by rw [hopen]⟩
        · next opened hopen =>
            split at h
            · next stop d'' hindex =>
                cases h
                exact (addCueIndexEntries_error (congrArg Prod.fst hindex) trivial).elim
            · split at h <;> cases h

end Demuxer

namespace Session

open EbmlParser Server

variable {δ ε α : Type}

/-- The boundaries that every session of the file lists. -/
def fileBoundaries (m : Media) : List ℤ :=
  filterKeyframes ((fileCues m).map CueEntry.timeMs) 10000

/-- The payload is a frame that a build of some window of the file has encoded. -/
def FrameOf (m : Media) (c : AacCodec δ ε α) (s₀ : Session δ ε α) (j : ℤ)
    (payload : List UInt8) : Prop :=
  ∃ s idx w, LikeNew m s₀ s ∧ segmentWindow (fileBoundaries m) idx = some w ∧
    ∃ pkt ∈ ownPackets m c s w, frameOf pkt = some j ∧ pkt.data = payload

/-- What a build of the window comes to, with the transcoder in some state and with frames
of the file to fall back on. -/
def SegmentOf (m : Media) (c : AacCodec δ ε α) (s₀ : Session δ ε α) (w : Window)
    (bytes : List UInt8) : Prop :=
  ∃ (s : Session δ ε α) (frames : KeyedCache ℤ (List UInt8)), LikeNew m s₀ s ∧
    (∀ j payload, frames.lookup j = some payload → FrameOf m c s₀ j payload) ∧
    outcomeWith m c s w frames = .ok bytes

theorem lookup_foldl_keepFrame_of_some {encPkts : List AVPacket}
    {cache : KeyedCache ℤ (List UInt8)} {j : ℤ} {payload : List UInt8}
    (h : (encPkts.foldl keepFrame cache).lookup j = some payload) :
    cache.lookup j = some payload ∨
      ∃ pkt ∈ encPkts, frameOf pkt = some j ∧ pkt.data = payload := by
  induction encPkts generalizing cache with
  | nil => exact .inl h
  | cons ep encPkts ih =>
      rcases ih h with hkept | ⟨pkt, hpkt, hframe⟩
      · by_cases hj : frameOf ep = some j
        · rw [frameOf] at hj
          split at hj
          · next hstored =>
              have hidx : audioFrameIndexForPts ep.pts = j := Option.some.inj hj
              rw [keepFrame, if_pos hstored, KeyedCache.lookup_tryEmplace, if_pos hidx.symm,
                hidx] at hkept
              cases hold : cache.lookup j with
              | some old =>
                  rw [hold] at hkept
                  exact .inl hkept
              | none =>
                  rw [hold] at hkept
                  refine .inr ⟨ep, List.mem_cons_self, ?_, Option.some.inj hkept⟩
                  rw [frameOf, if_pos hstored, hidx]
          · cases hj
        · rw [lookup_keepFrame hj] at hkept
          exact .inl hkept
      · exact .inr ⟨pkt, List.mem_cons_of_mem ep hpkt, hframe⟩

theorem lookup_cacheAfter_of_some {hasAac : Bool} {encPkts : List AVPacket}
    {cache : KeyedCache ℤ (List UInt8)} {j : ℤ} {payload : List UInt8}
    (h : (cacheAfter hasAac encPkts cache).lookup j = some payload) :
    cache.lookup j = some payload ∨
      ∃ pkt ∈ encPkts, frameOf pkt = some j ∧ pkt.data = payload := by
  rw [cacheAfter] at h
  split at h
  · rw [KeyedCache.lookup_evict] at h
    split at h
    · exact lookup_foldl_keepFrame_of_some h
    · cases h
  · exact lookup_foldl_keepFrame_of_some h

theorem lookup_segmentsAfter_of_some {segmentIdx j : ℤ} {outcome : Except Stop (List UInt8)}
    {cache : KeyedCache ℤ (List UInt8)} {bytes : List UInt8}
    (h : (segmentsAfter segmentIdx outcome cache).lookup j = some bytes) :
    cache.lookup j = some bytes ∨ j = segmentIdx ∧ outcome = .ok bytes := by
  cases outcome with
  | error stop => exact .inl h
  | ok built =>
      have hinsert := lookup_evictSegments_of_some h
      by_cases hj : j = segmentIdx
      · subst hj
        rw [AList.lookup_insert] at hinsert
        cases hinsert
        exact .inr ⟨rfl, rfl⟩
      · rw [AList.lookup_insert_ne hj] at hinsert
        exact .inl hinsert

/-! ## A build, whatever the transcoder remembers -/

theorem LikeNew.self {m : Media} {s₀ s : Session δ ε α} (h : LikeNew m s₀ s) : LikeNew m s s :=
  ⟨h.demuxer, rfl, rfl⟩

theorem LikeNew.trans {m : Media} {s₀ s s' : Session δ ε α} (h : LikeNew m s₀ s)
    (h' : LikeNew m s s') : LikeNew m s₀ s' :=
  ⟨h'.demuxer, h'.initialPadding.trans h.initialPadding, h'.codecpar.trans h.codecpar⟩

/-- A build over the packets of the file, as `outcomeWith` and `afterBuild` of the session
itself. -/
theorem buildFromPackets_self {m : Media} (c : AacCodec δ ε α) (s : Session δ ε α) (w : Window)
    {vid : AVStream} {aud : Option AVStream} (hvid : (fileAt m w).videoStream = .ok (some vid))
    (haud : (fileAt m w).audioStream = .ok aud) :
    ∃ packets aac, buildFromPackets c w vid aud (afterSeek c w (fileAt m w) s) =
      (outcomeWith m c s w s.audioFrameCache, { s with
        demuxer := { fileAt m w with packets := packets }
        aac := aac
        segmentCache := (s.caches.afterBuild m c s w).segments
        audioFrameCache := (s.caches.afterBuild m c s w).frames }) ∧
      aac.map AacTranscoder.initialPadding = s.aac.map AacTranscoder.initialPadding := by
  obtain ⟨hfileVideo, hfileAudio⟩ := fileStreams_of_ok hvid haud
  have hreset : (afterSeek c w (fileAt m w) s).aac = resetAac c s w := rfl
  have hisSome : (resetAac c s w).isSome = s.aac.isSome := Option.isSome_map
  have hpadding : (resetAac c s w).map AacTranscoder.initialPadding =
      s.aac.map AacTranscoder.initialPadding := Option.map_map ..
  have hpackets : buildPackets c w vid aud (afterSeek c w (fileAt m w) s) =
      ownPackets m c s w := by
    rw [ownPackets, hfileVideo, hfileAudio]
    rfl
  have houtcome : buildOutcome c w vid aud (afterSeek c w (fileAt m w) s) =
      outcomeWith m c s w s.audioFrameCache := by
    rw [buildOutcome, hpackets, hreset, hisSome, hpadding, outcomeWith, ownSamples, hfileVideo,
      hfileAudio]
    rfl
  obtain ⟨packets, hbuild⟩ := buildFromPackets_eq c w vid aud (afterSeek c w (fileAt m w) s)
    (leftQueue_afterSeek c w (fileAt m w) s)
  rw [houtcome, hpackets, hreset, hisSome] at hbuild
  refine ⟨packets, _, hbuild, ?_⟩
  rw [Option.map_map, ← hpadding]
  congr 1
  funext t
  exact AacTranscoder.transcode_initialPadding ..

/-- A build leaves the session and its caches alone, or adds to the caches what it comes
to. -/
theorem buildSegmentLocked_self {m : Media} (c : AacCodec δ ε α) {s : Session δ ε α}
    (h : LikeNew m s s) {reopen : Reopen} (hsame : SameFile m reopen) (w : Window) :
    CacheStep m c s w s.caches (buildSegmentLocked m c reopen w s).1
        (buildSegmentLocked m c reopen w s).2.caches ∧
      LikeNew m s (buildSegmentLocked m c reopen w s).2 := by
  have hreads := h.demuxer.seekToMs hsame (audioDecodeStartMs w.segmentStartMs)
  have hstep := buildSegmentLocked_buildStep m c reopen w s
  generalize buildSegmentLocked m c reopen w s = result at hstep ⊢
  obtain ⟨outcome, s'⟩ := result
  cases hstep with
  | cached bytes hhit => exact ⟨.hit bytes hhit, h⟩
  | seekFails stop d hmiss hseek =>
      rw [hseek] at hreads
      exact ⟨.fails stop, hreads, rfl, rfl⟩
  | streamFails stop d hmiss hseek hstreams =>
      rw [hseek] at hreads
      exact ⟨.fails stop, hreads, Option.map_map .., rfl⟩
  | builds d vid aud hmiss hseek hvid haud =>
      rw [hseek] at hreads
      obtain ⟨hd, hvideo, hcues⟩ := h.demuxer.seekToMs_eq hsame hseek
      obtain rfl : d = fileAt m w := hd
      obtain ⟨packets, aac, hbuild, hpadding⟩ := buildFromPackets_self c s w hvid haud
      rw [hbuild]
      exact ⟨.build hvideo hcues, ⟨hreads.timeBases, hreads.video, hreads.audio, hreads.uncached,
        hreads.cached⟩, hpadding, rfl⟩

theorem streams_of_seek {m : Media} {d d' : Demuxer} (h : ReadsFile m d) {reopen : Reopen}
    (hsame : SameFile m reopen) (haudio : HasAudio m) {targetMs : ℤ}
    (hseek : d.seekToMs m reopen targetMs = (.ok (), d')) :
    d'.fmtCtx.isSome ∧ ∃ vid aud, d'.videoStream = .ok (some vid) ∧ d'.audioStream = .ok aud := by
  have hreads := h.seekToMs hsame targetMs
  rw [hseek] at hreads
  obtain ⟨hd, hvideo, -⟩ := h.seekToMs_eq hsame hseek
  have hopen : d'.fmtCtx.isSome := by
    rw [hd]
    exact (addCueIndexEntries_sameOpening m (openedFile m)).isSome
  obtain ⟨vid, hvid⟩ := hreads.videoStream_ok hvideo hopen
  obtain ⟨aud, haud⟩ := (hreads.audioStream_ok_iff hopen).mpr haudio
  exact ⟨hopen, vid, aud, hvid, haud⟩

theorem outcomeWith_eq_error {m : Media} {c : AacCodec δ ε α} {s : Session δ ε α} {w : Window}
    {cache : KeyedCache ℤ (List UInt8)} {vid : AVStream} (hvid : fileVideo m = some vid)
    {stop : Stop} (h : outcomeWith m c s w cache = .error stop) :
    stop = noVideoSamples w.segmentIdx ∧ ownSamples m w = [] := by
  rw [outcomeWith, hvid] at h
  dsimp only at h
  rw [segmentOutcome] at h
  split at h
  · next hnil =>
      cases h
      exact ⟨rfl, hnil⟩
  · obtain ⟨bytes, hbytes⟩ := segmentBytes_eq_ok w vid s.aacCodecpar s.aac.isSome
      (fixVideoDurations (ownSamples m w)) (audioOutput s.aac.isSome (ownPackets m c s w) cache
        (outputFrames (s.aac.map AacTranscoder.initialPadding) w))
    rw [hbytes] at h
    cases h

/-- A build that throws has failed to open the file, or has found no video for its
window. -/
theorem buildSegmentLocked_exception {m : Media} {c : AacCodec δ ε α} {s : Session δ ε α}
    (h : LikeNew m s s) (hvideo : 0 ≤ m.context.bestVideo) (haudio : HasAudio m) {reopen : Reopen}
    (hsame : SameFile m reopen) {w : Window} {what : String}
    (hstop : (buildSegmentLocked m c reopen w s).1 = .error (.exception what)) :
    reopen.failure = some what ∨
      .exception what = noVideoSamples w.segmentIdx ∧ ownSamples m w = [] := by
  have hstep := buildSegmentLocked_buildStep m c reopen w s
  rw [hstop] at hstep
  generalize (buildSegmentLocked m c reopen w s).2 = s' at hstep
  generalize houtcome : (Except.error (.exception what) : Except Stop (List UInt8)) = outcome
    at hstep
  cases hstep with
  | cached bytes hhit => cases houtcome
  | seekFails stop d hmiss hseek =>
      cases houtcome
      obtain ⟨torn, hopen⟩ := seekToMs_exception (congrArg Prod.fst hseek)
      refine (openInput_exception hopen).imp_right ?_
      rintro ⟨ctx, rfl, hnone, -⟩
      obtain rfl : ctx = m.context := hsame
      omega
  | streamFails stop d hmiss hseek hstreams =>
      obtain ⟨-, vid, aud, hvid, haud⟩ := streams_of_seek h.demuxer hsame haudio hseek
      exact absurd haud (hstreams vid aud hvid)
  | builds d vid aud hmiss hseek hvid haud =>
      obtain ⟨hd, -, -⟩ := h.demuxer.seekToMs_eq hsame hseek
      obtain rfl : d = fileAt m w := hd
      obtain ⟨packets, aac, hbuild, -⟩ := buildFromPackets_self c s w hvid haud
      rw [hbuild] at houtcome
      exact .inr (outcomeWith_eq_error (fileStreams_of_ok hvid haud).1 houtcome.symm)

/-- Over the open file a build returns or throws, and leaves the file open unless the
opening fails. -/
theorem buildSegmentLocked_settles {m : Media} (c : AacCodec δ ε α) {s : Session δ ε α}
    (h : LikeNew m s s) (hopen : s.demuxer.fmtCtx.isSome) (hplayable : Playable m)
    {reopen : Reopen} (hsame : SameFile m reopen) (w : Window) :
    Settles (buildSegmentLocked m c reopen w s).1 ∧
      ((buildSegmentLocked m c reopen w s).2.demuxer.fmtCtx = none → reopen.failure.isSome) := by
  have hstep := buildSegmentLocked_buildStep m c reopen w s
  generalize buildSegmentLocked m c reopen w s = result at hstep ⊢
  obtain ⟨outcome, s'⟩ := result
  rcases hsame.eq_opened with rfl | ⟨what, hfailure⟩
  · obtain ⟨read, hread⟩ := hplayable.cues
    have hsought := h.demuxer.seekToMs_opened hplayable.video hopen hread
      (audioDecodeStartMs w.segmentStartMs)
    cases hstep with
    | cached bytes hhit =>
        refine ⟨trivial, fun hclosed ↦ ?_⟩
        rw [hclosed] at hopen
        cases hopen
    | seekFails stop d hmiss hseek => cases hseek.symm.trans hsought
    | streamFails stop d hmiss hseek hstreams =>
        obtain ⟨-, vid, aud, hvid, haud⟩ := streams_of_seek h.demuxer hsame hplayable.audio hseek
        exact absurd haud (hstreams vid aud hvid)
    | builds d vid aud hmiss hseek hvid haud =>
        obtain ⟨hisSome, -⟩ := streams_of_seek h.demuxer hsame hplayable.audio hseek
        obtain ⟨packets, hbuild⟩ := buildFromPackets_eq c w vid aud (afterSeek c w d s)
          (leftQueue_afterSeek c w d s)
        rw [hbuild]
        refine ⟨segmentOutcome_settles .., fun hclosed ↦ ?_⟩
        rw [show d.fmtCtx = none from hclosed] at hisSome
        cases hisSome
  · have hsought := h.demuxer.seekToMs_fails hplayable hopen hfailure
      (audioDecodeStartMs w.segmentStartMs)
    refine ⟨?_, fun _ ↦ Option.isSome_of_mem hfailure⟩
    cases hstep with
    | cached bytes hhit => trivial
    | seekFails stop d hmiss hseek =>
        rw [hseek] at hsought
        cases hsought
        trivial
    | streamFails stop d hmiss hseek hstreams =>
        rw [hseek] at hsought
        cases hsought
    | builds d vid aud hmiss hseek hvid haud =>
        rw [hseek] at hsought
        cases hsought

/-! ## What is served -/

/-- The session `s` serves the file `m` as the session `s₀` does that is just made. -/
structure ServesFile (m : Media) (c : AacCodec δ ε α) (s₀ s : Session δ ε α) : Prop
    extends LikeNew m s₀ s where
  initCache : s.initBuilt = true → s.initCache ≠ [] ∧ s₀.generateInitSegment.1 = .ok s.initCache
  initTracks : s.initBuilt = false → s.initTracks = s₀.initTracks
  frames : ∀ j payload, s.audioFrameCache.lookup j = some payload → FrameOf m c s₀ j payload
  segments : ∀ idx bytes, s.segmentCache.lookup idx = some bytes →
    ∃ w, segmentWindow (fileBoundaries m) idx = some w ∧ SegmentOf m c s₀ w bytes

theorem create_servesFile {m : Media} {c : AacCodec δ ε α} {s₀ : Session δ ε α}
    (hcreate : create c (.opened m.context) = .ok s₀) : ServesFile m c s₀ s₀ := by
  obtain ⟨-, ⟨hnot, hsegments, hframes⟩, -, -⟩ := create_eq_ok hcreate
  obtain ⟨hopened, -, -⟩ := create_opened hcreate
  refine ⟨hopened.toLikeNew, fun h ↦ ?_, fun _ ↦ rfl, fun j payload h ↦ ?_,
    fun idx bytes h ↦ ?_⟩
  · cases hnot.symm.trans h
  · rw [hframes, AList.lookup_empty] at h
    cases h
  · rw [hsegments, AList.lookup_empty] at h
    cases h

theorem create_bestVideo {m : Media} {c : AacCodec δ ε α} {s₀ : Session δ ε α}
    (hcreate : create c (.opened m.context) = .ok s₀) : 0 ≤ m.context.bestVideo := by
  obtain ⟨hopen, -, -, -⟩ := create_eq_ok hcreate
  obtain ⟨ctx, hctx, hvideo, -⟩ := openInput_eq_ok hopen
  cases hctx
  exact hvideo

variable {m : Media} {c : AacCodec δ ε α} {faults : Set String} {s₀ s : Session δ ε α}

theorem create_readsFile (hvideo : 0 ≤ m.context.bestVideo) :
    ∃ d, Demuxer.create (.opened m.context) = (.ok (), d) ∧ ReadsFile m d ∧ d.fmtCtx.isSome := by
  refine ⟨_, if_neg (not_lt.mpr hvideo), ⟨fun ctx hctx ↦ ?_, rfl, rfl, fun _ ↦ rfl,
    fun hcached ↦ by cases hcached⟩, rfl⟩
  cases hctx
  rfl

variable (c) in
/-- Making a session, by what is found of the file. -/
theorem create_of_findsFile {reopen : Reopen} (hfinds : FindsFile m faults reopen) :
    match create c reopen with
    | .ok s₀ => create c (.opened m.context) = .ok s₀
    | .error (.exception what) => what ∈ faults ∨
        create c (.opened m.context) = .error (.exception what)
    | .error _ => ¬Playable m := by
  cases reopen with
  | opened ctx =>
      obtain rfl : ctx = m.context := hfinds.sameFile
      cases hcreate : create c (.opened m.context) with
      | ok s₀ => rfl
      | error stop =>
          cases stop with
          | exception what => exact .inr rfl
          | _ =>
              refine fun hplayable ↦ ?_
              obtain ⟨d, hopen, hreads, hisSome⟩ := create_readsFile hplayable.video.1
              obtain ⟨aud, haud⟩ := (hreads.audioStream_ok_iff hisSome).mpr hplayable.audio
              rw [create, hopen] at hcreate
              simp only [haud, ok_bind] at hcreate
              split at hcreate
              · cases hcreate
              · split at hcreate <;> cases hcreate
  | readerFails what => exact .inl (hfinds.failure what rfl)
  | allocFails => exact .inl (hfinds.failure _ rfl)
  | openInputFails err => exact .inl (hfinds.failure _ rfl)
  | streamInfoFails ctx => exact .inl (hfinds.failure _ rfl)

theorem getKeyframesMs_snd (m : Media) (s : Session δ ε α) :
    (s.getKeyframesMs m).2 = { s with demuxer := (s.demuxer.ensureCueIndex m).2 } := by
  rw [← keyframesMs_snd]
  rfl

/-- The keyframes that a session lists are the boundaries of its file. -/
theorem ServesFile.getKeyframesMs (h : ServesFile m c s₀ s) :
    ServesFile m c s₀ (s.getKeyframesMs m).2 ∧
      match (s.getKeyframesMs m).1 with
      | .ok keyframes => keyframes = fileBoundaries m
      | .error stop => ¬stop.IsException ∧ Broken m s.demuxer := by
  obtain ⟨hreads, hcached⟩ := h.demuxer.ensureCueIndex
  have htracks := initTracks_getKeyframesMs m s
  rw [getKeyframesMs_snd] at htracks ⊢
  refine ⟨⟨⟨hreads, h.initialPadding, h.codecpar⟩, h.initCache,
    fun hnot ↦ htracks.trans (h.initTracks hnot), h.frames, h.segments⟩, ?_⟩
  rw [Session.getKeyframesMs, keyframesMs]
  cases hensure : s.demuxer.ensureCueIndex m with
  | mk outcome d =>
      rw [hensure] at hreads hcached
      cases outcome with
      | error stop =>
          refine ⟨ensureCueIndex_error (congrArg Prod.fst hensure), ?_⟩
          by_contra hbroken
          obtain ⟨hopen, hplayable⟩ := not_broken_iff.mp hbroken
          obtain ⟨read, hread⟩ := hplayable.cues
          have hok := h.demuxer.ensureCueIndex_ok hplayable.video hopen hread
          rw [hensure] at hok
          cases hok
      | ok value => exact (hreads.cached (hcached rfl)).2.2

theorem optionalStream_error {d : Demuxer} {idx : ℤ} {stop : Stop}
    (h : (if 0 ≤ idx then do let stream ← d.streamAt idx; .ok (some stream) else .ok none) =
      (.error stop : Except Stop (Option AVStream))) : ¬stop.IsException := by
  split at h
  · cases hstream : d.streamAt idx with
    | error stop' =>
        rw [hstream] at h
        cases h
        exact streamAt_error hstream
    | ok stream =>
        rw [hstream] at h
        cases h
  · cases h

theorem initTracks_error {s : Session δ ε α} {stop : Stop} (h : s.initTracks = .error stop) :
    ¬stop.IsException := by
  rw [initTracks] at h
  cases hvid : s.demuxer.videoStream with
  | error stop' =>
      rw [hvid] at h
      cases h
      exact optionalStream_error hvid
  | ok vid =>
      rw [hvid, ok_bind] at h
      split at h
      · cases haud : s.demuxer.audioStream with
        | error stop' =>
            rw [haud] at h
            cases h
            exact optionalStream_error haud
        | ok aud =>
            rw [haud] at h
            cases h
      · cases h

/-- The tracks of an init segment, as far as the segments depend on them. -/
theorem initTracks_spec {s : Session δ ε α} (hvideo : 0 ≤ s.demuxer.videoStreamIdx)
    {tracks : List Fmp4Writer.Track} (h : s.initTracks = .ok tracks) :
    tracks.map (fun t ↦ (t.trackId, t.timescale)) = (1, kVideoOutTb) ::
      if s.aac.isSome ∧ s.aacCodecpar.isSome then [(2, kAudioOutTb)] else [] := by
  rw [initTracks] at h
  cases hvid : s.demuxer.videoStream with
  | error stop => rw [hvid] at h; cases h
  | ok vid =>
      have hsome : vid ≠ none := by
        rintro rfl
        rw [videoStream, if_pos hvideo] at hvid
        cases hstream : s.demuxer.streamAt s.demuxer.videoStreamIdx with
        | error stop => rw [hstream] at hvid; cases hvid
        | ok stream => rw [hstream] at hvid; cases hvid
      obtain ⟨video, rfl⟩ := Option.ne_none_iff_exists'.mp hsome
      rw [hvid, ok_bind] at h
      split at h
      · next aac codecpar haac hcodecpar =>
          cases haud : s.demuxer.audioStream with
          | error stop => rw [haud] at h; cases h
          | ok aud =>
              rw [haud] at h
              cases h
              rw [haac, hcodecpar]
              rfl
      · next hnot =>
          cases h
          have hmissing : ¬(s.aac.isSome ∧ s.aacCodecpar.isSome) := by
            rintro ⟨haac, hcodecpar⟩
            obtain ⟨aac, haac⟩ := Option.isSome_iff_exists.mp haac
            obtain ⟨codecpar, hcodecpar⟩ := Option.isSome_iff_exists.mp hcodecpar
            exact hnot aac codecpar haac hcodecpar
          rw [if_neg hmissing]
          rfl

/-- A file with a video stream has tracks, and so an init segment. -/
theorem initTracks_ne_nil {s : Session δ ε α} (hvideo : 0 ≤ s.demuxer.videoStreamIdx)
    {tracks : List Fmp4Writer.Track} (h : s.initTracks = .ok tracks) : tracks ≠ [] := by
  rintro rfl
  cases initTracks_spec hvideo h

/-- The init segment is the one that the session has when it is made. -/
theorem ServesFile.generateInitSegment (h : ServesFile m c s₀ s)
    (hcreate : create c (.opened m.context) = .ok s₀) :
    ServesFile m c s₀ s.generateInitSegment.2 ∧
      match s.generateInitSegment.1 with
      | .ok bytes => s₀.generateInitSegment.1 = .ok bytes
      | .error stop => ¬stop.IsException ∧ Broken m s.demuxer := by
  have hvideo : 0 ≤ s.demuxer.videoStreamIdx := by
    rw [h.demuxer.video]
    exact create_bestVideo hcreate
  obtain ⟨-, ⟨hnot₀, -, -⟩, -, -⟩ := create_eq_ok hcreate
  cases hbuilt : s.initBuilt with
  | true =>
      obtain ⟨hne, hcache⟩ := h.initCache hbuilt
      rw [generateInitSegment_of_built hbuilt hne]
      exact ⟨h, hcache⟩
  | false =>
      have htracks := h.initTracks hbuilt
      cases htracks' : s.initTracks with
      | error stop =>
          have hgenerate : s.generateInitSegment = (.error stop, s) := by
            rw [Session.generateInitSegment, if_neg (by simp [hbuilt]), htracks']
          rw [hgenerate]
          refine ⟨h, initTracks_error htracks', ?_⟩
          by_contra hbroken
          obtain ⟨hopen, hplayable⟩ := not_broken_iff.mp hbroken
          have hopened : Opened m s s := ⟨h.toLikeNew.self, hopen⟩
          obtain ⟨bytes, hbytes⟩ := hopened.generateInitSegment_ok hplayable.video hplayable.audio
          rw [hgenerate] at hbytes
          cases hbytes
      | ok tracks =>
          obtain ⟨bytes, hbytes⟩ := Fmp4Writer.buildInit_eq_ok (initTracks_ne_nil hvideo htracks')
          have hnew : s₀.generateInitSegment.1 = .ok bytes := by
            rw [generateInitSegment_of_tracks hnot₀ (htracks.symm.trans htracks') hbytes]
          rw [generateInitSegment_of_tracks hbuilt htracks' hbytes]
          exact ⟨⟨⟨h.demuxer, h.initialPadding, h.codecpar⟩,
            fun _ ↦ ⟨buildInit_ne_nil hbytes, hnew⟩, fun hnot ↦ (by cases hnot), h.frames,
            h.segments⟩, hnew⟩

/-- What the caches hold of the file. -/
structure CachesServe (m : Media) (c : AacCodec δ ε α) (s₀ : Session δ ε α) (k : Caches) :
    Prop where
  frames : ∀ j payload, k.frames.lookup j = some payload → FrameOf m c s₀ j payload
  segments : ∀ idx bytes, k.segments.lookup idx = some bytes →
    ∃ w, segmentWindow (fileBoundaries m) idx = some w ∧ SegmentOf m c s₀ w bytes

/-- A step of the caches puts into them, and returns, only what is cut from the file. -/
theorem CachesServe.step {k k' : Caches} (h : CachesServe m c s₀ k) (hlike : LikeNew m s₀ s)
    {w : Window} (hw : segmentWindow (fileBoundaries m) w.segmentIdx = some w)
    {outcome : Except Stop (List UInt8)} (hstep : CacheStep m c s w k outcome k') :
    CachesServe m c s₀ k' ∧ ∀ bytes, outcome = .ok bytes → SegmentOf m c s₀ w bytes := by
  cases hstep with
  | fails stop => exact ⟨h, fun bytes hok ↦ by cases hok⟩
  | hit bytes hhit =>
      refine ⟨h, fun bytes' hok ↦ ?_⟩
      cases hok
      obtain ⟨w', hw', hsegment⟩ := h.segments _ bytes hhit
      obtain rfl : w = w' := Option.some.inj (hw.symm.trans hw')
      exact hsegment
  | build hvideo hcues =>
      have hsegment : ∀ bytes, outcomeWith m c s w k.frames = .ok bytes →
          SegmentOf m c s₀ w bytes :=
        fun bytes hok ↦ ⟨s, k.frames, hlike, h.frames, hok⟩
      refine ⟨⟨fun j payload hj ↦ ?_, fun idx bytes hidx ↦ ?_⟩, hsegment⟩
      · rcases lookup_cacheAfter_of_some hj with hold | ⟨pkt, hpkt, hframe, hdata⟩
        · exact h.frames j payload hold
        · exact ⟨s, w.segmentIdx, w, hlike, hw, pkt, hpkt, hframe, hdata⟩
      · rcases lookup_segmentsAfter_of_some hidx with hold | ⟨rfl, hok⟩
        · exact h.segments idx bytes hold
        · exact ⟨w, hw, hsegment bytes hok⟩

/-- What a build returns for a window of the file is a segment of the file. -/
theorem ServesFile.buildSegmentLocked (h : ServesFile m c s₀ s)
    (hcreate : create c (.opened m.context) = .ok s₀) (hbuilt : s.initBuilt = true)
    {reopen : Reopen} (hfinds : FindsFile m faults reopen) {w : Window}
    (hw : segmentWindow (fileBoundaries m) w.segmentIdx = some w) :
    ServesFile m c s₀ (s.buildSegmentLocked m c reopen w).2 ∧
      match (s.buildSegmentLocked m c reopen w).1 with
      | .ok bytes => SegmentOf m c s₀ w bytes
      | .error (.exception what) => what ∈ faults ∨
          .exception what = noVideoSamples w.segmentIdx ∧ ownSamples m w = []
      | .error _ => Broken m s.demuxer := by
  obtain ⟨-, haudio, -⟩ := create_opened hcreate
  obtain ⟨hstep, hlike⟩ := buildSegmentLocked_self c h.toLikeNew.self hfinds.sameFile w
  obtain ⟨hbuilt', hcache⟩ := buildSegmentLocked_initBuilt m c reopen w s
  have hcaches : CachesServe m c s₀ s.caches := ⟨h.frames, h.segments⟩
  obtain ⟨⟨hframes, hsegments⟩, hok⟩ := hcaches.step h.toLikeNew hw hstep
  refine ⟨⟨h.toLikeNew.trans hlike, fun _ ↦ ?_, fun hnot ↦ ?_, hframes, hsegments⟩, ?_⟩
  · rw [hcache]
    exact h.initCache hbuilt
  · cases hbuilt.symm.trans (hbuilt'.symm.trans hnot)
  · cases houtcome : (s.buildSegmentLocked m c reopen w).1 with
    | ok bytes => exact hok bytes houtcome
    | error stop =>
        have hbroken : ¬stop.IsException → Broken m s.demuxer := by
          intro hstop
          by_contra hbroken
          obtain ⟨hopen, hplayable⟩ := not_broken_iff.mp hbroken
          have hsettled :=
            (buildSegmentLocked_settles c h.toLikeNew.self hopen hplayable hfinds.sameFile w).1
          rw [houtcome] at hsettled
          exact hstop hsettled
        cases stop with
        | exception what =>
            exact (buildSegmentLocked_exception h.toLikeNew.self (create_bestVideo hcreate) haudio
              hfinds.sameFile houtcome).imp_left fun hfailure ↦ hfinds.failure what hfailure
        | _ => exact hbroken id

end Session

end Fmp4Packager
