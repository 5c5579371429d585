import Fmp4Packager.DemuxerSteps

/-!
# Seeks leave the same demuxer behind

A seek that succeeds has opened the file anew.  As long as every opening finds the
same file, what it leaves behind depends on the target only, whichever seeks and
failures came before.
-/

namespace Fmp4Packager

namespace Demuxer

open EbmlParser

/-- The opening, where it gets as far as a context, finds the file `m`.  A context
that lacks its stream information has the time bases of the file. -/
def SameFile (m : Media) : Reopen → Prop
  | .opened ctx => ctx = m.context
  | .streamInfoFails ctx =>
      ctx.streams.map AVStream.timeBase = m.context.streams.map AVStream.timeBase
  | _ => True

/-- The cue entries of the file; none where `EnsureCueIndex` settles for an empty
keyframe list. -/
def fileCues (m : Media) : List CueEntry :=
  match readCueEntries m with
  | .ok (some entries) => entries
  | _ => []

/-- The demuxer over the file just opened, with the keyframes cached. -/
def openedFile (m : Media) : Demuxer where
  fmtCtx := some m.context
  videoStreamIdx := m.context.bestVideo
  audioStreamIdx := m.context.bestAudio
  durationMs := toInt ((m.context.duration * 1000).tdiv avTimeBase)
  cachedKeyframes := filterKeyframes ((fileCues m).map CueEntry.timeMs) 10000
  cachedCues := fileCues m
  keyframesCached := true

/-- The same with the cues in the index of the video stream. -/
def indexedFile (m : Media) : Demuxer := ((openedFile m).addCueIndexEntries m).2

def videoTimeBase (m : Media) : AVRational :=
  ((m.context.streams[m.context.bestVideo.toNat]?).map AVStream.timeBase).getD ⟨0, 1⟩

def soughtFile (m : Media) (targetMs : ℤ) : Demuxer :=
  { indexedFile m with
    packets := packetsAfterSeek m ((indexedFile m).fmtCtx.getD m.context)
      (latestCue (fileCues m) targetMs) m.context.bestVideo
      (avRescaleQ targetMs ⟨1, 1000⟩ (videoTimeBase m)) }

def HasVideo (m : Media) : Prop :=
  0 ≤ m.context.bestVideo ∧ m.context.bestVideo < m.context.streams.length

/-- What holds of a demuxer over the file `m`, whatever has failed. -/
structure ReadsFile (m : Media) (d : Demuxer) : Prop where
  timeBases : ∀ ctx ∈ d.fmtCtx,
    ctx.streams.map AVStream.timeBase = m.context.streams.map AVStream.timeBase
  video : d.videoStreamIdx = m.context.bestVideo
  audio : d.audioStreamIdx = m.context.bestAudio
  uncached : d.keyframesCached = false → d.cachedCues = []
  cached : d.keyframesCached = true → (∃ read, readCueEntries m = .ok read) ∧
    d.cachedCues = fileCues m ∧
    d.cachedKeyframes = filterKeyframes ((fileCues m).map CueEntry.timeMs) 10000

theorem streamAt_eq_ok {d : Demuxer} {idx : ℤ} {stream : AVStream}
    (h : d.streamAt idx = .ok stream) :
    ∃ ctx, d.fmtCtx = some ctx ∧ 0 ≤ idx ∧ ctx.streams[idx.toNat]? = some stream := by
  rw [streamAt] at h
  split at h
  · cases h
  · next ctx hctx =>
      split at h
      · cases h
      · next hidx =>
          split at h
          · cases h
          · next found hfound =>
              cases h
              exact ⟨ctx, hctx, by omega, hfound⟩

/-- Whether a stream is found, and with which time base, is a matter of the file. -/
theorem ReadsFile.timeBase_eq {m : Media} {d : Demuxer} (h : ReadsFile m d)
    {ctx : AVFormatContext} (hctx : d.fmtCtx = some ctx) (i : ℕ) :
    (ctx.streams[i]?).map AVStream.timeBase =
      (m.context.streams[i]?).map AVStream.timeBase := by
  rw [← List.getElem?_map, ← List.getElem?_map, h.timeBases ctx hctx]

theorem map_set_of_eq {β γ : Type} {f : β → γ} {xs : List β} {i : ℕ} {x y : β}
    (hx : xs[i]? = some x) (hf : f y = f x) : (xs.set i y).map f = xs.map f := by
  induction xs generalizing i with
  | nil => rfl
  | cons head xs ih =>
      cases i with
      | zero =>
          obtain rfl : head = x := by simpa using hx
          rw [List.set_cons_zero, List.map_cons, hf, List.map_cons]
      | succ i =>
          rw [List.getElem?_cons_succ] at hx
          rw [List.set_cons_succ, List.map_cons, ih hx, List.map_cons]

theorem ReadsFile.addCueIndexEntries {m : Media} {d : Demuxer} (h : ReadsFile m d) :
    ReadsFile m (d.addCueIndexEntries m).2 := by
  rw [addCueIndexEntries_eq]
  split
  · split
    · exact h
    · next video hvideo =>
        obtain ⟨ctx, hctx, -, hget⟩ := streamAt_eq_ok hvideo
        refine ⟨fun ctx' hctx' ↦ ?_, h.video, h.audio, h.uncached, h.cached⟩
        obtain ⟨old, hold, rfl⟩ := Option.mem_map.mp hctx'
        obtain rfl : ctx = old := Option.some.inj (hctx.symm.trans hold)
        rw [← h.timeBases ctx hctx]
        exact map_set_of_eq hget rfl
  · exact h

theorem addCueIndexEntries_keyframesCached (m : Media) (d : Demuxer) :
    (d.addCueIndexEntries m).2.keyframesCached = d.keyframesCached := by
  rw [addCueIndexEntries_eq]
  split
  · split <;> rfl
  · rfl

theorem ReadsFile.withEntries {m : Media} {d : Demuxer} (h : ReadsFile m d)
    (huncached : d.keyframesCached = false) {read : Option (List CueEntry)}
    (hread : readCueEntries m = .ok read) : ReadsFile m (d.withEntries read) := by
  have hcues : fileCues m = read.getD [] := by
    rw [fileCues, hread]
    cases read <;> rfl
  cases read with
  | none =>
      refine ⟨h.timeBases, h.video, h.audio, fun hfalse ↦ (by cases hfalse),
        fun _ ↦ ⟨⟨none, hread⟩, (h.uncached huncached).trans hcues.symm, ?_⟩⟩
      rw [hcues]
      rfl
  | some entries =>
      refine ⟨h.timeBases, h.video, h.audio, fun hfalse ↦ (by cases hfalse),
        fun _ ↦ ⟨⟨some entries, hread⟩, hcues.symm, ?_⟩⟩
      rw [hcues]
      rfl

theorem withEntries_keyframesCached (d : Demuxer) (read : Option (List CueEntry)) :
    (d.withEntries read).keyframesCached = true := by
  cases read <;> rfl

theorem ReadsFile.ensureCueIndex {m : Media} {d : Demuxer} (h : ReadsFile m d) :
    ReadsFile m (d.ensureCueIndex m).2 ∧
      ((d.ensureCueIndex m).1 = .ok () → (d.ensureCueIndex m).2.keyframesCached = true) := by
  cases hcached : d.keyframesCached with
  | true =>
      rw [ensureCueIndex_of_cached hcached]
      exact ⟨h.addCueIndexEntries,
        fun _ ↦ (addCueIndexEntries_keyframesCached m d).trans hcached⟩
  | false =>
      cases hctx : d.fmtCtx with
      | none =>
          rw [ensureCueIndex_of_closed hcached hctx]
          exact ⟨h, fun hok ↦ by cases hok⟩
      | some ctx =>
          cases hread : readCueEntries m with
          | error fault =>
              have hensure : d.ensureCueIndex m = (.error (.parser fault), d) := by
                rw [Demuxer.ensureCueIndex, if_neg (by simp [hcached]), if_neg (by simp [hctx]),
                  hread]
              rw [hensure]
              exact ⟨h, fun hok ↦ by cases hok⟩
          | ok read =>
              have hentries := h.withEntries hcached hread
              rw [ensureCueIndex_of_open hcached (by simp [hctx]) hread]
              split
              · refine ⟨hentries.addCueIndexEntries, fun _ ↦ ?_⟩
                exact (addCueIndexEntries_keyframesCached m _).trans
                  (withEntries_keyframesCached d read)
              · exact ⟨hentries, fun _ ↦ withEntries_keyframesCached d read⟩

theorem ReadsFile.tearDown {m : Media} {d : Demuxer} (h : ReadsFile m d) (reopen : Reopen) :
    ReadsFile m (d.tearDown reopen) :=
  ⟨fun _ hctx ↦ (by cases hctx), h.video, h.audio, h.uncached, h.cached⟩

theorem ReadsFile.openInput {m : Media} {d : Demuxer} (h : ReadsFile m d) {reopen : Reopen}
    (hsame : SameFile m reopen) : ReadsFile m (d.openInput reopen).2 := by
  cases reopen with
  | readerFails what => exact h
  | allocFails =>
      exact ⟨fun _ hctx ↦ (by cases hctx), h.video, h.audio, h.uncached, h.cached⟩
  | openInputFails err =>
      exact ⟨fun _ hctx ↦ (by cases hctx), h.video, h.audio, h.uncached, h.cached⟩
  | streamInfoFails ctx =>
      refine ⟨fun ctx' hctx ↦ ?_, h.video, h.audio, h.uncached, h.cached⟩
      cases hctx
      exact hsame
  | opened ctx =>
      obtain rfl : ctx = m.context := hsame
      have hbases : ∀ ctx' ∈ some m.context,
          ctx'.streams.map AVStream.timeBase = m.context.streams.map AVStream.timeBase := by
        intro ctx' hctx
        cases hctx
        rfl
      rw [Demuxer.openInput]
      dsimp only
      split <;> exact ⟨hbases, rfl, rfl, h.uncached, h.cached⟩

theorem ReadsFile.openAndSeek {m : Media} {d : Demuxer} (h : ReadsFile m d) {reopen : Reopen}
    (hsame : SameFile m reopen) (cue : Option CueEntry) (targetTs : ℤ) :
    ReadsFile m (d.openAndSeek m reopen cue targetTs).2 := by
  have hopened := h.openInput hsame
  rw [Demuxer.openAndSeek]
  cases hopen : d.openInput reopen with
  | mk outcome opened =>
      rw [hopen] at hopened
      cases outcome with
      | error stop => exact hopened
      | ok value =>
          have hindexed := hopened.addCueIndexEntries
          cases hadd : opened.addCueIndexEntries m with
          | mk outcome indexed =>
              rw [hadd] at hindexed
              cases outcome with
              | error stop =>
                  simp only [hadd]
                  exact hindexed
              | ok value =>
                  simp only [hadd]
                  split
                  · exact hindexed
                  · exact ⟨hindexed.timeBases, hindexed.video, hindexed.audio,
                      hindexed.uncached, hindexed.cached⟩

theorem ReadsFile.seekToMs {m : Media} {d : Demuxer} (h : ReadsFile m d) {reopen : Reopen}
    (hsame : SameFile m reopen) (targetMs : ℤ) :
    ReadsFile m (d.seekToMs m reopen targetMs).2 := by
  obtain ⟨hensured, -⟩ := h.ensureCueIndex
  rw [Demuxer.seekToMs]
  split
  · next hensure =>
      rw [hensure] at hensured
      exact hensured
  · next d' hensure =>
      rw [hensure] at hensured
      split
      · exact hensured
      · exact (hensured.tearDown reopen).openAndSeek hsame _ _

/-- Opened again, a demuxer with cached keyframes is as if over a file just
opened. -/
theorem ReadsFile.openInput_tearDown {m : Media} {d : Demuxer} (h : ReadsFile m d)
    (hcached : d.keyframesCached = true) :
    ({ d.tearDown (.opened m.context) with
        fmtCtx := some m.context
        videoStreamIdx := m.context.bestVideo
        audioStreamIdx := m.context.bestAudio
        durationMs := toInt ((m.context.duration * 1000).tdiv avTimeBase) } : Demuxer) =
      openedFile m := by
  obtain ⟨-, hcues, hkeyframes⟩ := h.cached hcached
  simp only [Demuxer.tearDown, openedFile, hcues, hkeyframes, hcached, Reopen.readerMade,
    Bool.not_true, Bool.and_false]

/-- A seek that succeeds leaves behind the file as it is after a seek to that
target. -/
theorem ReadsFile.seekToMs_eq {m : Media} {d d' : Demuxer} (h : ReadsFile m d) {reopen : Reopen}
    (hsame : SameFile m reopen) {targetMs : ℤ}
    (hseek : d.seekToMs m reopen targetMs = (.ok (), d')) :
    d' = soughtFile m targetMs ∧ HasVideo m ∧ ∃ read, readCueEntries m = .ok read := by
  obtain ⟨hensured, hcached⟩ := h.ensureCueIndex
  rw [Demuxer.seekToMs] at hseek
  split at hseek
  · cases hseek
  · next d₁ hensure =>
      rw [hensure] at hensured hcached
      obtain ⟨hread, hcues, -⟩ := hensured.cached (hcached rfl)
      dsimp only at hensured hcached hcues
      split at hseek
      · cases hseek
      · next video hvideo =>
          obtain ⟨ctx₁, hctx₁, hnonneg, hget⟩ := streamAt_eq_ok hvideo
          have hlt : d₁.videoStreamIdx.toNat < m.context.streams.length := by
            have hfound := hensured.timeBase_eq hctx₁ d₁.videoStreamIdx.toNat
            rw [hget] at hfound
            by_contra hle
            rw [List.getElem?_eq_none (not_lt.mp hle)] at hfound
            cases hfound
          rw [hensured.video] at hnonneg hlt
          have hbase : videoTimeBase m = video.timeBase := by
            rw [videoTimeBase, ← hensured.timeBase_eq hctx₁, ← hensured.video, hget]
            rfl
          obtain ⟨opened, indexed, ctx, hopen, hadd, hctx, rfl⟩ := openAndSeek_eq_ok hseek
          obtain ⟨ctx₂, rfl, -, rfl⟩ := openInput_eq_ok hopen
          obtain rfl : ctx₂ = m.context := hsame
          rw [hensured.openInput_tearDown (hcached rfl)] at hadd
          have hindexed : indexedFile m = indexed := by rw [indexedFile, hadd]
          have hidx : indexed.videoStreamIdx = m.context.bestVideo := by
            have hsameOpening := (addCueIndexEntries_sameOpening m (openedFile m)).video
            rw [hadd] at hsameOpening
            exact hsameOpening
          refine ⟨?_, ⟨hnonneg, by omega⟩, hread⟩
          rw [soughtFile, hindexed, hctx, hbase, hidx, hcues]
          rfl

/-! ## When a seek succeeds -/

theorem ReadsFile.exists_streamAt {m : Media} {d : Demuxer} (h : ReadsFile m d)
    (hvideo : HasVideo m) (hopen : d.fmtCtx.isSome) :
    ∃ video, d.streamAt d.videoStreamIdx = .ok video := by
  obtain ⟨ctx, hctx⟩ := Option.isSome_iff_exists.mp hopen
  have hlen := congrArg List.length (h.timeBases ctx hctx)
  rw [List.length_map, List.length_map] at hlen
  obtain ⟨stream, -, hstream⟩ := streamAt_of_open hctx hvideo.1 (by rw [hlen]; exact hvideo.2)
  exact ⟨stream, h.video ▸ hstream⟩

theorem ReadsFile.addCueIndexEntries_ok {m : Media} {d : Demuxer} (h : ReadsFile m d)
    (hvideo : HasVideo m) (hopen : d.fmtCtx.isSome) : (d.addCueIndexEntries m).1 = .ok () := by
  obtain ⟨video, hstream⟩ := h.exists_streamAt hvideo hopen
  rw [addCueIndexEntries_eq, hstream]
  split <;> rfl

theorem ReadsFile.ensureCueIndex_ok {m : Media} {d : Demuxer} (h : ReadsFile m d)
    (hvideo : HasVideo m) (hopen : d.fmtCtx.isSome) {read : Option (List CueEntry)}
    (hread : readCueEntries m = .ok read) : (d.ensureCueIndex m).1 = .ok () := by
  cases hcached : d.keyframesCached with
  | true =>
      rw [ensureCueIndex_of_cached hcached]
      exact h.addCueIndexEntries_ok hvideo hopen
  | false =>
      rw [ensureCueIndex_of_open hcached hopen hread]
      split
      · refine (h.withEntries hcached hread).addCueIndexEntries_ok hvideo ?_
        rw [(withEntries_sameOpening d read).isSome]
        exact hopen
      · rfl

theorem ReadsFile.seekToMs_opened {m : Media} {d : Demuxer} (h : ReadsFile m d)
    (hvideo : HasVideo m) (hopen : d.fmtCtx.isSome) {read : Option (List CueEntry)}
    (hread : readCueEntries m = .ok read) (targetMs : ℤ) :
    d.seekToMs m (.opened m.context) targetMs = (.ok (), soughtFile m targetMs) := by
  obtain ⟨hensured, hcached⟩ := h.ensureCueIndex
  have hok := h.ensureCueIndex_ok hvideo hopen hread
  have hsameOpening := ensureCueIndex_sameOpening m d
  cases hensure : d.ensureCueIndex m with
  | mk outcome d₁ =>
      rw [hensure] at hensured hcached hok hsameOpening
      dsimp only at hensured hcached hok hsameOpening
      subst hok
      obtain ⟨video, hstream⟩ :=
        hensured.exists_streamAt hvideo (hsameOpening.isSome.trans hopen)
      have hcached := hcached rfl
      have hopened : (d₁.tearDown (.opened m.context)).openInput (.opened m.context) =
          (.ok (), openedFile m) := by
        rw [← hensured.openInput_tearDown hcached, Demuxer.openInput]
        exact if_neg (not_lt.mpr hvideo.1)
      have hsame : SameFile m (.opened m.context) := rfl
      have hreads : ReadsFile m (openedFile m) := by
        have htorn := (hensured.tearDown (.opened m.context)).openInput hsame
        rwa [hopened] at htorn
      have hadd := hreads.addCueIndexEntries_ok hvideo rfl
      have hseek : ∃ d', d.seekToMs m (.opened m.context) targetMs = (.ok (), d') := by
        rw [seekToMs_of_ensured _ targetMs hensure hstream, Demuxer.openAndSeek, hopened]
        have hopening := addCueIndexEntries_sameOpening m (openedFile m)
        cases hindexed : (openedFile m).addCueIndexEntries m with
        | mk outcome indexed =>
            rw [hindexed] at hadd hopening
            dsimp only at hadd hopening
            subst hadd
            have hsome : indexed.fmtCtx.isSome := hopening.isSome
            obtain ⟨ctx, hctx⟩ := Option.isSome_iff_exists.mp hsome
            simp only [hindexed, hctx]
            exact ⟨_, rfl⟩
      obtain ⟨d', hseek⟩ := hseek
      rw [hseek, (h.seekToMs_eq hsame hseek).1]

theorem ReadsFile.videoStream_ok {m : Media} {d : Demuxer} (h : ReadsFile m d)
    (hvideo : HasVideo m) (hopen : d.fmtCtx.isSome) : ∃ vid, d.videoStream = .ok (some vid) := by
  obtain ⟨vid, hstream⟩ := h.exists_streamAt hvideo hopen
  refine ⟨vid, ?_⟩
  rw [videoStream, if_pos (h.video ▸ hvideo.1), hstream]
  rfl

/-- The audio stream that is found in the file, if any, is there. -/
def HasAudio (m : Media) : Prop := m.context.bestAudio < m.context.streams.length

theorem ReadsFile.audioStream_ok_iff {m : Media} {d : Demuxer} (h : ReadsFile m d)
    (hopen : d.fmtCtx.isSome) : (∃ aud, d.audioStream = .ok aud) ↔ HasAudio m := by
  obtain ⟨ctx, hctx⟩ := Option.isSome_iff_exists.mp hopen
  have hlen := congrArg List.length (h.timeBases ctx hctx)
  rw [List.length_map, List.length_map] at hlen
  rw [audioStream, h.audio, HasAudio]
  split
  · next hidx =>
      constructor
      · rintro ⟨aud, haud⟩
        cases hat : d.streamAt m.context.bestAudio with
        | error stop =>
            rw [hat] at haud
            cases haud
        | ok stream =>
            obtain ⟨ctx', hctx', -, hget⟩ := streamAt_eq_ok hat
            obtain rfl : ctx = ctx' := Option.some.inj (hctx.symm.trans hctx')
            obtain ⟨hlt, -⟩ := List.getElem?_eq_some_iff.mp hget
            omega
      · intro hlt
        obtain ⟨stream, -, hstream⟩ := streamAt_of_open hctx hidx (by omega)
        exact ⟨some stream, by rw [hstream]; rfl⟩
  · next hidx => exact iff_of_true ⟨none, rfl⟩ (by omega)

end Demuxer

end Fmp4Packager
