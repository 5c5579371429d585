import Fmp4Packager.Demuxer

/-!
# What the demuxer's operations can do

One lemma for each operation says how it can come out and what it changes.  While
the stream indices stay below the number of streams, an operation is cut short in
no other way than by an exception as long as the context is open and the video
index is not negative.
-/

namespace Fmp4Packager

def Stop.IsException : Stop → Prop
  | .exception _ => True
  | _ => False

/-- The operation returns, or fails by an exception. -/
def Settles {β : Type} : Except Stop β → Prop
  | .ok _ => True
  | .error stop => stop.IsException

namespace Demuxer

open EbmlParser

/-- `AddCueIndexEntries` has something to add. -/
def NeedsIndex (d : Demuxer) : Prop :=
  d.cueIndexAdded = false ∧ d.cachedCues ≠ [] ∧ 0 ≤ d.videoStreamIdx

instance (d : Demuxer) : Decidable d.NeedsIndex := inferInstanceAs (Decidable (_ ∧ _ ∧ _))

/-- The demuxer with the cues added to the index of its video stream. -/
def withIndex (m : Media) (d : Demuxer) (video : AVStream) : Demuxer :=
  { d with
    fmtCtx := d.fmtCtx.map fun ctx ↦
      { ctx with
        streams := ctx.streams.set d.videoStreamIdx.toNat (indexCues m d.cachedCues video) }
    cueIndexAdded := true }

theorem addCueIndexEntries_eq (m : Media) (d : Demuxer) :
    d.addCueIndexEntries m =
      if d.NeedsIndex then
        match d.streamAt d.videoStreamIdx with
        | .error stop => (.error stop, d)
        | .ok video => (.ok (), d.withIndex m video)
      else (.ok (), d) := by
  rw [addCueIndexEntries]
  by_cases hneeds : d.NeedsIndex
  · rw [if_pos hneeds, if_neg (by
      obtain ⟨hadded, hcues, hidx⟩ := hneeds
      simp [hadded, hcues, hidx])]
    rfl
  · have hskip : d.cueIndexAdded = true ∨ d.cachedCues.isEmpty = true ∨ d.videoStreamIdx < 0 := by
      by_contra hnone
      rw [not_or, not_or] at hnone
      exact hneeds ⟨by simpa using hnone.1, by simpa using hnone.2.1, by omega⟩
    rw [if_neg hneeds, if_pos hskip]

theorem streamAt_of_open {d : Demuxer} {ctx : AVFormatContext} {idx : ℤ}
    (hopen : d.fmtCtx = some ctx) (hnonneg : 0 ≤ idx) (hlt : idx < ctx.streams.length) :
    ∃ stream, ctx.streams[idx.toNat]? = some stream ∧ d.streamAt idx = .ok stream := by
  have hbound : idx.toNat < ctx.streams.length := by omega
  have hget : ctx.streams[idx.toNat]? = some ctx.streams[idx.toNat] :=
    List.getElem?_eq_getElem hbound
  refine ⟨_, hget, ?_⟩
  rw [streamAt, hopen]
  simp only [hget, if_neg (show ¬idx < 0 by omega)]

theorem streamAt_of_closed {d : Demuxer} (hclosed : d.fmtCtx = none) (idx : ℤ) :
    d.streamAt idx = .error .nullContext := by
  rw [streamAt, hclosed]

theorem streamAt_of_neg {d : Demuxer} {ctx : AVFormatContext} {idx : ℤ}
    (hopen : d.fmtCtx = some ctx) (hneg : idx < 0) :
    d.streamAt idx = .error .negativeStreamIndex := by
  rw [streamAt, hopen]
  simp only [if_pos hneg]

theorem streamAt_error {d : Demuxer} {idx : ℤ} {stop : Stop} (h : d.streamAt idx = .error stop) :
    ¬stop.IsException := by
  rw [streamAt] at h
  split at h
  · cases h
    exact id
  · split at h
    · cases h
      exact id
    · split at h <;> cases h
      exact id

/-- The open context has `n` streams, and no stream index reaches `n`. -/
structure Bounded (n : ℕ) (d : Demuxer) : Prop where
  streams : ∀ ctx ∈ d.fmtCtx, ctx.streams.length = n
  video : d.videoStreamIdx < n
  audio : d.audioStreamIdx < n

theorem Bounded.streamAt_settles_iff {n : ℕ} {d : Demuxer} (h : d.Bounded n) {idx : ℤ}
    (hidx : idx < n) : Settles (d.streamAt idx) ↔ d.fmtCtx.isSome ∧ 0 ≤ idx := by
  cases hctx : d.fmtCtx with
  | none =>
      rw [streamAt_of_closed hctx]
      exact iff_of_false id (by simp)
  | some ctx =>
      by_cases hneg : idx < 0
      · rw [streamAt_of_neg hctx hneg]
        exact iff_of_false id fun h ↦ absurd h.2 (by omega)
      · obtain ⟨stream, -, hstream⟩ := streamAt_of_open hctx (not_lt.mp hneg)
          (by rw [h.streams ctx hctx]; exact hidx)
        rw [hstream]
        exact iff_of_true trivial ⟨rfl, by omega⟩

theorem Bounded.withIndex {n : ℕ} {d : Demuxer} (h : d.Bounded n) (m : Media)
    (video : AVStream) : (d.withIndex m video).Bounded n := by
  refine ⟨fun ctx hctx ↦ ?_, h.video, h.audio⟩
  obtain ⟨old, hold, rfl⟩ := Option.mem_map.mp hctx
  rw [List.length_set]
  exact h.streams old hold

/-- What `AddCueIndexEntries` and `EnsureCueIndex` leave as it is. -/
structure SameOpening (d d' : Demuxer) : Prop where
  isSome : d'.fmtCtx.isSome = d.fmtCtx.isSome
  video : d'.videoStreamIdx = d.videoStreamIdx
  audio : d'.audioStreamIdx = d.audioStreamIdx

theorem SameOpening.refl (d : Demuxer) : SameOpening d d := ⟨rfl, rfl, rfl⟩

theorem addCueIndexEntries_sameOpening (m : Media) (d : Demuxer) :
    SameOpening d (d.addCueIndexEntries m).2 := by
  rw [addCueIndexEntries_eq]
  split
  · split
    · exact SameOpening.refl d
    · exact ⟨Option.isSome_map, rfl, rfl⟩
  · exact SameOpening.refl d

theorem Bounded.addCueIndexEntries {n : ℕ} {d : Demuxer} (h : d.Bounded n) (m : Media) :
    (d.addCueIndexEntries m).2.Bounded n := by
  rw [addCueIndexEntries_eq]
  split
  · split
    · exact h
    · exact h.withIndex m _
  · exact h

theorem Bounded.addCueIndexEntries_settles_iff {n : ℕ} {d : Demuxer} (h : d.Bounded n)
    (m : Media) : Settles (d.addCueIndexEntries m).1 ↔ (d.NeedsIndex → d.fmtCtx.isSome) := by
  rw [addCueIndexEntries_eq]
  by_cases hneeds : d.NeedsIndex
  · have hstream := h.streamAt_settles_iff h.video
    rw [if_pos hneeds]
    cases hat : d.streamAt d.videoStreamIdx with
    | error stop =>
        rw [hat] at hstream
        exact hstream.trans ⟨fun h _ ↦ h.1, fun h ↦ ⟨h hneeds, hneeds.2.2⟩⟩
    | ok video =>
        rw [hat] at hstream
        exact iff_of_true trivial fun _ ↦ (hstream.mp trivial).1
  · rw [if_neg hneeds]
    exact iff_of_true trivial fun h ↦ absurd h hneeds

theorem addCueIndexEntries_error {m : Media} {d : Demuxer} {stop : Stop}
    (h : (d.addCueIndexEntries m).1 = .error stop) : ¬stop.IsException := by
  rw [addCueIndexEntries_eq] at h
  split at h
  · split at h
    · next hstream =>
        cases h
        exact streamAt_error hstream
    · cases h
  · cases h

/-- The demuxer once the keyframes of the file are cached. -/
def withEntries (d : Demuxer) : Option (List CueEntry) → Demuxer
  | none => { d with cachedKeyframes := [], keyframesCached := true }
  | some entries =>
      { d with
        cachedKeyframes := filterKeyframes (entries.map CueEntry.timeMs) 10000
        cachedCues := entries
        keyframesCached := true }

theorem ensureCueIndex_of_cached {m : Media} {d : Demuxer} (h : d.keyframesCached = true) :
    d.ensureCueIndex m = d.addCueIndexEntries m := by
  rw [ensureCueIndex, if_pos h]

theorem ensureCueIndex_of_closed {m : Media} {d : Demuxer} (h : d.keyframesCached = false)
    (hclosed : d.fmtCtx = none) : d.ensureCueIndex m = (.error .nullContext, d) := by
  rw [ensureCueIndex, if_neg (by simp [h]), if_pos (by simp [hclosed])]

theorem ensureCueIndex_of_open {m : Media} {d : Demuxer} (h : d.keyframesCached = false)
    (hopen : d.fmtCtx.isSome) {read : Option (List CueEntry)}
    (hread : readCueEntries m = .ok read) :
    d.ensureCueIndex m =
      if read.isSome then (d.withEntries read).addCueIndexEntries m
      else (.ok (), d.withEntries read) := by
  have hopen : d.fmtCtx.isNone = false := by simpa using hopen
  rw [ensureCueIndex, if_neg (by simp [h]), hopen, if_neg (by decide), hread]
  cases read <;> rfl

theorem withEntries_sameOpening (d : Demuxer) (read : Option (List CueEntry)) :
    SameOpening d (d.withEntries read) := by
  cases read <;> exact ⟨rfl, rfl, rfl⟩

theorem Bounded.withEntries {n : ℕ} {d : Demuxer} (h : d.Bounded n)
    (read : Option (List CueEntry)) : (d.withEntries read).Bounded n := by
  cases read <;> exact ⟨h.streams, h.video, h.audio⟩

theorem SameOpening.trans {d d' d'' : Demuxer} (h : SameOpening d d') (h' : SameOpening d' d'') :
    SameOpening d d'' :=
  ⟨h'.isSome.trans h.isSome, h'.video.trans h.video, h'.audio.trans h.audio⟩

theorem ensureCueIndex_sameOpening (m : Media) (d : Demuxer) :
    SameOpening d (d.ensureCueIndex m).2 := by
  rw [ensureCueIndex]
  split
  · exact addCueIndexEntries_sameOpening m d
  · split
    · exact SameOpening.refl d
    · split
      · exact SameOpening.refl d
      · exact ⟨rfl, rfl, rfl⟩
      · exact (withEntries_sameOpening d (some _)).trans (addCueIndexEntries_sameOpening m _)

theorem Bounded.ensureCueIndex {n : ℕ} {d : Demuxer} (h : d.Bounded n) (m : Media) :
    (d.ensureCueIndex m).2.Bounded n := by
  rw [Demuxer.ensureCueIndex]
  split
  · exact h.addCueIndexEntries m
  · split
    · exact h
    · split
      · exact h
      · exact ⟨h.streams, h.video, h.audio⟩
      · exact (h.withEntries (some _)).addCueIndexEntries m

theorem ensureCueIndex_error {m : Media} {d : Demuxer} {stop : Stop}
    (h : (d.ensureCueIndex m).1 = .error stop) : ¬stop.IsException := by
  rw [ensureCueIndex] at h
  split at h
  · exact addCueIndexEntries_error h
  · split at h
    · cases h
      exact id
    · split at h
      · cases h
        exact id
      · cases h
      · exact addCueIndexEntries_error h

/-- The keyframes come from the cache, with no look at the context. -/
def KeyframesAtHand (d : Demuxer) : Prop := d.keyframesCached = true ∧ ¬d.NeedsIndex

instance (d : Demuxer) : Decidable d.KeyframesAtHand := inferInstanceAs (Decidable (_ ∧ _))

/-- On a file whose cues the parser gets through, `EnsureCueIndex` needs an open
context or the keyframes at hand. -/
theorem Bounded.ensureCueIndex_settles_iff {n : ℕ} {d : Demuxer} (h : d.Bounded n) {m : Media}
    {read : Option (List CueEntry)} (hread : readCueEntries m = .ok read) :
    Settles (d.ensureCueIndex m).1 ↔ d.fmtCtx.isSome ∨ d.KeyframesAtHand := by
  cases hcached : d.keyframesCached with
  | true =>
      rw [ensureCueIndex_of_cached hcached, h.addCueIndexEntries_settles_iff, KeyframesAtHand,
        hcached, eq_self_iff_true, true_and]
      tauto
  | false =>
      cases hctx : d.fmtCtx with
      | none =>
          rw [ensureCueIndex_of_closed hcached hctx]
          exact iff_of_false id (by simp [KeyframesAtHand, hcached])
      | some ctx =>
          rw [ensureCueIndex_of_open hcached (by simp [hctx]) hread]
          refine iff_of_true ?_ (.inl rfl)
          split
          · rw [(h.withEntries read).addCueIndexEntries_settles_iff,
              (withEntries_sameOpening d read).isSome]
            exact fun _ ↦ by simp [hctx]
          · trivial

/-! ## The re-opening -/

/-- The contexts that a re-opening leaves behind are contexts of a file with `n`
streams, and the streams that are found in them exist. -/
def ReopensWith (n : ℕ) : Reopen → Prop
  | .streamInfoFails ctx => ctx.streams.length = n
  | .opened ctx => ctx.streams.length = n ∧ ctx.bestVideo < n ∧ ctx.bestAudio < n
  | _ => True

theorem openInput_settles (d : Demuxer) (reopen : Reopen) : Settles (d.openInput reopen).1 := by
  cases reopen with
  | opened ctx =>
      rw [openInput]
      dsimp only
      split <;> trivial
  | readerFails what => trivial
  | allocFails => trivial
  | openInputFails err => trivial
  | streamInfoFails ctx => trivial

theorem Bounded.openInput {n : ℕ} {d : Demuxer} (h : d.Bounded n) {reopen : Reopen}
    (hreopen : ReopensWith n reopen) : (d.openInput reopen).2.Bounded n := by
  cases reopen with
  | opened ctx =>
      obtain ⟨hlen, hvideo, haudio⟩ := hreopen
      rw [Demuxer.openInput]
      dsimp only
      split <;> exact ⟨by simpa using hlen, hvideo, haudio⟩
  | readerFails what => exact h
  | allocFails => exact ⟨fun _ hc ↦ (by cases hc), h.video, h.audio⟩
  | openInputFails err => exact ⟨fun _ hc ↦ (by cases hc), h.video, h.audio⟩
  | streamInfoFails ctx =>
      refine ⟨fun c hc ↦ ?_, h.video, h.audio⟩
      cases hc
      exact hreopen

theorem openInput_eq_ok {d d' : Demuxer} {reopen : Reopen}
    (h : d.openInput reopen = (.ok (), d')) :
    ∃ ctx, reopen = .opened ctx ∧ 0 ≤ ctx.bestVideo ∧
      d' = { d with
        fmtCtx := some ctx
        videoStreamIdx := ctx.bestVideo
        audioStreamIdx := ctx.bestAudio
        durationMs := toInt ((ctx.duration * 1000).tdiv avTimeBase) } := by
  cases reopen with
  | opened ctx =>
      rw [openInput] at h
      dsimp only at h
      split at h
      · cases h
      · next hvideo =>
          refine ⟨ctx, rfl, by omega, ?_⟩
          injection h with _ h
          exact h.symm
  | readerFails what => cases h
  | allocFails => cases h
  | openInputFails err => cases h
  | streamInfoFails ctx => cases h

theorem seekToMs_of_ensured {m : Media} {d d' : Demuxer} {video : AVStream} (reopen : Reopen)
    (targetMs : ℤ) (hensure : d.ensureCueIndex m = (.ok (), d'))
    (hvideo : d'.streamAt d'.videoStreamIdx = .ok video) :
    d.seekToMs m reopen targetMs =
      (d'.tearDown reopen).openAndSeek m reopen (latestCue d'.cachedCues targetMs)
        (avRescaleQ targetMs ⟨1, 1000⟩ video.timeBase) := by
  rw [seekToMs, hensure]
  simp only [hvideo]

/-- The context is open and the video stream is found. -/
def Ready (d : Demuxer) : Prop := d.fmtCtx.isSome ∧ 0 ≤ d.videoStreamIdx

instance (d : Demuxer) : Decidable d.Ready := inferInstanceAs (Decidable (_ ∧ _))

/-- A seek succeeds only by opening the input again. -/
theorem openAndSeek_eq_ok {m : Media} {reopen : Reopen} {cue : Option CueEntry} {targetTs : ℤ}
    {d d' : Demuxer} (h : d.openAndSeek m reopen cue targetTs = (.ok (), d')) :
    ∃ opened indexed ctx, d.openInput reopen = (.ok (), opened) ∧
      opened.addCueIndexEntries m = (.ok (), indexed) ∧ indexed.fmtCtx = some ctx ∧
      d' = { indexed with
        packets := packetsAfterSeek m ctx cue indexed.videoStreamIdx targetTs } := by
  rw [openAndSeek] at h
  split at h
  · cases h
  · next opened hopen =>
      split at h
      · cases h
      · next indexed hindexed =>
          split at h
          · cases h
          · next ctx hctx =>
              injection h with _ h
              exact ⟨opened, indexed, ctx, hopen, hindexed, hctx, h.symm⟩

theorem Bounded.openAndSeek {n : ℕ} {d : Demuxer} (h : d.Bounded n) (m : Media) {reopen : Reopen}
    (hreopen : ReopensWith n reopen) (cue : Option CueEntry) (targetTs : ℤ) :
    Settles (d.openAndSeek m reopen cue targetTs).1 ∧
      (d.openAndSeek m reopen cue targetTs).2.Bounded n ∧
      ((d.openAndSeek m reopen cue targetTs).1 = .ok () →
        (d.openAndSeek m reopen cue targetTs).2.Ready) := by
  have hsettles := openInput_settles d reopen
  have hopened := h.openInput hreopen
  rw [Demuxer.openAndSeek]
  cases hopen : d.openInput reopen with
  | mk outcome opened =>
      rw [hopen] at hsettles hopened
      cases outcome with
      | error stop => exact ⟨hsettles, hopened, fun h ↦ by cases h⟩
      | ok value =>
          obtain ⟨ctx, -, hvideo, hctx⟩ := openInput_eq_ok hopen
          have hopenedCtx : opened.fmtCtx.isSome ∧ 0 ≤ opened.videoStreamIdx := by
            rw [hctx]
            exact ⟨rfl, hvideo⟩
          have hsame := addCueIndexEntries_sameOpening m opened
          have hbounded := hopened.addCueIndexEntries m
          have hindex := (hopened.addCueIndexEntries_settles_iff m).mpr fun _ ↦ hopenedCtx.1
          cases hadd : opened.addCueIndexEntries m with
          | mk outcome indexed =>
              rw [hadd] at hsame hbounded hindex
              cases outcome with
              | error stop =>
                  simp only [hadd]
                  exact ⟨hindex, hbounded, fun h ↦ by cases h⟩
              | ok value =>
                  have hsome : indexed.fmtCtx.isSome := hsame.isSome.trans hopenedCtx.1
                  have hidx : 0 ≤ indexed.videoStreamIdx := hsame.video.symm ▸ hopenedCtx.2
                  simp only [hadd]
                  split
                  · next hnone => simp [hnone] at hsome
                  · exact ⟨trivial, ⟨hbounded.streams, hbounded.video, hbounded.audio⟩,
                      fun _ ↦ ⟨hsome, hidx⟩⟩

/-- A seek returns or throws exactly when it starts from an open context with a
video stream. -/
theorem Bounded.seekToMs {n : ℕ} {d : Demuxer} (h : d.Bounded n) {m : Media} {reopen : Reopen}
    (hreopen : ReopensWith n reopen) {read : Option (List CueEntry)}
    (hread : readCueEntries m = .ok read) (targetMs : ℤ) :
    (Settles (d.seekToMs m reopen targetMs).1 ↔ d.Ready) ∧
      (d.seekToMs m reopen targetMs).2.Bounded n ∧
      ((d.seekToMs m reopen targetMs).1 = .ok () → (d.seekToMs m reopen targetMs).2.Ready) := by
  have hsame := ensureCueIndex_sameOpening m d
  have hbounded := h.ensureCueIndex m
  have hsettles := h.ensureCueIndex_settles_iff hread
  cases hensure : d.ensureCueIndex m with
  | mk outcome d' =>
      rw [hensure] at hsame hbounded hsettles
      have hstream : Settles (d'.streamAt d'.videoStreamIdx) ↔ d.Ready := by
        rw [hbounded.streamAt_settles_iff hbounded.video, hsame.isSome, hsame.video, Ready]
      cases outcome with
      | error stop =>
          have hstop : ¬stop.IsException := ensureCueIndex_error (by rw [hensure])
          rw [Demuxer.seekToMs, hensure]
          refine ⟨iff_of_false hstop fun hready ↦ hstop ?_, hbounded, fun h ↦ by cases h⟩
          exact hsettles.mpr (.inl hready.1)
      | ok value =>
          cases hvideo : d'.streamAt d'.videoStreamIdx with
          | error stop =>
              rw [hvideo] at hstream
              rw [Demuxer.seekToMs, hensure]
              simp only [hvideo]
              exact ⟨hstream, hbounded, fun h ↦ by cases h⟩
          | ok video =>
              rw [hvideo] at hstream
              have htorn : (d'.tearDown reopen).Bounded n :=
                ⟨fun _ hc ↦ (by cases hc), hbounded.video, hbounded.audio⟩
              obtain ⟨hsettled, hend, hok⟩ := htorn.openAndSeek m hreopen
                (latestCue d'.cachedCues targetMs) (avRescaleQ targetMs ⟨1, 1000⟩ video.timeBase)
              rw [seekToMs_of_ensured reopen targetMs hensure hvideo]
              exact ⟨iff_of_true hsettled (hstream.mp trivial), hend, hok⟩

/-- A seek that leaves the context closed keeps the video stream it had. -/
theorem openInput_isSome_or (d : Demuxer) (reopen : Reopen) :
    (d.openInput reopen).2.fmtCtx.isSome ∨
      (d.openInput reopen).2.videoStreamIdx = d.videoStreamIdx := by
  cases reopen with
  | opened ctx =>
      rw [openInput]
      dsimp only
      split <;> exact .inl rfl
  | readerFails what => exact .inr rfl
  | allocFails => exact .inr rfl
  | openInputFails err => exact .inr rfl
  | streamInfoFails ctx => exact .inl rfl

theorem openAndSeek_isSome_or (m : Media) (reopen : Reopen) (cue : Option CueEntry)
    (targetTs : ℤ) (d : Demuxer) :
    (d.openAndSeek m reopen cue targetTs).2.fmtCtx.isSome ∨
      (d.openAndSeek m reopen cue targetTs).2.videoStreamIdx = d.videoStreamIdx := by
  have hopen := openInput_isSome_or d reopen
  rw [openAndSeek]
  split
  · next heq =>
      rw [heq] at hopen
      exact hopen
  · next opened heq =>
      rw [heq] at hopen
      have hsame := addCueIndexEntries_sameOpening m opened
      rw [← hsame.isSome, ← hsame.video] at hopen
      split
      · next hadd =>
          rw [hadd] at hopen
          exact hopen
      · next hadd =>
          rw [hadd] at hopen
          split <;> exact hopen

theorem seekToMs_isSome_or (m : Media) (reopen : Reopen) (targetMs : ℤ) {d : Demuxer}
    (h : d.fmtCtx.isSome ∨ 0 ≤ d.videoStreamIdx) :
    (d.seekToMs m reopen targetMs).2.fmtCtx.isSome ∨
      0 ≤ (d.seekToMs m reopen targetMs).2.videoStreamIdx := by
  have hsame := ensureCueIndex_sameOpening m d
  rw [← hsame.isSome, ← hsame.video] at h
  rw [seekToMs]
  split
  · next hensure =>
      rw [hensure] at h
      exact h
  · next d' hensure =>
      rw [hensure] at h
      split
      · exact h
      · next hvideo =>
          have hnonneg : 0 ≤ d'.videoStreamIdx := by
            by_contra hneg
            obtain ⟨ctx, hctx⟩ := Option.isSome_iff_exists.mp (h.resolve_right hneg)
            rw [streamAt_of_neg hctx (by omega)] at hvideo
            cases hvideo
          apply (openAndSeek_isSome_or m reopen _ _ (d'.tearDown reopen)).imp_right
          intro hidx
          rw [hidx]
          exact hnonneg

theorem Bounded.videoStream_settles_iff {n : ℕ} {d : Demuxer} (h : d.Bounded n) :
    Settles d.videoStream ↔ (0 ≤ d.videoStreamIdx → d.fmtCtx.isSome) := by
  rw [videoStream]
  split
  · next hidx =>
      have hstream := h.streamAt_settles_iff h.video
      cases hat : d.streamAt d.videoStreamIdx with
      | error stop =>
          rw [hat] at hstream
          exact hstream.trans ⟨fun h _ ↦ h.1, fun h ↦ ⟨h hidx, hidx⟩⟩
      | ok stream =>
          rw [hat] at hstream
          exact iff_of_true trivial fun _ ↦ (hstream.mp trivial).1
  · next hidx => exact iff_of_true trivial fun h ↦ absurd h hidx

theorem Bounded.videoStream_of_ready {n : ℕ} {d : Demuxer} (h : d.Bounded n) (hready : d.Ready) :
    ∃ vid, d.videoStream = .ok (some vid) := by
  have hstream := (h.streamAt_settles_iff h.video).mpr hready
  cases hat : d.streamAt d.videoStreamIdx with
  | error stop =>
      rw [hat] at hstream
      exact absurd hstream (streamAt_error hat)
  | ok stream =>
      refine ⟨stream, ?_⟩
      rw [videoStream, if_pos hready.2, hat]
      rfl

theorem Bounded.audioStream_of_open {n : ℕ} {d : Demuxer} (h : d.Bounded n)
    (hopen : d.fmtCtx.isSome) : ∃ aud, d.audioStream = .ok aud := by
  rw [audioStream]
  split
  · next hidx =>
      have hstream := (h.streamAt_settles_iff h.audio).mpr ⟨hopen, hidx⟩
      cases hat : d.streamAt d.audioStreamIdx with
      | error stop =>
          rw [hat] at hstream
          exact absurd hstream (streamAt_error hat)
      | ok stream => exact ⟨some stream, rfl⟩
  · exact ⟨none, rfl⟩

end Demuxer

end Fmp4Packager
