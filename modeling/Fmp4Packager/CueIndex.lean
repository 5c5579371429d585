import Fmp4Packager.FailedReopen
import Fmp4Packager.HandlerSteps
import Fmp4Packager.Playback
import Fmp4Packager.SeekReplay
import Fmp4Packager.SharedSession

/-!
# The cues in the index of a stream

An open input never holds the cues of its file twice, however often it is closed and
opened again, and wherever an opening fails.
-/

namespace Fmp4Packager

open EbmlParser

/-- The context that an opening leaves behind. -/
def Reopen.context : Reopen → Option AVFormatContext
  | .opened ctx => some ctx
  | .streamInfoFails ctx => some ctx
  | _ => none

/-- The context with the cues added once to the index of a stream. -/
def AVFormatContext.withCues (m : Media) (ctx : AVFormatContext) (streamIdx : ℤ)
    (cues : List CueEntry) : AVFormatContext :=
  match ctx.streams[streamIdx.toNat]? with
  | none => ctx
  | some stream =>
      { ctx with streams := ctx.streams.set streamIdx.toNat (Demuxer.indexCues m cues stream) }

namespace Demuxer

variable {m : Media} {contexts : Set AVFormatContext}

/-- What is open is one of the contexts, with the cues in its index once if they are marked
as added, and without them otherwise. -/
structure IndexedOnce (m : Media) (contexts : Set AVFormatContext) (d : Demuxer) : Prop where
  context : ∀ ctx ∈ d.fmtCtx, ∃ opened ∈ contexts,
    ctx = if d.cueIndexAdded then opened.withCues m d.videoStreamIdx d.cachedCues else opened
  marked : d.cueIndexAdded = true → d.cachedCues ≠ []
  unread : d.keyframesCached = false → d.cachedCues = []
  read : d.keyframesCached = true → d.cachedCues = fileCues m

theorem IndexedOnce.of_unmarked {d d' : Demuxer} (h : d.IndexedOnce m contexts)
    {ctx : AVFormatContext} (hctx : d'.fmtCtx = some ctx) (hmem : ctx ∈ contexts)
    (hadded : d'.cueIndexAdded = false) (hcues : d'.cachedCues = d.cachedCues)
    (hcached : d'.keyframesCached = d.keyframesCached) : d'.IndexedOnce m contexts where
  context ctx' hctx' := by
    refine ⟨ctx, hmem, ?_⟩
    rw [hadded, if_neg Bool.false_ne_true]
    exact Option.some.inj (hctx'.symm.trans hctx)
  marked h' := by cases hadded.symm.trans h'
  unread := by
    rw [hcues, hcached]
    exact h.unread
  read := by
    rw [hcues, hcached]
    exact h.read

theorem IndexedOnce.context_of_unmarked {d : Demuxer} (h : d.IndexedOnce m contexts)
    (hadded : d.cueIndexAdded = false) {ctx : AVFormatContext} (hctx : d.fmtCtx = some ctx) :
    ctx ∈ contexts := by
  obtain ⟨opened, hmem, hsame⟩ := h.context ctx hctx
  rw [hadded, if_neg Bool.false_ne_true] at hsame
  exact hsame ▸ hmem

theorem IndexedOnce.addCueIndexEntries {d : Demuxer} (h : d.IndexedOnce m contexts) :
    (d.addCueIndexEntries m).2.IndexedOnce m contexts := by
  rw [addCueIndexEntries_eq]
  split
  · next hneeds =>
      obtain ⟨hadded, hcues, -⟩ := hneeds
      split
      · exact h
      · next video hvideo =>
          obtain ⟨opened, hopen, -, hstream⟩ := streamAt_eq_ok hvideo
          refine ⟨fun ctx hctx ↦ ⟨opened, h.context_of_unmarked hadded hopen, ?_⟩, fun _ ↦ hcues,
            h.unread, h.read⟩
          simp only [withIndex, hopen, Option.map_some, Option.mem_some_iff] at hctx
          simp only [withIndex, if_true, AVFormatContext.withCues, hstream]
          exact hctx.symm
  · exact h

/-- The file is read while nothing is marked, so that its cues cannot be in the index. -/
theorem IndexedOnce.read_cues {d d' : Demuxer} (h : d.IndexedOnce m contexts)
    (hunread : d.keyframesCached = false) (hctx : d'.fmtCtx = d.fmtCtx)
    (hadded : d'.cueIndexAdded = d.cueIndexAdded) (hcached : d'.keyframesCached = true)
    (hcues : d'.cachedCues = fileCues m) : d'.IndexedOnce m contexts := by
  have hnot : d.cueIndexAdded = false := by
    by_contra hmark
    exact h.marked (by simpa using hmark) (h.unread hunread)
  refine ⟨fun ctx hopen ↦ ⟨ctx, h.context_of_unmarked hnot (hctx.symm.trans hopen), ?_⟩,
    fun hmark ↦ ?_, fun h' ↦ (by cases hcached.symm.trans h'), fun _ ↦ hcues⟩
  · rw [hadded, hnot, if_neg Bool.false_ne_true]
  · cases hmark.symm.trans (hadded.trans hnot)

theorem IndexedOnce.ensureCueIndex {d : Demuxer} (h : d.IndexedOnce m contexts) :
    (d.ensureCueIndex m).2.IndexedOnce m contexts := by
  rw [Demuxer.ensureCueIndex]
  split
  · exact h.addCueIndexEntries
  · next hcached =>
      have hunread : d.keyframesCached = false := by simpa using hcached
      split
      · exact h
      · split
        · exact h
        · next hread =>
            refine h.read_cues hunread rfl rfl rfl ((h.unread hunread).trans ?_)
            rw [fileCues, hread]
        · next entries hread =>
            refine IndexedOnce.addCueIndexEntries (h.read_cues hunread rfl rfl rfl ?_)
            rw [fileCues, hread]

/-- An opening that makes a reader finds the input unmarked. -/
theorem IndexedOnce.openInput {d : Demuxer} (h : d.IndexedOnce m contexts) {reopen : Reopen}
    (hadded : reopen.readerMade = true → d.cueIndexAdded = false)
    (hreopen : ∀ ctx ∈ reopen.context, ctx ∈ contexts) :
    (d.openInput reopen).2.IndexedOnce m contexts := by
  cases reopen with
  | readerFails what => exact h
  | allocFails => exact ⟨fun _ hctx ↦ (by cases hctx), h.marked, h.unread, h.read⟩
  | openInputFails err => exact ⟨fun _ hctx ↦ (by cases hctx), h.marked, h.unread, h.read⟩
  | streamInfoFails ctx => exact h.of_unmarked rfl (hreopen ctx rfl) (hadded rfl) rfl rfl
  | opened ctx =>
      rw [Demuxer.openInput]
      dsimp only
      split
      · exact h.of_unmarked rfl (hreopen ctx rfl) (hadded rfl) rfl rfl
      · exact h.of_unmarked rfl (hreopen ctx rfl) (hadded rfl) rfl rfl

theorem create_indexedOnce {reopen : Reopen} (hreopen : ∀ ctx ∈ reopen.context, ctx ∈ contexts) :
    (Demuxer.create reopen).2.IndexedOnce m contexts := by
  have hclosed : ({} : Demuxer).IndexedOnce m contexts :=
    ⟨fun _ h ↦ (by cases h), fun h ↦ (by cases h), fun _ ↦ rfl, fun h ↦ (by cases h)⟩
  exact hclosed.openInput (fun _ ↦ rfl) hreopen

/-- Closing the input takes the mark away with the index, unless no reader is made. -/
theorem IndexedOnce.tearDown {d : Demuxer} (h : d.IndexedOnce m contexts) (reopen : Reopen) :
    (d.tearDown reopen).IndexedOnce m contexts :=
  ⟨fun _ hctx ↦ (by cases hctx), fun hmark ↦ h.marked (Bool.and_elim_left hmark), h.unread,
    h.read⟩

theorem IndexedOnce.openAndSeek {d : Demuxer} (h : d.IndexedOnce m contexts) {reopen : Reopen}
    (hadded : reopen.readerMade = true → d.cueIndexAdded = false)
    (hreopen : ∀ ctx ∈ reopen.context, ctx ∈ contexts) (cue : Option CueEntry) (targetTs : ℤ) :
    (d.openAndSeek m reopen cue targetTs).2.IndexedOnce m contexts := by
  have hopened := h.openInput hadded hreopen
  rw [Demuxer.openAndSeek]
  split
  · next stop d' hopen =>
      rw [hopen] at hopened
      exact hopened
  · next d' hopen =>
      rw [hopen] at hopened
      have hindexed := hopened.addCueIndexEntries
      split
      · next stop d'' hadd =>
          rw [hadd] at hindexed
          exact hindexed
      · next d'' hadd =>
          rw [hadd] at hindexed
          split
          · exact hindexed
          · exact ⟨hindexed.context, hindexed.marked, hindexed.unread, hindexed.read⟩

theorem IndexedOnce.seekToMs {d : Demuxer} (h : d.IndexedOnce m contexts) {reopen : Reopen}
    (hreopen : ∀ ctx ∈ reopen.context, ctx ∈ contexts) (targetMs : ℤ) :
    (d.seekToMs m reopen targetMs).2.IndexedOnce m contexts := by
  have hensured := h.ensureCueIndex
  rw [Demuxer.seekToMs]
  split
  · next stop d' hensure =>
      rw [hensure] at hensured
      exact hensured
  · next d' hensure =>
      rw [hensure] at hensured
      split
      · exact hensured
      · refine (hensured.tearDown reopen).openAndSeek (fun hmade ↦ ?_) hreopen _ _
        simp [Demuxer.tearDown, hmade]

end Demuxer

namespace Server

open Session Demuxer

variable {δ ε α : Type} {files : List Char → Media} {c : AacCodec δ ε α}
  {contexts : Set AVFormatContext}

def EachIndexedOnce (files : List Char → Media) (contexts : Set AVFormatContext)
    (s : State δ ε α) : Prop :=
  ∀ (ref : ℕ) o, s.objects[ref]? = some o →
    o.session.demuxer.IndexedOnce (files o.infohash) contexts

theorem IndexedOnce.getKeyframesMs {m : Media} {s : Session δ ε α}
    (h : s.demuxer.IndexedOnce m contexts) :
    (s.getKeyframesMs m).2.demuxer.IndexedOnce m contexts := by
  rw [getKeyframesMs_snd]
  exact h.ensureCueIndex

theorem IndexedOnce.buildSegmentLocked {m : Media} {s : Session δ ε α}
    (h : s.demuxer.IndexedOnce m contexts) {reopen : Reopen}
    (hreopen : ∀ ctx ∈ reopen.context, ctx ∈ contexts) (w : Window) :
    (s.buildSegmentLocked m c reopen w).2.demuxer.IndexedOnce m contexts := by
  have hseeks := h.seekToMs hreopen (audioDecodeStartMs w.segmentStartMs)
  have hstep := buildSegmentLocked_buildStep m c reopen w s
  generalize s.buildSegmentLocked m c reopen w = result at hstep ⊢
  obtain ⟨outcome, s'⟩ := result
  cases hstep with
  | cached bytes hhit => exact h
  | seekFails stop d hmiss hseek =>
      rw [hseek] at hseeks
      exact hseeks
  | streamFails stop d hmiss hseek hstreams =>
      rw [hseek] at hseeks
      exact hseeks
  | builds d vid aud hmiss hseek hvid haud =>
      obtain ⟨packets, hbuild⟩ := buildFromPackets_eq c w vid aud (afterSeek c w d s)
        (leftQueue_afterSeek c w d s)
      rw [hseek] at hseeks
      rw [hbuild]
      exact ⟨hseeks.context, hseeks.marked, hseeks.unread, hseeks.read⟩

/-- The methods of a session only reach its input to read the cues and to seek. -/
theorem Method.indexedOnce {reopen : Reopen} {o : SessionObject δ ε α} {stage stage' : Stage}
    {ref : ℕ} {session : Session δ ε α} (h : Method files c reopen o stage ref stage' session)
    (hreopen : ∀ ctx ∈ reopen.context, ctx ∈ contexts)
    (ho : o.session.demuxer.IndexedOnce (files o.infohash) contexts) :
    session.demuxer.IndexedOnce (files o.infohash) contexts := by
  have hinit : o.session.generateInitSegment.2.demuxer = o.session.demuxer := by
    obtain ⟨built, bytes, hframe, -, -⟩ := generateInitSegment_frame o.session
    rw [hframe]
  cases h with
  | listKeyframes => exact IndexedOnce.getKeyframesMs ho
  | checkIndex => exact IndexedOnce.getKeyframesMs ho
  | generateInit =>
      rw [hinit]
      exact ho
  | firstInit =>
      rw [hinit]
      exact ho
  | build _ w => exact IndexedOnce.buildSegmentLocked ho hreopen w

theorem Advance.eachIndexedOnce {reopen : Reopen} {s s' : State δ ε α} {stage stage' : Stage}
    (h : Advance files c reopen s stage stage' s')
    (hreopen : ∀ ctx ∈ reopen.context, ctx ∈ contexts) (hs : EachIndexedOnce files contexts s) :
    EachIndexedOnce files contexts s' := by
  intro ref o' ho'
  rcases h.object ho' with ⟨o, ho, hinfohash, hsession | hmethod⟩ | ⟨_, _, _, -, -, hcreate, -⟩
  · rw [hsession, hinfohash]
    exact hs ref o ho
  · rw [hinfohash]
    exact hmethod.indexedOnce hreopen (hs ref o ho)
  · obtain ⟨hopen, -, -, -⟩ := create_eq_ok hcreate
    have hcreated := create_indexedOnce (m := files o'.infohash) hreopen
    rw [hopen] at hcreated
    exact hcreated

theorem serverStep_eachIndexedOnce {move : Move} {p : Pool δ ε α}
    (hmove : ∀ i reopen, move = .proceed i reopen → ∀ ctx ∈ reopen.context, ctx ∈ contexts)
    (hp : EachIndexedOnce files contexts p.shared) :
    EachIndexedOnce files contexts (serverStep files c move p).2.shared := by
  cases move with
  | arrive path => exact hp
  | outside elapsed => exact hp
  | proceed i reopen =>
      rw [serverStep, ThreadPool.step]
      cases p.threads[i]? with
      | none => exact hp
      | some t =>
          have hadvance := advance_spec files c reopen t.stage p.shared
          exact hadvance.eachIndexedOnce (hmove i reopen rfl) hp

/-- In every run, whichever openings fail and however often a session closes its file and
opens it again, what it has open is as it was opened, but for the cues of the file, which
the index of the video stream holds once where they are marked as added. -/
theorem cues_are_indexed_once (now : ℤ) (moves : List Move) (o : SessionObject δ ε α)
    (ho : o ∈ (CallRun.finalState (serverStep files c) moves (startUp now)).shared.objects)
    (ctx : AVFormatContext) (hctx : o.session.demuxer.fmtCtx = some ctx) :
    ∃ i reopen opened, .proceed i reopen ∈ moves ∧ reopen.context = some opened ∧
      ctx = if o.session.demuxer.cueIndexAdded
        then opened.withCues (files o.infohash) o.session.demuxer.videoStreamIdx
          (fileCues (files o.infohash))
        else opened := by
  let contexts : Set AVFormatContext :=
    {opened | ∃ i reopen, .proceed i reopen ∈ moves ∧ reopen.context = some opened}
  have hstep : ∀ (move : Move) (p : Pool δ ε α), move ∈ moves →
      EachIndexedOnce files contexts p.shared →
        EachIndexedOnce files contexts (serverStep files c move p).2.shared := by
    refine fun move p hmove ↦ serverStep_eachIndexedOnce fun i reopen heq ctx hctx ↦ ?_
    exact ⟨i, reopen, heq ▸ hmove, hctx⟩
  have heach : EachIndexedOnce files contexts
      (CallRun.finalState (serverStep files c) moves (startUp now)).shared :=
    CallRun.finalState_of_invariant hstep (fun _ h ↦ h) fun ref o h ↦ by cases h
  obtain ⟨ref, href⟩ := List.mem_iff_getElem?.mp ho
  have honce := heach ref o href
  obtain ⟨opened, ⟨i, reopen, hmem, hopened⟩, hsame⟩ := honce.context ctx hctx
  refine ⟨i, reopen, opened, hmem, hopened, hsame.trans ?_⟩
  split
  · next hadded =>
      have hcached : o.session.demuxer.keyframesCached = true := by
        by_contra hnot
        exact honce.marked hadded (honce.unread (by simpa using hnot))
      rw [honce.read hcached]
  · rfl

theorem indexed_threeCueRun :
    ((CallRun.finalState (serverStep (fun _ ↦ threeCueFile) noCodec) threeCueRun
      (startUp 0)).shared.objects[0]?.any fun o ↦
        o.session.demuxer.fmtCtx.isSome && o.session.demuxer.cueIndexAdded) = true := by
  decide +kernel

/-- Two segments are two more openings, after that of the playlist. -/
theorem cues_are_indexed_once_three_openings :
    ∃ o ∈ (CallRun.finalState (serverStep (fun _ ↦ threeCueFile) noCodec) threeCueRun
      (startUp 0)).shared.objects, ∃ ctx opened : AVFormatContext,
        o.session.demuxer.fmtCtx = some ctx ∧ ctx =
          opened.withCues threeCueFile o.session.demuxer.videoStreamIdx
            (fileCues threeCueFile) := by
  obtain ⟨o, ho, hindexed⟩ := (Option.any_eq_true _ _).mp indexed_threeCueRun
  obtain ⟨hopen, hadded⟩ := (Bool.and_eq_true _ _).mp hindexed
  obtain ⟨ctx, hctx⟩ := Option.isSome_iff_exists.mp hopen
  obtain ⟨i, reopen, opened, -, -, hsame⟩ := @cues_are_indexed_once Unit Unit Unit
    (fun _ ↦ threeCueFile) noCodec 0 threeCueRun o (List.mem_of_getElem? ho) ctx hctx
  rw [if_pos hadded] at hsame
  exact ⟨o, List.mem_of_getElem? ho, ctx, opened, hctx, hsame⟩

end Server

end Fmp4Packager
