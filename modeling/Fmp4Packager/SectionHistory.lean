import Fmp4Packager.EndOfFile
import Fmp4Packager.SessionLeases
import Fmp4Packager.SharedSession

/-!
# The calls on a session in a run of the server

Whatever the handlers do, and in whichever order, a session sees a list of sections.
The handlers get the answers that calls on the session give one after the other.
-/

namespace Fmp4Packager

namespace Server

open Session

variable {δ ε α : Type} {files : List Char → Media} {c : AacCodec δ ε α}

/-- The section that a stage runs, with the session that it runs on. -/
def Stage.runs (reopen : Reopen) : Stage → Option (ℕ × Section)
  | .listKeyframes _ _ ref => some (ref, .getKeyframesMs)
  | .generateInit ref => some (ref, .generateInitSegment)
  | .checkIndex ref _ => some (ref, .getKeyframesMs)
  | .firstInit ref w => some (ref, .firstInit w)
  | .build ref w => some (ref, .build reopen w)
  | _ => none

/-- Where a stage leads, from the answer that its section gives. -/
def Stage.reply : Stage → Option Answer → Stage
  | .listKeyframes infohash sessionId _, some (.keyframes result) =>
      .ofResult (.ofManifest infohash sessionId) result
  | .generateInit _, some (.init result) =>
      .ofResult (fun data ↦ .answered (contentReply "video/mp4" data)) result
  | .checkIndex ref segmentIdx, some (.keyframes result) =>
      .ofResult (fun keyframes ↦ .ofWindow ref keyframes segmentIdx) result
  | .firstInit ref w, none => .build ref w
  | .firstInit _ _, some (.segment result) =>
      .ofResult (fun data ↦ .answered (contentReply "video/mp4" data)) result
  | .build _ _, some (.segment result) =>
      .ofResult (fun data ↦ .answered (contentReply "video/mp4" data)) result
  | stage, _ => stage

theorem Method.runs_eq {reopen : Reopen} {o : SessionObject δ ε α} {stage stage' : Stage}
    {ref : ℕ} {session : Session δ ε α}
    (h : Method files c reopen o stage ref stage' session) :
    ∃ sec, stage.runs reopen = some (ref, sec) ∧
      session = (runSection (files o.infohash) c sec o.session).2 ∧
      stage' = stage.reply (runSection (files o.infohash) c sec o.session).1 := by
  cases h with
  | listKeyframes infohash sessionId => exact ⟨.getKeyframesMs, rfl, rfl, rfl⟩
  | generateInit => exact ⟨.generateInitSegment, rfl, rfl, rfl⟩
  | checkIndex _ segmentIdx => exact ⟨.getKeyframesMs, rfl, rfl, rfl⟩
  | firstInit _ w =>
      refine ⟨.firstInit w, rfl, ?_⟩
      rw [runSection]
      split
      · next heq =>
          rw [heq]
          exact ⟨rfl, rfl⟩
      · next heq =>
          rw [heq]
          exact ⟨rfl, rfl⟩
  | build _ w => exact ⟨.build reopen w, rfl, rfl, rfl⟩

theorem Stage.target_of_runs {reopen : Reopen} {stage : Stage} {ref : ℕ} {sec : Section}
    (h : stage.runs reopen = some (ref, sec)) : stage.target = some ref := by
  cases stage <;> cases h <;> rfl

/-- A stage with a section does what the section does. -/
theorem Advance.runs {reopen : Reopen} {s s' : State δ ε α} {stage stage' : Stage}
    (h : Advance files c reopen s stage stage' s') {ref : ℕ} {sec : Section}
    (hruns : stage.runs reopen = some (ref, sec)) {o : SessionObject δ ε α}
    (ho : s.objects[ref]? = some o) :
    s' = s.setSession ref (runSection (files o.infohash) c sec o.session).2 ∧
      stage' = stage.reply (runSection (files o.infohash) c sec o.session).1 := by
  cases h with
  | method _ ref' o' _ session ho' hmethod =>
      obtain ⟨sec', hruns', rfl, hreply⟩ := hmethod.runs_eq
      cases hruns.symm.trans hruns'
      obtain rfl : o = o' := Option.some.inj (ho.symm.trans ho')
      exact ⟨rfl, hreply⟩
  | dangling _ ref' htarget hnone =>
      cases (Stage.target_of_runs hruns).symm.trans htarget
      cases ho.symm.trans hnone
  | _ => cases hruns

/-- A move that runs a section on the session `ref`, in the state in which it finds the
session. -/
def sectionOn (ref : ℕ) : Move → Pool δ ε α → Option (Section × SessionObject δ ε α)
  | .proceed i reopen, p => do
      let h ← p.threads[i]?
      let (ref', sec) ← h.stage.runs reopen
      let o ← p.shared.objects[ref']?
      if ref' = ref then some (sec, o) else none
  | _, _ => none

/-- The calls on the session that a move ends. -/
def endedOn (ref : ℕ) (move : Move) (p : Pool δ ε α) : List Call :=
  match sectionOn ref move p with
  | none => []
  | some (sec, o) => ended sec o.session

/-- The answers that a move gets from the session. -/
def answersOf (files : List Char → Media) (c : AacCodec δ ε α) (ref : ℕ) (move : Move)
    (p : Pool δ ε α) : List Answer :=
  match sectionOn ref move p with
  | none => []
  | some (sec, o) => (runSection (files o.infohash) c sec o.session).1.toList

/-- A move either leaves a session as it is, or runs one section on it. -/
theorem step_session (files : List Char → Media) (c : AacCodec δ ε α) (move : Move)
    {p : Pool δ ε α} {ref : ℕ} {o : SessionObject δ ε α} (ho : p.shared.objects[ref]? = some o) :
    ∃ o', (serverStep files c move p).2.shared.objects[ref]? = some o' ∧
      o'.infohash = o.infohash ∧
      (sectionOn ref move p = none ∧ o'.session = o.session ∨
        ∃ sec, sectionOn ref move p = some (sec, o) ∧
          o'.session = (runSection (files o.infohash) c sec o.session).2) := by
  cases move with
  | arrive path => exact ⟨o, ho, rfl, .inl ⟨rfl, rfl⟩⟩
  | outside elapsed => exact ⟨o, ho, rfl, .inl ⟨rfl, rfl⟩⟩
  | proceed i reopen =>
      rw [serverStep, ThreadPool.step, sectionOn]
      cases hi : p.threads[i]? with
      | none => exact ⟨o, ho, rfl, .inl ⟨rfl, rfl⟩⟩
      | some t =>
          have hadvance := advance_spec files c reopen t.stage p.shared
          obtain ⟨o', ho', hinfohash, hsession⟩ := hadvance.object_next ho
          refine ⟨o', ho', hinfohash, ?_⟩
          by_cases hruns : ∃ sec, t.stage.runs reopen = some (ref, sec)
          · obtain ⟨sec, hruns⟩ := hruns
            refine .inr ⟨sec, by simp [hruns, ho], ?_⟩
            rw [(hadvance.runs hruns ho).1, State.getElem?_setSession, ho, Option.map_some,
              if_pos rfl] at ho'
            rw [← Option.some.inj ho']
          · refine .inl ⟨?_, hsession.resolve_right fun hmethod ↦ ?_⟩
            · rw [Option.bind_eq_bind, Option.bind_some, Option.bind_eq_bind,
                Option.bind_eq_none_iff]
              rintro ⟨ref', sec⟩ hruns'
              have hne : ref' ≠ ref := fun heq ↦ hruns ⟨sec, heq ▸ hruns'⟩
              simp [hne]
            · obtain ⟨sec, hruns', -, -⟩ := hmethod.runs_eq
              exact hruns ⟨sec, hruns'⟩

/-! ## The init segment before every build -/

/-- A handler that is about to build has seen the init segment of its session. -/
def InitSeen (h : Handler) (s : State δ ε α) : Prop :=
  ∀ ref w, h.stage = .build ref w → ∃ o, s.objects[ref]? = some o ∧ o.session.initBuilt = true

def InitsSound (s : State δ ε α) : Prop :=
  ∀ (ref : ℕ) o, s.objects[ref]? = some o → InitSound o.session

theorem Stage.ofStop_ne_build (stop : Stop) (ref : ℕ) (w : Window) :
    Stage.ofStop stop ≠ .build ref w := by
  cases stop <;> simp [Stage.ofStop]

theorem Stage.ofResult_eq_build {β : Type} {reply : β → Stage} {result : Except Stop β} {ref : ℕ}
    {w : Window} (h : Stage.ofResult reply result = .build ref w) :
    ∃ b, result = .ok b ∧ reply b = .build ref w := by
  cases result with
  | error stop => exact absurd h (Stage.ofStop_ne_build stop ref w)
  | ok b => exact ⟨b, rfl, h⟩

/-- Only the first init segment leads to a build. -/
theorem Method.leads_to_build {reopen : Reopen} {o : SessionObject δ ε α} {stage : Stage}
    {ref ref' : ℕ} {w : Window} {session : Session δ ε α}
    (h : Method files c reopen o stage ref (.build ref' w) session) :
    ref' = ref ∧ session.initBuilt = true := by
  generalize hstage : Stage.build ref' w = stage' at h
  cases h with
  | listKeyframes infohash sessionId =>
      obtain ⟨keyframes, -, hreply⟩ := Stage.ofResult_eq_build hstage.symm
      rw [Stage.ofManifest] at hreply
      split at hreply
      · cases hreply
      · split at hreply <;> cases hreply
  | generateInit =>
      obtain ⟨data, -, hreply⟩ := Stage.ofResult_eq_build hstage.symm
      cases hreply
  | checkIndex _ segmentIdx =>
      obtain ⟨keyframes, -, hreply⟩ := Stage.ofResult_eq_build hstage.symm
      rw [Stage.ofWindow] at hreply
      split at hreply <;> cases hreply
  | firstInit _ w' =>
      obtain ⟨data, hdata, hreply⟩ := Stage.ofResult_eq_build hstage.symm
      cases hreply
      obtain ⟨built, bytes, hframe, -, hbuilt⟩ := generateInitSegment_frame o.session
      rw [hframe]
      exact ⟨rfl, hbuilt ⟨data, hdata⟩⟩
  | build _ w' =>
      obtain ⟨data, -, hreply⟩ := Stage.ofResult_eq_build hstage.symm
      cases hreply

theorem initSound_create {c : AacCodec δ ε α} {reopen : Reopen} {s : Session δ ε α}
    (hcreate : create c reopen = .ok s) : InitSound s := by
  obtain ⟨-, ⟨hnot, -, -⟩, -, -⟩ := create_eq_ok hcreate
  exact fun hbuilt ↦ by cases hnot.symm.trans hbuilt

theorem Advance.initsSound {reopen : Reopen} {s s' : State δ ε α} {stage stage' : Stage}
    (h : Advance files c reopen s stage stage' s') (hs : InitsSound s) : InitsSound s' := by
  intro ref o' ho'
  rcases h.object ho' with ⟨o, ho, -, hsession | hmethod⟩ | ⟨_, _, _, -, -, hcreate, -⟩
  · rw [hsession]
    exact hs ref o ho
  · obtain ⟨sec, -, hsession, -⟩ := hmethod.runs_eq
    rw [hsession]
    exact (runSection_initSound _ c sec (hs ref o ho)).1
  · exact initSound_create hcreate

theorem Advance.initBuilt {reopen : Reopen} {s s' : State δ ε α} {stage stage' : Stage}
    (h : Advance files c reopen s stage stage' s') (hs : InitsSound s) {ref : ℕ}
    (hbuilt : ∃ o, s.objects[ref]? = some o ∧ o.session.initBuilt = true) :
    ∃ o, s'.objects[ref]? = some o ∧ o.session.initBuilt = true := by
  obtain ⟨o, ho, hbuilt⟩ := hbuilt
  obtain ⟨o', ho', -, hsession | hmethod⟩ := h.object_next ho
  · exact ⟨o', ho', by rw [hsession]; exact hbuilt⟩
  · obtain ⟨sec, -, hsession, -⟩ := hmethod.runs_eq
    refine ⟨o', ho', ?_⟩
    rw [hsession]
    exact (runSection_initSound _ c sec (hs ref o ho)).2 hbuilt

theorem Advance.initSeen {reopen : Reopen} {s s' : State δ ε α} {stage stage' : Stage}
    (h : Advance files c reopen s stage stage' s') {ref : ℕ} {w : Window}
    (hstage : stage = .build ref w → ∃ o, s.objects[ref]? = some o ∧ o.session.initBuilt = true)
    (hbuild : stage' = .build ref w) :
    ∃ o, s'.objects[ref]? = some o ∧ o.session.initBuilt = true := by
  cases h with
  | constructFails infohash sessionId createdAt stop hcreate =>
      exact absurd hbuild (Stage.ofStop_ne_build stop ref w)
  | readInitBuilt ref' w' o ho hbuilt =>
      cases hbuild
      exact ⟨o, ho, hbuilt⟩
  | method _ ref' o _ session ho hmethod =>
      subst hbuild
      obtain ⟨rfl, hbuilt⟩ := hmethod.leads_to_build
      rw [State.getElem?_setSession, ho, Option.map_some, if_pos rfl]
      exact ⟨_, rfl, hbuilt⟩
  | dangling _ ref' htarget hnone => exact hstage hbuild
  | _ => cases hbuild

theorem Stage.ofRoute_ne_build (r : Option Route) (ref : ℕ) (w : Window) :
    Stage.ofRoute r ≠ .build ref w := by
  match r with
  | none => simp [Stage.ofRoute]
  | some .health => simp [Stage.ofRoute]
  | some (.manifest infohash) => simp [Stage.ofRoute]
  | some (.init infohash sessionId) =>
      rw [Stage.ofRoute]
      split <;> simp
  | some (.segment infohash sessionId segmentIdx) =>
      rw [Stage.ofRoute]
      split <;> simp

variable (files c) in
theorem initSeen_keeps : ThreadPool.Keeps (program files c) (fun _ _ _ ↦ True) InitsSound InitSeen
    (fun _ _ _ ↦ True) where
  symm _ _ _ _ := trivial
  start path s _ :=
    ⟨fun ref w hstage ↦ absurd hstage (Stage.ofRoute_ne_build _ ref w), fun _ _ ↦ trivial⟩
  outside elapsed s h := ⟨h, fun _ hu ↦ hu, fun _ _ _ ↦ trivial⟩
  next reopen h s _ hs hlocal := by
    have hadvance := advance_spec files c reopen h.stage s
    refine ⟨hadvance.initsSound hs, fun ref w hstage ↦ ?_, fun u hu _ ↦ ⟨fun ref w hstage ↦ ?_,
      trivial⟩, fun _ _ _ ↦ trivial⟩
    · exact hadvance.initSeen (hlocal ref w) hstage
    · exact hadvance.initBuilt hs (hu ref w hstage)

abbrev InitHolds (p : Pool δ ε α) : Prop :=
  ThreadPool.Holds InitsSound InitSeen (fun _ _ _ ↦ True) p

theorem initHolds_startUp (now : ℤ) : InitHolds (startUp now : Pool δ ε α) :=
  ⟨fun _ _ h ↦ (by cases h), fun _ h ↦ (by cases h), fun _ _ _ _ _ _ _ ↦ trivial⟩

theorem InitHolds.step {p : Pool δ ε α} (h : InitHolds p) (move : Move) :
    InitHolds (serverStep files c move p).2 := by
  refine ThreadPool.Holds.step (initSeen_keeps files c) h ?_
  cases move with
  | proceed i input => exact fun _ _ ↦ trivial
  | _ => trivial

variable (files c) in
theorem InitHolds.finalState {p : Pool δ ε α} (h : InitHolds p) (moves : List Move) :
    InitHolds (CallRun.finalState (serverStep files c) moves p) :=
  CallRun.finalState_of_invariant (fun move _ _ h ↦ h.step move)
    (fun _ _ ↦ trivial) h

theorem buildsAfterInit_of_sectionOn {p : Pool δ ε α} (h : InitHolds p) {ref : ℕ} {move : Move}
    {sec : Section} {o : SessionObject δ ε α} (hsection : sectionOn ref move p = some (sec, o)) :
    BuildsAfterInit sec o.session := by
  cases move with
  | arrive path => cases hsection
  | outside elapsed => cases hsection
  | proceed i reopen =>
      simp only [sectionOn, Option.bind_eq_bind, Option.bind_eq_some_iff] at hsection
      obtain ⟨t, ht, ⟨ref', sec'⟩, hruns, o', ho', hsection⟩ := hsection
      split at hsection
      · next heq =>
          cases hsection
          cases hstage : t.stage <;> rw [hstage] at hruns <;> cases hruns
          all_goals try trivial
          next w =>
            obtain ⟨o', ho'', hbuilt⟩ := h.each t (List.mem_of_getElem? ht) ref' w hstage
            obtain rfl : o = o' := Option.some.inj (ho'.symm.trans ho'')
            exact hbuilt
      · cases hsection

/-- In every run of the server, and for every session, the answers that the handlers get
from it are those of calls that hold its lock throughout, one after the other in the
order of their last sections; the session is left as these calls leave it, but for an
init segment that may be built already. -/
theorem session_calls_linearize (now : ℤ) (before after : List Move) {ref : ℕ}
    {o : SessionObject δ ε α}
    (ho : (CallRun.finalState (serverStep files c) before
      (startUp now)).shared.objects[ref]? = some o) :
    let p := CallRun.finalState (serverStep files c) before (startUp now)
    let calls := CallRun.history (serverStep files c) (endedOn ref) after p
    CallRun.results (answer (files o.infohash) c) calls o.session =
        CallRun.history (serverStep files c) (answersOf files c ref) after p ∧
      ∃ o', (CallRun.finalState (serverStep files c) after p).shared.objects[ref]? = some o' ∧
        o'.infohash = o.infohash ∧
        Ahead o'.session (CallRun.finalState (answer (files o.infohash) c) calls o.session) := by
  intro p calls
  have hholds : InitHolds p := (initHolds_startUp now).finalState files c before
  have hstep : ∀ (move : Move) (q : Pool δ ε α) (s' : Session δ ε α), True →
      (InitHolds q ∧ ∃ o', q.shared.objects[ref]? = some o' ∧ o'.infohash = o.infohash ∧
        Ahead o'.session s') →
      (InitHolds (serverStep files c move q).2 ∧
        ∃ o', (serverStep files c move q).2.shared.objects[ref]? = some o' ∧
          o'.infohash = o.infohash ∧ Ahead o'.session
            (CallRun.finalState (answer (files o.infohash) c) (endedOn ref move q) s')) ∧
      CallRun.results (answer (files o.infohash) c) (endedOn ref move q) s' =
        answersOf files c ref move q := by
    rintro move q s' - ⟨hq, o', ho', hfile, hahead⟩
    obtain ⟨o'', ho'', hsame, hsession⟩ := step_session files c move ho'
    rcases hsession with ⟨hnone, hsession⟩ | ⟨sec, hsection, hsession⟩
    · rw [endedOn, answersOf, hnone]
      exact ⟨⟨hq.step move, o'', ho'', hsame.trans hfile, hsession ▸ hahead⟩, rfl⟩
    · have hbuild := buildsAfterInit_of_sectionOn hq hsection
      obtain ⟨⟨-, hahead'⟩, hresults⟩ :=
        ahead_step (files o'.infohash) c sec hbuild ⟨hq.shared ref o' ho', hahead⟩
      rw [endedOn, answersOf, hsection, ← hfile]
      exact ⟨⟨hq.step move, o'', ho'', hsame, hsession ▸ hahead'⟩, hresults⟩
  obtain ⟨⟨-, hfinal⟩, hresults⟩ := CallRun.simulation hstep
    (CallRun.always_of_forall (fun _ _ _ ↦ trivial) p) ⟨hholds, o, ho, rfl, .same⟩
  exact ⟨hresults, hfinal⟩

/-! Two requests for a segment, whose handlers come to the session by turns: each of them
between the sections of the other one. -/

def twoCueVideo : Media :=
  { Session.twoCueFile with
    packetsFromOffset := fun _ _ ↦ Session.twoCuePackets
    packetsFromTimestamp := fun _ _ _ ↦ Session.twoCuePackets }

def twoCueManifest : List Move :=
  .arrive ('/' :: (sampleInfohash ++ ".m3u8".toList)) ::
    List.replicate 5 (.proceed 0 (.opened twoCueVideo.context))

def segmentsByTurns : List Move :=
  let proceed (i : ℕ) : Move := .proceed i (.opened twoCueVideo.context)
  [.arrive ('/' :: (sampleInfohash ++ "/session-0/0.m4s".toList)),
    .arrive ('/' :: (sampleInfohash ++ "/session-0/0.m4s".toList)), proceed 1, proceed 2,
    proceed 1, proceed 1, proceed 2, proceed 1, proceed 2, proceed 2, proceed 1]

theorem session_calls_linearize_segments :
    ∃ o, (CallRun.finalState (serverStep (fun _ ↦ twoCueVideo) Session.noCodec)
        twoCueManifest (startUp 0)).shared.objects[0]? = some o ∧
      let p := CallRun.finalState (serverStep (fun _ ↦ twoCueVideo) Session.noCodec)
        twoCueManifest (startUp 0)
      let calls := CallRun.history (serverStep (fun _ ↦ twoCueVideo) Session.noCodec)
        (endedOn 0) segmentsByTurns p
      calls = [.getKeyframesMs, .getKeyframesMs,
          .generateSegment (.opened twoCueVideo.context) ⟨0, 0, 10000⟩,
          .generateSegment (.opened twoCueVideo.context) ⟨0, 0, 10000⟩] ∧
        CallRun.results (answer twoCueVideo Session.noCodec) calls o.session =
          CallRun.history (serverStep (fun _ ↦ twoCueVideo) Session.noCodec)
            (answersOf (fun _ ↦ twoCueVideo) Session.noCodec 0) segmentsByTurns p ∧
        ∃ o', (CallRun.finalState (serverStep (fun _ ↦ twoCueVideo) Session.noCodec)
            segmentsByTurns p).shared.objects[0]? = some o' ∧
          o'.infohash = o.infohash ∧
          Ahead o'.session
            (CallRun.finalState (answer twoCueVideo Session.noCodec) calls o.session) := by
  have hsome : (CallRun.finalState (serverStep (fun _ ↦ twoCueVideo) Session.noCodec)
      twoCueManifest (startUp 0)).shared.objects[0]?.isSome = true := by decide +kernel
  obtain ⟨o, ho⟩ := Option.isSome_iff_exists.mp hsome
  exact ⟨o, ho, by decide +kernel, @session_calls_linearize Unit Unit Unit (fun _ ↦ twoCueVideo)
    Session.noCodec 0 twoCueManifest segmentsByTurns 0 o ho⟩

end Server

end Fmp4Packager
