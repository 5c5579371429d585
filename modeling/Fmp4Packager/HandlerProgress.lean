import Fmp4Packager.TruthfulReplies

/-!
# Every request is answered

A handler ends after at most as many stages as its route has, whatever the other handlers
do in between and whatever the openings of the file come to; with a reply, unless the
process crashes.  When a handler gets its turns is left open: neither the waiting for a lock
nor that for a thread of the library is part of a stage.
-/

namespace Fmp4Packager

namespace Server

open Session

variable {δ ε α : Type} {files : List Char → Media} {c : AacCodec δ ε α}

/-- How many stages a handler has left, at most. -/
def Stage.left : Stage → ℕ
  | .cleanup _ => 6
  | .takeId _ => 5
  | .readClock _ _ => 4
  | .construct _ _ _ => 3
  | .insert _ _ _ => 2
  | .listKeyframes _ _ _ => 1
  | .findInit _ _ => 2
  | .generateInit _ => 1
  | .findSegment _ _ _ => 5
  | .checkIndex _ _ => 4
  | .readInitBuilt _ _ => 3
  | .firstInit _ _ => 2
  | .build _ _ => 1
  | .answered _ => 0
  | .undefined _ => 0

theorem Stage.final_iff_left {stage : Stage} : stage.Final ↔ stage.left = 0 := by
  cases stage <;> simp [Stage.Final, Stage.left]

/-- The session that a handler refers to. -/
def Stage.session : Stage → Option ℕ
  | .insert _ _ ref => some ref
  | .listKeyframes _ _ ref => some ref
  | .generateInit ref => some ref
  | .checkIndex ref _ => some ref
  | .readInitBuilt ref _ => some ref
  | .firstInit ref _ => some ref
  | .build ref _ => some ref
  | _ => none

/-- A handler refers to no session that does not exist. -/
def Refers (s : State δ ε α) (stage : Stage) : Prop :=
  ∀ ref ∈ stage.session, ∃ o, s.objects[ref]? = some o

theorem Refers.mono {s s' : State δ ε α} {stage : Stage} (h : Refers s stage)
    (hgrows : Grows s s') : Refers s' stage := by
  intro ref href
  obtain ⟨o, ho⟩ := h ref href
  obtain ⟨o', ho', -⟩ := hgrows.objects ref o ho
  exact ⟨o', ho'⟩

theorem Stage.ofStop_ends (stop : Stop) :
    (Stage.ofStop stop).left = 0 ∧ (Stage.ofStop stop).session = none := by
  cases stop <;> exact ⟨rfl, rfl⟩

/-- A stage with fewer than `n` stages left, of a handler for the session `ref`. -/
def Stage.LeftFor (ref n : ℕ) (stage : Stage) : Prop :=
  stage.left < n ∧ ∀ ref' ∈ stage.session, ref' = ref

theorem Stage.leftFor_answered {ref n : ℕ} (hn : 0 < n) (reply : Reply) :
    Stage.LeftFor ref n (.answered reply) :=
  ⟨hn, fun _ href ↦ (by cases href)⟩

theorem Stage.leftFor_ofResult {β : Type} {ref n : ℕ} {reply : β → Stage} (hn : 0 < n)
    (hreply : ∀ b, Stage.LeftFor ref n (reply b)) (result : Except Stop β) :
    Stage.LeftFor ref n (.ofResult reply result) := by
  cases result with
  | ok b => exact hreply b
  | error stop =>
      obtain ⟨hleft, hsession⟩ := Stage.ofStop_ends stop
      rw [Stage.ofResult, Stage.LeftFor, hleft, hsession]
      exact ⟨hn, fun _ href ↦ (by cases href)⟩

/-- The method of a session leads its handler on, and to no other session. -/
theorem Method.leftFor {reopen : Reopen} {o : SessionObject δ ε α} {stage stage' : Stage}
    {ref : ℕ} {session : Session δ ε α}
    (h : Method files c reopen o stage ref stage' session) : stage'.LeftFor ref stage.left := by
  cases h with
  | listKeyframes infohash sessionId =>
      refine Stage.leftFor_ofResult (Nat.succ_pos _) (fun keyframes ↦ ?_) _
      rw [Stage.ofManifest]
      split
      · exact Stage.leftFor_answered (Nat.succ_pos _) _
      · split
        · exact ⟨Nat.succ_pos _, fun _ href ↦ (by cases href)⟩
        · exact Stage.leftFor_answered (Nat.succ_pos _) _
  | generateInit =>
      exact Stage.leftFor_ofResult (Nat.succ_pos _)
        (fun data ↦ Stage.leftFor_answered (Nat.succ_pos _) _) _
  | checkIndex _ segmentIdx =>
      refine Stage.leftFor_ofResult (Nat.succ_pos _) (fun keyframes ↦ ?_) _
      rw [Stage.ofWindow]
      split
      · exact Stage.leftFor_answered (Nat.succ_pos _) _
      · exact ⟨Nat.lt_succ_self 3, fun ref' href ↦ (Option.some.inj href).symm⟩
  | firstInit _ w =>
      refine Stage.leftFor_ofResult (Nat.succ_pos _) (fun data ↦ ?_) _
      exact ⟨Nat.lt_succ_self 1, fun ref' href ↦ (Option.some.inj href).symm⟩
  | build _ w =>
      exact Stage.leftFor_ofResult (Nat.succ_pos _)
        (fun data ↦ Stage.leftFor_answered (Nat.succ_pos _) _) _

theorem Advance.left_le {reopen : Reopen} {s s' : State δ ε α} {stage stage' : Stage}
    (h : Advance files c reopen s stage stage' s') (hrefers : Refers s stage) :
    stage'.left ≤ stage.left - 1 := by
  cases h with
  | constructFails infohash sessionId createdAt stop hcreate =>
      rw [(Stage.ofStop_ends stop).1]
      exact Nat.zero_le _
  | method _ ref o _ session ho hmethod => exact Nat.le_sub_one_of_lt hmethod.leftFor.1
  | dangling _ ref htarget hnone =>
      -- there is no such handler
      have href : stage.session = some ref := by
        cases stage <;> cases htarget <;> rfl
      obtain ⟨o, ho⟩ := hrefers ref href
      cases hnone.symm.trans ho
  | _ => exact Nat.le_of_ble_eq_true rfl

theorem Advance.refers {reopen : Reopen} {s s' : State δ ε α} {stage stage' : Stage}
    (h : Advance files c reopen s stage stage' s') (htable : TableSound s)
    (hrefers : Refers s stage) : Refers s' stage' := by
  have hgrows := h.grows
  have hfound : ∀ {key : List Char} {ref : ℕ}, s.sessions.lookup key = some ref →
      ∃ o, s'.objects[ref]? = some o := by
    intro key ref hlookup
    obtain ⟨o, n, ho, -⟩ := htable.entry key ref hlookup
    obtain ⟨o', ho', -⟩ := hgrows.objects ref o ho
    exact ⟨o', ho'⟩
  cases h with
  | constructFails infohash sessionId createdAt stop hcreate =>
      intro ref href
      rw [(Stage.ofStop_ends stop).2] at href
      cases href
  | construct infohash sessionId createdAt session hcreate =>
      rintro ref ⟨⟩
      exact ⟨_, List.getElem?_concat_length⟩
  | insert infohash sessionId ref => exact hrefers.mono hgrows
  | findInit infohash sessionId ref hlookup =>
      rintro ref' ⟨⟩
      exact hfound hlookup
  | findSegment infohash sessionId segmentIdx ref hlookup =>
      rintro ref' ⟨⟩
      exact hfound hlookup
  | readInitBuilt ref w o ho hbuilt => exact hrefers
  | readInitMissing ref w hmissing => exact hrefers
  | method _ ref o _ session ho hmethod =>
      intro ref' href
      rw [hmethod.leftFor.2 ref' href]
      obtain ⟨o', ho', -⟩ := hgrows.objects ref o ho
      exact ⟨o', ho'⟩
  | dangling _ ref htarget hnone => exact hrefers
  | _ => exact fun _ href ↦ (by cases href)

theorem refers_ofRoute (s : State δ ε α) (r : Option Route) : Refers s (.ofRoute r) := by
  have hnone : (Stage.ofRoute r).session = none := by
    match r with
    | none => rfl
    | some .health => rfl
    | some (.manifest infohash) => rfl
    | some (.init infohash sessionId) =>
        rw [Stage.ofRoute]
        split <;> rfl
    | some (.segment infohash sessionId segmentIdx) =>
        rw [Stage.ofRoute]
        split <;> rfl
  rw [Refers, hnone]
  exact fun _ href ↦ (by cases href)

variable (files c) in
theorem refers_keeps : ThreadPool.Keeps (program files c) (fun _ _ _ ↦ True) TableSound
    (fun h s ↦ StageSound s h.stage ∧ Refers s h.stage)
    (fun h k s ↦ Apart h.stage k.stage s) where
  symm := (table_keeps files c).symm
  start path s h := by
    obtain ⟨hsound, hapart⟩ := (table_keeps files c).start path s h
    exact ⟨⟨hsound, refers_ofRoute s (route path)⟩, fun u hu ↦ hapart u hu.1⟩
  outside elapsed s h := by
    obtain ⟨htable, hstage, hapart⟩ := (table_keeps files c).outside elapsed s h
    exact ⟨htable, fun u hu ↦ ⟨hstage u hu.1, hu.2⟩, hapart⟩
  next reopen h s hallowed htable hlocal := by
    have hadvance := advance_spec files c reopen h.stage s
    obtain ⟨htable', hsound, hothers, hapart⟩ :=
      (table_keeps files c).next reopen h s hallowed htable hlocal.1
    refine ⟨htable', ⟨hsound, hadvance.refers htable hlocal.2⟩, fun u hu hu' ↦ ?_, hapart⟩
    obtain ⟨husound, huapart⟩ := hothers u hu.1 hu'
    exact ⟨⟨husound, hu.2.mono hadvance.grows⟩, huapart⟩

abbrev RefersHolds (p : Pool δ ε α) : Prop :=
  ThreadPool.Holds TableSound (fun h s ↦ StageSound s h.stage ∧ Refers s h.stage)
    (fun h k s ↦ Apart h.stage k.stage s) p

theorem refersHolds_startUp (now : ℤ) : RefersHolds (startUp now : Pool δ ε α) := by
  have htable : TableHolds (startUp now : Pool δ ε α) := tableHolds_startUp now
  exact ⟨htable.shared, fun _ h ↦ (by cases h), htable.apart⟩

/-- The handler has come to what has no defined meaning, and with it the process. -/
def Stage.Crashed : Stage → Prop
  | .undefined _ => True
  | _ => False

instance : DecidablePred Stage.Crashed
  | .undefined _ => .isTrue trivial
  | .answered _ | .cleanup _ | .takeId _ | .readClock .. | .construct .. | .insert ..
  | .listKeyframes .. | .findInit .. | .generateInit _ | .findSegment .. | .checkIndex ..
  | .readInitBuilt .. | .firstInit .. | .build .. => .isFalse id

theorem Stage.Final.eq_answered {stage : Stage} (h : stage.Final) (hnot : ¬stage.Crashed) :
    ∃ reply, stage = .answered reply := by
  cases stage with
  | answered reply => exact ⟨reply, rfl⟩
  | undefined what => exact absurd trivial hnot
  | _ => exact h.elim

/-- In every run in which the process does not crash, whatever the openings come to and in
whichever order the handlers proceed: a request is answered once its handler has had as many
turns as its route has stages, and truthfully if the openings find the files. -/
theorem requests_are_answered (now : ℤ) (before after : List Move) (path : List Char) :
    let i := (poolAfter files c now before).threads.length
    let moves := before ++ .arrive path :: after
    (∀ h ∈ (poolAfter files c now moves).threads, ¬h.stage.Crashed) →
      (Stage.ofRoute (route path)).left ≤ ThreadPool.turns i after →
        ∃ reply, (poolAfter files c now moves).threads[i]? = some ⟨path, .answered reply⟩ ∧
          ∀ faults, CallRun.Always (serverStep files c)
              (ThreadPool.Meets (OpensFiles files faults)) moves (startUp now) →
            EndsTruthfully files c faults now moves i ⟨path, .answered reply⟩ := by
  intro i moves hruns hturns
  have hrefers : RefersHolds (poolAfter files c now before) :=
    ThreadPool.Holds.finalState (refers_keeps files c) (refersHolds_startUp now)
      (ThreadPool.always_meets (fun _ _ _ ↦ trivial) before _)
  have hmoves : poolAfter files c now moves = CallRun.finalState (serverStep files c) after
      (serverStep files c (.arrive path) (poolAfter files c now before)).2 := by
    rw [poolAfter, CallRun.finalState_append]
    rfl
  have hi : (serverStep files c (.arrive path) (poolAfter files c now before)).2.threads[i]? =
      some ⟨path, .ofRoute (route path)⟩ := List.getElem?_concat_length
  obtain ⟨h, hh, hleft⟩ := ThreadPool.Holds.rank_finalState (refers_keeps files c)
    (fun h : Handler ↦ h.stage.left)
    (fun reopen h s _ _ hlocal ↦ (advance_spec files c reopen h.stage s).left_le hlocal.2)
    (hrefers.arrive (refers_keeps files c) path)
    (ThreadPool.always_meets (fun _ _ _ ↦ trivial) after _) hi
  have hkept : ∃ h : Handler, (CallRun.finalState (serverStep files c) after
      (serverStep files c (.arrive path) (poolAfter files c now before)).2).threads[i]? = some h ∧
        h.path = path :=
    ThreadPool.kept_finalState (fun h : Handler ↦ h.path = path) (fun _ _ _ hpath ↦ hpath) hi rfl
  obtain ⟨h', hh', rfl⟩ := hkept
  obtain rfl : h = h' := Option.some.inj (hh.symm.trans hh')
  have hfinal : h.stage.Final := Stage.final_iff_left.mpr (by
    have hle : h.stage.left ≤ (Stage.ofRoute (route h.path)).left - ThreadPool.turns i after :=
      hleft
    omega)
  have hh : (poolAfter files c now moves).threads[i]? = some h := hmoves ▸ hh
  obtain ⟨reply, hreply⟩ := hfinal.eq_answered (hruns h (List.mem_of_getElem? hh))
  have hanswered : h = ⟨h.path, .answered reply⟩ := by rw [← hreply]
  refine ⟨reply, hanswered ▸ hh, fun faults hopens ↦ ?_⟩
  exact hanswered ▸ handlers_end_truthfully faults now moves hopens i h hh hfinal

/-- A manifest, whose handler takes its turns between those of another request. -/
def manifestBetween : List Move :=
  [.proceed 0 .allocFails, .arrive "/health".toList, .proceed 0 .allocFails, .outside 60,
    .proceed 1 .allocFails, .proceed 0 .allocFails, .proceed 0 (.opened (videoFile []).context),
    .proceed 0 .allocFails, .proceed 0 .allocFails]

theorem requests_are_answered_between :
    ∃ reply, (poolAfter (fun _ ↦ videoFile []) noCodec 0
      (.arrive ('/' :: (sampleInfohash ++ ".m3u8".toList)) :: manifestBetween)).threads[0]? =
        some ⟨'/' :: (sampleInfohash ++ ".m3u8".toList), .answered reply⟩ := by
  obtain ⟨reply, hreply, -⟩ := @requests_are_answered Unit Unit Unit (fun _ ↦ videoFile [])
    noCodec 0 [] manifestBetween ('/' :: (sampleInfohash ++ ".m3u8".toList)) (by decide +kernel)
    (by decide +kernel)
  exact ⟨reply, hreply⟩

end Server

end Fmp4Packager
