import Fmp4Packager.Handlers

/-!
# What a stage can do

One relation lists what each stage of a handler does to the globals of the server, and
to which stage it leads.
-/

namespace Fmp4Packager

namespace Server

variable {δ ε α : Type} {files : List Char → Media} {c : AacCodec δ ε α}

/-- The session that the method of a stage works on. -/
def Stage.target : Stage → Option ℕ
  | .listKeyframes _ _ ref => some ref
  | .generateInit ref => some ref
  | .checkIndex ref _ => some ref
  | .firstInit ref _ => some ref
  | .build ref _ => some ref
  | _ => none

/-- A stage in which a method of the session `o` runs: the next stage, and the session
as the method leaves it. -/
inductive Method (files : List Char → Media) (c : AacCodec δ ε α) (reopen : Reopen)
    (o : SessionObject δ ε α) : Stage → ℕ → Stage → Session δ ε α → Prop
  | listKeyframes (infohash : List Char) (sessionId : ℤ) (ref : ℕ) :
      Method files c reopen o (.listKeyframes infohash sessionId ref) ref
        (.ofResult (.ofManifest infohash sessionId)
          (o.session.getKeyframesMs (files o.infohash)).1)
        (o.session.getKeyframesMs (files o.infohash)).2
  | generateInit (ref : ℕ) :
      Method files c reopen o (.generateInit ref) ref
        (.ofResult (fun data ↦ .answered (contentReply "video/mp4" data))
          o.session.generateInitSegment.1)
        o.session.generateInitSegment.2
  | checkIndex (ref : ℕ) (segmentIdx : ℤ) :
      Method files c reopen o (.checkIndex ref segmentIdx) ref
        (.ofResult (fun keyframes ↦ .ofWindow ref keyframes segmentIdx)
          (o.session.getKeyframesMs (files o.infohash)).1)
        (o.session.getKeyframesMs (files o.infohash)).2
  | firstInit (ref : ℕ) (w : Session.Window) :
      Method files c reopen o (.firstInit ref w) ref
        (.ofResult (fun _ ↦ .build ref w) o.session.generateInitSegment.1)
        o.session.generateInitSegment.2
  | build (ref : ℕ) (w : Session.Window) :
      Method files c reopen o (.build ref w) ref
        (.ofResult (fun data ↦ .answered (contentReply "video/mp4" data))
          (o.session.buildSegmentLocked (files o.infohash) c reopen w).1)
        (o.session.buildSegmentLocked (files o.infohash) c reopen w).2

/-- One stage: from a state `s` it leads to the next stage and state. -/
inductive Advance (files : List Char → Media) (c : AacCodec δ ε α) (reopen : Reopen)
    (s : State δ ε α) : Stage → Stage → State δ ε α → Prop
  | cleanup (infohash : List Char) :
      Advance files c reopen s (.cleanup infohash) (.takeId infohash) (s.cleanupOldSessions 30)
  | takeId (infohash : List Char) :
      Advance files c reopen s (.takeId infohash) (.readClock infohash (toInt s.fetchAdds))
        { s with fetchAdds := s.fetchAdds + 1 }
  | readClock (infohash : List Char) (sessionId : ℤ) :
      Advance files c reopen s (.readClock infohash sessionId)
        (.construct infohash sessionId s.now) s
  | constructFails (infohash : List Char) (sessionId createdAt : ℤ) (stop : Stop)
      (hcreate : Session.create c reopen = .error stop) :
      Advance files c reopen s (.construct infohash sessionId createdAt) (.ofStop stop) s
  | construct (infohash : List Char) (sessionId createdAt : ℤ) (session : Session δ ε α)
      (hcreate : Session.create c reopen = .ok session) :
      Advance files c reopen s (.construct infohash sessionId createdAt)
        (.insert infohash sessionId s.objects.length)
        { s with objects := s.objects ++ [⟨infohash, session, createdAt⟩] }
  | insert (infohash : List Char) (sessionId : ℤ) (ref : ℕ) :
      Advance files c reopen s (.insert infohash sessionId ref)
        (.listKeyframes infohash sessionId ref) (s.insertSession infohash sessionId ref)
  | findInitFails (infohash : List Char) (sessionId : ℤ)
      (hlookup : s.sessions.lookup (sessionKey infohash sessionId) = none) :
      Advance files c reopen s (.findInit infohash sessionId)
        (.answered (textReply 404 "Session not found")) s
  | findInit (infohash : List Char) (sessionId : ℤ) (ref : ℕ)
      (hlookup : s.sessions.lookup (sessionKey infohash sessionId) = some ref) :
      Advance files c reopen s (.findInit infohash sessionId) (.generateInit ref) (s.touch ref)
  | findSegmentFails (infohash : List Char) (sessionId segmentIdx : ℤ)
      (hlookup : s.sessions.lookup (sessionKey infohash sessionId) = none) :
      Advance files c reopen s (.findSegment infohash sessionId segmentIdx)
        (.answered (textReply 404 "Session not found")) s
  | findSegment (infohash : List Char) (sessionId segmentIdx : ℤ) (ref : ℕ)
      (hlookup : s.sessions.lookup (sessionKey infohash sessionId) = some ref) :
      Advance files c reopen s (.findSegment infohash sessionId segmentIdx)
        (.checkIndex ref segmentIdx) (s.touch ref)
  | readInitBuilt (ref : ℕ) (w : Session.Window) (o : SessionObject δ ε α)
      (ho : s.objects[ref]? = some o) (hbuilt : o.session.initBuilt = true) :
      Advance files c reopen s (.readInitBuilt ref w) (.build ref w) s
  | readInitMissing (ref : ℕ) (w : Session.Window)
      (hmissing : ∀ o, s.objects[ref]? = some o → o.session.initBuilt = false) :
      Advance files c reopen s (.readInitBuilt ref w) (.firstInit ref w) s
  | method (stage : Stage) (ref : ℕ) (o : SessionObject δ ε α) (stage' : Stage)
      (session : Session δ ε α) (ho : s.objects[ref]? = some o)
      (hmethod : Method files c reopen o stage ref stage' session) :
      Advance files c reopen s stage stage' (s.setSession ref session)
  | dangling (stage : Stage) (ref : ℕ) (htarget : stage.target = some ref)
      (hnone : s.objects[ref]? = none) : Advance files c reopen s stage stage s
  | answered (reply : Reply) : Advance files c reopen s (.answered reply) (.answered reply) s
  | undefined (what : Undefined) :
      Advance files c reopen s (.undefined what) (.undefined what) s

theorem onSession_advance {reopen : Reopen} {s : State δ ε α} {stage : Stage} {ref : ℕ}
    {β : Type} {method : Media → Session δ ε α → Except Stop β × Session δ ε α}
    {reply : β → Stage} (htarget : stage.target = some ref)
    (hmethod : ∀ o, Method files c reopen o stage ref
      (.ofResult reply (method (files o.infohash) o.session).1)
      (method (files o.infohash) o.session).2) :
    Advance files c reopen s stage (onSession files stage ref method reply s).1
      (onSession files stage ref method reply s).2 := by
  rw [onSession]
  cases ho : s.objects[ref]? with
  | none => exact .dangling stage ref htarget ho
  | some o => exact .method stage ref o _ _ ho (hmethod o)

variable (files c) in
theorem advance_spec (reopen : Reopen) (stage : Stage) (s : State δ ε α) :
    Advance files c reopen s stage (advance files c reopen stage s).1
      (advance files c reopen stage s).2 := by
  cases stage with
  | cleanup infohash => exact .cleanup infohash
  | takeId infohash => exact .takeId infohash
  | readClock infohash sessionId => exact .readClock infohash sessionId
  | construct infohash sessionId createdAt =>
      rw [advance, State.constructSession]
      cases hcreate : Session.create c reopen with
      | error stop => exact .constructFails infohash sessionId createdAt stop hcreate
      | ok session => exact .construct infohash sessionId createdAt session hcreate
  | insert infohash sessionId ref => exact .insert infohash sessionId ref
  | listKeyframes infohash sessionId ref =>
      exact onSession_advance rfl fun o ↦ .listKeyframes infohash sessionId ref
  | findInit infohash sessionId =>
      rw [advance, State.getSession]
      cases hlookup : s.sessions.lookup (sessionKey infohash sessionId) with
      | none => exact .findInitFails infohash sessionId hlookup
      | some ref => exact .findInit infohash sessionId ref hlookup
  | generateInit ref => exact onSession_advance rfl fun o ↦ .generateInit ref
  | findSegment infohash sessionId segmentIdx =>
      rw [advance, State.getSession]
      cases hlookup : s.sessions.lookup (sessionKey infohash sessionId) with
      | none => exact .findSegmentFails infohash sessionId segmentIdx hlookup
      | some ref => exact .findSegment infohash sessionId segmentIdx ref hlookup
  | checkIndex ref segmentIdx => exact onSession_advance rfl fun o ↦ .checkIndex ref segmentIdx
  | readInitBuilt ref w =>
      rw [advance]
      cases ho : s.objects[ref]? with
      | none => exact .readInitMissing ref w (by simp [ho])
      | some o =>
          cases hbuilt : o.session.initBuilt with
          | true =>
              simp only [Option.any_some, hbuilt, if_true]
              exact .readInitBuilt ref w o ho hbuilt
          | false =>
              simp only [Option.any_some, hbuilt, Bool.false_eq_true, if_false]
              exact .readInitMissing ref w (by simp [ho, hbuilt])
  | firstInit ref w => exact onSession_advance rfl fun o ↦ .firstInit ref w
  | build ref w => exact onSession_advance rfl fun o ↦ .build ref w
  | answered reply => exact .answered reply
  | undefined what => exact .undefined what

/-- What every stage leaves as it is: the counter grows, and a session stays a session
of its file. -/
structure Grows (s s' : State δ ε α) : Prop where
  fetchAdds : s.fetchAdds ≤ s'.fetchAdds
  objects : ∀ (ref : ℕ) o, s.objects[ref]? = some o →
    ∃ o', s'.objects[ref]? = some o' ∧ o'.infohash = o.infohash

theorem Grows.refl (s : State δ ε α) : Grows s s := ⟨le_rfl, fun _ o ho ↦ ⟨o, ho, rfl⟩⟩

theorem Grows.touch (ref : ℕ) (s : State δ ε α) : Grows s (s.touch ref) := by
  refine ⟨le_rfl, fun j o ho ↦ ?_⟩
  rw [State.getElem?_touch, ho]
  refine ⟨_, rfl, ?_⟩
  split <;> rfl

theorem Grows.setSession (ref : ℕ) (session : Session δ ε α) (s : State δ ε α) :
    Grows s (s.setSession ref session) := by
  refine ⟨le_rfl, fun j o ho ↦ ?_⟩
  rw [State.getElem?_setSession, ho]
  refine ⟨_, rfl, ?_⟩
  split <;> rfl

theorem Advance.grows {reopen : Reopen} {s s' : State δ ε α} {stage stage' : Stage}
    (h : Advance files c reopen s stage stage' s') : Grows s s' := by
  cases h with
  | takeId infohash => exact ⟨Nat.le_succ _, fun _ o ho ↦ ⟨o, ho, rfl⟩⟩
  | construct infohash sessionId createdAt session hcreate =>
      refine ⟨le_rfl, fun ref o ho ↦ ⟨o, ?_, rfl⟩⟩
      exact (List.getElem?_append_left (List.getElem?_eq_some_iff.mp ho).1).trans ho
  | findInit infohash sessionId ref hlookup => exact Grows.touch ref s
  | findSegment infohash sessionId segmentIdx ref hlookup => exact Grows.touch ref s
  | method _ ref o _ session ho hmethod => exact Grows.setSession ref session s
  | cleanup infohash => exact ⟨le_rfl, fun _ o ho ↦ ⟨o, ho, rfl⟩⟩
  | insert infohash sessionId ref => exact ⟨le_rfl, fun _ o ho ↦ ⟨o, ho, rfl⟩⟩
  | _ => exact Grows.refl _

/-- A session after a stage is as it was before, or as the method of the stage left it,
or new. -/
theorem Advance.object {reopen : Reopen} {s s' : State δ ε α} {stage stage' : Stage}
    (h : Advance files c reopen s stage stage' s') {ref : ℕ} {o' : SessionObject δ ε α}
    (ho' : s'.objects[ref]? = some o') :
    (∃ o, s.objects[ref]? = some o ∧ o'.infohash = o.infohash ∧
      (o'.session = o.session ∨ Method files c reopen o stage ref stage' o'.session)) ∨
    ∃ infohash sessionId createdAt, stage = .construct infohash sessionId createdAt ∧
      o'.infohash = infohash ∧ Session.create c reopen = .ok o'.session ∧
        ref = s.objects.length := by
  have htouch : ∀ j : ℕ, (s.touch j).objects[ref]? = some o' →
      ∃ o, s.objects[ref]? = some o ∧ o'.infohash = o.infohash ∧ o'.session = o.session := by
    intro j htouch
    rw [State.getElem?_touch, Option.map_eq_some_iff] at htouch
    obtain ⟨o, ho, rfl⟩ := htouch
    refine ⟨o, ho, ?_⟩
    split <;> exact ⟨rfl, rfl⟩
  cases h with
  | construct infohash sessionId createdAt session hcreate =>
      rcases ThreadPool.getElem?_concat ho' with hold | ⟨hend, rfl⟩
      · exact .inl ⟨o', hold, rfl, .inl rfl⟩
      · exact .inr ⟨infohash, sessionId, createdAt, rfl, rfl, hcreate, hend⟩
  | findInit infohash sessionId j hlookup =>
      obtain ⟨o, ho, hinfohash, hsession⟩ := htouch j ho'
      exact .inl ⟨o, ho, hinfohash, .inl hsession⟩
  | findSegment infohash sessionId segmentIdx j hlookup =>
      obtain ⟨o, ho, hinfohash, hsession⟩ := htouch j ho'
      exact .inl ⟨o, ho, hinfohash, .inl hsession⟩
  | method _ j o _ session ho hmethod =>
      rw [State.getElem?_setSession, Option.map_eq_some_iff] at ho'
      obtain ⟨old, hold, rfl⟩ := ho'
      refine .inl ⟨old, hold, ?_⟩
      by_cases hj : j = ref
      · subst hj
        obtain rfl : o = old := Option.some.inj (ho.symm.trans hold)
        rw [if_pos rfl]
        exact ⟨rfl, .inr hmethod⟩
      · rw [if_neg hj]
        exact ⟨rfl, .inl rfl⟩
  | _ => exact .inl ⟨o', ho', rfl, .inl rfl⟩

theorem Advance.object_next {reopen : Reopen} {s s' : State δ ε α} {stage stage' : Stage}
    (h : Advance files c reopen s stage stage' s') {ref : ℕ} {o : SessionObject δ ε α}
    (ho : s.objects[ref]? = some o) :
    ∃ o', s'.objects[ref]? = some o' ∧ o'.infohash = o.infohash ∧
      (o'.session = o.session ∨ Method files c reopen o stage ref stage' o'.session) := by
  obtain ⟨o', ho', hinfohash⟩ := h.grows.objects ref o ho
  refine ⟨o', ho', hinfohash, ?_⟩
  rcases h.object ho' with ⟨old, hold, -, hsession⟩ | ⟨_, _, _, -, -, -, hend⟩
  · obtain rfl : o = old := Option.some.inj (ho.symm.trans hold)
    exact hsession
  · exact absurd (List.getElem?_eq_some_iff.mp ho).1 (by omega)

/-- Only an insertion makes a key mean a session. -/
theorem Advance.lookup {reopen : Reopen} {s s' : State δ ε α} {stage stage' : Stage}
    (h : Advance files c reopen s stage stage' s') {key : List Char} {ref : ℕ}
    (hlookup : s'.sessions.lookup key = some ref) :
    s.sessions.lookup key = some ref ∨ ∃ infohash sessionId,
      stage = .insert infohash sessionId ref ∧ key = sessionKey infohash sessionId := by
  cases h with
  | cleanup infohash =>
      rw [State.lookup_cleanupOldSessions, Option.filter_eq_some_iff] at hlookup
      exact .inl hlookup.1
  | insert infohash sessionId ref' =>
      rw [State.lookup_insertSession] at hlookup
      split at hlookup
      · next hkey =>
          cases hlookup
          exact .inr ⟨infohash, sessionId, rfl, hkey⟩
      · exact .inl hlookup
  | _ => exact .inl hlookup

/-- Only a cleanup takes a session out of the table. -/
theorem Advance.lookup_kept {reopen : Reopen} {s s' : State δ ε α} {stage stage' : Stage}
    (h : Advance files c reopen s stage stage' s')
    (hclean : ∀ infohash, stage ≠ .cleanup infohash) {key : List Char} {ref : ℕ}
    (hlookup : s.sessions.lookup key = some ref) :
    s'.sessions.lookup key = some ref ∨ ∃ infohash sessionId ref',
      stage = .insert infohash sessionId ref' ∧ key = sessionKey infohash sessionId := by
  cases h with
  | cleanup infohash => exact absurd rfl (hclean infohash)
  | insert infohash sessionId ref' =>
      by_cases hkey : key = sessionKey infohash sessionId
      · exact .inr ⟨infohash, sessionId, ref', rfl, hkey⟩
      · rw [State.lookup_insertSession, if_neg hkey]
        exact .inl hlookup
  | _ => exact .inl hlookup

end Server

end Fmp4Packager
