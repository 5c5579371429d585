import Fmp4Packager.HandlerSteps
import Fmp4Packager.ManifestAgreement
import Fmp4Packager.VideoSeams

/-!
# How long a session is found

The URL of a session leads to that session or to none, whatever the other handlers do,
as long as the counter of the ids has not gone round.  It leads to the session until a
cleanup runs that finds it idle for 31 minutes.
-/

namespace Fmp4Packager

namespace Server

variable {δ ε α : Type} {files : List Char → Media} {c : AacCodec δ ε α}

/-- No id has been handed out twice. -/
def NoWrap (s : State δ ε α) : Prop := s.fetchAdds ≤ 2 ^ 32

/-- Every entry of the table is for the session that it leads to. -/
structure TableSound (s : State δ ε α) : Prop where
  entry : ∀ key ref, s.sessions.lookup key = some ref → ∃ o n, s.objects[ref]? = some o ∧
    n < s.fetchAdds ∧ key = sessionKey o.infohash (toInt n)
  inj : ∀ key key' ref, s.sessions.lookup key = some ref → s.sessions.lookup key' = some ref →
    key = key'
  length : ∀ (ref : ℕ) o, s.objects[ref]? = some o → o.infohash.length = 40

/-- An id that a handler has taken, but that is not yet in the table. -/
structure Taken (sessionId : ℤ) (s : State δ ε α) : Prop where
  issued : ∃ n < s.fetchAdds, sessionId = toInt n
  unused : NoWrap s → ∀ infohash : List Char, infohash.length = 40 →
    s.sessions.lookup (sessionKey infohash sessionId) = none

/-- A session that is not yet in the table. -/
structure Unlisted (infohash : List Char) (ref : ℕ) (s : State δ ε α) : Prop where
  object : ∃ o, s.objects[ref]? = some o ∧ o.infohash = infohash
  lookup : ∀ key, s.sessions.lookup key ≠ some ref

/-- What holds of a manifest handler that has yet to insert its session. -/
def StageSound (s : State δ ε α) : Stage → Prop
  | .cleanup infohash => infohash.length = 40
  | .takeId infohash => infohash.length = 40
  | .readClock infohash sessionId => infohash.length = 40 ∧ Taken sessionId s
  | .construct infohash sessionId _ => infohash.length = 40 ∧ Taken sessionId s
  | .insert infohash sessionId ref =>
      infohash.length = 40 ∧ Taken sessionId s ∧ Unlisted infohash ref s
  | _ => True

def Stage.heldId : Stage → Option ℤ
  | .readClock _ sessionId => some sessionId
  | .construct _ sessionId _ => some sessionId
  | .insert _ sessionId _ => some sessionId
  | _ => none

def Stage.heldRef : Stage → Option ℕ
  | .insert _ _ ref => some ref
  | _ => none

/-- Two handlers hold neither the same id nor the same session to be inserted. -/
structure Apart (t u : Stage) (s : State δ ε α) : Prop where
  ids : NoWrap s → ∀ sessionId, t.heldId = some sessionId → u.heldId ≠ some sessionId
  refs : ∀ ref, t.heldRef = some ref → u.heldRef ≠ some ref

/-- The handler has no session to insert, now or later. -/
def Stage.Settled : Stage → Prop
  | .cleanup _ => False
  | .takeId _ => False
  | .readClock _ _ => False
  | .construct _ _ _ => False
  | .insert _ _ _ => False
  | _ => True

theorem Stage.Settled.sound {stage : Stage} (h : stage.Settled) (s : State δ ε α) :
    StageSound s stage := by
  cases stage <;> first | exact h.elim | trivial

theorem Stage.Settled.heldId {stage : Stage} (h : stage.Settled) : stage.heldId = none := by
  cases stage <;> first | exact h.elim | rfl

theorem Stage.Settled.heldRef {stage : Stage} (h : stage.Settled) : stage.heldRef = none := by
  cases stage <;> first | exact h.elim | rfl

theorem Stage.settled_ofStop (stop : Stop) : (Stage.ofStop stop).Settled := by
  cases stop <;> trivial

theorem Stage.settled_ofResult {β : Type} {reply : β → Stage} (hreply : ∀ b, (reply b).Settled)
    (result : Except Stop β) : (Stage.ofResult reply result).Settled := by
  cases result with
  | error stop => exact Stage.settled_ofStop stop
  | ok b => exact hreply b

theorem Method.settled {reopen : Reopen} {o : SessionObject δ ε α} {stage stage' : Stage} {ref : ℕ}
    {session : Session δ ε α} (h : Method files c reopen o stage ref stage' session) :
    stage.Settled ∧ stage'.Settled := by
  cases h with
  | listKeyframes infohash sessionId =>
      refine ⟨trivial, Stage.settled_ofResult (fun keyframes ↦ ?_) _⟩
      rw [Stage.ofManifest]
      split
      · trivial
      · split <;> trivial
  | generateInit =>
      refine ⟨trivial, Stage.settled_ofResult (fun data ↦ ?_) _⟩
      trivial
  | checkIndex ref segmentIdx =>
      refine ⟨trivial, Stage.settled_ofResult (fun keyframes ↦ ?_) _⟩
      rw [Stage.ofWindow]
      split <;> trivial
  | firstInit ref w =>
      refine ⟨trivial, Stage.settled_ofResult (fun data ↦ ?_) _⟩
      trivial
  | build ref w =>
      refine ⟨trivial, Stage.settled_ofResult (fun data ↦ ?_) _⟩
      trivial

theorem Taken.mono {sessionId : ℤ} {s s' : State δ ε α} (h : Taken sessionId s)
    (hgrows : s.fetchAdds ≤ s'.fetchAdds)
    (hlookup : ∀ key ref, s'.sessions.lookup key = some ref → s.sessions.lookup key = some ref) :
    Taken sessionId s' := by
  obtain ⟨n, hn, hid⟩ := h.issued
  refine ⟨⟨n, hn.trans_le hgrows, hid⟩, fun hwrap infohash hlength ↦ ?_⟩
  have hunused := h.unused (hgrows.trans hwrap) infohash hlength
  by_contra hsome
  obtain ⟨ref, href⟩ := Option.ne_none_iff_exists'.mp hsome
  rw [hlookup _ ref href] at hunused
  cases hunused

theorem Unlisted.mono {infohash : List Char} {ref : ℕ} {s s' : State δ ε α}
    (h : Unlisted infohash ref s) (hgrows : Grows s s')
    (hlookup : ∀ key ref, s'.sessions.lookup key = some ref → s.sessions.lookup key = some ref) :
    Unlisted infohash ref s' := by
  obtain ⟨o, ho, hinfohash⟩ := h.object
  obtain ⟨o', ho', hsame⟩ := hgrows.objects ref o ho
  exact ⟨⟨o', ho', hsame.trans hinfohash⟩, fun key hkey ↦ h.lookup key (hlookup key ref hkey)⟩

theorem StageSound.mono {s s' : State δ ε α} {stage : Stage} (h : StageSound s stage)
    (hgrows : Grows s s')
    (hlookup : ∀ key ref, s'.sessions.lookup key = some ref → s.sessions.lookup key = some ref) :
    StageSound s' stage := by
  cases stage with
  | readClock infohash sessionId => exact ⟨h.1, h.2.mono hgrows.fetchAdds hlookup⟩
  | construct infohash sessionId createdAt => exact ⟨h.1, h.2.mono hgrows.fetchAdds hlookup⟩
  | insert infohash sessionId ref =>
      exact ⟨h.1, h.2.1.mono hgrows.fetchAdds hlookup, h.2.2.mono hgrows hlookup⟩
  | _ => exact h

theorem Taken.insertSession {sessionId sessionId' : ℤ} {infohash : List Char} {ref : ℕ}
    {s : State δ ε α} (h : Taken sessionId s) (hlength : infohash.length = 40)
    (hne : NoWrap s → sessionId ≠ sessionId') :
    Taken sessionId (s.insertSession infohash sessionId' ref) := by
  refine ⟨h.issued, fun hwrap infohash' hlength' ↦ ?_⟩
  rw [State.lookup_insertSession, if_neg]
  · exact h.unused hwrap infohash' hlength'
  · intro hkey
    exact hne hwrap (sessionKey_inj (hlength'.trans hlength.symm) hkey).2

theorem Unlisted.insertSession {infohash infohash' : List Char} {ref ref' : ℕ} {sessionId' : ℤ}
    {s : State δ ε α} (h : Unlisted infohash ref s) (hne : ref' ≠ ref) :
    Unlisted infohash ref (s.insertSession infohash' sessionId' ref') := by
  refine ⟨h.object, fun key hkey ↦ ?_⟩
  rw [State.lookup_insertSession] at hkey
  split at hkey
  · exact hne (Option.some.inj hkey)
  · exact h.lookup key hkey

theorem StageSound.insertSession {s : State δ ε α} {stage : Stage} (h : StageSound s stage)
    {infohash : List Char} {sessionId : ℤ} {ref : ℕ} (hlength : infohash.length = 40)
    (hapart : Apart (.insert infohash sessionId ref) stage s) :
    StageSound (s.insertSession infohash sessionId ref) stage := by
  cases stage with
  | readClock infohash' sessionId' =>
      refine ⟨h.1, h.2.insertSession hlength fun hwrap heq ↦ ?_⟩
      exact hapart.ids hwrap sessionId rfl (heq ▸ rfl)
  | construct infohash' sessionId' createdAt =>
      refine ⟨h.1, h.2.insertSession hlength fun hwrap heq ↦ ?_⟩
      exact hapart.ids hwrap sessionId rfl (heq ▸ rfl)
  | insert infohash' sessionId' ref' =>
      refine ⟨h.1, h.2.1.insertSession hlength fun hwrap heq ↦ ?_,
        h.2.2.insertSession fun heq ↦ ?_⟩
      · exact hapart.ids hwrap sessionId rfl (heq ▸ rfl)
      · exact hapart.refs ref rfl (heq ▸ rfl)
  | _ => exact h

theorem TableSound.mono {s s' : State δ ε α} (h : TableSound s) (hgrows : Grows s s')
    (hlookup : ∀ key ref, s'.sessions.lookup key = some ref → s.sessions.lookup key = some ref)
    (hlength : ∀ (ref : ℕ) o, s'.objects[ref]? = some o → o.infohash.length = 40) :
    TableSound s' := by
  refine ⟨fun key ref hkey ↦ ?_, fun key key' ref hkey hkey' ↦ ?_, hlength⟩
  · obtain ⟨o, n, ho, hn, hkey⟩ := h.entry key ref (hlookup key ref hkey)
    obtain ⟨o', ho', hsame⟩ := hgrows.objects ref o ho
    exact ⟨o', n, ho', hn.trans_le hgrows.fetchAdds, hsame ▸ hkey⟩
  · exact h.inj key key' ref (hlookup key ref hkey) (hlookup key' ref hkey')

theorem TableSound.insertSession {s : State δ ε α} (h : TableSound s) {infohash : List Char}
    {sessionId : ℤ} {ref : ℕ} (htaken : Taken sessionId s) (hunlisted : Unlisted infohash ref s) :
    TableSound (s.insertSession infohash sessionId ref) := by
  refine ⟨fun key ref' hkey ↦ ?_, fun key key' ref' hkey hkey' ↦ ?_, h.length⟩
  · rw [State.lookup_insertSession] at hkey
    split at hkey
    · next heq =>
        obtain ⟨o, ho, rfl⟩ := hunlisted.object
        obtain ⟨n, hn, rfl⟩ := htaken.issued
        cases hkey
        exact ⟨o, n, ho, hn, heq⟩
    · exact h.entry key ref' hkey
  · rw [State.lookup_insertSession] at hkey hkey'
    split at hkey <;> split at hkey'
    · next heq heq' => exact heq.trans heq'.symm
    · cases hkey
      exact absurd hkey' (hunlisted.lookup key')
    · cases hkey'
      exact absurd hkey (hunlisted.lookup key)
    · exact h.inj key key' ref' hkey hkey'

/-! ## One stage -/

theorem Advance.lengths {reopen : Reopen} {s s' : State δ ε α} {stage stage' : Stage}
    (h : Advance files c reopen s stage stage' s') (hstage : StageSound s stage)
    (hlength : ∀ (ref : ℕ) o, s.objects[ref]? = some o → o.infohash.length = 40) (ref : ℕ)
    (o : SessionObject δ ε α) (ho : s'.objects[ref]? = some o) : o.infohash.length = 40 := by
  rcases h.object ho with ⟨old, hold, hsame, -⟩ | ⟨infohash, sessionId, createdAt, rfl, rfl, -, -⟩
  · exact hsame ▸ hlength ref old hold
  · exact hstage.1

theorem Taken.fetchAdd {s : State δ ε α} (h : TableSound s) :
    Taken (toInt s.fetchAdds) { s with fetchAdds := s.fetchAdds + 1 } := by
  refine ⟨⟨s.fetchAdds, Nat.lt_succ_self _, rfl⟩, fun hwrap infohash hlength ↦ ?_⟩
  by_contra hsome
  obtain ⟨ref, href⟩ := Option.ne_none_iff_exists'.mp hsome
  obtain ⟨o, n, ho, hn, hkey⟩ := h.entry _ ref href
  have hid := (sessionKey_inj (hlength.trans (h.length ref o ho).symm) hkey).2
  have hwrap : s.fetchAdds + 1 ≤ 2 ^ 32 := hwrap
  have := toInt_natCast_inj (by omega) (by omega) hid
  omega

/-- A stage keeps the table in order, and its own handler. -/
theorem Advance.sound {reopen : Reopen} {s s' : State δ ε α} {stage stage' : Stage}
    (h : Advance files c reopen s stage stage' s') (htable : TableSound s)
    (hstage : StageSound s stage) : TableSound s' ∧ StageSound s' stage' := by
  have hgrows := h.grows
  have hlengths := h.lengths hstage htable.length
  have hlookup : ∀ key ref, s'.sessions.lookup key = some ref → _ := fun key ref ↦ h.lookup
  cases h with
  | insert infohash sessionId ref =>
      exact ⟨htable.insertSession hstage.2.1 hstage.2.2, trivial⟩
  | cleanup infohash =>
      refine ⟨htable.mono hgrows (fun key ref hkey ↦ ?_) hlengths, hstage⟩
      exact (hlookup key ref hkey).resolve_right (by simp)
  | takeId infohash =>
      exact ⟨htable.mono hgrows (fun key ref hkey ↦ hkey) hlengths, hstage, Taken.fetchAdd htable⟩
  | readClock infohash sessionId => exact ⟨htable, hstage⟩
  | constructFails infohash sessionId createdAt stop hcreate =>
      exact ⟨htable, (Stage.settled_ofStop stop).sound s⟩
  | construct infohash sessionId createdAt session hcreate =>
      refine ⟨htable.mono hgrows (fun key ref hkey ↦ hkey) hlengths, hstage.1,
        hstage.2.mono le_rfl fun key ref hkey ↦ hkey, ⟨_, List.getElem?_concat_length, rfl⟩,
        fun key hkey ↦ ?_⟩
      obtain ⟨o, n, ho, -⟩ := htable.entry key _ hkey
      exact absurd (List.getElem?_eq_some_iff.mp ho).1 (lt_irrefl _)
  | method _ ref o _ session ho hmethod =>
      exact ⟨htable.mono hgrows (fun key ref hkey ↦ hkey) hlengths, hmethod.settled.2.sound _⟩
  | dangling _ ref htarget hnone => exact ⟨htable, hstage⟩
  | _ => exact ⟨htable.mono hgrows (fun key ref hkey ↦ hkey) hlengths, trivial⟩

theorem Apart.mono {t u : Stage} {s s' : State δ ε α} (h : Apart t u s)
    (hgrows : s.fetchAdds ≤ s'.fetchAdds) : Apart t u s' :=
  ⟨fun hwrap ↦ h.ids (hgrows.trans hwrap), h.refs⟩

theorem Apart.of_settled {t : Stage} (ht : t.Settled) (u : Stage) (s : State δ ε α) :
    Apart t u s := by
  refine ⟨fun _ sessionId hid ↦ ?_, fun ref href ↦ ?_⟩
  · rw [ht.heldId] at hid
    cases hid
  · rw [ht.heldRef] at href
    cases href

theorem StageSound.heldId_taken {s : State δ ε α} {stage : Stage} (h : StageSound s stage)
    {sessionId : ℤ} (hid : stage.heldId = some sessionId) : Taken sessionId s := by
  cases stage <;> cases hid
  · exact h.2
  · exact h.2
  · exact h.2.1

theorem StageSound.heldRef_lt {s : State δ ε α} {stage : Stage} (h : StageSound s stage)
    {ref : ℕ} (href : stage.heldRef = some ref) : ref < s.objects.length := by
  cases stage <;> cases href
  obtain ⟨o, ho, -⟩ := h.2.2.object
  exact (List.getElem?_eq_some_iff.mp ho).1

/-- A stage of one handler leaves the others in order, and apart from it. -/
theorem Advance.others {reopen : Reopen} {s s' : State δ ε α} {stage stage' : Stage}
    (h : Advance files c reopen s stage stage' s') (hstage : StageSound s stage) {u : Stage}
    (hu : StageSound s u) (hapart : Apart stage u s) : StageSound s' u ∧ Apart stage' u s' := by
  have hgrows := h.grows
  have hlookup : ∀ key ref, s'.sessions.lookup key = some ref → _ := fun key ref ↦ h.lookup
  cases h with
  | insert infohash sessionId ref =>
      exact ⟨hu.insertSession hstage.1 hapart, Apart.of_settled (by trivial) u _⟩
  | cleanup infohash =>
      refine ⟨hu.mono hgrows fun key ref hkey ↦ (hlookup key ref hkey).resolve_right (by simp), ?_⟩
      exact ⟨fun _ _ hid ↦ (by cases hid), fun _ href ↦ (by cases href)⟩
  | takeId infohash =>
      refine ⟨hu.mono hgrows fun key ref hkey ↦ hkey, fun hwrap sessionId hid huid ↦ ?_,
        fun ref href ↦ (by cases href)⟩
      -- the ids of the others are from before
      obtain rfl : toInt s.fetchAdds = sessionId := Option.some.inj hid
      obtain ⟨n, hn, heq⟩ := (hu.heldId_taken huid).issued
      have hwrap : s.fetchAdds + 1 ≤ 2 ^ 32 := hwrap
      have := toInt_natCast_inj (by omega) (by omega) heq
      omega
  | readClock infohash sessionId => exact ⟨hu, hapart.ids, fun ref href ↦ (by cases href)⟩
  | constructFails infohash sessionId createdAt stop hcreate =>
      exact ⟨hu, Apart.of_settled (Stage.settled_ofStop stop) u s⟩
  | construct infohash sessionId createdAt session hcreate =>
      refine ⟨hu.mono hgrows fun key ref hkey ↦ hkey, hapart.ids, fun ref href huref ↦ ?_⟩
      obtain rfl : s.objects.length = ref := Option.some.inj href
      exact absurd (hu.heldRef_lt huref) (lt_irrefl _)
  | method _ ref o _ session ho hmethod =>
      exact ⟨hu.mono hgrows fun key ref hkey ↦ hkey, Apart.of_settled hmethod.settled.2 u _⟩
  | dangling _ ref htarget hnone => exact ⟨hu, hapart⟩
  | _ => exact ⟨hu.mono hgrows fun key ref hkey ↦ hkey, Apart.of_settled (by trivial) u _⟩

theorem Stage.settled_ofRoute {r : Option Route} (hr : ∀ infohash, r ≠ some (.manifest infohash)) :
    (Stage.ofRoute r).Settled := by
  match r with
  | none => trivial
  | some .health => trivial
  | some (.manifest infohash) => exact hr infohash rfl
  | some (.init infohash sessionId) =>
      rw [Stage.ofRoute]
      split <;> trivial
  | some (.segment infohash sessionId segmentIdx) =>
      rw [Stage.ofRoute]
      split <;> trivial

theorem stageSound_ofRoute (path : List Char) (s : State δ ε α) :
    StageSound s (.ofRoute (route path)) ∧ (Stage.ofRoute (route path)).heldId = none ∧
      (Stage.ofRoute (route path)).heldRef = none := by
  by_cases hmanifest : ∃ infohash, route path = some (.manifest infohash)
  · obtain ⟨infohash, hroute⟩ := hmanifest
    rw [hroute]
    exact ⟨(List.length_map _).trans (matchManifestRoute_eq_some (match_of_route hroute)).1.1, rfl,
      rfl⟩
  · have h := Stage.settled_ofRoute fun infohash hroute ↦ hmanifest ⟨infohash, hroute⟩
    exact ⟨h.sound s, h.heldId, h.heldRef⟩

abbrev TableHolds (p : Pool δ ε α) : Prop :=
  ThreadPool.Holds TableSound (fun h s ↦ StageSound s h.stage)
    (fun h k s ↦ Apart h.stage k.stage s) p

variable (files c) in
theorem table_keeps : ThreadPool.Keeps (program files c) (fun _ _ _ ↦ True) TableSound
    (fun h s ↦ StageSound s h.stage) (fun h k s ↦ Apart h.stage k.stage s) where
  symm t u s h := ⟨fun hwrap id hu ht ↦ h.ids hwrap id ht hu, fun ref hu ht ↦ h.refs ref ht hu⟩
  start path s _ := by
    obtain ⟨hsound, hid, href⟩ := stageSound_ofRoute path s
    refine ⟨hsound, fun u _ ↦ ⟨fun _ sessionId h ↦ ?_, fun ref h ↦ ?_⟩⟩
    · cases hid.symm.trans h
    · cases href.symm.trans h
  outside elapsed s h := by
    have hgrows : Grows s { s with now := s.now + elapsed } :=
      ⟨le_rfl, fun _ o ho ↦ ⟨o, ho, rfl⟩⟩
    refine ⟨h.mono hgrows (fun _ _ hkey ↦ hkey) h.length, fun u hu ↦ ?_,
      fun u v huv ↦ huv.mono le_rfl⟩
    exact hu.mono hgrows fun _ _ hkey ↦ hkey
  next reopen h s _ htable hstage := by
    have hadvance := advance_spec files c reopen h.stage s
    obtain ⟨htable', hstage'⟩ := hadvance.sound htable hstage
    exact ⟨htable', hstage', fun u hu hapart ↦ hadvance.others hstage hu hapart,
      fun u v huv ↦ huv.mono hadvance.grows.fetchAdds⟩

theorem tableHolds_startUp (now : ℤ) : TableHolds (startUp now : Pool δ ε α) := by
  refine ⟨⟨fun key ref h ↦ ?_, fun key key' ref h ↦ ?_, fun ref o h ↦ ?_⟩, fun t ht ↦ ?_,
    fun i j t u _ ht ↦ ?_⟩
  · cases h
  · cases h
  · cases h
  · cases ht
  · cases ht

variable (files c) in
theorem TableHolds.finalState {p : Pool δ ε α} (h : TableHolds p) (moves : List Move) :
    TableHolds (CallRun.finalState (serverStep files c) moves p) := by
  exact ThreadPool.Holds.finalState (table_keeps files c) h
    (ThreadPool.always_meets (fun _ _ _ ↦ trivial) moves p)

/-- The key of a session that was in the table once: it means this session or none. -/
structure Bound (key : List Char) (ref n : ℕ) (s : State δ ε α) : Prop
    extends TableSound s where
  issued : n < s.fetchAdds
  object : ∃ o, s.objects[ref]? = some o
  lookup : NoWrap s → ∀ ref', s.sessions.lookup key = some ref' → ref' = ref

/-- The id of the session is not to be inserted again. -/
structure StageApart (n : ℕ) (s : State δ ε α) (stage : Stage) : Prop where
  sound : StageSound s stage
  heldId : NoWrap s → stage.heldId ≠ some (toInt n)

theorem Advance.heldId {reopen : Reopen} {s s' : State δ ε α} {stage stage' : Stage}
    (h : Advance files c reopen s stage stage' s') :
    stage'.heldId = none ∨ stage'.heldId = stage.heldId ∨
      stage'.heldId = some (toInt s.fetchAdds) ∧ s'.fetchAdds = s.fetchAdds + 1 := by
  cases h with
  | takeId infohash => exact .inr (.inr ⟨rfl, rfl⟩)
  | readClock infohash sessionId => exact .inr (.inl rfl)
  | constructFails infohash sessionId createdAt stop hcreate =>
      exact .inl (Stage.settled_ofStop stop).heldId
  | construct infohash sessionId createdAt session hcreate => exact .inr (.inl rfl)
  | method _ ref o _ session ho hmethod => exact .inl hmethod.settled.2.heldId
  | dangling _ ref htarget hnone => exact .inr (.inl rfl)
  | _ => exact .inl rfl

theorem Advance.stageApart {reopen : Reopen} {s s' : State δ ε α} {stage stage' : Stage}
    (h : Advance files c reopen s stage stage' s') (htable : TableSound s) {n : ℕ}
    (hn : n < s.fetchAdds) (hstage : StageApart n s stage) : StageApart n s' stage' := by
  refine ⟨(h.sound htable hstage.sound).2, fun hwrap hid ↦ ?_⟩
  rcases h.heldId with hnone | hsame | ⟨hnew, hadd⟩
  · cases hnone.symm.trans hid
  · exact hstage.heldId (h.grows.fetchAdds.trans hwrap) (hsame.symm.trans hid)
  · have hwrap : s'.fetchAdds ≤ 2 ^ 32 := hwrap
    have := toInt_natCast_inj (by omega) (by omega) (Option.some.inj (hnew.symm.trans hid))
    omega

/-- A key that belongs to an issued id is not inserted by any stage. -/
theorem Advance.lookup_of_issued {reopen : Reopen} {s s' : State δ ε α} {stage stage' : Stage}
    (h : Advance files c reopen s stage stage' s') {infohash : List Char} {n : ℕ}
    (hlength : infohash.length = 40) (hstage : StageApart n s stage) (hwrap : NoWrap s) {ref : ℕ}
    (hlookup : s'.sessions.lookup (sessionKey infohash (toInt n)) = some ref) :
    s.sessions.lookup (sessionKey infohash (toInt n)) = some ref := by
  refine (h.lookup hlookup).resolve_right ?_
  rintro ⟨infohash', sessionId, rfl, hkey⟩
  have hlength' : infohash'.length = 40 := hstage.sound.1
  obtain ⟨-, hid⟩ := sessionKey_inj (hlength.trans hlength'.symm) hkey
  exact hstage.heldId hwrap (hid ▸ rfl)

abbrev BoundHolds (infohash : List Char) (ref n : ℕ) (p : Pool δ ε α) : Prop :=
  ThreadPool.Holds (Bound (sessionKey infohash (toInt n)) ref n)
    (fun h s ↦ StageApart n s h.stage) (fun h k s ↦ Apart h.stage k.stage s) p

variable (files c) in
theorem bound_keeps {infohash : List Char} (hlength : infohash.length = 40) (ref n : ℕ) :
    ThreadPool.Keeps (program files c) (fun _ _ _ ↦ True)
      (Bound (sessionKey infohash (toInt n)) ref n) (fun h s ↦ StageApart n s h.stage)
      (fun h k s ↦ Apart h.stage k.stage s) where
  symm := (table_keeps files c).symm
  start path s h := by
    obtain ⟨hsound, hid, -⟩ := stageSound_ofRoute path s
    refine ⟨⟨hsound, fun _ hheld ↦ ?_⟩, fun u hu ↦ ?_⟩
    · cases hid.symm.trans hheld
    · exact ((table_keeps files c).start path s h.toTableSound).2 u hu.sound
  outside elapsed s h := by
    obtain ⟨htable, hstage, hapart⟩ :=
      (table_keeps files c).outside elapsed s h.toTableSound
    exact ⟨⟨htable, h.issued, h.object, h.lookup⟩,
      fun u hu ↦ ⟨hstage u hu.sound, hu.heldId⟩, hapart⟩
  next reopen h s _ hbound hstage := by
    have hadvance := advance_spec files c reopen h.stage s
    have hgrows := hadvance.grows
    obtain ⟨o, ho⟩ := hbound.object
    obtain ⟨o', ho', -⟩ := hgrows.objects ref o ho
    obtain ⟨htable', -⟩ := hadvance.sound hbound.toTableSound hstage.sound
    refine ⟨⟨htable', hbound.issued.trans_le hgrows.fetchAdds, ⟨o', ho'⟩, fun hwrap ref' href ↦ ?_⟩,
      hadvance.stageApart hbound.toTableSound hbound.issued hstage, fun u hu hapart ↦ ?_,
      fun u v huv ↦ huv.mono hgrows.fetchAdds⟩
    · have hwrap : NoWrap s := hgrows.fetchAdds.trans hwrap
      exact hbound.lookup hwrap ref' (hadvance.lookup_of_issued hlength hstage hwrap href)
    · obtain ⟨hsound, hapart⟩ := hadvance.others hstage.sound hu.sound hapart
      exact ⟨⟨hsound, fun hwrap ↦ hu.heldId (hgrows.fetchAdds.trans hwrap)⟩, hapart⟩

/-- A session in the table of a server that has been running. -/
theorem TableHolds.bound {p : Pool δ ε α} (h : TableHolds p) {key : List Char} {ref : ℕ}
    (hlookup : p.shared.sessions.lookup key = some ref) :
    ∃ (infohash : List Char) (n : ℕ), infohash.length = 40 ∧
      key = sessionKey infohash (toInt n) ∧ BoundHolds infohash ref n p := by
  obtain ⟨o, n, ho, hn, rfl⟩ := h.shared.entry key ref hlookup
  refine ⟨o.infohash, n, h.shared.length ref o ho, rfl, ⟨h.shared, hn, ⟨o, ho⟩, ?_⟩, ?_, h.apart⟩
  · intro _ ref' href
    exact Option.some.inj (href.symm.trans hlookup)
  · intro u hu
    refine ⟨h.each u hu, fun hwrap hid ↦ ?_⟩
    have hunused := ((h.each u hu).heldId_taken hid).unused hwrap o.infohash
      (h.shared.length ref o ho)
    cases hunused.symm.trans hlookup

/-! ## Runs -/

theorem step_grows (move : Move) (p : Pool δ ε α) :
    p.shared.fetchAdds ≤ (serverStep files c move p).2.shared.fetchAdds := by
  cases move with
  | arrive path => exact le_rfl
  | outside elapsed => exact le_rfl
  | proceed i reopen =>
      rw [serverStep, ThreadPool.step]
      cases p.threads[i]? with
      | none => exact le_rfl
      | some h => exact (advance_spec files c reopen h.stage p.shared).grows.fetchAdds

theorem finalState_grows (moves : List Move) (p : Pool δ ε α) :
    p.shared.fetchAdds ≤ (CallRun.finalState (serverStep files c) moves p).shared.fetchAdds := by
  induction moves generalizing p with
  | nil => exact le_rfl
  | cons move moves ih => exact (step_grows move p).trans (ih _)

theorem always_noWrap {moves : List Move} {p : Pool δ ε α}
    (hwrap : NoWrap (CallRun.finalState (serverStep files c) moves p).shared) :
    CallRun.Always (serverStep files c) (fun move p ↦ NoWrap (serverStep files c move p).2.shared)
      moves p := by
  induction moves generalizing p with
  | nil => trivial
  | cons move moves ih => exact ⟨(finalState_grows moves _).trans hwrap, ih hwrap⟩

/-- The move is the stage of a handler. -/
def Runs (stage : Stage) (move : Move) (p : Pool δ ε α) : Prop :=
  ∃ i reopen h, move = .proceed i reopen ∧ p.threads[i]? = some h ∧ h.stage = stage

/-- No session that is inserted takes the place of another one in the table, or is in it
already, in whichever order the handlers proceed. -/
theorem insertions_are_fresh (now : ℤ) (moves : List Move)
    (hwrap : NoWrap (CallRun.finalState (serverStep files c) moves (startUp now)).shared) :
    CallRun.Always (serverStep files c) (fun move p ↦
        ∀ infohash sessionId ref, Runs (.insert infohash sessionId ref) move p →
          p.shared.sessions.lookup (sessionKey infohash sessionId) = none ∧
            ∀ key, p.shared.sessions.lookup key ≠ some ref)
      moves (startUp now) := by
  have hholds : TableHolds (startUp now : Pool δ ε α) := tableHolds_startUp now
  generalize (startUp now : Pool δ ε α) = p at hwrap hholds ⊢
  induction moves generalizing p with
  | nil => trivial
  | cons move moves ih =>
      refine ⟨?_, ih _ hwrap (hholds.finalState files c [move])⟩
      rintro infohash sessionId ref ⟨i, reopen, h, -, hi, hstage⟩
      have hsound := hholds.each h (List.mem_of_getElem? hi)
      rw [hstage] at hsound
      obtain ⟨hlength, htaken, hunlisted⟩ := hsound
      have hwrap : NoWrap p.shared := (finalState_grows (move :: moves) p).trans hwrap
      exact ⟨htaken.unused hwrap infohash hlength, hunlisted.lookup⟩

/-- A request for a manifest that gets as far as the table, on a file without cues. -/
def manifestRequested : List Move :=
  .arrive ('/' :: (sampleInfohash ++ ".m3u8".toList)) ::
    List.replicate 5 (.proceed 0 (.opened (Session.videoFile []).context))

/-- Two of them; the handler that has the first id is the last one to insert its session. -/
def manifestsRequested : List Move :=
  let proceed (i : ℕ) : Move := .proceed i (.opened (Session.videoFile []).context)
  [.arrive ('/' :: (sampleInfohash ++ ".m3u8".toList)),
    .arrive ('/' :: (sampleInfohash ++ ".m3u8".toList)), proceed 0, proceed 1, proceed 1, proceed 0,
    proceed 0, proceed 1, proceed 1, proceed 0, proceed 0, proceed 1]

theorem insertions_are_fresh_manifests :
    CallRun.Always (serverStep (fun _ ↦ Session.videoFile []) Session.noCodec) (fun move p ↦
        ∀ infohash sessionId ref, Runs (.insert infohash sessionId ref) move p →
          p.shared.sessions.lookup (sessionKey infohash sessionId) = none ∧
            ∀ key, p.shared.sessions.lookup key ≠ some ref)
      manifestsRequested (startUp 0) ∧
    let table := (CallRun.finalState
      (serverStep (fun _ ↦ Session.videoFile []) Session.noCodec) manifestsRequested
        (startUp 0)).shared.sessions
    table.lookup (sessionKey (List.replicate 40 'a') 0) = some 0 ∧
      table.lookup (sessionKey (List.replicate 40 'a') 1) = some 1 :=
  ⟨insertions_are_fresh 0 manifestsRequested (by unfold NoWrap; decide +kernel), by decide +kernel,
    by decide +kernel⟩

/-- The session has been active within the last 31 minutes. -/
def RecentlyActive (ref : ℕ) (s : State δ ε α) : Prop :=
  ∃ o, s.objects[ref]? = some o ∧ s.now - o.lastActivity < 31 * 60 * 1000000000

def Found (key : List Char) (ref : ℕ) (p : Pool δ ε α) : Prop :=
  p.shared.sessions.lookup key = some ref

/-- A cleanup finds the session idle. -/
def Loses (ref : ℕ) (move : Move) (p : Pool δ ε α) : Prop :=
  (∃ infohash, Runs (.cleanup infohash) move p) ∧ ¬RecentlyActive ref p.shared

/-- A session in the table stays there, unless the step is a cleanup that finds it
idle. -/
theorem found_step_iff {infohash : List Char} (hlength : infohash.length = 40) {ref n : ℕ}
    {p : Pool δ ε α} (h : BoundHolds infohash ref n p) {move : Move}
    (hwrap : NoWrap (serverStep files c move p).2.shared) :
    Found (sessionKey infohash (toInt n)) ref (serverStep files c move p).2 ↔
      Found (sessionKey infohash (toInt n)) ref p ∧ ¬Loses ref move p := by
  have hwrap' : NoWrap p.shared := (step_grows move p).trans hwrap
  have hnot : ∀ {q : Prop}, ¬(∃ infohash, Runs (.cleanup infohash) move p) →
      (q ↔ q ∧ ¬Loses ref move p) :=
    fun hrun ↦ ⟨fun hq ↦ ⟨hq, fun hboth ↦ hrun hboth.1⟩, fun hboth ↦ hboth.1⟩
  cases move with
  | arrive path =>
      apply hnot
      rintro ⟨infohash, i, reopen, h, hmove, -⟩
      cases hmove
  | outside elapsed =>
      apply hnot
      rintro ⟨infohash, i, reopen, h, hmove, -⟩
      cases hmove
  | proceed i reopen =>
      rw [serverStep, ThreadPool.step] at hwrap ⊢
      cases hi : p.threads[i]? with
      | none =>
          apply hnot
          rintro ⟨infohash, j, reopen', h, hmove, hj, -⟩
          cases hmove
          cases hi.symm.trans hj
      | some t =>
          have hadvance := advance_spec files c reopen t.stage p.shared
          have hstage := h.each t (List.mem_of_getElem? hi)
          change (advance files c reopen t.stage p.shared).2.sessions.lookup _ = some ref ↔ _
          by_cases hclean : ∃ infohash, t.stage = .cleanup infohash
          · obtain ⟨infohash', hclean⟩ := hclean
            have hruns : ∃ infohash, Runs (.cleanup infohash) (.proceed i reopen) p :=
              ⟨infohash', i, reopen, t, rfl, hi, hclean⟩
            rw [hclean, advance, State.lookup_cleanupOldSessions, Option.filter_eq_some_iff]
            refine and_congr_right fun _ ↦ ?_
            obtain ⟨o, ho⟩ := h.shared.object
            have hactive : RecentlyActive ref p.shared ↔
                p.shared.now - o.lastActivity < 31 * 60 * 1000000000 := by
              refine ⟨?_, fun hlt ↦ ⟨o, ho, hlt⟩⟩
              rintro ⟨o', ho', hlt⟩
              obtain rfl : o = o' := Option.some.inj (ho.symm.trans ho')
              exact hlt
            have hage := State.lt_ageMinutes_iff (show (0 : ℤ) ≤ 30 by norm_num) o.lastActivity
              p.shared.now
            rw [Loses, hactive, State.isOld, ho, Option.any_some, Bool.not_eq_true',
              decide_eq_false_iff_not, hage]
            simp only [hruns, true_and, not_not]
            omega
          · have hrun : ¬∃ infohash, Runs (.cleanup infohash) (.proceed i reopen) p := by
              rintro ⟨infohash, j, reopen', t', hmove, hj, hstage'⟩
              cases hmove
              obtain rfl : t = t' := Option.some.inj (hi.symm.trans hj)
              exact hclean ⟨infohash, hstage'⟩
            rw [← hnot hrun]
            refine ⟨hadvance.lookup_of_issued hlength hstage hwrap', fun hlookup ↦ ?_⟩
            refine (hadvance.lookup_kept (fun infohash hstage' ↦ hclean ⟨infohash, hstage'⟩)
              hlookup).resolve_right ?_
            rintro ⟨infohash', sessionId, ref', hinsert, hkey⟩
            have hinserts := hstage.sound
            have hheld := hstage.heldId hwrap'
            rw [hinsert] at hinserts hheld
            exact hheld ((sessionKey_inj (hlength.trans hinserts.1.symm) hkey).2 ▸ rfl)

/-- A session that is in the table at one time is found later exactly when every cleanup
in between has found it active within 31 minutes; if it is not found, its key means no
other session. -/
theorem session_found_iff (now : ℤ) (before after : List Move) {key : List Char} {ref : ℕ}
    (hlookup : (CallRun.finalState (serverStep files c) before
      (startUp now)).shared.sessions.lookup key = some ref)
    (hwrap : NoWrap (CallRun.finalState (serverStep files c) after
      (CallRun.finalState (serverStep files c) before (startUp now))).shared) :
    ((CallRun.finalState (serverStep files c) after
        (CallRun.finalState (serverStep files c) before (startUp now))).shared.sessions.lookup
          key = some ref ↔
      CallRun.Always (serverStep files c)
        (fun move p ↦ (∃ infohash, Runs (.cleanup infohash) move p) →
          RecentlyActive ref p.shared)
        after (CallRun.finalState (serverStep files c) before (startUp now))) ∧
    ∀ ref', (CallRun.finalState (serverStep files c) after
        (CallRun.finalState (serverStep files c) before (startUp now))).shared.sessions.lookup
          key = some ref' → ref' = ref := by
  have hholds := (tableHolds_startUp now).finalState files c before
  generalize CallRun.finalState (serverStep files c) before (startUp now) = p
    at hlookup hwrap hholds ⊢
  obtain ⟨infohash, n, hlength, rfl, hbound⟩ := hholds.bound hlookup
  have hkeeps := bound_keeps files c hlength ref n
  have hinv : ∀ (move : Move) (q : Pool δ ε α), NoWrap (serverStep files c move q).2.shared →
      BoundHolds infohash ref n q → BoundHolds infohash ref n (serverStep files c move q).2 :=
    fun move q _ hq ↦
      ThreadPool.Holds.step hkeeps hq (ThreadPool.meets_of_forall (fun _ _ _ ↦ trivial) move q)
  constructor
  · have hiff : Found (sessionKey infohash (toInt n)) ref
          (CallRun.finalState (serverStep files c) after p) ↔
        Found (sessionKey infohash (toInt n)) ref p ∧
          CallRun.Always (serverStep files c) (fun move q ↦ ¬Loses ref move q) after p :=
      CallRun.holds_finalState_iff hinv (fun move q hq hinv ↦ found_step_iff hlength hinv hq)
        (always_noWrap hwrap) hbound
    refine hiff.trans ((and_iff_right hlookup).trans ?_)
    simp only [Loses, not_and, not_not]
  · intro ref' href
    have hfinal : BoundHolds infohash ref n (CallRun.finalState (serverStep files c) after p) :=
      ThreadPool.Holds.finalState hkeeps hbound
        (ThreadPool.always_meets (fun _ _ _ ↦ trivial) after p)
    exact hfinal.shared.lookup hwrap ref' href

/-- Half an hour passes, and another manifest is requested. -/
def cleanedLater : List Move :=
  [.outside 1800000000000, .arrive ('/' :: (sampleInfohash ++ ".m3u8".toList)),
    .proceed 1 .allocFails]

theorem session_found_iff_manifest :
    ((CallRun.finalState (serverStep (fun _ ↦ Session.videoFile []) Session.noCodec) cleanedLater
        (CallRun.finalState (serverStep (fun _ ↦ Session.videoFile []) Session.noCodec)
          manifestRequested (startUp 0))).shared.sessions.lookup
            (sessionKey (List.replicate 40 'a') 0) = some 0 ↔
      CallRun.Always (serverStep (fun _ ↦ Session.videoFile []) Session.noCodec)
        (fun move p ↦ (∃ infohash, Runs (.cleanup infohash) move p) → RecentlyActive 0 p.shared)
        cleanedLater (CallRun.finalState
          (serverStep (fun _ ↦ Session.videoFile []) Session.noCodec) manifestRequested
            (startUp 0))) ∧
    ∀ ref', (CallRun.finalState (serverStep (fun _ ↦ Session.videoFile []) Session.noCodec)
        cleanedLater (CallRun.finalState
          (serverStep (fun _ ↦ Session.videoFile []) Session.noCodec) manifestRequested
            (startUp 0))).shared.sessions.lookup (sessionKey (List.replicate 40 'a') 0) =
      some ref' → ref' = 0 :=
  session_found_iff 0 manifestRequested cleanedLater (by decide +kernel)
    (by unfold NoWrap; decide +kernel)

end Server

end Fmp4Packager
