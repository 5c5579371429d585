import Fmp4Packager.CInt
import Fmp4Packager.HlsManifest
import Fmp4Packager.Session

/-!
# The table of sessions

The globals of the server: the counter of the session ids, and the table that maps a
key to a session.  A session lives on while a handler still refers to it, so the
table and the handlers refer to the sessions by their place in a list.
-/

namespace Fmp4Packager

namespace Server

open HlsManifest

/-- `std::to_string` of an integer. -/
def signedDecimal (n : ℤ) : List Char :=
  if n < 0 then '-' :: decimal n.natAbs else decimal n.natAbs

/-- The key of a session in the table. -/
def sessionKey (infohash : List Char) (sessionId : ℤ) : List Char :=
  infohash ++ "_session-".toList ++ signedDecimal sessionId

/-- A session with what the server keeps of it: the file that its URL names, and the
time of its last activity in nanoseconds. -/
structure SessionObject (δ ε α : Type) where
  infohash : List Char
  session : Session δ ε α
  lastActivity : ℤ

/-- `now` is the time that `steady_clock` shows.  The counter is kept as the number of
its increments. -/
structure State (δ ε α : Type) where
  now : ℤ
  fetchAdds : ℕ := 0
  objects : List (SessionObject δ ε α) := []
  sessions : KeyedCache (List Char) ℕ := ∅

namespace State

variable {δ ε α : Type}

/-- `g_next_session_id.fetch_add(1)`; an atomic `int` wraps. -/
def fetchAddSessionId (s : State δ ε α) : ℤ × State δ ε α :=
  (toInt s.fetchAdds, { s with fetchAdds := s.fetchAdds + 1 })

/-- The constructor of a session, after it has read the clock; where it throws there is
no session. -/
def constructSession (c : AacCodec δ ε α) (reopen : Reopen) (infohash : List Char)
    (createdAt : ℤ) (s : State δ ε α) : Except Stop ℕ × State δ ε α :=
  match Session.create c reopen with
  | .error stop => (.error stop, s)
  | .ok session =>
      (.ok s.objects.length, { s with objects := s.objects ++ [⟨infohash, session, createdAt⟩] })

/-- `g_sessions[key] = session` -/
def insertSession (infohash : List Char) (sessionId : ℤ) (ref : ℕ) (s : State δ ε α) :
    State δ ε α :=
  { s with sessions := s.sessions.insert (sessionKey infohash sessionId) ref }

def touch (ref : ℕ) (s : State δ ε α) : State δ ε α :=
  { s with objects := s.objects.modify ref fun o ↦ { o with lastActivity := s.now } }

/-- `none` is the null pointer. -/
def getSession (infohash : List Char) (sessionId : ℤ) (s : State δ ε α) :
    Option ℕ × State δ ε α :=
  match s.sessions.lookup (sessionKey infohash sessionId) with
  | none => (none, s)
  | some ref => (some ref, s.touch ref)

/-- `duration_cast<minutes>` of nanoseconds. -/
def ageMinutes (lastActivity now : ℤ) : ℤ := (now - lastActivity).tdiv (60 * 1000000000)

/-- The cleanup removes the session. -/
def isOld (maxAgeMinutes : ℤ) (s : State δ ε α) (ref : ℕ) : Bool :=
  (s.objects[ref]?).any fun o ↦ maxAgeMinutes < ageMinutes o.lastActivity s.now

def cleanupOldSessions (maxAgeMinutes : ℤ) (s : State δ ε α) : State δ ε α :=
  { s with sessions := KeyedCache.eraseAllMarked (s.isOld maxAgeMinutes) s.sessions }

/-- What a method leaves behind of its session. -/
def setSession (ref : ℕ) (session : Session δ ε α) (s : State δ ε α) : State δ ε α :=
  { s with objects := s.objects.modify ref fun o ↦ { o with session := session } }

end State

theorem signedDecimal_natCast (n : ℕ) : signedDecimal n = decimal n := by
  rw [signedDecimal, if_neg (by omega), Int.natAbs_natCast]

theorem decimal_injective : Function.Injective decimal := by
  intro a b hab
  rw [← Nat.ofDigitChars_ten_toDigits (n := a), ← Nat.ofDigitChars_ten_toDigits (n := b)]
  exact congrArg (Nat.ofDigitChars 10 · 0) hab

theorem minus_not_mem_decimal (n : ℕ) : '-' ∉ decimal n := by
  intro hmem
  have hdigit := Nat.isDigit_of_mem_toDigits (by decide) (by decide) hmem
  exact absurd hdigit (by decide)

theorem signedDecimal_injective : Function.Injective signedDecimal := by
  intro a b hab
  simp only [signedDecimal] at hab
  split at hab <;> split at hab
  · have := decimal_injective (List.cons.inj hab).2
    omega
  · exact absurd (hab ▸ List.mem_cons_self) (minus_not_mem_decimal b.natAbs)
  · exact absurd (hab.symm ▸ List.mem_cons_self) (minus_not_mem_decimal a.natAbs)
  · have := decimal_injective hab
    omega

/-- Among infohashes of one length, a key says which session it is for. -/
theorem sessionKey_inj {infohash infohash' : List Char} {sessionId sessionId' : ℤ}
    (hlength : infohash.length = infohash'.length)
    (hkey : sessionKey infohash sessionId = sessionKey infohash' sessionId') :
    infohash = infohash' ∧ sessionId = sessionId' := by
  rw [sessionKey, sessionKey, List.append_assoc, List.append_assoc] at hkey
  obtain ⟨hinfohash, hrest⟩ := List.append_inj hkey hlength
  exact ⟨hinfohash, signedDecimal_injective (List.append_cancel_left hrest)⟩

/-- The ids of the first 2^32 sessions differ. -/
theorem toInt_natCast_inj {m n : ℕ} (hm : m < 2 ^ 32) (hn : n < 2 ^ 32)
    (h : toInt m = toInt n) : m = n := by
  simp only [toInt] at h
  split at h <;> split at h <;> omega

namespace State

variable {δ ε α : Type}

@[simp] theorem touch_sessions (ref : ℕ) (s : State δ ε α) :
    (s.touch ref).sessions = s.sessions := rfl

@[simp] theorem touch_now (ref : ℕ) (s : State δ ε α) : (s.touch ref).now = s.now := rfl

@[simp] theorem touch_fetchAdds (ref : ℕ) (s : State δ ε α) :
    (s.touch ref).fetchAdds = s.fetchAdds := rfl

@[simp] theorem setSession_sessions (ref : ℕ) (session : Session δ ε α) (s : State δ ε α) :
    (s.setSession ref session).sessions = s.sessions := rfl

@[simp] theorem setSession_now (ref : ℕ) (session : Session δ ε α) (s : State δ ε α) :
    (s.setSession ref session).now = s.now := rfl

@[simp] theorem setSession_fetchAdds (ref : ℕ) (session : Session δ ε α) (s : State δ ε α) :
    (s.setSession ref session).fetchAdds = s.fetchAdds := rfl

theorem getElem?_touch (ref : ℕ) (s : State δ ε α) (j : ℕ) :
    (s.touch ref).objects[j]? =
      (s.objects[j]?).map fun o ↦ if ref = j then { o with lastActivity := s.now } else o :=
  List.getElem?_modify ..

theorem getElem?_setSession (ref : ℕ) (session : Session δ ε α) (s : State δ ε α) (j : ℕ) :
    (s.setSession ref session).objects[j]? =
      (s.objects[j]?).map fun o ↦ if ref = j then { o with session := session } else o :=
  List.getElem?_modify ..

/-- Minutes are counted in full: a session is old after 31 of them. -/
theorem lt_ageMinutes_iff {maxAgeMinutes : ℤ} (hmax : 0 ≤ maxAgeMinutes) (lastActivity now : ℤ) :
    maxAgeMinutes < ageMinutes lastActivity now ↔
      (maxAgeMinutes + 1) * 60000000000 ≤ now - lastActivity := by
  rw [ageMinutes, show (60 * 1000000000 : ℤ) = 60000000000 by norm_num]
  by_cases hneg : now - lastActivity < 0
  · have hquot : 0 ≤ (-(now - lastActivity)).tdiv 60000000000 :=
      Int.tdiv_nonneg (by omega) (by norm_num)
    rw [Int.neg_tdiv] at hquot
    omega
  · rw [Int.tdiv_eq_ediv_of_nonneg (by omega)]
    omega

theorem lookup_cleanupOldSessions (maxAgeMinutes : ℤ) (s : State δ ε α) (key : List Char) :
    (s.cleanupOldSessions maxAgeMinutes).sessions.lookup key =
      (s.sessions.lookup key).filter fun ref ↦ !s.isOld maxAgeMinutes ref :=
  KeyedCache.lookup_eraseAllMarked ..

theorem lookup_insertSession (infohash : List Char) (sessionId : ℤ) (ref : ℕ) (s : State δ ε α)
    (key : List Char) :
    (s.insertSession infohash sessionId ref).sessions.lookup key =
      if key = sessionKey infohash sessionId then some ref else s.sessions.lookup key := by
  rw [insertSession]
  split
  · next hkey => rw [hkey, AList.lookup_insert]
  · next hkey => exact AList.lookup_insert_ne hkey

end State

end Server

end Fmp4Packager
