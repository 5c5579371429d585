import Fmp4Packager.HlsManifest
import Mathlib.Data.List.Basic

/-!
# The paths of the server

The regular expressions of the manifest route and of the segment route, and what
their handlers make of the groups.  In both expressions a group of digits is followed
by another character, so that its match is the longest one.
-/

namespace Fmp4Packager

namespace Server

/-- `[a-fA-F0-9]` -/
def isHexDigit (c : Char) : Bool :=
  ('a' ≤ c && c ≤ 'f') || ('A' ≤ c && c ≤ 'F') || ('0' ≤ c && c ≤ '9')

/-- `([a-fA-F0-9]{40})` at the start of a text, and the rest of it. -/
def matchInfohash (text : List Char) : Option (List Char × List Char) :=
  if (text.take 40).length = 40 ∧ (text.take 40).all isHexDigit then
    some (text.take 40, text.drop 40)
  else none

/-- `(\d+)` at the start of a text, and the rest of it. -/
def matchDigits (text : List Char) : Option (List Char × List Char) :=
  if text.takeWhile Char.isDigit = [] then none
  else some (text.takeWhile Char.isDigit, text.dropWhile Char.isDigit)

/-- A literal at the start of a text: the rest of it. -/
def matchLiteral (literal text : List Char) : Option (List Char) := List.isPrefixOf? literal text

/-- `/([a-fA-F0-9]{40})\.m3u8` -/
def matchManifestRoute (path : List Char) : Option (List Char) := do
  let rest ← matchLiteral ['/'] path
  let (infohash, rest) ← matchInfohash rest
  if rest = ".m3u8".toList then some infohash else none

/-- `/([a-fA-F0-9]{40})/session-(\d+)/(\d+)\.m4s` -/
def matchSegmentRoute (path : List Char) : Option (List Char × List Char × List Char) := do
  let rest ← matchLiteral ['/'] path
  let (infohash, rest) ← matchInfohash rest
  let rest ← matchLiteral "/session-".toList rest
  let (sessionId, rest) ← matchDigits rest
  let rest ← matchLiteral ['/'] rest
  let (segmentIdx, rest) ← matchDigits rest
  if rest = ".m4s".toList then some (infohash, sessionId, segmentIdx) else none

/-- `std::stoi` of digits; `none` where it throws `std::out_of_range`. -/
def stoi (digits : List Char) : Option ℤ :=
  let value := Nat.ofDigitChars 10 digits 0
  if value < 2 ^ 31 then some value else none

/-- `std::stoll` of digits. -/
def stoll (digits : List Char) : Option ℤ :=
  let value := Nat.ofDigitChars 10 digits 0
  if value < 2 ^ 63 then some value else none

structure SegmentRequest where
  infohash : List Char
  sessionId : ℤ
  segmentIdx : ℤ
  deriving DecidableEq, Repr

/-- What the handler of the segment route reads from a path; `none` where the route
does not match or a number is out of range. -/
def segmentRequest (path : List Char) : Option SegmentRequest := do
  let (infohash, sessionId, segmentIdx) ← matchSegmentRoute path
  let sessionId ← stoi sessionId
  let segmentIdx ← stoll segmentIdx
  some ⟨infohash.map Char.toLower, sessionId, segmentIdx⟩

/-- The start of every URL in the manifest of a session. -/
def manifestPrefix (infohash : List Char) (sessionId : ℕ) : List Char :=
  infohash ++ "/session-".toList ++ HlsManifest.decimal sessionId ++ ['/']

/-- The manifest that the handler of the manifest route sends for its path, from the
boundaries of the session that it has created: `none` where the route does not match
or the playlist is not defined, and no text where it answers 503. -/
def manifestFor (path : List Char) (sessionId : ℕ) (keyframes : List ℤ) :
    Option (Option (List Char)) := do
  let infohash ← matchManifestRoute path
  if keyframes.length < 2 then some none
  else
    let manifest ← HlsManifest.generate keyframes
      (manifestPrefix (infohash.map Char.toLower) sessionId)
    some (some manifest)

/-- `/([a-fA-F0-9]{40})/session-(\d+)/init\.mp4` -/
def matchInitRoute (path : List Char) : Option (List Char × List Char) := do
  let rest ← matchLiteral ['/'] path
  let (infohash, rest) ← matchInfohash rest
  let rest ← matchLiteral "/session-".toList rest
  let (sessionId, rest) ← matchDigits rest
  if rest = "/init.mp4".toList then some (infohash, sessionId) else none

/-- The handlers of GET requests, with the groups of their expressions. -/
inductive Route where
  | health
  | manifest (infohash : List Char)
  | init (infohash sessionId : List Char)
  | segment (infohash sessionId segmentIdx : List Char)
  deriving DecidableEq, Repr

/-- The handler that a path is dispatched to: the first whose expression matches. -/
def route (path : List Char) : Option Route :=
  if path = "/health".toList then some .health
  else
    ((matchManifestRoute path).map .manifest).or <|
      ((matchInitRoute path).map fun (infohash, sessionId) ↦ .init infohash sessionId).or <|
        (matchSegmentRoute path).map fun (infohash, sessionId, segmentIdx) ↦
          .segment infohash sessionId segmentIdx

theorem matchLiteral_eq_some {literal text rest : List Char}
    (h : matchLiteral literal text = some rest) : text = literal ++ rest :=
  (List.isPrefixOf?_eq_some_iff_append_eq.mp h).symm

theorem matchInfohash_eq_some {text infohash rest : List Char}
    (h : matchInfohash text = some (infohash, rest)) :
    (infohash.length = 40 ∧ infohash.all isHexDigit) ∧ text = infohash ++ rest := by
  rw [matchInfohash] at h
  split at h
  · next hmatch =>
      cases h
      exact ⟨hmatch, (List.take_append_drop 40 text).symm⟩
  · cases h

theorem matchManifestRoute_eq_some {path infohash : List Char}
    (h : matchManifestRoute path = some infohash) :
    (infohash.length = 40 ∧ infohash.all isHexDigit) ∧
      path = '/' :: (infohash ++ ".m3u8".toList) := by
  simp only [matchManifestRoute, Option.bind_eq_bind, Option.bind_eq_some_iff] at h
  obtain ⟨rest, hslash, ⟨found, rest'⟩, hfound, h⟩ := h
  obtain ⟨hinfohash, rfl⟩ := matchInfohash_eq_some hfound
  split at h
  · next hend =>
      cases h
      obtain rfl : rest' = ".m3u8".toList := hend
      exact ⟨hinfohash, matchLiteral_eq_some hslash⟩
  · cases h

theorem length_of_matchInitRoute {path infohash sessionId : List Char}
    (h : matchInitRoute path = some (infohash, sessionId)) : infohash.length = 40 := by
  simp only [matchInitRoute, Option.bind_eq_bind, Option.bind_eq_some_iff] at h
  obtain ⟨rest, -, ⟨found, rest'⟩, hfound, rest'', -, ⟨digits, end_⟩, -, h⟩ := h
  split at h
  · cases h
    exact (matchInfohash_eq_some hfound).1.1
  · cases h

theorem length_of_matchSegmentRoute {path infohash sessionId segmentIdx : List Char}
    (h : matchSegmentRoute path = some (infohash, sessionId, segmentIdx)) :
    infohash.length = 40 := by
  simp only [matchSegmentRoute, Option.bind_eq_bind, Option.bind_eq_some_iff] at h
  obtain ⟨rest, -, ⟨found, rest'⟩, hfound, rest'', -, ⟨digits, rest₃⟩, -, rest₄, -,
    ⟨digits', end_⟩, -, h⟩ := h
  split at h
  · cases h
    exact (matchInfohash_eq_some hfound).1.1
  · cases h

/-- A path is dispatched to a route whose expression it matches. -/
theorem match_of_route {path : List Char} {r : Route} (h : route path = some r) :
    match r with
    | .health => path = "/health".toList
    | .manifest infohash => matchManifestRoute path = some infohash
    | .init infohash sessionId => matchInitRoute path = some (infohash, sessionId)
    | .segment infohash sessionId segmentIdx =>
        matchSegmentRoute path = some (infohash, sessionId, segmentIdx) := by
  rw [route] at h
  split at h
  · next hhealth =>
      cases h
      exact hhealth
  cases hmanifest : matchManifestRoute path with
  | some infohash =>
      rw [hmanifest, Option.map_some, Option.some_or] at h
      cases h
      rfl
  | none =>
      rw [hmanifest, Option.map_none, Option.none_or] at h
      cases hinit : matchInitRoute path with
      | some groups =>
          rw [hinit, Option.map_some, Option.some_or] at h
          cases h
          rfl
      | none =>
          rw [hinit, Option.map_none, Option.none_or, Option.map_eq_some_iff] at h
          obtain ⟨groups, hsegment, rfl⟩ := h
          exact hsegment

end Server

end Fmp4Packager
