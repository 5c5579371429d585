import Fmp4Packager.SectionHistory
import Fmp4Packager.ServedFile

/-!
# Replies that are true to the file

The sessions, their caches and the other requests do not show in the replies: whatever
a handler ends with, the path of its request and the file alone account for it, save for
the id of a new session, a session that the table does not have at that moment, and an
opening that fails, then or earlier.
-/

namespace Fmp4Packager

namespace Server

open HlsManifest Session

variable {δ ε α : Type} {files : List Char → Media} {c : AacCodec δ ε α} {faults : Set String}

def AsksManifest (path infohash : List Char) : Prop :=
  ∃ text, route path = some (.manifest text) ∧ text.map Char.toLower = infohash

def AsksInit (path infohash : List Char) (sessionId : ℤ) : Prop :=
  ∃ text id, route path = some (.init text id) ∧ text.map Char.toLower = infohash ∧
    stoi id = some sessionId

def AsksSegment (path infohash : List Char) (sessionId segmentIdx : ℤ) : Prop :=
  ∃ text id idx, route path = some (.segment text id idx) ∧ text.map Char.toLower = infohash ∧
    stoi id = some sessionId ∧ stoll idx = some segmentIdx

theorem AsksManifest.unique {path infohash infohash' : List Char}
    (h : AsksManifest path infohash) (h' : AsksManifest path infohash') :
    infohash = infohash' := by
  obtain ⟨text, hroute, rfl⟩ := h
  obtain ⟨text', hroute', rfl⟩ := h'
  cases hroute.symm.trans hroute'
  rfl

/-- The handler has ended. -/
def Stage.Final : Stage → Prop
  | .answered _ => True
  | .undefined _ => True
  | _ => False

instance : DecidablePred Stage.Final
  | .answered _ | .undefined _ => .isTrue trivial
  | .cleanup _ | .takeId _ | .readClock .. | .construct .. | .insert .. | .listKeyframes ..
  | .findInit .. | .generateInit _ | .findSegment .. | .checkIndex .. | .readInitBuilt ..
  | .firstInit .. | .build .. => .isFalse id

def FileAt (infohash : List Char) (ref : ℕ) (s : State δ ε α) : Prop :=
  ∃ o, s.objects[ref]? = some o ∧ o.infohash = infohash

/-- A handler may end so in the state `s`, by the file and the path of its request.
`faults` are the messages with which openings fail, `lost` the sessions that have lost
their input. -/
inductive Truthful (files : List Char → Media) (c : AacCodec δ ε α) (faults : Set String)
    (s : State δ ε α) (lost : ℕ → Prop) (path : List Char) : Stage → Prop
  | notRouted (hroute : route path = none) :
      Truthful files c faults s lost path (.answered (emptyReply 404))
  | health (hroute : route path = some .health) :
      Truthful files c faults s lost path
        (.answered { textReply 200 "ok" with allowOrigin := true })
  | badInit (text id : List Char) (hroute : route path = some (.init text id))
      (hid : stoi id = none) : Truthful files c faults s lost path (.answered (emptyReply 500))
  | badSegment (text id idx : List Char) (hroute : route path = some (.segment text id idx))
      (hbad : stoi id = none ∨ stoll idx = none) :
      Truthful files c faults s lost path (.answered (emptyReply 500))
  | noSession (infohash : List Char) (what : String) (hasks : AsksManifest path infohash)
      (hwhat : what ∈ faults ∨
        create c (.opened (files infohash).context) = .error (.exception what)) :
      Truthful files c faults s lost path (.answered (textReply 500 what))
  | notEnough (infohash : List Char) (hasks : AsksManifest path infohash)
      (hlength : (fileBoundaries (files infohash)).length < 2) :
      Truthful files c faults s lost path (.answered (textReply 503 "Not enough keyframes yet"))
  | manifest (infohash : List Char) (n : ℕ) (text : List Char)
      (hasks : AsksManifest path infohash)
      (hlength : 2 ≤ (fileBoundaries (files infohash)).length)
      (hgenerate : generate (fileBoundaries (files infohash)) (sessionUrl infohash (toInt n)) =
        some text) :
      Truthful files c faults s lost path
        (.answered (contentReply "application/vnd.apple.mpegurl"
          (bodyOfString (String.ofList text))))
  | targetDuration (infohash : List Char) (n : ℕ) (hasks : AsksManifest path infohash)
      (hlength : 2 ≤ (fileBoundaries (files infohash)).length)
      (hgenerate : generate (fileBoundaries (files infohash)) (sessionUrl infohash (toInt n)) =
        none) :
      Truthful files c faults s lost path (.undefined .targetDuration)
  | noInitSession (infohash : List Char) (sessionId : ℤ)
      (hasks : AsksInit path infohash sessionId)
      (hlookup : s.sessions.lookup (sessionKey infohash sessionId) = none) :
      Truthful files c faults s lost path (.answered (textReply 404 "Session not found"))
  | init (infohash : List Char) (sessionId : ℤ) (s₀ : Session δ ε α) (bytes : List UInt8)
      (hasks : AsksInit path infohash sessionId)
      (hcreate : create c (.opened (files infohash).context) = .ok s₀)
      (hinit : s₀.generateInitSegment.1 = .ok bytes) :
      Truthful files c faults s lost path (.answered (contentReply "video/mp4" bytes))
  | noSegmentSession (infohash : List Char) (sessionId segmentIdx : ℤ)
      (hasks : AsksSegment path infohash sessionId segmentIdx)
      (hlookup : s.sessions.lookup (sessionKey infohash sessionId) = none) :
      Truthful files c faults s lost path (.answered (textReply 404 "Session not found"))
  | noSegment (infohash : List Char) (sessionId segmentIdx : ℤ)
      (hasks : AsksSegment path infohash sessionId segmentIdx)
      (hnone : segmentWindow (fileBoundaries (files infohash)) segmentIdx = none) :
      Truthful files c faults s lost path (.answered (textReply 404 "Segment not found"))
  | segment (infohash : List Char) (sessionId : ℤ) (w : Window) (s₀ : Session δ ε α)
      (bytes : List UInt8) (hasks : AsksSegment path infohash sessionId w.segmentIdx)
      (hw : segmentWindow (fileBoundaries (files infohash)) w.segmentIdx = some w)
      (hcreate : create c (.opened (files infohash).context) = .ok s₀)
      (hsegment : SegmentOf (files infohash) c s₀ w bytes) :
      Truthful files c faults s lost path (.answered (contentReply "video/mp4" bytes))
  | segmentFails (infohash : List Char) (sessionId : ℤ) (w : Window) (what : String)
      (hasks : AsksSegment path infohash sessionId w.segmentIdx)
      (hw : segmentWindow (fileBoundaries (files infohash)) w.segmentIdx = some w)
      (hwhat : what ∈ faults ∨
        .exception what = noVideoSamples w.segmentIdx ∧ ownSamples (files infohash) w = []) :
      Truthful files c faults s lost path (.answered (textReply 500 what))
  | access (infohash : List Char) (stop : Stop)
      (hasks : AsksManifest path infohash ∨ (∃ sessionId, AsksInit path infohash sessionId) ∨
        ∃ sessionId segmentIdx, AsksSegment path infohash sessionId segmentIdx)
      (hbroken : ¬Playable (files infohash) ∨ ∃ ref, FileAt infohash ref s ∧ lost ref) :
      Truthful files c faults s lost path (.undefined (.access stop))

/-- The file whose opening a stage may come to. -/
def Stage.opensFor (s : State δ ε α) : Stage → Option (List Char)
  | .construct infohash _ _ => some infohash
  | .build ref _ => (s.objects[ref]?).map SessionObject.infohash
  | _ => none

/-- Every opening finds the file of its infohash. -/
def OpensFiles (files : List Char → Media) (faults : Set String) (reopen : Reopen) (h : Handler)
    (s : State δ ε α) : Prop :=
  ∀ infohash ∈ h.stage.opensFor s, FindsFile (files infohash) faults reopen

def InitBuilt (ref : ℕ) (s : State δ ε α) : Prop :=
  ∃ o, s.objects[ref]? = some o ∧ o.session.initBuilt = true

/-- The request is for the window `w` of the session `ref`. -/
def AsksWindow (files : List Char → Media) (path : List Char) (ref : ℕ) (w : Window)
    (s : State δ ε α) : Prop :=
  ∃ infohash sessionId, AsksSegment path infohash sessionId w.segmentIdx ∧
    FileAt infohash ref s ∧
    segmentWindow (fileBoundaries (files infohash)) w.segmentIdx = some w

/-- What holds of a handler on its way.  Where it has ended, `found` is the state in which
it did so, and `lost` are the sessions that had lost their input. -/
def OnItsWay (files : List Char → Media) (c : AacCodec δ ε α) (faults : Set String)
    (found : State δ ε α) (lost : ℕ → Prop) (path : List Char) (s : State δ ε α) : Stage → Prop
  | .cleanup infohash => AsksManifest path infohash
  | .takeId infohash => AsksManifest path infohash
  | .readClock infohash _ => AsksManifest path infohash
  | .construct infohash _ _ => AsksManifest path infohash
  | .insert infohash _ ref => AsksManifest path infohash ∧ FileAt infohash ref s
  | .listKeyframes infohash sessionId ref =>
      AsksManifest path infohash ∧ (∃ n : ℕ, sessionId = toInt n) ∧ FileAt infohash ref s
  | .findInit infohash sessionId => AsksInit path infohash sessionId
  | .generateInit ref =>
      ∃ infohash sessionId, AsksInit path infohash sessionId ∧ FileAt infohash ref s
  | .findSegment infohash sessionId segmentIdx => AsksSegment path infohash sessionId segmentIdx
  | .checkIndex ref segmentIdx =>
      ∃ infohash sessionId, AsksSegment path infohash sessionId segmentIdx ∧
        FileAt infohash ref s
  | .readInitBuilt ref w => AsksWindow files path ref w s
  | .firstInit ref w => AsksWindow files path ref w s
  | .build ref w => AsksWindow files path ref w s ∧ InitBuilt ref s
  | stage => Truthful files c faults found lost path stage

/-- The table is in order, and every session serves its file. -/
structure Serving (files : List Char → Media) (c : AacCodec δ ε α) (s : State δ ε α) : Prop
    extends TableSound s where
  serves : ∀ (ref : ℕ) o, s.objects[ref]? = some o →
    ∃ s₀, create c (.opened (files o.infohash).context) = .ok s₀ ∧
      ServesFile (files o.infohash) c s₀ o.session

/-- The input of a session of the file is closed. -/
def ClosedAt (infohash : List Char) (ref : ℕ) (s : State δ ε α) : Prop :=
  ∃ o, s.objects[ref]? = some o ∧ o.infohash = infohash ∧ o.session.demuxer.fmtCtx = none

/-- The stage works on a session of the file whose input is closed. -/
def Stage.FindsClosed (stage : Stage) (s : State δ ε α) (ref : ℕ) : Prop :=
  stage.target = some ref ∧ ∃ infohash, ClosedAt infohash ref s

theorem FileAt.mono {infohash : List Char} {ref : ℕ} {s s' : State δ ε α}
    (h : FileAt infohash ref s) (hgrows : Grows s s') : FileAt infohash ref s' := by
  obtain ⟨o, ho, rfl⟩ := h
  obtain ⟨o', ho', hsame⟩ := hgrows.objects ref o ho
  exact ⟨o', ho', hsame⟩

theorem AsksWindow.mono {path : List Char} {ref : ℕ} {w : Window} {s s' : State δ ε α}
    (h : AsksWindow files path ref w s) (hgrows : Grows s s') :
    AsksWindow files path ref w s' := by
  obtain ⟨infohash, sessionId, hasks, hfile, hw⟩ := h
  exact ⟨infohash, sessionId, hasks, hfile.mono hgrows, hw⟩

theorem OnItsWay.mono {found : State δ ε α} {lost : ℕ → Prop} {path : List Char}
    {s s' : State δ ε α} {stage : Stage} (h : OnItsWay files c faults found lost path s stage)
    (hgrows : Grows s s') (hbuilt : ∀ ref, InitBuilt ref s → InitBuilt ref s') :
    OnItsWay files c faults found lost path s' stage := by
  cases stage with
  | insert infohash sessionId ref => exact ⟨h.1, h.2.mono hgrows⟩
  | listKeyframes infohash sessionId ref => exact ⟨h.1, h.2.1, h.2.2.mono hgrows⟩
  | generateInit ref =>
      obtain ⟨infohash, sessionId, hasks, hfile⟩ := h
      exact ⟨infohash, sessionId, hasks, hfile.mono hgrows⟩
  | checkIndex ref segmentIdx =>
      obtain ⟨infohash, sessionId, hasks, hfile⟩ := h
      exact ⟨infohash, sessionId, hasks, hfile.mono hgrows⟩
  | readInitBuilt ref w => exact AsksWindow.mono h hgrows
  | firstInit ref w => exact AsksWindow.mono h hgrows
  | build ref w => exact ⟨h.1.mono hgrows, hbuilt ref h.2⟩
  | _ => exact h

theorem AsksInit.length {path infohash : List Char} {sessionId : ℤ}
    (h : AsksInit path infohash sessionId) : infohash.length = 40 := by
  obtain ⟨text, id, hroute, rfl, -⟩ := h
  exact (List.length_map _).trans (length_of_matchInitRoute (match_of_route hroute))

theorem AsksSegment.length {path infohash : List Char} {sessionId segmentIdx : ℤ}
    (h : AsksSegment path infohash sessionId segmentIdx) : infohash.length = 40 := by
  obtain ⟨text, id, idx, hroute, rfl, -⟩ := h
  exact (List.length_map _).trans (length_of_matchSegmentRoute (match_of_route hroute))

theorem onItsWay_ofRoute (found : State δ ε α) (lost : ℕ → Prop) (path : List Char)
    (s : State δ ε α) : OnItsWay files c faults found lost path s (.ofRoute (route path)) := by
  cases hroute : route path with
  | none => exact .notRouted hroute
  | some r =>
      cases r with
      | health => exact .health hroute
      | manifest text => exact ⟨text, hroute, rfl⟩
      | init text id =>
          rw [Stage.ofRoute]
          cases hid : stoi id with
          | none => exact .badInit text id hroute hid
          | some sessionId => exact ⟨text, id, hroute, rfl, hid⟩
      | segment text id idx =>
          rw [Stage.ofRoute]
          cases hid : stoi id with
          | none => exact .badSegment text id idx hroute (.inl hid)
          | some sessionId =>
              cases hidx : stoll idx with
              | none => exact .badSegment text id idx hroute (.inr hidx)
              | some segmentIdx => exact ⟨text, id, idx, hroute, rfl, hid, hidx⟩

/-! ## One stage -/

theorem Truthful.ofStop {found s : State δ ε α} {lost : ℕ → Prop} {path infohash : List Char}
    {stop : Stop}
    (hasks : AsksManifest path infohash ∨ (∃ sessionId, AsksInit path infohash sessionId) ∨
      ∃ sessionId segmentIdx, AsksSegment path infohash sessionId segmentIdx)
    (hexception : ¬stop.IsException)
    (hbroken : ¬Playable (files infohash) ∨ ∃ ref, FileAt infohash ref found ∧ lost ref) :
    OnItsWay files c faults found lost path s (.ofStop stop) := by
  cases stop with
  | exception what => exact absurd trivial hexception
  | _ => exact .access infohash _ hasks hbroken

/-- The key of a session leads to a session of its file. -/
theorem TableSound.fileAt {s : State δ ε α} (h : TableSound s) {infohash : List Char}
    (hlength : infohash.length = 40) {sessionId : ℤ} {ref : ℕ}
    (hlookup : s.sessions.lookup (sessionKey infohash sessionId) = some ref) :
    FileAt infohash ref s := by
  obtain ⟨o, n, ho, -, hkey⟩ := h.entry _ ref hlookup
  exact ⟨o, ho, (sessionKey_inj (hlength.trans (h.length ref o ho).symm) hkey).1.symm⟩

theorem FileAt.eq {infohash : List Char} {ref : ℕ} {s : State δ ε α} {o : SessionObject δ ε α}
    (h : FileAt infohash ref s) (ho : s.objects[ref]? = some o) : infohash = o.infohash := by
  obtain ⟨o', ho', rfl⟩ := h
  rw [Option.some.inj (ho'.symm.trans ho)]

/-- An access without meaning is due to the file, or to the closed input of the session. -/
theorem FileAt.lost_of_broken {infohash : List Char} {ref : ℕ} {s : State δ ε α} {stage : Stage}
    (h : FileAt infohash ref s) (htarget : stage.target = some ref) {o : SessionObject δ ε α}
    (ho : s.objects[ref]? = some o) (hbroken : Broken (files infohash) o.session.demuxer) :
    ¬Playable (files infohash) ∨ ∃ ref, FileAt infohash ref s ∧ stage.FindsClosed s ref := by
  rcases hbroken with hclosed | hnot
  · exact .inr ⟨ref, h, htarget, infohash, o, ho, (h.eq ho).symm, hclosed⟩
  · exact .inl hnot

/-- The method of a stage keeps its session to its file, and leads the handler on. -/
theorem Method.serves {reopen : Reopen} {found s : State δ ε α} {lost : ℕ → Prop}
    {o : SessionObject δ ε α} {stage stage' : Stage} {ref : ℕ} {session : Session δ ε α}
    {path : List Char} (h : Method files c reopen o stage ref stage' session)
    (ho : s.objects[ref]? = some o) {s₀ : Session δ ε α}
    (hcreate : create c (.opened (files o.infohash).context) = .ok s₀)
    (hserves : ServesFile (files o.infohash) c s₀ o.session)
    (hway : OnItsWay files c faults found lost path s stage)
    (hopens : ∀ infohash ∈ stage.opensFor s, FindsFile (files infohash) faults reopen) :
    ServesFile (files o.infohash) c s₀ session ∧
      OnItsWay files c faults s (stage.FindsClosed s) path (s.setSession ref session) stage' := by
  have hgrows : Grows s (s.setSession ref session) := Grows.setSession ref session s
  cases h with
  | listKeyframes infohash sessionId =>
      obtain ⟨hasks, ⟨n, rfl⟩, hfile⟩ := hway
      obtain rfl := hfile.eq ho
      obtain ⟨hserves', hresult⟩ := hserves.getKeyframesMs
      refine ⟨hserves', ?_⟩
      cases hkeyframes : (o.session.getKeyframesMs (files o.infohash)).1 with
      | error stop =>
          rw [hkeyframes] at hresult
          exact Truthful.ofStop (.inl hasks) hresult.1 (hfile.lost_of_broken rfl ho hresult.2)
      | ok keyframes =>
          rw [hkeyframes] at hresult
          obtain rfl : keyframes = fileBoundaries (files o.infohash) := hresult
          rw [Stage.ofResult, Stage.ofManifest]
          split
          · next hlength => exact .notEnough _ hasks hlength
          · next hlength =>
              cases hgenerate : generate (fileBoundaries (files o.infohash))
                  (sessionUrl o.infohash (toInt n)) with
              | none => exact .targetDuration _ n hasks (not_lt.mp hlength) hgenerate
              | some text => exact .manifest _ n text hasks (not_lt.mp hlength) hgenerate
  | generateInit =>
      obtain ⟨infohash, sessionId, hasks, hfile⟩ := hway
      obtain rfl := hfile.eq ho
      obtain ⟨hserves', hresult⟩ := hserves.generateInitSegment hcreate
      refine ⟨hserves', ?_⟩
      cases hinit : o.session.generateInitSegment.1 with
      | error stop =>
          rw [hinit] at hresult
          exact Truthful.ofStop (.inr (.inl ⟨sessionId, hasks⟩)) hresult.1
            (hfile.lost_of_broken rfl ho hresult.2)
      | ok bytes =>
          rw [hinit] at hresult
          exact .init _ sessionId s₀ bytes hasks hcreate hresult
  | checkIndex _ segmentIdx =>
      obtain ⟨infohash, sessionId, hasks, hfile⟩ := hway
      obtain rfl := hfile.eq ho
      obtain ⟨hserves', hresult⟩ := hserves.getKeyframesMs
      refine ⟨hserves', ?_⟩
      cases hkeyframes : (o.session.getKeyframesMs (files o.infohash)).1 with
      | error stop =>
          rw [hkeyframes] at hresult
          exact Truthful.ofStop (.inr (.inr ⟨sessionId, segmentIdx, hasks⟩)) hresult.1
            (hfile.lost_of_broken rfl ho hresult.2)
      | ok keyframes =>
          rw [hkeyframes] at hresult
          obtain rfl : keyframes = fileBoundaries (files o.infohash) := hresult
          rw [Stage.ofResult, Stage.ofWindow]
          cases hw : segmentWindow (fileBoundaries (files o.infohash)) segmentIdx with
          | none => exact .noSegment _ sessionId segmentIdx hasks hw
          | some w =>
              obtain rfl : w.segmentIdx = segmentIdx := (segmentWindow_eq_some.mp hw).2.1
              exact ⟨o.infohash, sessionId, hasks, hfile.mono hgrows, hw⟩
  | firstInit _ w =>
      obtain ⟨infohash, sessionId, hasks, hfile, hw⟩ := hway
      obtain rfl := hfile.eq ho
      obtain ⟨hserves', hresult⟩ := hserves.generateInitSegment hcreate
      refine ⟨hserves', ?_⟩
      cases hinit : o.session.generateInitSegment.1 with
      | error stop =>
          rw [hinit] at hresult
          exact Truthful.ofStop (.inr (.inr ⟨sessionId, w.segmentIdx, hasks⟩)) hresult.1
            (hfile.lost_of_broken rfl ho hresult.2)
      | ok bytes =>
          obtain ⟨built, cache, hframe, -, hbuilt⟩ := generateInitSegment_frame o.session
          refine ⟨⟨o.infohash, sessionId, hasks, hfile.mono hgrows, hw⟩,
            { o with session := o.session.generateInitSegment.2 }, ?_, ?_⟩
          · rw [State.getElem?_setSession, ho, Option.map_some, if_pos rfl]
          · rw [hframe]
            exact hbuilt ⟨bytes, hinit⟩
  | build _ w =>
      obtain ⟨⟨infohash, sessionId, hasks, hfile, hw⟩, o', ho', hbuilt⟩ := hway
      obtain rfl : o = o' := Option.some.inj (ho.symm.trans ho')
      obtain rfl := hfile.eq ho
      have hfinds := hopens o.infohash (by rw [Stage.opensFor, ho]; rfl)
      obtain ⟨hserves', hresult⟩ := hserves.buildSegmentLocked hcreate hbuilt hfinds hw
      refine ⟨hserves', ?_⟩
      cases hsegment : (o.session.buildSegmentLocked (files o.infohash) c reopen w).1 with
      | ok bytes =>
          rw [hsegment] at hresult
          exact .segment _ sessionId w s₀ bytes hasks hw hcreate hresult
      | error stop =>
          rw [hsegment] at hresult
          cases stop with
          | exception what => exact .segmentFails _ sessionId w what hasks hw hresult
          | _ =>
              exact .access _ _ (.inr (.inr ⟨sessionId, w.segmentIdx, hasks⟩))
                (hfile.lost_of_broken rfl ho hresult)

theorem Serving.initsSound {s : State δ ε α} (h : Serving files c s) : InitsSound s := by
  intro ref o ho hbuilt
  obtain ⟨s₀, -, hserves⟩ := h.serves ref o ho
  exact (hserves.initCache hbuilt).1

/-- A session that a stage leaves behind still serves its file. -/
theorem Advance.serves {reopen : Reopen} {s s' : State δ ε α} {stage stage' : Stage}
    (h : Advance files c reopen s stage stage' s') (hs : Serving files c s)
    {found : State δ ε α} {lost : ℕ → Prop} {path : List Char}
    (hway : OnItsWay files c faults found lost path s stage)
    (hopens : ∀ infohash ∈ stage.opensFor s, FindsFile (files infohash) faults reopen) (ref : ℕ)
    (o' : SessionObject δ ε α) (ho' : s'.objects[ref]? = some o') :
    ∃ s₀, create c (.opened (files o'.infohash).context) = .ok s₀ ∧
      ServesFile (files o'.infohash) c s₀ o'.session := by
  rcases h.object ho' with ⟨o, ho, hfile, hsession | hmethod⟩ |
    ⟨infohash, sessionId, createdAt, rfl, rfl, hcreate, -⟩
  · rw [hfile, hsession]
    exact hs.serves ref o ho
  · obtain ⟨s₀, hcreate, hserves⟩ := hs.serves ref o ho
    rw [hfile]
    exact ⟨s₀, hcreate, (hmethod.serves ho hcreate hserves hway hopens).1⟩
  · have hnew := create_of_findsFile c (hopens o'.infohash rfl)
    rw [hcreate] at hnew
    exact ⟨o'.session, hnew, create_servesFile hnew⟩

/-- A stage leads its handler on, or ends it. -/
theorem Advance.onItsWay {reopen : Reopen} {s s' : State δ ε α} {stage stage' : Stage}
    (h : Advance files c reopen s stage stage' s') (hs : Serving files c s)
    (hsound : StageSound s stage) {found : State δ ε α} {lost : ℕ → Prop} {path : List Char}
    (hway : OnItsWay files c faults found lost path s stage)
    (hopens : ∀ infohash ∈ stage.opensFor s, FindsFile (files infohash) faults reopen)
    (hnot : ¬stage.Final) :
    OnItsWay files c faults s (stage.FindsClosed s) path s' stage' := by
  have hgrows := h.grows
  cases h with
  | cleanup infohash => exact hway
  | takeId infohash => exact hway
  | readClock infohash sessionId => exact hway
  | constructFails infohash sessionId createdAt stop hcreate =>
      have hnew := create_of_findsFile c (hopens infohash rfl)
      rw [hcreate] at hnew
      cases stop with
      | exception what => exact .noSession infohash what hway hnew
      | _ => exact .access infohash _ (.inl hway) (.inl hnew)
  | construct infohash sessionId createdAt session hcreate =>
      exact ⟨hway, ⟨_, List.getElem?_concat_length, rfl⟩⟩
  | insert infohash sessionId ref =>
      obtain ⟨n, -, hid⟩ := hsound.2.1.issued
      exact ⟨hway.1, ⟨n, hid⟩, hway.2⟩
  | findInitFails infohash sessionId hlookup =>
      exact .noInitSession infohash sessionId hway hlookup
  | findInit infohash sessionId ref hlookup =>
      exact ⟨infohash, sessionId, hway, (hs.fileAt hway.length hlookup).mono hgrows⟩
  | findSegmentFails infohash sessionId segmentIdx hlookup =>
      exact .noSegmentSession infohash sessionId segmentIdx hway hlookup
  | findSegment infohash sessionId segmentIdx ref hlookup =>
      exact ⟨infohash, sessionId, hway, (hs.fileAt hway.length hlookup).mono hgrows⟩
  | readInitBuilt ref w o ho hbuilt => exact ⟨hway, o, ho, hbuilt⟩
  | readInitMissing ref w hmissing => exact hway
  | method _ ref o _ session ho hmethod =>
      obtain ⟨s₀, hcreate, hserves⟩ := hs.serves ref o ho
      exact (hmethod.serves ho hcreate hserves hway hopens).2
  | dangling _ ref htarget hnone =>
      cases stage with
      | answered reply => exact absurd trivial hnot
      | undefined what => exact absurd trivial hnot
      | _ => exact hway
  | answered reply => exact absurd trivial hnot
  | undefined what => exact absurd trivial hnot

/-- Only a build whose opening fails closes the input of a session. -/
theorem Advance.closes {reopen : Reopen} {s s' : State δ ε α} {stage stage' : Stage}
    (h : Advance files c reopen s stage stage' s') (hs : Serving files c s)
    (hopens : ∀ infohash ∈ stage.opensFor s, FindsFile (files infohash) faults reopen)
    {infohash : List Char} {ref : ℕ} (hclosed : ClosedAt infohash ref s')
    (hopen : ¬ClosedAt infohash ref s) (hplayable : Playable (files infohash)) :
    (∃ w, stage = .build ref w) ∧ reopen.failure.isSome := by
  obtain ⟨o', ho', rfl, hclosed⟩ := hclosed
  rcases h.object ho' with ⟨o, ho, hfile, hsession | hmethod⟩ |
    ⟨infohash, sessionId, createdAt, rfl, rfl, hcreate, -⟩
  · exact absurd ⟨o, ho, hfile.symm, hsession ▸ hclosed⟩ hopen
  · have hisSome : o.session.demuxer.fmtCtx.isSome := by
      rw [Option.isSome_iff_ne_none]
      exact fun hnone ↦ hopen ⟨o, ho, hfile.symm, hnone⟩
    rw [hfile] at hplayable
    obtain ⟨s₀, -, hserves⟩ := hs.serves ref o ho
    have hlists : (o.session.getKeyframesMs (files o.infohash)).2.demuxer.fmtCtx.isSome := by
      rw [getKeyframesMs_snd]
      exact (Demuxer.ensureCueIndex_sameOpening _ _).isSome.trans hisSome
    have hinits : o.session.generateInitSegment.2.demuxer.fmtCtx.isSome := by
      obtain ⟨built, cache, hframe, -⟩ := generateInitSegment_frame o.session
      rw [hframe]
      exact hisSome
    generalize o'.session = session at hmethod hclosed
    cases hmethod with
    | listKeyframes infohash sessionId => rw [hclosed] at hlists; cases hlists
    | generateInit => rw [hclosed] at hinits; cases hinits
    | checkIndex _ segmentIdx => rw [hclosed] at hlists; cases hlists
    | firstInit _ w => rw [hclosed] at hinits; cases hinits
    | build _ w =>
        have hfinds := hopens o.infohash (by rw [Stage.opensFor, ho]; rfl)
        have hsettles := buildSegmentLocked_settles c hserves.toLikeNew.self hisSome hplayable
          hfinds.sameFile w
        exact ⟨⟨w, rfl⟩, hsettles.2 hclosed⟩
  · have hnew := create_of_findsFile c (hopens o'.infohash rfl)
    rw [hcreate] at hnew
    obtain ⟨hopened, -, -⟩ := create_opened hnew
    have hisSome := hopened.isSome_fmtCtx
    rw [hclosed] at hisSome
    cases hisSome

/-! ## Every run -/

/-- What holds of a handler, and of two. -/
abbrev ServingHolds (files : List Char → Media) (c : AacCodec δ ε α) (faults : Set String)
    (p : Pool δ ε α) : Prop :=
  ThreadPool.Holds (Serving files c)
    (fun h s ↦ StageSound s h.stage ∧
      ∃ found lost, OnItsWay files c faults found lost h.path s h.stage)
    (fun h k s ↦ Apart h.stage k.stage s) p

variable (files c) in
theorem next_of_final {h : Handler} (hfinal : h.stage.Final) (reopen : Reopen)
    (s : State δ ε α) : (program files c).next reopen h s = (h, s) := by
  obtain ⟨path, stage⟩ := h
  cases stage with
  | answered reply => rfl
  | undefined what => rfl
  | _ => exact hfinal.elim

variable (files c faults) in
theorem serving_keeps : ThreadPool.Keeps (program files c) (OpensFiles files faults)
    (Serving files c)
    (fun h s ↦ StageSound s h.stage ∧
      ∃ found lost, OnItsWay files c faults found lost h.path s h.stage)
    (fun h k s ↦ Apart h.stage k.stage s) where
  symm := (table_keeps files c).symm
  start path s h := by
    obtain ⟨hsound, hapart⟩ := (table_keeps files c).start path s h.toTableSound
    exact ⟨⟨hsound, s, fun _ ↦ False, onItsWay_ofRoute s _ path s⟩, fun u hu ↦ hapart u hu.1⟩
  outside elapsed s h := by
    obtain ⟨htable, hstage, hapart⟩ := (table_keeps files c).outside elapsed s h.toTableSound
    refine ⟨⟨htable, h.serves⟩, fun u hu ↦ ⟨hstage u hu.1, ?_⟩, hapart⟩
    obtain ⟨found, lost, hway⟩ := hu.2
    exact ⟨found, lost, hway.mono ⟨le_rfl, fun _ o ho ↦ ⟨o, ho, rfl⟩⟩ fun _ hbuilt ↦ hbuilt⟩
  next reopen h s hopens hs hlocal := by
    obtain ⟨hsound, found, lost, hway⟩ := hlocal
    have hadvance := advance_spec files c reopen h.stage s
    obtain ⟨htable', hsound'⟩ := hadvance.sound hs.toTableSound hsound
    refine ⟨⟨htable', hadvance.serves hs hway hopens⟩, ⟨hsound', ?_⟩, fun u hu hapart ↦ ?_,
      fun u v huv ↦ huv.mono hadvance.grows.fetchAdds⟩
    · by_cases hfinal : h.stage.Final
      · rw [next_of_final files c hfinal reopen s]
        exact ⟨found, lost, hway⟩
      · exact ⟨s, h.stage.FindsClosed s, hadvance.onItsWay hs hsound hway hopens hfinal⟩
    · obtain ⟨husound, hapart'⟩ := hadvance.others hsound hu.1 hapart
      obtain ⟨found', lost', huway⟩ := hu.2
      exact ⟨⟨husound, found', lost',
        huway.mono hadvance.grows fun ref ↦ hadvance.initBuilt hs.initsSound⟩, hapart'⟩

theorem servingHolds_startUp (now : ℤ) : ServingHolds files c faults (startUp now) := by
  have htable : TableHolds (startUp now : Pool δ ε α) := tableHolds_startUp now
  exact ⟨⟨htable.shared, fun _ _ ho ↦ (by cases ho)⟩, fun _ h ↦ (by cases h), htable.apart⟩

theorem OnItsWay.truthful {found : State δ ε α} {lost : ℕ → Prop} {path : List Char}
    {s : State δ ε α} {stage : Stage} (h : OnItsWay files c faults found lost path s stage)
    (hfinal : stage.Final) : Truthful files c faults found lost path stage := by
  cases stage with
  | answered reply => exact h
  | undefined what => exact h
  | _ => exact hfinal.elim

theorem ServingHolds.truthful {p : Pool δ ε α} (hholds : ServingHolds files c faults p)
    {h : Handler} (hmem : h ∈ p.threads) (hfinal : h.stage.Final) :
    ∃ found lost, Truthful files c faults found lost h.path h.stage := by
  obtain ⟨-, found, lost, hway⟩ := hholds.each h hmem
  exact ⟨found, lost, hway.truthful hfinal⟩

/-- The build of a window with video is answered with its segment, over a file that is open
or opens again, and leaves the file open. -/
theorem ServingHolds.answers_build {p : Pool δ ε α} (hholds : ServingHolds files c faults p)
    {i ref : ℕ} {path : List Char} {w : Window}
    (hi : p.threads[i]? = some ⟨path, .build ref w⟩) {o : SessionObject δ ε α}
    (ho : p.shared.objects[ref]? = some o) (hopen : o.session.demuxer.fmtCtx.isSome)
    (hplayable : Playable (files o.infohash)) (hvideo : ownSamples (files o.infohash) w ≠ []) :
    let p' := (serverStep files c (.proceed i (.opened (files o.infohash).context)) p).2
    (∃ s₀ bytes, create c (.opened (files o.infohash).context) = .ok s₀ ∧
        SegmentOf (files o.infohash) c s₀ w bytes ∧
        p'.threads[i]? = some ⟨path, .answered (contentReply "video/mp4" bytes)⟩) ∧
      ∃ o', p'.shared.objects[ref]? = some o' ∧ o'.infohash = o.infohash ∧
        o'.session.demuxer.fmtCtx.isSome := by
  intro p'
  obtain ⟨-, -, -, ⟨infohash, sessionId, -, hfile, hw⟩, o', ho', hbuilt⟩ :=
    hholds.each _ (List.mem_of_getElem? hi)
  obtain rfl : o = o' := Option.some.inj (ho.symm.trans ho')
  obtain rfl := hfile.eq ho
  obtain ⟨s₀, hcreate, hserves⟩ := hholds.shared.serves ref o ho
  have hfinds : FindsFile (files o.infohash) ∅ (.opened (files o.infohash).context) :=
    ⟨rfl, fun _ h ↦ by cases h⟩
  obtain ⟨-, hresult⟩ := hserves.buildSegmentLocked hcreate hbuilt hfinds hw
  obtain ⟨-, hstays⟩ :=
    buildSegmentLocked_settles c hserves.toLikeNew.self hopen hplayable hfinds.sameFile w
  have hstep : p' = ⟨p.threads.set i ⟨path, .ofResult
      (fun data ↦ .answered (contentReply "video/mp4" data))
      (o.session.buildSegmentLocked (files o.infohash) c
        (.opened (files o.infohash).context) w).1⟩, p.shared.setSession ref
      (o.session.buildSegmentLocked (files o.infohash) c
        (.opened (files o.infohash).context) w).2⟩ := by
    simp only [p', serverStep, ThreadPool.step, hi, program, advance, onSession, ho]
  have hlt : i < p.threads.length := (List.getElem?_eq_some_iff.mp hi).1
  rw [hstep, State.getElem?_setSession, ho]
  refine ⟨?_, _, congrArg some (if_pos rfl), rfl, ?_⟩
  · cases houtcome : (o.session.buildSegmentLocked (files o.infohash) c
        (.opened (files o.infohash).context) w).1 with
    | ok bytes =>
        rw [houtcome] at hresult
        exact ⟨s₀, bytes, hcreate, hresult, List.getElem?_set_self hlt⟩
    | error stop =>
        rw [houtcome] at hresult
        cases stop with
        | exception what =>
            rcases hresult with hfault | ⟨-, hnone⟩
            · cases hfault
            · exact absurd hnone hvideo
        | _ => exact absurd hresult (not_broken_iff.mpr ⟨hopen, hplayable⟩)
  · rw [Option.isSome_iff_ne_none]
    exact fun hclosed ↦ by cases hstays hclosed

/-- The server after these moves. -/
def poolAfter (files : List Char → Media) (c : AacCodec δ ε α) (now : ℤ) (moves : List Move) :
    Pool δ ε α :=
  CallRun.finalState (serverStep files c) moves (startUp now)

/-- Handler `i` works on the session `ref`, which an earlier build has left without input:
its opening failed. -/
def LostInput (files : List Char → Media) (c : AacCodec δ ε α) (now : ℤ) (moves : List Move)
    (i ref : ℕ) : Prop :=
  (∃ h, (poolAfter files c now moves).threads[i]? = some h ∧ h.stage.target = some ref) ∧
    ∃ earlier j reopen later h w, moves = earlier ++ .proceed j reopen :: later ∧
      (poolAfter files c now earlier).threads[j]? = some h ∧ h.stage = .build ref w ∧
        reopen.failure.isSome

/-- Handler `i` has ended truthfully in some move of the run: its arrival or a turn of its
own. -/
def EndsTruthfully (files : List Char → Media) (c : AacCodec δ ε α) (faults : Set String)
    (now : ℤ) (moves : List Move) (i : ℕ) (h : Handler) : Prop :=
  ∃ before move after, moves = before ++ move :: after ∧
    (move = .arrive h.path ∨ ∃ reopen, move = .proceed i reopen) ∧
      Truthful files c faults (poolAfter files c now before).shared
        (LostInput files c now before i) h.path h.stage

variable {now : ℤ} {moves : List Move}

/-- A closed input has been lost in a build of the run. -/
theorem exists_failed_build
    (hopens : CallRun.Always (serverStep files c) (ThreadPool.Meets (OpensFiles files faults))
      moves (startUp now)) {infohash : List Char} {ref : ℕ}
    (hclosed : ClosedAt infohash ref (poolAfter files c now moves).shared)
    (hplayable : Playable (files infohash)) :
    ∃ earlier j reopen later h w, moves = earlier ++ .proceed j reopen :: later ∧
      (poolAfter files c now earlier).threads[j]? = some h ∧ h.stage = .build ref w ∧
        reopen.failure.isSome := by
  have hstart : ¬ClosedAt infohash ref (startUp now : Pool δ ε α).shared := by
    rintro ⟨o, ho, -⟩
    cases ho
  obtain ⟨earlier, move, later, rfl, hopen, hcloses⟩ := CallRun.exists_step_into
    (Q := fun p : Pool δ ε α ↦ ClosedAt infohash ref p.shared) hstart hclosed
  have hmeets := hopens.here
  have hholds : ServingHolds files c faults (poolAfter files c now earlier) :=
    ThreadPool.Holds.finalState (serving_keeps files c faults) (servingHolds_startUp now)
      hopens.of_append
  rw [← poolAfter] at hopen hcloses hmeets
  cases move with
  | arrive path => exact absurd hcloses hopen
  | outside elapsed => exact absurd hcloses hopen
  | proceed j reopen =>
      rw [serverStep, ThreadPool.step] at hcloses
      cases hj : (poolAfter files c now earlier).threads[j]? with
      | none =>
          rw [hj] at hcloses
          exact absurd hcloses hopen
      | some h =>
          rw [hj] at hcloses
          obtain ⟨⟨w, hstage⟩, hfailure⟩ :=
            (advance_spec files c reopen h.stage (poolAfter files c now earlier).shared).closes
              hholds.shared (hmeets h hj) hcloses hopen hplayable
          exact ⟨earlier, j, reopen, later, h, w, rfl, hj, hstage, hfailure⟩

theorem Truthful.of_lost {s : State δ ε α} {lost lost' : ℕ → Prop} {path : List Char}
    {stage : Stage} (h : Truthful files c faults s lost path stage)
    (hlost : ∀ infohash ref, Playable (files infohash) → FileAt infohash ref s → lost ref →
      lost' ref) : Truthful files c faults s lost' path stage := by
  cases h with
  | access infohash stop hasks hbroken =>
      refine .access infohash stop hasks ?_
      by_cases hplayable : Playable (files infohash)
      · obtain ⟨ref, hfile, href⟩ := hbroken.resolve_left (not_not.mpr hplayable)
        exact .inr ⟨ref, hfile, hlost infohash ref hplayable hfile href⟩
      · exact .inl hplayable
  | notRouted hroute => exact .notRouted hroute
  | health hroute => exact .health hroute
  | badInit text id hroute hid => exact .badInit text id hroute hid
  | badSegment text id idx hroute hbad => exact .badSegment text id idx hroute hbad
  | noSession infohash what hasks hwhat => exact .noSession infohash what hasks hwhat
  | notEnough infohash hasks hlength => exact .notEnough infohash hasks hlength
  | manifest infohash n text hasks hlength hgenerate =>
      exact .manifest infohash n text hasks hlength hgenerate
  | targetDuration infohash n hasks hlength hgenerate =>
      exact .targetDuration infohash n hasks hlength hgenerate
  | noInitSession infohash sessionId hasks hlookup =>
      exact .noInitSession infohash sessionId hasks hlookup
  | init infohash sessionId s₀ bytes hasks hcreate hinit =>
      exact .init infohash sessionId s₀ bytes hasks hcreate hinit
  | noSegmentSession infohash sessionId segmentIdx hasks hlookup =>
      exact .noSegmentSession infohash sessionId segmentIdx hasks hlookup
  | noSegment infohash sessionId segmentIdx hasks hnone =>
      exact .noSegment infohash sessionId segmentIdx hasks hnone
  | segment infohash sessionId w s₀ bytes hasks hw hcreate hsegment =>
      exact .segment infohash sessionId w s₀ bytes hasks hw hcreate hsegment
  | segmentFails infohash sessionId w what hasks hw hwhat =>
      exact .segmentFails infohash sessionId w what hasks hw hwhat

/-- In every run in which the openings find the files, whichever of them fail, and in
whichever order the handlers proceed, every handler that ends does so by its path and the
file it asks for. -/
theorem handlers_end_truthfully (faults : Set String) (now : ℤ) (moves : List Move)
    (hopens : CallRun.Always (serverStep files c)
      (ThreadPool.Meets (OpensFiles files faults)) moves (startUp now)) :
    ∀ i h, (poolAfter files c now moves).threads[i]? = some h → h.stage.Final →
      EndsTruthfully files c faults now moves i h := by
  intro i h hi hfinal
  have hstart : (startUp now : Pool δ ε α).threads[i]? ≠ some h := by
    rintro ⟨⟩
  rcases ThreadPool.exists_turn_to hstart hi with
    ⟨before, path, after, rfl, rfl⟩ | ⟨before, reopen, after, k, rfl, hk, hne, rfl⟩
  · refine ⟨before, _, after, rfl, .inl rfl, ?_⟩
    exact (onItsWay_ofRoute _ _ path (startUp now).shared).truthful hfinal
  · have hholds : ServingHolds files c faults (poolAfter files c now before) :=
      ThreadPool.Holds.finalState (serving_keeps files c faults) (servingHolds_startUp now)
        hopens.of_append
    obtain ⟨hsound, found, lost, hway⟩ := hholds.each k (List.mem_of_getElem? hk)
    have hnot : ¬k.stage.Final := by
      intro hk'
      refine hne ?_
      rw [next_of_final files c hk' reopen]
    have hends := ((advance_spec files c reopen k.stage _).onItsWay hholds.shared hsound hway
      (hopens.here k hk) hnot).truthful hfinal
    refine ⟨before, _, after, rfl, .inr ⟨reopen, rfl⟩, hends.of_lost ?_⟩
    rintro infohash ref hplayable hfile ⟨htarget, infohash', hclosed⟩
    obtain ⟨o, ho, rfl, -⟩ := id hclosed
    obtain rfl := hfile.eq ho
    exact ⟨⟨k, hk, htarget⟩, exists_failed_build hopens.of_append hclosed hplayable⟩

theorem opensFiles_const {m : Media} {faults : Set String} {reopen : Reopen}
    (hfinds : FindsFile m faults reopen) (h : Handler) (s : State δ ε α) :
    OpensFiles (fun _ ↦ m) faults reopen h s := fun _ _ ↦ hfinds

/-- A manifest, and init segments of its session and of one that there is not. -/
def manifestThenInits : List Move :=
  manifestRequested ++
    [.proceed 0 .allocFails, .arrive ('/' :: (sampleInfohash ++ "/session-0/init.mp4".toList)),
      .arrive ('/' :: (sampleInfohash ++ "/session-1/init.mp4".toList)), .proceed 1 .allocFails,
      .proceed 2 .allocFails, .proceed 1 .allocFails]

theorem handlers_end_truthfully_manifest :
    let threads := (poolAfter (fun _ ↦ videoFile []) noCodec 0 manifestThenInits).threads
    (threads[0]?.any fun h ↦ h.stage.Final) = true ∧
      (threads[2]?.any fun h ↦ h.stage = .answered (textReply 404 "Session not found")) = true ∧
        ∀ i h, threads[i]? = some h → h.stage.Final →
          EndsTruthfully (fun _ ↦ videoFile []) noCodec {"avformat_alloc_context failed"} 0
            manifestThenInits i h := by
  refine ⟨by decide +kernel, by decide +kernel, handlers_end_truthfully _ 0 manifestThenInits
    (CallRun.always_of_forall (fun move hmove p ↦ ?_) _)⟩
  cases move with
  | arrive path => trivial
  | outside elapsed => trivial
  | proceed i reopen =>
      have hreopen : reopen = .opened (videoFile []).context ∨ reopen = .allocFails := by
        simp [manifestThenInits, manifestRequested, List.replicate] at hmove
        tauto
      have hfinds : FindsFile (videoFile []) {"avformat_alloc_context failed"} reopen := by
        rcases hreopen with rfl | rfl
        · exact ⟨rfl, fun _ h ↦ by cases h⟩
        · exact ⟨trivial, fun _ h ↦ by cases h; rfl⟩
      exact fun h _ ↦ opensFiles_const hfinds h _

end Server

end Fmp4Packager
