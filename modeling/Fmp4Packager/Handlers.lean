import Fmp4Packager.General.ThreadPool
import Fmp4Packager.Routes
import Fmp4Packager.Server
import Fmp4Packager.SessionTable

/-!
# The handlers

Between two stages a handler holds no lock, so the stages of different handlers follow
each other in any order; within a stage it holds the lock of the table, or that of one
session, or reads a single variable.  The reading of `init_built_` outside the lock counts
as such a stage.  That a handler waits for a lock, or for a thread of the pool of the HTTP
library, only puts its next stage off.  After an access without defined meaning the process
is gone; here only the handler stops, so that there are more runs than the program has.
-/

namespace Fmp4Packager

namespace Server

/-- A response with the headers that the handlers set; a text body has a content type. -/
structure Reply extends Response where
  contentType : Option String
  allowOrigin : Bool
  deriving DecidableEq, Repr

def textReply (status : ℕ) (text : String) : Reply where
  status := status
  body := bodyOfString text
  contentType := some "text/plain"
  allowOrigin := false

/-- What the library answers by itself. -/
def emptyReply (status : ℕ) : Reply where
  status := status
  body := []
  contentType := none
  allowOrigin := false

def contentReply (contentType : String) (body : List UInt8) : Reply where
  status := 200
  body := body
  contentType := some contentType
  allowOrigin := true

/-- What has no defined meaning in the source. -/
inductive Undefined where
  | access (stop : Stop)
  /-- The target duration of the manifest is no `int`. -/
  | targetDuration
  deriving DecidableEq, Repr

/-- What a handler does next. -/
inductive Stage where
  -- the manifest route
  | cleanup (infohash : List Char)
  | takeId (infohash : List Char)
  | readClock (infohash : List Char) (sessionId : ℤ)
  | construct (infohash : List Char) (sessionId createdAt : ℤ)
  | insert (infohash : List Char) (sessionId : ℤ) (ref : ℕ)
  | listKeyframes (infohash : List Char) (sessionId : ℤ) (ref : ℕ)
  -- the init route
  | findInit (infohash : List Char) (sessionId : ℤ)
  | generateInit (ref : ℕ)
  -- the segment route
  | findSegment (infohash : List Char) (sessionId segmentIdx : ℤ)
  | checkIndex (ref : ℕ) (segmentIdx : ℤ)
  | readInitBuilt (ref : ℕ) (w : Session.Window)
  | firstInit (ref : ℕ) (w : Session.Window)
  | build (ref : ℕ) (w : Session.Window)
  -- the end
  | answered (reply : Reply)
  | undefined (what : Undefined)
  deriving DecidableEq, Repr

/-- The catch blocks: exceptions become responses, everything else does not. -/
def Stage.ofStop : Stop → Stage
  | .exception what => .answered (textReply 500 what)
  | stop => .undefined (.access stop)

def Stage.ofResult {β : Type} (reply : β → Stage) : Except Stop β → Stage
  | .error stop => .ofStop stop
  | .ok result => reply result

/-- The start of every URL in the manifest of a session. -/
def sessionUrl (infohash : List Char) (sessionId : ℤ) : List Char :=
  infohash ++ "/session-".toList ++ signedDecimal sessionId ++ ['/']

/-- The end of the manifest handler. -/
def Stage.ofManifest (infohash : List Char) (sessionId : ℤ) (keyframes : List ℤ) : Stage :=
  if keyframes.length < 2 then .answered (textReply 503 "Not enough keyframes yet")
  else
    match HlsManifest.generate keyframes (sessionUrl infohash sessionId) with
    | none => .undefined .targetDuration
    | some manifest =>
        .answered (contentReply "application/vnd.apple.mpegurl"
          (bodyOfString (String.ofList manifest)))

/-- The check of the index in the segment handler. -/
def Stage.ofWindow (ref : ℕ) (keyframes : List ℤ) (segmentIdx : ℤ) : Stage :=
  match segmentWindow keyframes segmentIdx with
  | none => .answered (textReply 404 "Segment not found")
  | some w => .readInitBuilt ref w

/-- A number that does not fit is thrown out of the handler, and answered by the
library. -/
def Stage.ofRoute : Option Route → Stage
  | none => .answered (emptyReply 404)
  | some .health => .answered { textReply 200 "ok" with allowOrigin := true }
  | some (.manifest infohash) => .cleanup (infohash.map Char.toLower)
  | some (.init infohash sessionId) =>
      match stoi sessionId with
      | none => .answered (emptyReply 500)
      | some sessionId => .findInit (infohash.map Char.toLower) sessionId
  | some (.segment infohash sessionId segmentIdx) =>
      match stoi sessionId, stoll segmentIdx with
      | some sessionId, some segmentIdx =>
          .findSegment (infohash.map Char.toLower) sessionId segmentIdx
      | _, _ => .answered (emptyReply 500)

section Stages

variable {δ ε α : Type} (files : List Char → Media) (c : AacCodec δ ε α)

/-- A stage in which a method of a session runs, under its lock.  `stay` is the stage
itself: a handler refers to no session that does not exist. -/
def onSession {β : Type} (stay : Stage) (ref : ℕ)
    (method : Media → Session δ ε α → Except Stop β × Session δ ε α) (reply : β → Stage)
    (s : State δ ε α) : Stage × State δ ε α :=
  match s.objects[ref]? with
  | none => (stay, s)
  | some o =>
      let (result, session) := method (files o.infohash) o.session
      (.ofResult reply result, s.setSession ref session)

/-- One stage.  `reopen` is how far the opening of the file gets, if the stage comes to
one. -/
def advance (reopen : Reopen) (stage : Stage) (s : State δ ε α) : Stage × State δ ε α :=
  match stage with
  | .cleanup infohash => (.takeId infohash, s.cleanupOldSessions 30)
  | .takeId infohash =>
      let (sessionId, s) := s.fetchAddSessionId
      (.readClock infohash sessionId, s)
  | .readClock infohash sessionId => (.construct infohash sessionId s.now, s)
  | .construct infohash sessionId createdAt =>
      let (result, s) := s.constructSession c reopen infohash createdAt
      (.ofResult (.insert infohash sessionId) result, s)
  | .insert infohash sessionId ref =>
      (.listKeyframes infohash sessionId ref, s.insertSession infohash sessionId ref)
  | .listKeyframes infohash sessionId ref =>
      onSession files stage ref (fun m session ↦ session.getKeyframesMs m)
        (.ofManifest infohash sessionId) s
  | .findInit infohash sessionId =>
      match s.getSession infohash sessionId with
      | (none, s) => (.answered (textReply 404 "Session not found"), s)
      | (some ref, s) => (.generateInit ref, s)
  | .generateInit ref =>
      onSession files stage ref (fun _ session ↦ session.generateInitSegment)
        (fun data ↦ .answered (contentReply "video/mp4" data)) s
  | .findSegment infohash sessionId segmentIdx =>
      match s.getSession infohash sessionId with
      | (none, s) => (.answered (textReply 404 "Session not found"), s)
      | (some ref, s) => (.checkIndex ref segmentIdx, s)
  | .checkIndex ref segmentIdx =>
      onSession files stage ref (fun m session ↦ session.getKeyframesMs m)
        (fun keyframes ↦ .ofWindow ref keyframes segmentIdx) s
  | .readInitBuilt ref w =>
      if (s.objects[ref]?).any fun o ↦ o.session.initBuilt then (.build ref w, s)
      else (.firstInit ref w, s)
  | .firstInit ref w =>
      onSession files stage ref (fun _ session ↦ session.generateInitSegment)
        (fun _ ↦ .build ref w) s
  | .build ref w =>
      onSession files stage ref (fun m session ↦ session.buildSegmentLocked m c reopen w)
        (fun data ↦ .answered (contentReply "video/mp4" data)) s
  | .answered _ => (stage, s)
  | .undefined _ => (stage, s)

end Stages

/-- A request, by its path, and how far its handler is. -/
structure Handler where
  path : List Char
  stage : Stage
  deriving DecidableEq, Repr

variable {δ ε α : Type}

/-- The server: its handlers over its globals.  From the outside time passes. -/
def program (files : List Char → Media) (c : AacCodec δ ε α) :
    ThreadProgram (List Char) Handler (State δ ε α) ℕ Reopen where
  start path := ⟨path, .ofRoute (route path)⟩
  next reopen h s :=
    let (stage, s) := advance files c reopen h.stage s
    ({ h with stage := stage }, s)
  outside elapsed s := { s with now := s.now + elapsed }

abbrev Pool (δ ε α : Type) := ThreadPool Handler (State δ ε α)

abbrev Move := ThreadPool.Move (List Char) ℕ Reopen

/-- The server when it starts to listen. -/
def startUp (now : ℤ) : Pool δ ε α := ⟨[], { now := now }⟩

def serverStep (files : List Char → Media) (c : AacCodec δ ε α) :
    Move → Pool δ ε α → Unit × Pool δ ε α :=
  ThreadPool.step (program files c)

end Server

end Fmp4Packager
