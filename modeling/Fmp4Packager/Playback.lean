import Fmp4Packager.EndOfFile
import Fmp4Packager.ManifestAgreement
import Fmp4Packager.PlayedVideo

/-!
# Playing a file from its playlist

A player that reads the playlist of a session and fetches what it lists gets the whole
video of the file, whatever else the server does at the same time.
-/

namespace Fmp4Packager

namespace Server

open HlsManifest Demuxer Session Fmp4Writer

variable {δ ε α : Type} {files : List Char → Media} {c : AacCodec δ ε α} {faults : Set String}

/-- The body of a response with status 200 and this content type. -/
def Stage.got (contentType : String) : Stage → Option (List UInt8)
  | .answered reply =>
      if reply.status = 200 ∧ reply.contentType = some contentType then some reply.body else none
  | _ => none

theorem Stage.final_of_got {contentType : String} {stage : Stage} {body : List UInt8}
    (h : stage.got contentType = some body) : stage.Final := by
  cases stage with
  | answered reply => trivial
  | _ => cases h

/-- Whoever gets a playlist has asked for a manifest of the file. -/
theorem Truthful.of_got_playlist {s : State δ ε α} {lost : ℕ → Prop} {path : List Char}
    {stage : Stage} (h : Truthful files c faults s lost path stage) {body : List UInt8}
    (hgot : stage.got "application/vnd.apple.mpegurl" = some body) :
    ∃ infohash, ∃ n : ℕ, ∃ text, AsksManifest path infohash ∧
      2 ≤ (fileBoundaries (files infohash)).length ∧
      generate (fileBoundaries (files infohash)) (sessionUrl infohash (toInt n)) = some text ∧
      body = bodyOfString (String.ofList text) := by
  cases h with
  | manifest infohash n text hasks hlength hgenerate =>
      refine ⟨infohash, n, text, hasks, hlength, hgenerate, ?_⟩
      simpa [Stage.got, contentReply] using hgot.symm
  | _ => simp [Stage.got, textReply, emptyReply, contentReply] at hgot

/-- Whoever gets a video has asked for an init segment or for a segment of the file. -/
theorem Truthful.of_got_video {s : State δ ε α} {lost : ℕ → Prop} {path : List Char}
    {stage : Stage} (h : Truthful files c faults s lost path stage) {bytes : List UInt8}
    (hgot : stage.got "video/mp4" = some bytes) :
    (∃ infohash sessionId s₀, AsksInit path infohash sessionId ∧
        create c (.opened (files infohash).context) = .ok s₀ ∧
        s₀.generateInitSegment.1 = .ok bytes) ∨
      ∃ infohash sessionId w s₀, AsksSegment path infohash sessionId w.segmentIdx ∧
        segmentWindow (fileBoundaries (files infohash)) w.segmentIdx = some w ∧
        create c (.opened (files infohash).context) = .ok s₀ ∧
        SegmentOf (files infohash) c s₀ w bytes := by
  cases h with
  | init infohash sessionId s₀ bytes' hasks hcreate hinit =>
      obtain rfl : bytes' = bytes := by simpa [Stage.got, contentReply] using hgot
      exact .inl ⟨infohash, sessionId, s₀, hasks, hcreate, hinit⟩
  | segment infohash sessionId w s₀ bytes' hasks hw hcreate hsegment =>
      obtain rfl : bytes' = bytes := by simpa [Stage.got, contentReply] using hgot
      exact .inr ⟨infohash, sessionId, w, s₀, hasks, hw, hcreate, hsegment⟩
  | _ => simp [Stage.got, textReply, emptyReply, contentReply] at hgot

/-- The URI of segment `i` in the playlist of a session. -/
def segmentUri (infohash : List Char) (sessionId : ℤ) (i : ℕ) : List Char :=
  sessionUrl infohash sessionId ++ decimal i ++ ".m4s".toList

theorem mem_signedDecimal {ch : Char} {n : ℤ} (h : ch ∈ signedDecimal n) :
    ch.isDigit ∨ ch = '-' := by
  have hdigit : ∀ {k : ℕ}, ch ∈ decimal k → ch.isDigit := fun h ↦
    Nat.isDigit_of_mem_toDigits (by decide) (by decide) h
  rw [signedDecimal] at h
  split at h
  · rcases List.mem_cons.mp h with rfl | h
    · exact .inr rfl
    · exact .inl (hdigit h)
  · exact .inl (hdigit h)

theorem startsUri_sessionUrl {infohash : List Char} (h : IsInfohash infohash) (sessionId : ℤ) :
    StartsUri (sessionUrl infohash sessionId) ∧ '"' ∉ sessionUrl infohash sessionId := by
  have hnot : ∀ c : Char, isHexDigit c = false → c.isDigit = false → c ≠ '-' →
      c ∉ "/session-".toList → c ≠ '/' → c ∉ sessionUrl infohash sessionId := by
    intro c hhex hdigit hminus hsession hslash
    simp only [sessionUrl, List.mem_append, List.mem_singleton, not_or]
    refine ⟨⟨⟨h.not_mem hhex, hsession⟩, fun hmem ↦ ?_⟩, hslash⟩
    rcases mem_signedDecimal hmem with hd | rfl
    · rw [hdigit] at hd
      cases hd
    · exact hminus rfl
  refine ⟨⟨?_, hnot '\n' rfl rfl (by decide) (by decide) (by decide)⟩,
    hnot '"' rfl rfl (by decide) (by decide) (by decide)⟩
  obtain ⟨c, rest, rfl⟩ := h.exists_cons
  refine ⟨c, _, rfl, ?_⟩
  rintro rfl
  exact h.not_mem (c := '#') rfl List.mem_cons_self

theorem splitOn_segmentUri {infohash : List Char} (h : IsInfohash infohash) (sessionId : ℤ)
    (i : ℕ) :
    (segmentUri infohash sessionId i).splitOn '/' =
      [infohash, "session-".toList ++ signedDecimal sessionId, decimal i ++ ".m4s".toList] := by
  have hsession : '/' ∉ "session-".toList ++ signedDecimal sessionId := by
    rw [List.mem_append, not_or]
    refine ⟨by decide, fun hmem ↦ ?_⟩
    rcases mem_signedDecimal hmem with hd | hd
    · exact absurd hd (by decide)
    · exact absurd hd (by decide)
  have hfile : '/' ∉ decimal i ++ ".m4s".toList := by
    rw [List.mem_append, not_or]
    exact ⟨not_mem_decimal rfl i, by decide⟩
  have huri : segmentUri infohash sessionId i =
      infohash ++ '/' :: (("session-".toList ++ signedDecimal sessionId) ++ '/' ::
        (decimal i ++ ".m4s".toList)) := by
    have hsession : "/session-".toList = '/' :: "session-".toList := rfl
    simp only [segmentUri, sessionUrl, hsession, List.append_assoc, List.cons_append,
      List.nil_append]
  rw [huri, Playlist.splitOn_append_cons_of_not_mem (h.not_mem rfl),
    Playlist.splitOn_append_cons_of_not_mem hsession,
    Playlist.splitOn_eq_singleton_of_not_mem hfile]

theorem resolve_segmentUri {infohash name : List Char} (h : IsInfohash infohash)
    (hname : '/' ∉ name) (sessionId : ℤ) (i : ℕ) :
    Playlist.resolve ('/' :: name) (segmentUri infohash sessionId i) =
      '/' :: segmentUri infohash sessionId i := by
  apply Playlist.resolve_root hname
  · obtain ⟨c, tail, rfl⟩ := h.exists_cons
    rintro rest hrest
    obtain rfl : c = '/' := (List.cons.inj hrest).1
    exact h.not_mem (c := '/') rfl List.mem_cons_self
  · have hlong : ∀ segment : List Char, 2 < segment.length →
        segment ≠ ['.'] ∧ segment ≠ ['.', '.'] := by
      intro segment hlength
      constructor <;> rintro rfl <;> simp at hlength
    rw [splitOn_segmentUri h]
    intro segment hsegment
    apply hlong
    simp only [List.mem_cons, List.not_mem_nil, or_false] at hsegment
    rcases hsegment with rfl | rfl | rfl
    · rw [h.length]
      decide
    · rw [List.length_append, show "session-".toList.length = 8 from rfl]
      omega
    · rw [List.length_append, show ".m4s".toList.length = 4 from rfl]
      omega

theorem matchDigits_minus (rest : List Char) : matchDigits ('-' :: rest) = none := rfl

/-- Only the URIs of sessions with an id from 0 on are served. -/
theorem asksSegment_segmentUri {infohash infohash' : List Char} (h : IsInfohash infohash)
    {sessionId sessionId' segmentIdx : ℤ} {i : ℕ}
    (hasks : AsksSegment ('/' :: segmentUri infohash sessionId i) infohash' sessionId'
      segmentIdx) : infohash' = infohash.map Char.toLower ∧ segmentIdx = i := by
  obtain ⟨text, id, idx, hroute, rfl, -, hidx⟩ := hasks
  have hmatch := match_of_route hroute
  dsimp only at hmatch
  by_cases hneg : sessionId < 0
  · have hpath : '/' :: segmentUri infohash sessionId i =
        ['/'] ++ (infohash ++ ("/session-".toList ++ '-' :: (decimal sessionId.natAbs ++ '/' ::
          (decimal i ++ ".m4s".toList)))) := by
      rw [segmentUri, sessionUrl, signedDecimal, if_pos hneg]
      simp only [List.append_assoc, List.cons_append, List.nil_append]
    rw [hpath, matchSegmentRoute, matchLiteral_append] at hmatch
    simp only [Option.bind_eq_bind, Option.bind_some] at hmatch
    rw [matchInfohash_append h] at hmatch
    simp only [Option.bind_some] at hmatch
    rw [matchLiteral_append] at hmatch
    simp only [Option.bind_some] at hmatch
    rw [matchDigits_minus] at hmatch
    cases hmatch
  · obtain ⟨n, rfl⟩ := Int.eq_ofNat_of_zero_le (not_lt.mp hneg)
    have hpath : segmentUri infohash n i = segmentPath infohash n i := by
      rw [segmentUri, sessionUrl, signedDecimal_natCast]
      rfl
    rw [hpath, matchSegmentRoute_segmentPath h] at hmatch
    cases hmatch
    refine ⟨rfl, ?_⟩
    rw [stoll, decimal, Nat.ofDigitChars_ten_toDigits] at hidx
    split at hidx <;> cases hidx
    rfl

theorem not_asksInit_segmentUri {infohash infohash' : List Char} (h : IsInfohash infohash)
    {sessionId sessionId' : ℤ} {i : ℕ} :
    ¬AsksInit ('/' :: segmentUri infohash sessionId i) infohash' sessionId' := by
  rintro ⟨text, id, hroute, -, -⟩
  have hmatch := match_of_route hroute
  dsimp only at hmatch
  have hpath : '/' :: segmentUri infohash sessionId i =
      ['/'] ++ (infohash ++ ("/session-".toList ++ (signedDecimal sessionId ++ '/' ::
        (decimal i ++ ".m4s".toList)))) := by
    rw [segmentUri, sessionUrl]
    simp only [List.append_assoc, List.cons_append, List.nil_append]
  rw [hpath, matchInitRoute, matchLiteral_append] at hmatch
  simp only [Option.bind_eq_bind, Option.bind_some] at hmatch
  rw [matchInfohash_append h] at hmatch
  simp only [Option.bind_some] at hmatch
  rw [matchLiteral_append] at hmatch
  simp only [Option.bind_some] at hmatch
  rw [signedDecimal] at hmatch
  split at hmatch
  · rw [List.cons_append, matchDigits_minus] at hmatch
    cases hmatch
  · rw [matchDigits_decimal_append _ rfl] at hmatch
    simp only [Option.bind_some] at hmatch
    split at hmatch
    · next hend =>
        -- the name of a segment starts with a digit
        have hi : 'i' ∈ decimal i ++ ".m4s".toList := by
          rw [show "/init.mp4".toList = '/' :: "init.mp4".toList from rfl] at hend
          rw [(List.cons.inj hend).2]
          decide
        rw [List.mem_append] at hi
        exact hi.elim (not_mem_decimal rfl i) (by decide)
    · cases hmatch

/-! ## The playlist and what it lists -/

/-- A playlist, as a player reads it from a body. -/
def readPlaylist (body : List UInt8) : Option Playlist.Media :=
  (String.fromUTF8? body.toByteArray).bind fun text ↦ Playlist.read text.toList

theorem toList_loop_eq (bytes : ByteArray) (i : ℕ) (taken : List UInt8) :
    ByteArray.toList.loop bytes i taken = taken.reverse ++ bytes.data.toList.drop i := by
  fun_induction ByteArray.toList.loop bytes i taken with
  | case1 i taken hlt ih =>
      have hlt' : i < bytes.data.toList.length := hlt
      have hget : bytes.get! i = bytes.data.toList[i] := by
        rw [ByteArray.get!, getElem!_pos bytes.data i hlt]
        rfl
      rw [ih, List.drop_eq_getElem_cons hlt', List.reverse_cons, List.append_assoc, hget]
      rfl
  | case2 i taken hge =>
      rw [List.drop_eq_nil_of_le (not_lt.mp hge), List.append_nil]

theorem toByteArray_bodyOfString (text : String) :
    (bodyOfString text).toByteArray = text.toUTF8 := by
  apply ByteArray.ext
  apply Array.toList_inj.mp
  rw [List.toList_data_toByteArray]
  exact toList_loop_eq text.toUTF8 0 []

theorem readPlaylist_bodyOfString (text : List Char) :
    readPlaylist (bodyOfString (String.ofList text)) = Playlist.read text := by
  have hvalid : (String.ofList text).toUTF8.IsValidUTF8 := (String.ofList text).isValidUTF8
  rw [readPlaylist, toByteArray_bodyOfString, String.fromUTF8?, dif_pos hvalid]
  exact congrArg Playlist.read String.toList_ofList

theorem asksManifest_path {path infohash : List Char} (h : AsksManifest path infohash) :
    IsInfohash infohash ∧ infohash.map Char.toLower = infohash ∧
      ∃ name, '/' ∉ name ∧ path = '/' :: name := by
  obtain ⟨text, hroute, rfl⟩ := h
  obtain ⟨⟨hlength, hhex⟩, rfl⟩ := matchManifestRoute_eq_some (match_of_route hroute)
  have htext : IsInfohash text := ⟨hlength, hhex⟩
  refine ⟨htext.map_toLower, htext.toLower_toLower, _, ?_, rfl⟩
  rw [List.mem_append, not_or]
  exact ⟨htext.not_mem rfl, by decide⟩

theorem read_of_generate {keyframes : List ℤ} (hlength : 2 ≤ keyframes.length)
    (hsorted : keyframes.Pairwise (· < ·)) {infohash : List Char} (h : IsInfohash infohash)
    {sessionId : ℤ} {text : List Char}
    (hgenerate : generate keyframes (sessionUrl infohash sessionId) = some text) :
    ∃ target, Playlist.read text = some
      (manifestPlaylist (sessionUrl infohash sessionId) target (segmentDurations keyframes)) := by
  obtain ⟨huri, hquote⟩ := startsUri_sessionUrl h sessionId
  cases htarget : ceilToInt (maxElement (segmentDurations keyframes)) with
  | none =>
      rw [generate, if_neg (not_lt.mpr hlength)] at hgenerate
      dsimp only at hgenerate
      rw [htarget] at hgenerate
      cases hgenerate
  | some target =>
      have hread := read_generate hlength hsorted huri hquote htarget
      rw [hgenerate, Option.bind_some] at hread
      exact ⟨_, hread⟩

/-- The segments of a playlist are the windows between the boundaries, in their order. -/
theorem read_playlist {keyframes : List ℤ} (hlength : 2 ≤ keyframes.length)
    (hsorted : keyframes.Pairwise (· < ·)) {infohash : List Char} (h : IsInfohash infohash)
    {sessionId : ℤ} {text : List Char}
    (hgenerate : generate keyframes (sessionUrl infohash sessionId) = some text) :
    ∃ p, Playlist.read text = some p ∧ p.segments.length + 1 = keyframes.length ∧
      ∀ i segment, p.segments[i]? = some segment →
        segment.uri = segmentUri infohash sessionId i := by
  obtain ⟨target, hread⟩ := read_of_generate hlength hsorted h hgenerate
  refine ⟨_, hread, ?_, fun i segment hsegment ↦ ?_⟩
  · rw [manifestPlaylist, length_listed, length_segmentDurations hlength]
  · rw [manifestPlaylist, getElem?_listed, Option.map_eq_some_iff] at hsegment
    obtain ⟨d, -, rfl⟩ := hsegment
    rw [Nat.zero_add]
    rfl

/-- The replies to a player that requests what a playlist lists, in its order.  `path` is
that of the playlist. -/
structure Fetched (threads : List Handler) (path : List Char) (p : Playlist.Media)
    (replies : List (List UInt8)) : Prop where
  length : replies.length = p.segments.length
  reply : ∀ (i : ℕ) segment bytes, p.segments[i]? = some segment → replies[i]? = some bytes →
    bytes.length < 2 ^ 31 ∧ ∃ h ∈ threads, h.path = Playlist.resolve path segment.uri ∧
      h.stage.got "video/mp4" = some bytes

/-- One segment for every window of the file, in their order. -/
def SegmentsOf (m : Media) (c : AacCodec δ ε α) (replies : List (List UInt8)) : Prop :=
  replies.length + 1 = (fileBoundaries m).length ∧
    ∀ (i : ℕ) bytes, replies[i]? = some bytes → bytes.length < 2 ^ 31 ∧
      ∃ s₀ w, segmentWindow (fileBoundaries m) i = some w ∧
        create c (.opened m.context) = .ok s₀ ∧ SegmentOf m c s₀ w bytes

/-- What a playlist lists are the segments of the file. -/
theorem ServingHolds.segmentsOf {pool : Pool δ ε α} (hholds : ServingHolds files c faults pool)
    {h : Handler} (hmem : h ∈ pool.threads) {infohash : List Char}
    (hasks : AsksManifest h.path infohash) {body : List UInt8}
    (hgot : h.stage.got "application/vnd.apple.mpegurl" = some body)
    (hsorted : (fileBoundaries (files infohash)).Pairwise (· < ·)) :
    ∃ p, readPlaylist body = some p ∧ ∀ replies, Fetched pool.threads h.path p replies →
      SegmentsOf (files infohash) c replies := by
  obtain ⟨hinfohash, hlower, name, hname, hpath⟩ := asksManifest_path hasks
  obtain ⟨_, _, htrue⟩ := hholds.truthful hmem (Stage.final_of_got hgot)
  obtain ⟨infohash', n, text, hasks', hlength, hgenerate, rfl⟩ := htrue.of_got_playlist hgot
  obtain rfl := hasks.unique hasks'
  obtain ⟨p, hread, hcount, huri⟩ := read_playlist hlength hsorted hinfohash hgenerate
  refine ⟨p, (readPlaylist_bodyOfString text).trans hread, fun replies hfetched ↦
    ⟨by rw [hfetched.length, hcount], fun i bytes hi ↦ ?_⟩⟩
  have hlt : i < p.segments.length := by
    rw [← hfetched.length]
    exact (List.getElem?_eq_some_iff.mp hi).1
  have hlisted : p.segments[i]? = some p.segments[i] := List.getElem?_eq_getElem hlt
  obtain ⟨hsize, k, hk, hkpath, hkgot⟩ := hfetched.reply i _ bytes hlisted hi
  rw [huri i _ hlisted, hpath, resolve_segmentUri hinfohash hname] at hkpath
  refine ⟨hsize, ?_⟩
  obtain ⟨_, _, hktrue⟩ := hholds.truthful hk (Stage.final_of_got hkgot)
  rcases hktrue.of_got_video hkgot with
    ⟨infohash', sessionId, s₀, hinit, -⟩ |
    ⟨infohash', sessionId, w, s₀, hsegment, hw, hcreate, hbytes⟩
  · rw [hkpath] at hinit
    exact absurd hinit (not_asksInit_segmentUri hinfohash)
  · rw [hkpath] at hsegment
    obtain ⟨rfl, hidx⟩ := asksSegment_segmentUri hinfohash hsegment
    rw [hlower] at hw hcreate hbytes
    rw [hidx] at hw
    exact ⟨s₀, w, hw, hcreate, hbytes⟩

/-- In every run, whichever openings fail and in whichever order the handlers proceed:
whoever gets a playlist and fetches what it lists gets the payload of every video packet
between the first and the last boundary, once and in order. -/
theorem playlist_plays_video {infohash : List Char} {stream : List AVPacket} {vid : AVStream}
    (hfile : WellFormed (files infohash) stream vid) (faults : Set String) (now : ℤ)
    (moves : List Move)
    (hopens : CallRun.Always (serverStep files c)
      (ThreadPool.Meets (OpensFiles files faults)) moves (startUp now)) :
    let threads := (CallRun.finalState (serverStep files c) moves (startUp now)).threads
    ∀ h ∈ threads, AsksManifest h.path infohash →
      ∀ body, h.stage.got "application/vnd.apple.mpegurl" = some body →
        ∃ p, readPlaylist body = some p ∧
          ∀ replies, Fetched threads h.path p replies →
            ∃ payloads : List (List (List UInt8)), replies.map videoPayloads = payloads.map some ∧
              ∀ first ∈ (fileBoundaries (files infohash)).head?,
                ∀ last ∈ (fileBoundaries (files infohash)).getLast?, payloads.flatten =
                  (videoStretch (files infohash).context.bestVideo vid first last stream).map
                    AVPacket.data := by
  intro threads h hmem hasks body hgot
  have hholds : ServingHolds files c faults _ :=
    ThreadPool.Holds.finalState (serving_keeps files c faults) (servingHolds_startUp now) hopens
  obtain ⟨p, hread, hsegments⟩ := hholds.segmentsOf hmem hasks hgot hfile.boundaries.1
  refine ⟨p, hread, fun replies hfetched ↦ ?_⟩
  obtain ⟨hlength, hreplies⟩ := hsegments replies hfetched
  obtain ⟨hsorted, hnonneg⟩ := hfile.boundaries
  refine stretch_of_replies AVPacket.data hsorted hlength fun i bytes hi ↦ ?_
  obtain ⟨hsize, s₀, w, hw, -, hsegment⟩ := hreplies i bytes hi
  have hstart := List.mem_of_getElem? (segmentWindow_eq_some.mp hw).2.2.1
  exact ⟨w, hw, hsegment.videoPayloads hfile (hnonneg _ hstart) hsize⟩

/-- A file with cues at 0, 10000 and 20000 ms, at which its packets are keyframes. -/
def threeCueFile : Media where
  context := ⟨[millisecondStream .video], 0, -1, 30000000⟩
  avioRead := fun offset n ↦ (threeCueBytes.drop offset.toNat).take n
  packetsFromOffset := fun _ _ ↦ threeKeyframes
  packetsFromTimestamp := fun _ _ _ ↦ threeKeyframes

theorem readCueEntries_threeCueFile :
    Demuxer.readCueEntries threeCueFile =
      .ok (some [⟨0, 0, 1, 61, -1⟩, ⟨10000, 10000, 1, 61, -1⟩, ⟨20000, 20000, 1, 61, -1⟩]) := by
  decide +kernel

/-- Its video stream, with the cues in the index. -/
def threeCueStream : AVStream :=
  { millisecondStream .video with indexEntries := [⟨61, 0⟩, ⟨61, 10000⟩, ⟨61, 20000⟩] }

theorem wellFormed_threeCueFile : WellFormed threeCueFile threeKeyframes threeCueStream := by
  have hcues : fileCues threeCueFile =
      [⟨0, 0, 1, 61, -1⟩, ⟨10000, 10000, 1, 61, -1⟩, ⟨20000, 20000, 1, 61, -1⟩] := by
    rw [fileCues, readCueEntries_threeCueFile]
  refine ⟨⟨?_, ?_, ?_, fun cue _ _ ↦ ⟨[], rfl, by simp⟩, fun targetMs ↦ ⟨[], rfl, by simp⟩⟩, ?_,
    ?_⟩
  · rw [fileVideo, indexedFile, openedFile, hcues]
    decide
  · rw [hcues]
    decide
  · rw [hcues]
    decide
  · simp [threeKeyframes, CarriesPts, threeCueStream, millisecondStream, avNoptsValue,
      threeCueFile]
  · simp [threeKeyframes]

theorem opensFiles_of_opened {m : Media} {c : AacCodec δ ε α} {moves : List Move}
    (hmoves : ∀ i reopen, .proceed i reopen ∈ moves → reopen = .opened m.context)
    (p : Pool δ ε α) : CallRun.Always (serverStep (fun _ ↦ m) c)
      (ThreadPool.Meets (OpensFiles (fun _ ↦ m) ∅)) moves p := by
  refine CallRun.always_of_forall (fun move hmove p ↦ ?_) _
  cases move with
  | arrive path => trivial
  | outside elapsed => trivial
  | proceed i reopen =>
      have hfinds : FindsFile m ∅ reopen := by
        rw [hmoves i reopen hmove]
        exact ⟨rfl, fun _ h ↦ by cases h⟩
      exact fun h _ ↦ opensFiles_const hfinds h _

def threeCuePlaylist : List Char := '/' :: (sampleInfohash ++ ".m3u8".toList)

def threeCueSegment (i : ℕ) : List Char :=
  '/' :: segmentUri (sampleInfohash.map Char.toLower) 0 i

/-- A request for the playlist, all but its last stage. -/
def playlistRequested : List Move :=
  .arrive threeCuePlaylist :: List.replicate 5 (.proceed 0 (.opened threeCueFile.context))

/-- Requests for two segments, whose handlers take turns. -/
def segmentsRequested : List Move :=
  let proceed (i : ℕ) : Move := .proceed i (.opened threeCueFile.context)
  [.arrive (threeCueSegment 1), proceed 1, .arrive (threeCueSegment 0), proceed 1, proceed 1,
    proceed 1, proceed 2, proceed 2, proceed 2, proceed 2, proceed 1, proceed 2]

/-- The run in which both are requested. -/
def threeCueRun : List Move :=
  playlistRequested ++ [.proceed 0 (.opened threeCueFile.context)] ++ segmentsRequested

/-- A handler that lists the keyframes of its session answers with their playlist. -/
theorem getElem?_step_listKeyframes {p : Pool δ ε α} {i ref : ℕ} {path infohash : List Char}
    {sessionId : ℤ} (hi : p.threads[i]? = some ⟨path, .listKeyframes infohash sessionId ref⟩)
    {keyframes : List ℤ} (hlist : (p.shared.objects[ref]?.map fun o ↦
      (o.session.getKeyframesMs (files o.infohash)).1) = some (.ok keyframes)) (reopen : Reopen) :
    (serverStep files c (.proceed i reopen) p).2.threads[i]? =
      some ⟨path, .ofManifest infohash sessionId keyframes⟩ := by
  obtain ⟨o, ho, hlist⟩ := Option.map_eq_some_iff.mp hlist
  simp only [serverStep, ThreadPool.step, hi]
  rw [List.getElem?_set_self (List.getElem?_eq_some_iff.mp hi).1]
  simp only [program, advance, onSession, ho, hlist]
  rfl

theorem exists_got_ofManifest {keyframes : List ℤ} (hlength : 2 ≤ keyframes.length)
    {infohash : List Char} {sessionId : ℤ}
    (hsome : (generate keyframes (sessionUrl infohash sessionId)).isSome = true) :
    ∃ text, generate keyframes (sessionUrl infohash sessionId) = some text ∧
      (Stage.ofManifest infohash sessionId keyframes).got "application/vnd.apple.mpegurl" =
        some (bodyOfString (String.ofList text)) := by
  obtain ⟨text, hgenerate⟩ := Option.isSome_iff_exists.mp hsome
  refine ⟨text, hgenerate, ?_⟩
  rw [Stage.ofManifest, if_neg (not_lt.mpr hlength), hgenerate]
  rfl

theorem playlist_threeCueRun :
    (CallRun.finalState (serverStep (fun _ ↦ threeCueFile) noCodec) threeCueRun
      (startUp 0)).threads[0]? = some ⟨threeCuePlaylist,
        .ofManifest (sampleInfohash.map Char.toLower) 0 [0, 10000, 20000]⟩ := by
  have hthread : (CallRun.finalState (serverStep (fun _ ↦ threeCueFile) noCodec)
      playlistRequested (startUp 0)).threads[0]? = some
        ⟨threeCuePlaylist, .listKeyframes (sampleInfohash.map Char.toLower) 0 0⟩ := by
    decide +kernel
  have hkeyframes : ((CallRun.finalState (serverStep (fun _ ↦ threeCueFile) noCodec)
      playlistRequested (startUp 0)).shared.objects[0]?.map fun o ↦
        (o.session.getKeyframesMs threeCueFile).1) = some (.ok [0, 10000, 20000]) := by
    decide +kernel
  rw [threeCueRun, CallRun.finalState_append, CallRun.finalState_append]
  exact ThreadPool.getElem?_threads_finalState (fun input ↦ by simp [segmentsRequested])
    (getElem?_step_listKeyframes hthread hkeyframes _)

theorem exists_got_threeCuePlaylist :
    ∃ text, generate [0, 10000, 20000] (sessionUrl (sampleInfohash.map Char.toLower) 0) =
        some text ∧
      (Stage.ofManifest (sampleInfohash.map Char.toLower) 0 [0, 10000, 20000]).got
        "application/vnd.apple.mpegurl" = some (bodyOfString (String.ofList text)) :=
  exists_got_ofManifest (by decide) (by decide +kernel)

/-- The handler has answered a request for the path with a short video. -/
def Handler.hasVideo (path : List Char) (h : Handler) : Bool :=
  h.path = path && (h.stage.got "video/mp4").any fun bytes ↦ bytes.length < 2 ^ 31

theorem exists_of_hasVideo {threads : List Handler} {i : ℕ} {path : List Char}
    (hany : threads[i]?.any (Handler.hasVideo path) = true) :
    ∃ h ∈ threads, h.path = path ∧
      ∃ bytes, h.stage.got "video/mp4" = some bytes ∧ bytes.length < 2 ^ 31 := by
  obtain ⟨h, hh, hreply⟩ := (Option.any_eq_true _ _).mp hany
  obtain ⟨hpath, hvideo⟩ := (Bool.and_eq_true _ _).mp hreply
  obtain ⟨bytes, hgot, hsize⟩ := (Option.any_eq_true _ _).mp hvideo
  exact ⟨h, List.mem_of_getElem? hh, of_decide_eq_true hpath, bytes, hgot,
    of_decide_eq_true hsize⟩

theorem segments_threeCueRun :
    ∀ i < 2, (CallRun.finalState (serverStep (fun _ ↦ threeCueFile) noCodec) threeCueRun
      (startUp 0)).threads[2 - i]?.any (Handler.hasVideo (threeCueSegment i)) = true := by
  decide +kernel

theorem opensFiles_threeCueRun : CallRun.Always (serverStep (fun _ ↦ threeCueFile) noCodec)
    (ThreadPool.Meets (OpensFiles (fun _ ↦ threeCueFile) ∅)) threeCueRun (startUp 0) := by
  refine opensFiles_of_opened (fun i reopen hmove ↦ ?_) _
  simp [threeCueRun, playlistRequested, segmentsRequested, List.replicate] at hmove
  tauto

theorem asksManifest_threeCuePlaylist :
    AsksManifest threeCuePlaylist (sampleInfohash.map Char.toLower) :=
  ⟨sampleInfohash, by decide, rfl⟩

theorem fileBoundaries_threeCueFile : fileBoundaries threeCueFile = [0, 10000, 20000] := by
  rw [fileBoundaries, fileCues, readCueEntries_threeCueFile]
  decide

/-- Both segments of the playlist have been fetched. -/
theorem fetched_threeCueRun :
    ∃ body p replies,
      (Stage.ofManifest (sampleInfohash.map Char.toLower) 0 [0, 10000, 20000]).got
        "application/vnd.apple.mpegurl" = some body ∧
      readPlaylist body = some p ∧
        Fetched (CallRun.finalState (serverStep (fun _ ↦ threeCueFile) noCodec) threeCueRun
          (startUp 0)).threads threeCuePlaylist p replies := by
  have hinfohash : IsInfohash (sampleInfohash.map Char.toLower) :=
    isInfohash_sampleInfohash.map_toLower
  obtain ⟨text, hgenerate, hgot⟩ := exists_got_threeCuePlaylist
  obtain ⟨p, hread, hcount, huri⟩ := read_playlist (by decide) (by decide) hinfohash hgenerate
  obtain ⟨h₀, hmem₀, hpath₀, bytes₀, hgot₀, hsize₀⟩ :=
    exists_of_hasVideo (segments_threeCueRun 0 (by decide))
  obtain ⟨h₁, hmem₁, hpath₁, bytes₁, hgot₁, hsize₁⟩ :=
    exists_of_hasVideo (segments_threeCueRun 1 (by decide))
  refine ⟨_, p, [bytes₀, bytes₁], hgot, (readPlaylist_bodyOfString text).trans hread,
    (Nat.succ.inj hcount).symm, fun i segment bytes hsegment hbytes ↦ ?_⟩
  rw [huri i segment hsegment, threeCuePlaylist, resolve_segmentUri hinfohash (by decide)]
  have hlt : i < 2 := (List.getElem?_eq_some_iff.mp hbytes).1
  rcases Nat.le_one_iff_eq_zero_or_eq_one.mp (Nat.lt_succ_iff.mp hlt) with rfl | rfl
  · cases hbytes
    exact ⟨hsize₀, h₀, hmem₀, hpath₀, hgot₀⟩
  · cases hbytes
    exact ⟨hsize₁, h₁, hmem₁, hpath₁, hgot₁⟩

theorem playlist_plays_video_two_segments :
    let threads := (CallRun.finalState (serverStep (fun _ ↦ threeCueFile) noCodec)
      threeCueRun (startUp 0)).threads
    ∃ h ∈ threads, ∃ p replies, Fetched threads h.path p replies ∧
      ∃ payloads : List (List (List UInt8)), replies.map videoPayloads = payloads.map some ∧
        payloads.flatten = (videoStretch 0 threeCueStream 0 20000 threeKeyframes).map
          AVPacket.data := by
  intro threads
  have hplaylist := List.mem_of_getElem? playlist_threeCueRun
  obtain ⟨body, p, replies, hgot, hread, hfetched⟩ := fetched_threeCueRun
  obtain ⟨p', hread', hplays⟩ := @playlist_plays_video Unit Unit Unit (fun _ ↦ threeCueFile) noCodec
    (sampleInfohash.map Char.toLower) threeKeyframes threeCueStream wellFormed_threeCueFile ∅ 0
    threeCueRun opensFiles_threeCueRun _ hplaylist asksManifest_threeCuePlaylist body hgot
  obtain rfl : p = p' := Option.some.inj (hread.symm.trans hread')
  obtain ⟨payloads, hpayloads, hvideo⟩ := hplays replies hfetched
  refine ⟨_, hplaylist, p, replies, hfetched, payloads, hpayloads, hvideo 0 ?_ 20000 ?_⟩
  · rw [fileBoundaries_threeCueFile]
    rfl
  · rw [fileBoundaries_threeCueFile]
    rfl

end Server

end Fmp4Packager
