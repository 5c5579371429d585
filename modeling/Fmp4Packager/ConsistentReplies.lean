import Fmp4Packager.AudioPartition
import Fmp4Packager.InitRoundTrip
import Fmp4Packager.Playback

/-!
# Replies that fit each other

Which session a segment comes from, and when, does not show in its bytes, as long as no
build has to borrow frames; and every segment goes with every init segment of the file.
-/

namespace Fmp4Packager

open IsoBox

namespace Session

open Fmp4Writer Server

variable {δ ε α : Type}

theorem LikeNew.isSome_aac {m : Media} {s₀ s : Session δ ε α} (h : LikeNew m s₀ s) :
    s.aac.isSome = s₀.aac.isSome := by
  have hpadding := congrArg Option.isSome h.initialPadding
  rwa [Option.isSome_map, Option.isSome_map] at hpadding

theorem outcomeWith_of_likeNew {m : Media} {c : AacCodec δ ε α} (hflush : FlushForgets c)
    {s₀ s : Session δ ε α} (h : LikeNew m s₀ s) (w : Window)
    (frames : KeyedCache ℤ (List UInt8)) :
    outcomeWith m c s w frames = outcomeWith m c s₀ w frames := by
  rw [outcomeWith, outcomeWith, ownPackets, ownPackets, h.resetAac_eq hflush, h.isSome_aac,
    h.codecpar, h.initialPadding]

/-- The frames that a build of the window requests and does not encode itself are encoded
by no build of the file. -/
def BorrowsNothing (m : Media) (c : AacCodec δ ε α) (s₀ : Session δ ε α) (w : Window) : Prop :=
  ∀ j ∈ outputFrames (s₀.aac.map AacTranscoder.initialPadding) w,
    j ∉ frameIndices (ownPackets m c s₀ w) →
      ∀ idx w', segmentWindow (fileBoundaries m) idx = some w' →
        j ∉ frameIndices (ownPackets m c s₀ w')

theorem FrameOf.mem_frameIndices {m : Media} {c : AacCodec δ ε α} (hflush : FlushForgets c)
    {s₀ : Session δ ε α} {j : ℤ} {payload : List UInt8} (h : FrameOf m c s₀ j payload) :
    ∃ idx w, segmentWindow (fileBoundaries m) idx = some w ∧
      j ∈ frameIndices (ownPackets m c s₀ w) := by
  obtain ⟨s, idx, w, hlike, hw, pkt, hpkt, hframe, -⟩ := h
  have hpackets : ownPackets m c s w = ownPackets m c s₀ w := by
    rw [ownPackets, ownPackets, hlike.resetAac_eq hflush]
  exact ⟨idx, w, hw, List.mem_filterMap.mpr ⟨pkt, hpackets ▸ hpkt, hframe⟩⟩

theorem SegmentOf.outcome_eq {m : Media} {c : AacCodec δ ε α} (hflush : FlushForgets c)
    {s₀ : Session δ ε α} {w : Window} (hown : BorrowsNothing m c s₀ w) {bytes : List UInt8}
    (h : SegmentOf m c s₀ w bytes) : outcomeWith m c s₀ w ∅ = .ok bytes := by
  obtain ⟨s, frames, hlike, hframes, houtcome⟩ := h
  rw [outcomeWith_of_likeNew hflush hlike] at houtcome
  rw [← houtcome]
  refine (outcomeWith_eq_of_forall fun j hj hnot hcached ↦ ?_).symm
  obtain ⟨payload, hpayload⟩ := Option.isSome_iff_exists.mp (AList.lookup_isSome.mpr hcached)
  obtain ⟨idx, w', hw', hencoded⟩ := (hframes j payload hpayload).mem_frameIndices hflush
  exact hown j hj hnot idx w' hw' hencoded

/-! ## The tracks of a segment -/

/-- Each track of the fragment is one of the movie, and a sidx counts its times as the
movie says. -/
def GoesWith (f : Fragment) (movie : Movie) : Prop :=
  ∀ traf ∈ f.trafs, traf.tfhd.trackId ∈ movie.trexIds ∧
    ∃ track ∈ movie.tracks, track.header.trackId = traf.tfhd.trackId ∧
      ∃ sidx ∈ f.sidxs, sidx.referenceId = traf.tfhd.trackId ∧ sidx.timescale = track.timescale

theorem exists_initTrack {tracks : List Track} {hasAac : Bool}
    {aacCodecpar : Option AVCodecParameters} (htracks : tracks.map (fun t ↦
      (t.trackId, t.timescale)) = (1, kVideoOutTb) ::
        if hasAac ∧ aacCodecpar.isSome then [(2, kAudioOutTb)] else [])
    (vid : AVStream) (videoSamples audioSamples : List Sample) :
    ∀ input ∈ segmentTracks vid aacCodecpar hasAac videoSamples audioSamples,
      ∃ t ∈ tracks, t.trackId = input.1.trackId ∧ t.timescale = input.1.timescale ∧
        (input.1.timescale.denU32.toNat : ℤ) = input.1.timescale.den := by
  have hof : ∀ id timescale, (id, timescale) ∈ tracks.map (fun t ↦ (t.trackId, t.timescale)) →
      ∃ t ∈ tracks, t.trackId = id ∧ t.timescale = timescale := by
    intro id timescale hmem
    obtain ⟨t, ht, hsame⟩ := List.mem_map.mp hmem
    exact ⟨t, ht, (Prod.mk.inj hsame).1, (Prod.mk.inj hsame).2⟩
  rw [htracks] at hof
  intro input hinput
  rw [segmentTracks] at hinput
  rcases List.mem_cons.mp hinput with rfl | hinput
  · obtain ⟨t, ht, hid, hscale⟩ := hof 1 kVideoOutTb List.mem_cons_self
    exact ⟨t, ht, hid, hscale, rfl⟩
  · split at hinput
    · next haudio =>
        obtain ⟨t, ht, hid, hscale⟩ := hof 2 kAudioOutTb (by
          rw [if_pos ⟨haudio.1, haudio.2.1⟩]
          exact List.mem_cons_of_mem _ List.mem_cons_self)
        rw [List.mem_singleton.mp hinput]
        exact ⟨t, ht, hid, hscale, rfl⟩
    · cases hinput

theorem exists_of_forall₂_of_mem {β γ : Type} {r : β → γ → Prop} {xs : List β} {ys : List γ}
    (h : List.Forall₂ r xs ys) {x : β} (hx : x ∈ xs) : ∃ y ∈ ys, r x y := by
  induction h with
  | nil => cases hx
  | cons hhead _ ih =>
      rcases List.mem_cons.mp hx with rfl | hx
      · exact ⟨_, List.mem_cons_self, hhead⟩
      · obtain ⟨y, hy, hxy⟩ := ih hx
        exact ⟨y, List.mem_cons_of_mem _ hy, hxy⟩

theorem goesWith_fragmentView {tracks : List Track} {movie : Movie}
    (hmovie : MovieRecovered tracks movie) {inputs : List TrackInput}
    (hinputs : ∀ input ∈ inputs, ∃ t ∈ tracks, t.trackId = input.1.trackId ∧
      t.timescale = input.1.timescale ∧
        (input.1.timescale.denU32.toNat : ℤ) = input.1.timescale.den)
    (sequenceNumber : UInt32) : GoesWith (fragmentView sequenceNumber inputs) movie := by
  intro traf htraf
  have hids : (fragmentView sequenceNumber inputs).trafs.map (fun t ↦ t.tfhd.trackId) =
      inputs.map fun input ↦ input.1.trackId.toNat := map_trafViews (fun _ _ ↦ rfl) inputs
  have hsidxs : (fragmentView sequenceNumber inputs).sidxs.map
      (fun s ↦ (s.referenceId, s.timescale)) = inputs.map fun input ↦
        (input.1.trackId.toNat, input.1.timescale.denU32.toNat) :=
    map_sidxViews (mediaSize inputs) (fun _ _ ↦ rfl) 24 inputs
  have hid : traf.tfhd.trackId ∈ inputs.map fun input ↦ input.1.trackId.toNat :=
    hids ▸ List.mem_map_of_mem htraf
  obtain ⟨input, hinput, hid⟩ := List.mem_map.mp hid
  obtain ⟨t, ht, htid, hscale, hden⟩ := hinputs input hinput
  obtain ⟨track, htrack, hrecovered⟩ := exists_of_forall₂_of_mem hmovie.tracks ht
  have hmem : (input.1.trackId.toNat, input.1.timescale.denU32.toNat) ∈
      (fragmentView sequenceNumber inputs).sidxs.map fun s ↦ (s.referenceId, s.timescale) :=
    hsidxs ▸ List.mem_map_of_mem hinput
  obtain ⟨sidx, hsidx, hsame⟩ := List.mem_map.mp hmem
  obtain ⟨hreference, htimescale⟩ := Prod.mk.inj hsame
  have htrackId : track.header.trackId = traf.tfhd.trackId := by
    rw [hrecovered.trackId, htid, hid]
  refine ⟨?_, track, htrack, htrackId, sidx, hsidx, hreference.trans hid, ?_⟩
  · rw [hmovie.trexIds, ← hid, ← htid]
    exact List.mem_map_of_mem ht
  · have hcast : (track.timescale : ℤ) = sidx.timescale := by
      rw [hrecovered.timescale, hscale, htimescale, hden]
    exact_mod_cast hcast.symm

/-- The init segment of a file goes with each of its segments. -/
theorem SegmentOf.goesWith {m : Media} {c : AacCodec δ ε α} {s₀ : Session δ ε α}
    (hcreate : create c (.opened m.context) = .ok s₀)
    (hdescribable : ∀ tracks, s₀.initTracks = .ok tracks → ∀ t ∈ tracks, Describable t)
    {initBytes : List UInt8} (hinit : s₀.generateInitSegment.1 = .ok initBytes)
    (hinitSize : initBytes.length < 2 ^ 32) {w : Window} {bytes : List UInt8}
    (h : SegmentOf m c s₀ w bytes) (hsize : bytes.length < 2 ^ 31) :
    ∃ movie f, readMovie initBytes = some movie ∧ readFragment bytes = some f ∧
      f.sequenceNumber = (UInt32.ofInt (w.segmentIdx + 1)).toNat ∧ GoesWith f movie := by
  obtain ⟨hopen, ⟨hnot, -, -⟩, -, -⟩ := create_eq_ok hcreate
  have hvideo : 0 ≤ s₀.demuxer.videoStreamIdx := (create_opened hcreate).1.demuxer.video ▸
    create_bestVideo hcreate
  cases htracks : s₀.initTracks with
  | error stop =>
      rw [Session.generateInitSegment, if_neg (by simp [hnot]), htracks] at hinit
      cases hinit
  | ok tracks =>
      have hne := initTracks_ne_nil hvideo htracks
      rw [generateInitSegment_of_tracks hnot htracks (buildInit_eq hne)] at hinit
      cases hinit
      obtain ⟨movie, hread, hmovie⟩ :=
        readMovie_encodeTrees (hdescribable tracks htracks) hinitSize
      obtain ⟨s, frames, hlike, -, houtcome⟩ := h
      have hspec := initTracks_spec hvideo htracks
      rw [← hlike.isSome_aac, ← hlike.codecpar] at hspec
      rw [outcomeWith] at houtcome
      split at houtcome
      · cases houtcome
      · next vid hvid =>
          rw [segmentOutcome] at houtcome
          split at houtcome
          · cases houtcome
          · rw [segmentBytes_eq_layout] at houtcome
            cases houtcome
            exact ⟨movie, _, hread, readFragment_segmentBytes _ hsize, rfl,
              goesWith_fragmentView hmovie (exists_initTrack hspec vid _ _) _⟩

end Session

namespace Server

open Session Fmp4Writer

variable {δ ε α : Type} {files : List Char → Media} {c : AacCodec δ ε α} {faults : Set String}

theorem AsksInit.unique {path infohash infohash' : List Char} {sessionId sessionId' : ℤ}
    (h : AsksInit path infohash sessionId) (h' : AsksInit path infohash' sessionId') :
    infohash = infohash' := by
  obtain ⟨text, id, hroute, rfl, -⟩ := h
  obtain ⟨text', id', hroute', rfl, -⟩ := h'
  cases hroute.symm.trans hroute'
  rfl

theorem AsksSegment.unique {path infohash infohash' : List Char}
    {sessionId sessionId' segmentIdx segmentIdx' : ℤ}
    (h : AsksSegment path infohash sessionId segmentIdx)
    (h' : AsksSegment path infohash' sessionId' segmentIdx') :
    infohash = infohash' ∧ segmentIdx = segmentIdx' := by
  obtain ⟨text, id, idx, hroute, rfl, -, hidx⟩ := h
  obtain ⟨text', id', idx', hroute', rfl, -, hidx'⟩ := h'
  cases hroute.symm.trans hroute'
  exact ⟨rfl, Option.some.inj (hidx.symm.trans hidx')⟩

theorem AsksInit.not_asksSegment {path infohash infohash' : List Char}
    {sessionId sessionId' segmentIdx : ℤ} (h : AsksInit path infohash sessionId) :
    ¬AsksSegment path infohash' sessionId' segmentIdx := by
  obtain ⟨text, id, hroute, -⟩ := h
  rintro ⟨text', id', idx', hroute', -⟩
  cases hroute.symm.trans hroute'

theorem Truthful.init_of_got {s : State δ ε α} {lost : ℕ → Prop} {path : List Char}
    {stage : Stage} (h : Truthful files c faults s lost path stage) {bytes : List UInt8}
    (hgot : stage.got "video/mp4" = some bytes) {infohash : List Char} {sessionId : ℤ}
    (hasks : AsksInit path infohash sessionId) :
    ∃ s₀, create c (.opened (files infohash).context) = .ok s₀ ∧
      s₀.generateInitSegment.1 = .ok bytes := by
  rcases h.of_got_video hgot with ⟨infohash', sessionId', s₀, hasks', hcreate, hinit⟩ |
    ⟨infohash', sessionId', w, s₀, hasks', -⟩
  · obtain rfl := hasks.unique hasks'
    exact ⟨s₀, hcreate, hinit⟩
  · exact absurd hasks' hasks.not_asksSegment

theorem Truthful.segment_of_got {s : State δ ε α} {lost : ℕ → Prop} {path : List Char}
    {stage : Stage} (h : Truthful files c faults s lost path stage) {bytes : List UInt8}
    (hgot : stage.got "video/mp4" = some bytes) {infohash : List Char}
    {sessionId segmentIdx : ℤ} (hasks : AsksSegment path infohash sessionId segmentIdx) :
    ∃ s₀ w, create c (.opened (files infohash).context) = .ok s₀ ∧
      segmentWindow (fileBoundaries (files infohash)) segmentIdx = some w ∧
        SegmentOf (files infohash) c s₀ w bytes := by
  rcases h.of_got_video hgot with ⟨infohash', sessionId', s₀, hasks', -⟩ |
    ⟨infohash', sessionId', w, s₀, hasks', hw, hcreate, hsegment⟩
  · exact absurd hasks hasks'.not_asksSegment
  · obtain ⟨rfl, rfl⟩ := hasks.unique hasks'
    exact ⟨s₀, w, hcreate, hw, hsegment⟩

/-- In every run, all clients get the same bytes: of the init segment of a file, and of
each segment that borrows no frames, whatever their sessions are and whenever they ask. -/
theorem replies_are_alike (hflush : FlushForgets c) (faults : Set String) (now : ℤ)
    (moves : List Move)
    (hopens : CallRun.Always (serverStep files c)
      (ThreadPool.Meets (OpensFiles files faults)) moves (startUp now)) :
    let threads := (CallRun.finalState (serverStep files c) moves (startUp now)).threads
    ∀ h ∈ threads, ∀ k ∈ threads, ∀ bytes bytes', h.stage.got "video/mp4" = some bytes →
      k.stage.got "video/mp4" = some bytes' → ∀ infohash sessionId sessionId',
        (AsksInit h.path infohash sessionId → AsksInit k.path infohash sessionId' →
            bytes = bytes') ∧
          ∀ segmentIdx, AsksSegment h.path infohash sessionId segmentIdx →
            AsksSegment k.path infohash sessionId' segmentIdx →
              (∀ s₀ w, create c (.opened (files infohash).context) = .ok s₀ →
                segmentWindow (fileBoundaries (files infohash)) segmentIdx = some w →
                  BorrowsNothing (files infohash) c s₀ w) → bytes = bytes' := by
  intro threads h hh k hk bytes bytes' hgot hgot' infohash sessionId sessionId'
  have hholds : ServingHolds files c faults _ :=
    ThreadPool.Holds.finalState (serving_keeps files c faults) (servingHolds_startUp now) hopens
  obtain ⟨_, _, htrue⟩ := hholds.truthful hh (Stage.final_of_got hgot)
  obtain ⟨_, _, htrue'⟩ := hholds.truthful hk (Stage.final_of_got hgot')
  constructor
  · intro hasks hasks'
    obtain ⟨s₀, hcreate, hinit⟩ := htrue.init_of_got hgot hasks
    obtain ⟨s₀', hcreate', hinit'⟩ := htrue'.init_of_got hgot' hasks'
    cases hcreate.symm.trans hcreate'
    exact Except.ok.inj (hinit.symm.trans hinit')
  · intro segmentIdx hasks hasks' hown
    obtain ⟨s₀, w, hcreate, hw, hsegment⟩ := htrue.segment_of_got hgot hasks
    obtain ⟨s₀', w', hcreate', hw', hsegment'⟩ := htrue'.segment_of_got hgot' hasks'
    cases hcreate.symm.trans hcreate'
    cases hw.symm.trans hw'
    have houtcome := hsegment.outcome_eq hflush (hown s₀ w hcreate hw)
    have houtcome' := hsegment'.outcome_eq hflush (hown s₀ w hcreate hw)
    exact Except.ok.inj (houtcome.symm.trans houtcome')

/-- The path of the first segment of a session. -/
def firstSegment (sessionId : ℤ) : List Char :=
  '/' :: segmentUri (sampleInfohash.map Char.toLower) sessionId 0

def initUri (infohash : List Char) (sessionId : ℤ) : List Char :=
  sessionUrl infohash sessionId ++ "init.mp4".toList

def secondInit : List Char := '/' :: initUri (sampleInfohash.map Char.toLower) 1

/-- A file is served in two sessions at once: two manifests; then the init segment of the
second session, and the first segment of both. -/
def twoSessionRun (context : AVFormatContext) : List Move :=
  let proceed (i : ℕ) : Move := .proceed i (.opened context)
  .arrive threeCuePlaylist :: List.replicate 6 (proceed 0) ++
    .arrive threeCuePlaylist :: List.replicate 6 (proceed 1) ++
      [.arrive secondInit, proceed 2, .arrive (firstSegment 0), proceed 3,
        .arrive (firstSegment 1), proceed 4, proceed 2, proceed 4, proceed 3, proceed 3,
        proceed 3, proceed 3, proceed 4, proceed 4]

theorem opensFiles_twoSessionRun (m : Media) (c : AacCodec δ ε α) :
    CallRun.Always (serverStep (fun _ ↦ m) c)
      (ThreadPool.Meets (OpensFiles (fun _ ↦ m) ∅)) (twoSessionRun m.context) (startUp 0) := by
  refine opensFiles_of_opened (fun i reopen hmove ↦ ?_) _
  simp [twoSessionRun, List.replicate] at hmove
  tauto

/-- The handler has answered a request for the path with a video. -/
def Handler.gotVideo (path : List Char) (h : Handler) : Bool :=
  h.path = path && (h.stage.got "video/mp4").isSome

theorem exists_of_gotVideo {threads : List Handler} {i : ℕ} {path : List Char}
    (hany : threads[i]?.any (Handler.gotVideo path) = true) :
    ∃ h ∈ threads, h.path = path ∧ ∃ bytes, h.stage.got "video/mp4" = some bytes := by
  obtain ⟨h, hh, hreply⟩ := (Option.any_eq_true _ _).mp hany
  obtain ⟨hpath, hvideo⟩ := (Bool.and_eq_true _ _).mp hreply
  exact ⟨h, List.mem_of_getElem? hh, of_decide_eq_true hpath,
    Option.isSome_iff_exists.mp hvideo⟩

theorem asksSegment_firstSegment :
    ∀ i : ℕ, i < 2 → AsksSegment (firstSegment i) (sampleInfohash.map Char.toLower) i 0 := by
  intro i hi
  obtain rfl | rfl := Nat.le_one_iff_eq_zero_or_eq_one.mp (Nat.lt_succ_iff.mp hi)
  · exact ⟨sampleInfohash.map Char.toLower, ['0'], ['0'], by decide, by decide, rfl, rfl⟩
  · exact ⟨sampleInfohash.map Char.toLower, ['1'], ['0'], by decide, by decide, rfl, rfl⟩

/-! A file with cues at 0 and 43 ms, whose audio ends before its only window does. -/

def shortAudioBytes : List UInt8 :=
  -- EBML header, Segment, SeekHead with a Seek for the Cues
  [0x1A, 0x45, 0xDF, 0xA3, 0x80, 0x18, 0x53, 0x80, 0x67, 0xB2, 0x11, 0x4D, 0x9B, 0x74, 0x8E,
    0x4D, 0xBB, 0x8B, 0x53, 0xAB, 0x84, 0x1C, 0x53, 0xBB, 0x6B, 0x53, 0xAC, 0x81, 0x13] ++
  -- Cues with two cue points
  [0x1C, 0x53, 0xBB, 0x6B, 0x9A,
    0xBB, 0x8B, 0xB3, 0x81, 0x00, 0xB7, 0x86, 0xF7, 0x81, 0x01, 0xF1, 0x81, 0x33,
    0xBB, 0x8B, 0xB3, 0x81, 0x2B, 0xB7, 0x86, 0xF7, 0x81, 0x01, 0xF1, 0x81, 0x33]

def shortAudio : List AVPacket :=
  [⟨0, 0, 0, 43, true, [1]⟩, ⟨1, 0, 0, 0, true, [7]⟩, ⟨1, 21, 21, 0, true, [7]⟩,
    ⟨0, 43, 43, 0, true, [2]⟩]

def shortAudioFile : Media where
  context := ⟨[millisecondStream .video, millisecondStream .audio], 0, 1, 43000⟩
  avioRead := fun offset n ↦ (shortAudioBytes.drop offset.toNat).take n
  packetsFromOffset := fun _ _ ↦ shortAudio
  packetsFromTimestamp := fun _ _ _ ↦ shortAudio

theorem fileBoundaries_shortAudioFile : fileBoundaries shortAudioFile = [0, 43] := by
  decide +kernel

/-- A file with a single window has no other build to borrow from. -/
theorem borrowsNothing_of_length {m : Media} (c : AacCodec δ ε α) (s₀ : Session δ ε α)
    (hlength : (fileBoundaries m).length = 2) {idx : ℤ} {w : Window}
    (hw : segmentWindow (fileBoundaries m) idx = some w) : BorrowsNothing m c s₀ w := by
  intro j _ hnot idx' w' hw'
  obtain ⟨i, -, hi, rfl⟩ := segmentWindow_eq_windowAt.mp hw
  obtain ⟨i', -, hi', rfl⟩ := segmentWindow_eq_windowAt.mp hw'
  obtain rfl : i' = i := by omega
  exact hnot

theorem segments_shortAudioRun :
    ∀ i : ℕ, i < 2 → (CallRun.finalState (serverStep (fun _ ↦ shortAudioFile) silentCodec)
      (twoSessionRun shortAudioFile.context) (startUp 0)).threads[3 + i]?.any
        (Handler.gotVideo (firstSegment i)) = true := by
  decide +kernel

/-- The segment has its two frames of audio. -/
theorem audio_shortAudioRun :
    (CallRun.finalState (serverStep (fun _ ↦ shortAudioFile) silentCodec)
      (twoSessionRun shortAudioFile.context) (startUp 0)).threads[3]?.any (fun h ↦
        ((h.stage.got "video/mp4").bind readFragment).any fun f ↦
          f.trafs.map (fun t ↦ t.samples.length) = [1, 2]) = true := by
  decide +kernel

theorem replies_are_alike_two_sessions :
    let threads := (CallRun.finalState (serverStep (fun _ ↦ shortAudioFile) silentCodec)
      (twoSessionRun shortAudioFile.context) (startUp 0)).threads
    ∃ bytes f, readFragment bytes = some f ∧ f.trafs.map (fun t ↦ t.samples.length) = [1, 2] ∧
      ∀ i : ℕ, i < 2 → ∃ h ∈ threads, h.path = firstSegment i ∧
        h.stage.got "video/mp4" = some bytes := by
  intro threads
  obtain ⟨h, hh, haudio⟩ := (Option.any_eq_true _ _).mp audio_shortAudioRun
  obtain ⟨f, hread, hsamples⟩ := (Option.any_eq_true _ _).mp haudio
  obtain ⟨bytes, hgot, hread⟩ := Option.bind_eq_some_iff.mp hread
  obtain ⟨h', hh', hreply⟩ := (Option.any_eq_true _ _).mp (segments_shortAudioRun 0 (by decide))
  obtain rfl : h = h' := Option.some.inj (hh.symm.trans hh')
  have hpath : h.path = firstSegment (0 : ℕ) :=
    of_decide_eq_true ((Bool.and_eq_true _ _).mp hreply).1
  obtain ⟨k, hk, hpath', bytes', hgot'⟩ :=
    exists_of_gotVideo (segments_shortAudioRun 1 (by decide))
  have hasks := asksSegment_firstSegment 0 (by decide)
  have hasks' := asksSegment_firstSegment 1 (by decide)
  rw [← hpath] at hasks
  rw [← hpath'] at hasks'
  have hboundaries : (fileBoundaries shortAudioFile).length = 2 := by
    rw [fileBoundaries_shortAudioFile]
    rfl
  have hmem := List.mem_of_getElem? hh
  obtain rfl := (replies_are_alike flushForgets_silentCodec ∅ 0
    (twoSessionRun shortAudioFile.context) (opensFiles_twoSessionRun shortAudioFile silentCodec)
    h hmem k hk bytes bytes' hgot hgot' _ _ _).2 0 hasks hasks' fun s₀ w _ hw ↦
      borrowsNothing_of_length silentCodec s₀ hboundaries hw
  refine ⟨bytes, f, hread, of_decide_eq_true hsamples, fun i hi ↦ ?_⟩
  obtain rfl | rfl := Nat.le_one_iff_eq_zero_or_eq_one.mp (Nat.lt_succ_iff.mp hi)
  · exact ⟨h, hmem, hpath, hgot⟩
  · exact ⟨k, hk, hpath', hgot'⟩

/-- In every run, whichever sessions they come from, the init segment of a file and each
of its segments go with each other. -/
theorem init_goes_with_segments {infohash : List Char}
    (hdescribable : ∀ s₀ tracks, create c (.opened (files infohash).context) = .ok s₀ →
      s₀.initTracks = .ok tracks → ∀ t ∈ tracks, Describable t)
    (faults : Set String) (now : ℤ) (moves : List Move)
    (hopens : CallRun.Always (serverStep files c)
      (ThreadPool.Meets (OpensFiles files faults)) moves (startUp now)) :
    let threads := (CallRun.finalState (serverStep files c) moves (startUp now)).threads
    ∀ h ∈ threads, ∀ sessionId, AsksInit h.path infohash sessionId →
      ∀ initBytes, h.stage.got "video/mp4" = some initBytes → initBytes.length < 2 ^ 32 →
        ∀ k ∈ threads, ∀ sessionId' segmentIdx, AsksSegment k.path infohash sessionId' segmentIdx →
          ∀ bytes, k.stage.got "video/mp4" = some bytes → bytes.length < 2 ^ 31 →
            ∃ movie f, readMovie initBytes = some movie ∧ readFragment bytes = some f ∧
              f.sequenceNumber = (UInt32.ofInt (segmentIdx + 1)).toNat ∧ GoesWith f movie := by
  intro threads h hh sessionId hasks initBytes hgot hinitSize k hk sessionId' segmentIdx hasks'
    bytes hgot' hsize
  have hholds : ServingHolds files c faults _ :=
    ThreadPool.Holds.finalState (serving_keeps files c faults) (servingHolds_startUp now) hopens
  obtain ⟨_, _, htrue⟩ := hholds.truthful hh (Stage.final_of_got hgot)
  obtain ⟨_, _, htrue'⟩ := hholds.truthful hk (Stage.final_of_got hgot')
  obtain ⟨s₀, hcreate, hinit⟩ := htrue.init_of_got hgot hasks
  obtain ⟨s₀', w, hcreate', hw, hsegment⟩ := htrue'.segment_of_got hgot' hasks'
  cases hcreate.symm.trans hcreate'
  obtain rfl : w.segmentIdx = segmentIdx := (segmentWindow_eq_some.mp hw).2.1
  exact hsegment.goesWith hcreate (fun tracks htracks ↦ hdescribable s₀ tracks hcreate htracks)
    hinit hinitSize hsize

def h264Stream : AVStream :=
  { millisecondStream .video with
    codecpar := ⟨.video, .h264, [0x01, 0x42, 0x00, 0x1F, 0xFF, 0xE1], 1280, 720, 0, 0, 0⟩ }

def h264File : Media := { threeCueFile with context := ⟨[h264Stream], 0, -1, 30000000⟩ }

theorem init_twoSessionRun :
    (CallRun.finalState (serverStep (fun _ ↦ h264File) noCodec) (twoSessionRun h264File.context)
      (startUp 0)).threads[2]?.any (Handler.gotVideo secondInit) = true := by
  decide +kernel

theorem segment_twoSessionRun :
    (CallRun.finalState (serverStep (fun _ ↦ h264File) noCodec) (twoSessionRun h264File.context)
      (startUp 0)).threads[3]?.any (Handler.hasVideo (firstSegment 0)) = true := by
  decide +kernel

theorem describable_h264File : ∀ s₀ tracks,
    create noCodec (.opened h264File.context) = .ok s₀ → s₀.initTracks = .ok tracks →
      ∀ t ∈ tracks, Describable t := by
  intro s₀ tracks hcreate htracks
  cases hcreate
  cases htracks
  intro t ht
  rw [List.mem_singleton.mp ht]
  exact ⟨by decide, by decide, _, rfl, .inl ⟨rfl, .inl rfl, by decide, by decide⟩⟩

theorem length_init_h264File {s₀ : Session Unit Unit Unit} {bytes : List UInt8}
    (hcreate : create noCodec (.opened h264File.context) = .ok s₀)
    (hinit : s₀.generateInitSegment.1 = .ok bytes) : bytes.length < 2 ^ 32 := by
  cases hcreate
  rw [generateInitSegment_of_tracks (by simp) rfl (buildInit_eq (by simp))] at hinit
  obtain rfl := Except.ok.inj hinit
  decide +kernel

theorem init_goes_with_segments_two_sessions :
    let threads := (CallRun.finalState (serverStep (fun _ ↦ h264File) noCodec)
      (twoSessionRun h264File.context) (startUp 0)).threads
    ∃ h ∈ threads, ∃ k ∈ threads, h.path = secondInit ∧ k.path = firstSegment 0 ∧
      ∃ initBytes bytes movie f, h.stage.got "video/mp4" = some initBytes ∧
        k.stage.got "video/mp4" = some bytes ∧ readMovie initBytes = some movie ∧
          readFragment bytes = some f ∧ f.sequenceNumber = 1 ∧ GoesWith f movie := by
  intro threads
  obtain ⟨h, hh, hpath, initBytes, hgot⟩ := exists_of_gotVideo init_twoSessionRun
  obtain ⟨k, hk, hpath', bytes, hgot', hsize⟩ := exists_of_hasVideo segment_twoSessionRun
  have hasks : AsksInit h.path (sampleInfohash.map Char.toLower) 1 := by
    rw [hpath]
    exact ⟨sampleInfohash.map Char.toLower, ['1'], by decide, by decide, rfl⟩
  have hasks' : AsksSegment k.path (sampleInfohash.map Char.toLower) 0 0 := by
    rw [hpath']
    exact asksSegment_firstSegment 0 (by decide)
  have hinitSize : initBytes.length < 2 ^ 32 := by
    have hholds : ServingHolds (fun _ ↦ h264File) noCodec ∅ _ :=
      ThreadPool.Holds.finalState (serving_keeps (fun _ ↦ h264File) noCodec ∅)
        (servingHolds_startUp 0) (opensFiles_twoSessionRun h264File noCodec)
    obtain ⟨_, _, htrue⟩ := hholds.truthful hh (Stage.final_of_got hgot)
    obtain ⟨s₀, hcreate, hinit⟩ := htrue.init_of_got hgot hasks
    exact length_init_h264File hcreate hinit
  obtain ⟨movie, f, hmovie, hf, hnumber, hgoes⟩ := init_goes_with_segments describable_h264File ∅ 0
    (twoSessionRun h264File.context) (opensFiles_twoSessionRun h264File noCodec) h hh 1 hasks
    initBytes hgot hinitSize k hk 0 0 hasks' bytes hgot' hsize
  exact ⟨h, hh, k, hk, hpath, hpath', initBytes, bytes, movie, f, hgot, hgot', hmovie, hf,
    hnumber, hgoes⟩

end Server

end Fmp4Packager
