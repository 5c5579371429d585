import Fmp4Packager.DemuxerSteps
import Fmp4Packager.VideoSeams

/-!
# The end of the file

The boundaries end at the time of the last cue.  Between the first boundary and
the last one the windows leave nothing out, so the file is covered to its end
exactly when the last cue is at the end.
-/

namespace Fmp4Packager

namespace Session

open EbmlParser Server

variable {δ ε α : Type}

/-- The packet is in the run of a segment whose index the server accepts. -/
def Covered (videoIdx : ℤ) (vid : AVStream) (keyframes : List ℤ) (stream : List AVPacket)
    (pkt : AVPacket) : Prop :=
  ∃ idx w, segmentWindow keyframes idx = some w ∧
    pkt ∈ videoStretch videoIdx vid w.segmentStartMs w.segmentEndMs stream

/-- The video packets of the stream from the keyframe of the first boundary on. -/
def fromFirstBoundary (videoIdx : ℤ) (vid : AVStream) (keyframes : List ℤ)
    (stream : List AVPacket) : List AVPacket :=
  match keyframes with
  | [] => []
  | first :: _ =>
      (ListCut.onwards (keyframeFrom videoIdx vid) first stream).filter (isVideo videoIdx)

/-- The boundaries end at `eofMs`, and nothing from the first boundary on is left
out. -/
structure ReachesEnd (videoIdx : ℤ) (vid : AVStream) (stream : List AVPacket) (eofMs : ℤ)
    (keyframes : List ℤ) : Prop where
  last : keyframes.getLast? = some eofMs
  covered : ∀ pkt ∈ fromFirstBoundary videoIdx vid keyframes stream,
    Covered videoIdx vid keyframes stream pkt

/-- Only packets behind the last boundary can be left out. -/
theorem covered_or_mem_onwards {videoIdx : ℤ} {vid : AVStream} {first : ℤ} {boundaries : List ℤ}
    {stream : List AVPacket} {pkt : AVPacket}
    (hpkt : pkt ∈ fromFirstBoundary videoIdx vid (first :: boundaries) stream) :
    Covered videoIdx vid (first :: boundaries) stream pkt ∨
      pkt ∈ ListCut.onwards (keyframeFrom videoIdx vid)
        ((first :: boundaries).getLast (List.cons_ne_nil first boundaries)) stream := by
  obtain ⟨honwards, hvideo⟩ := List.mem_filter.mp hpkt
  refine (ListCut.mem_parts_or_mem_onwards honwards).imp_left ?_
  rintro ⟨part, hpart, hmem⟩
  obtain ⟨i, startMs, endMs, hstart, hend, rfl⟩ := ListCut.exists_of_mem_parts hpart
  exact ⟨i, ⟨i, startMs, endMs⟩,
    segmentWindow_eq_some.mpr ⟨by omega, rfl, by simpa using hstart, by simpa using hend⟩,
    List.mem_filter.mpr ⟨hmem, hvideo⟩⟩

theorem reachesEnd_of_getLast? {videoIdx : ℤ} {vid : AVStream} {keyframes : List ℤ}
    {stream : List AVPacket} {eofMs : ℤ}
    (heof : ∀ pkt ∈ stream, pkt.streamIndex = videoIdx → videoPktMs vid pkt < eofMs)
    (hlast : keyframes.getLast? = some eofMs) :
    ReachesEnd videoIdx vid stream eofMs keyframes := by
  refine ⟨hlast, ?_⟩
  intro pkt hpkt
  cases keyframes with
  | nil => simp at hlast
  | cons first boundaries =>
      apply (covered_or_mem_onwards hpkt).resolve_right
      intro honwards
      rw [List.getLast?_eq_getLast_of_ne_nil (List.cons_ne_nil first boundaries)] at hlast
      rw [Option.some_inj.mp hlast] at honwards
      -- the rest would start with a keyframe at or after the end
      cases hrest : ListCut.onwards (keyframeFrom videoIdx vid) eofMs stream with
      | nil => simp [hrest] at honwards
      | cons key rest =>
          have hmem : key ∈ stream := (List.dropWhile_sublist _).subset
            (by rw [← ListCut.onwards, hrest]; exact List.mem_cons_self)
          obtain ⟨hvideo, -, hms⟩ :=
            keyframeFrom_iff.mp (ListCut.cutsAt_of_onwards_eq_cons hrest)
          exact absurd (heof key hmem hvideo) (not_lt.mpr hms)

theorem getKeyframesMs_of_entries {m : Media} {s : Session δ ε α} {vid : AVStream}
    {entries : List CueEntry} (hfresh : s.demuxer.keyframesCached = false)
    (hvideo : s.demuxer.streamAt s.demuxer.videoStreamIdx = .ok vid)
    (hcues : Demuxer.readCueEntries m = .ok (some entries)) :
    (s.getKeyframesMs m).1 = .ok (filterKeyframes (entries.map CueEntry.timeMs) 10000) := by
  have hopen : s.demuxer.fmtCtx.isSome := by
    cases hctx : s.demuxer.fmtCtx with
    | none => rw [Demuxer.streamAt_of_closed hctx] at hvideo; cases hvideo
    | some ctx => rfl
  have hstream : (s.demuxer.withEntries (some entries)).streamAt
      (s.demuxer.withEntries (some entries)).videoStreamIdx = .ok vid := hvideo
  rw [getKeyframesMs, Demuxer.keyframesMs, Demuxer.ensureCueIndex_of_open hfresh hopen hcues,
    if_pos (Option.isSome_some), Demuxer.addCueIndexEntries_eq, hstream]
  by_cases hneeds : (s.demuxer.withEntries (some entries)).NeedsIndex
  · rw [if_pos hneeds]
    rfl
  · rw [if_neg hneeds]
    rfl

/-- The boundaries that a session hands out reach the end of the file exactly when
the last cue does. -/
theorem keyframes_reachEnd_iff {m : Media} {s : Session δ ε α} {vid : AVStream}
    {entries : List CueEntry} {stream : List AVPacket} {eofMs : ℤ}
    (hfresh : s.demuxer.keyframesCached = false)
    (hvideo : s.demuxer.streamAt s.demuxer.videoStreamIdx = .ok vid)
    (hcues : Demuxer.readCueEntries m = .ok (some entries))
    (heof : ∀ pkt ∈ stream, pkt.streamIndex = s.demuxer.videoStreamIdx →
      videoPktMs vid pkt < eofMs) :
    (∃ keyframes, (s.getKeyframesMs m).1 = .ok keyframes ∧
        ReachesEnd s.demuxer.videoStreamIdx vid stream eofMs keyframes) ↔
      (entries.getLast?).map CueEntry.timeMs = some eofMs := by
  have hlast := getLast?_filterKeyframes (entries.map CueEntry.timeMs) 10000
  rw [List.getLast?_map] at hlast
  rw [getKeyframesMs_of_entries hfresh hvideo hcues, ← hlast]
  constructor
  · rintro ⟨keyframes, hkeyframes, hend⟩
    cases hkeyframes
    exact hend.last
  · exact fun hlast ↦ ⟨_, rfl, reachesEnd_of_getLast? heof hlast⟩

/-- A file with cues at 0 and 10000 ms. -/
def twoCueBytes : List UInt8 :=
  -- EBML header, Segment, SeekHead with a Seek for the Cues
  [0x1A, 0x45, 0xDF, 0xA3, 0x80, 0x18, 0x53, 0x80, 0x67, 0xB3, 0x11, 0x4D, 0x9B, 0x74, 0x8E,
    0x4D, 0xBB, 0x8B, 0x53, 0xAB, 0x84, 0x1C, 0x53, 0xBB, 0x6B, 0x53, 0xAC, 0x81, 0x13] ++
  -- Cues with two cue points
  [0x1C, 0x53, 0xBB, 0x6B, 0x9B,
    0xBB, 0x8B, 0xB3, 0x81, 0x00, 0xB7, 0x86, 0xF7, 0x81, 0x01, 0xF1, 0x81, 0x33,
    0xBB, 0x8C, 0xB3, 0x82, 0x27, 0x10, 0xB7, 0x86, 0xF7, 0x81, 0x01, 0xF1, 0x81, 0x33]

def twoCueFile : Media where
  context := ⟨[millisecondStream .video], 0, -1, 20000000⟩
  avioRead := fun offset n ↦ (twoCueBytes.drop offset.toNat).take n
  packetsFromOffset := fun _ _ ↦ []
  packetsFromTimestamp := fun _ _ _ ↦ []

/-- Two keyframes at the cues and a packet that starts at 15000 ms. -/
def twoCuePackets : List AVPacket :=
  [⟨0, 0, 0, 10000, true, [1]⟩, ⟨0, 10000, 10000, 5000, true, [2]⟩,
    ⟨0, 15000, 15000, 5000, false, [3]⟩]

def twoCueSession : Session Unit Unit Unit where
  demuxer := (Demuxer.create (.opened twoCueFile.context)).2

theorem readCueEntries_twoCueFile :
    Demuxer.readCueEntries twoCueFile =
      .ok (some [⟨0, 0, 1, 61, -1⟩, ⟨10000, 10000, 1, 61, -1⟩]) := by
  decide +kernel

theorem keyframes_reachEnd_iff_two_cues :
    (∃ keyframes, (twoCueSession.getKeyframesMs twoCueFile).1 = .ok keyframes ∧
        ReachesEnd 0 (millisecondStream .video) twoCuePackets 20000 keyframes) ↔
      ([⟨0, 0, 1, 61, -1⟩, ⟨10000, 10000, 1, 61, -1⟩] : List CueEntry).getLast?.map
        CueEntry.timeMs = some 20000 :=
  keyframes_reachEnd_iff rfl rfl readCueEntries_twoCueFile (by decide)

theorem not_keyframes_reachEnd :
    ¬ ∀ (m : Media) (s : Session Unit Unit Unit) (vid : AVStream) (entries : List CueEntry)
        (stream : List AVPacket) (eofMs : ℤ),
      s.demuxer.keyframesCached = false →
      s.demuxer.streamAt s.demuxer.videoStreamIdx = .ok vid →
      Demuxer.readCueEntries m = .ok (some entries) → 2 ≤ entries.length →
      (∀ pkt ∈ stream, pkt.streamIndex = s.demuxer.videoStreamIdx → videoPktMs vid pkt < eofMs) →
      ∃ keyframes, (s.getKeyframesMs m).1 = .ok keyframes ∧
        ReachesEnd s.demuxer.videoStreamIdx vid stream eofMs keyframes := by
  intro h
  obtain ⟨keyframes, hkeyframes, hend⟩ := h twoCueFile twoCueSession (millisecondStream .video) _
    twoCuePackets 20000 rfl rfl readCueEntries_twoCueFile (by decide) (by decide)
  rw [getKeyframesMs_of_entries rfl rfl readCueEntries_twoCueFile] at hkeyframes
  have hlist : filterKeyframes [0, 10000] 10000 = [0, 10000] := by decide
  cases hkeyframes.symm.trans (congrArg Except.ok hlist)
  cases hend.last

end Session

end Fmp4Packager
