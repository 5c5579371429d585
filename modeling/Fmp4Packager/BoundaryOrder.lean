import Fmp4Packager.EndOfFile
import Fmp4Packager.HlsManifest
import Fmp4Packager.SeekReplay

/-!
# The order of the boundaries

`FilterKeyframes` picks one cue time for each step of 10 seconds, so what it picks
increases.  The first cue time and the last one are kept whatever they are, and
these two decide whether the boundaries increase.
-/

namespace Fmp4Packager

/-- The first of the times that fall into the highest step. -/
def firstOfTopStep (step : ℤ) : List ℤ → Option ℤ
  | [] => none
  | time :: times =>
      match firstOfTopStep step times with
      | none => some time
      | some top => if time / step < top / step then some top else some time

/-- Cue times, in the order of the file, whose first and last do not get in the way
of the others: the first later time from `step` on is after the first one, and the
last time is not before the first later time of the highest step, or not before the
first one if that step is below `step`. -/
def EndsInOrder (step : ℤ) : List ℤ → Prop
  | first :: second :: rest =>
      (∀ time ∈ (second :: rest).find? (step ≤ ·), first < time) ∧
        ((firstOfTopStep step (second :: rest)).filter (step ≤ ·)).getD first ≤
          (second :: rest).getLast (List.cons_ne_nil second rest)
  | _ => True

instance (step : ℤ) (times : List ℤ) : Decidable (EndsInOrder step times) := by
  match times with
  | _ :: _ :: _ => exact inferInstanceAs (Decidable (_ ∧ _))
  | [_] => exact .isTrue trivial
  | [] => exact .isTrue trivial

theorem advanceTarget_eq {step time : ℤ} (hstep : 0 < step) {fuel : ℕ} {j : ℤ}
    (hle : j * step ≤ time) (hfuel : (time - j * step).toNat < fuel) :
    advanceTarget step time fuel (j * step) = (time / step + 1) * step := by
  induction fuel generalizing j with
  | zero => omega
  | succ fuel ih =>
      have hnext : j * step + step = (j + 1) * step := by ring
      rw [advanceTarget, if_pos hle, hnext]
      by_cases hmore : (j + 1) * step ≤ time
      · exact ih hmore (by omega)
      · have hj : time / step = j := by
          rw [Int.ediv_eq_iff_of_pos hstep]
          constructor
          · linarith
          · linarith
        rw [hj]
        cases fuel with
        | zero => rfl
        | succ fuel => rw [advanceTarget, if_neg hmore]

theorem filterLoop_cons_of_le {step time j : ℤ} (hstep : 0 < step) (hle : j * step ≤ time)
    (rest : List ℤ) :
    filterLoop step (j * step) (time :: rest) =
      time :: filterLoop step ((time / step + 1) * step) rest := by
  rw [filterLoop, if_pos hle, advanceTarget_eq hstep hle (by omega)]

theorem filterLoop_cons_of_lt {step time j : ℤ} (hlt : time < j * step) (rest : List ℤ) :
    filterLoop step (j * step) (time :: rest) = filterLoop step (j * step) rest := by
  rw [filterLoop, if_neg (by omega)]

theorem lt_next_step {step : ℤ} (hstep : 0 < step) (time : ℤ) :
    time < (time / step + 1) * step := by
  have := Int.lt_ediv_add_one_mul_self time hstep
  exact this

theorem head?_filterLoop {step : ℤ} (hstep : 0 < step) (j : ℤ) (times : List ℤ) :
    (filterLoop step (j * step) times).head? = times.find? (j * step ≤ ·) := by
  induction times with
  | nil => rfl
  | cons time rest ih =>
      by_cases hle : j * step ≤ time
      · rw [filterLoop_cons_of_le hstep hle, List.head?_cons,
          List.find?_cons_of_pos (by simpa using hle)]
      · rw [filterLoop_cons_of_lt (by omega), ih, List.find?_cons_of_neg (by simpa using hle)]

theorem le_of_mem_filterLoop {step : ℤ} (hstep : 0 < step) {j : ℤ} {times : List ℤ} {time : ℤ}
    (hmem : time ∈ filterLoop step (j * step) times) : j * step ≤ time := by
  induction times generalizing j with
  | nil => cases hmem
  | cons head rest ih =>
      by_cases hle : j * step ≤ head
      · rw [filterLoop_cons_of_le hstep hle] at hmem
        rcases List.mem_cons.mp hmem with rfl | hrest
        · exact hle
        · have hnext := ih hrest
          have := lt_next_step hstep head
          omega
      · rw [filterLoop_cons_of_lt (by omega)] at hmem
        exact ih hmem

theorem pairwise_filterLoop {step : ℤ} (hstep : 0 < step) (j : ℤ) (times : List ℤ) :
    (filterLoop step (j * step) times).Pairwise (· < ·) := by
  induction times generalizing j with
  | nil => exact List.Pairwise.nil
  | cons head rest ih =>
      by_cases hle : j * step ≤ head
      · rw [filterLoop_cons_of_le hstep hle]
        refine List.Pairwise.cons ?_ (ih _)
        intro time hmem
        have hnext := le_of_mem_filterLoop hstep hmem
        have := lt_next_step hstep head
        omega
      · rw [filterLoop_cons_of_lt (by omega)]
        exact ih j

/-- The last time picked is the first of the highest step, if that step is reached. -/
theorem getLast?_filterLoop {step : ℤ} (hstep : 0 < step) (j : ℤ) (times : List ℤ) :
    (filterLoop step (j * step) times).getLast? =
      (firstOfTopStep step times).filter (j * step ≤ ·) := by
  have hreach : ∀ i time : ℤ, i * step ≤ time ↔ i ≤ time / step := fun i time ↦
    (Int.le_ediv_iff_mul_le hstep).symm
  induction times generalizing j with
  | nil => rfl
  | cons head rest ih =>
      rw [firstOfTopStep]
      by_cases hle : j * step ≤ head
      · rw [filterLoop_cons_of_le hstep hle, List.getLast?_cons, ih]
        cases htop : firstOfTopStep step rest with
        | none => simp [Option.filter_some, hle]
        | some top =>
            by_cases hlt : head / step < top / step
            · have hpast : (head / step + 1) * step ≤ top := (hreach _ _).mpr hlt
              have hreached : j * step ≤ top := by
                have := lt_next_step hstep head
                omega
              simp [Option.filter_some, hlt, hpast, hreached]
            · have hbelow : ¬(head / step + 1) * step ≤ top := by
                rw [hreach]
                omega
              simp [Option.filter_some, hlt, hbelow, hle]
      · rw [filterLoop_cons_of_lt (by omega), ih]
        cases htop : firstOfTopStep step rest with
        | none => simp [Option.filter_some, hle]
        | some top =>
            by_cases hlt : head / step < top / step
            · simp [Option.filter_some, hlt]
            · have hbelow : ¬j * step ≤ top := by
                rw [hreach] at hle ⊢
                omega
              simp [Option.filter_some, hlt, hbelow, hle]

theorem forall_lt_iff_of_pairwise {xs : List ℤ} (hxs : xs.Pairwise (· < ·)) (a : ℤ) :
    (∀ x ∈ xs, a < x) ↔ ∀ x ∈ xs.head?, a < x := by
  cases xs with
  | nil => simp
  | cons x xs =>
      rw [List.forall_mem_cons, List.head?_cons]
      constructor
      · rintro ⟨hx, -⟩ y hy
        cases hy
        exact hx
      · intro h
        have hx := h x rfl
        exact ⟨hx, fun y hy ↦ hx.trans ((List.pairwise_cons.mp hxs).1 y hy)⟩

theorem forall_lt_iff_getLast_lt {xs : List ℤ} (hxs : xs.Pairwise (· < ·)) (hne : xs ≠ [])
    (a : ℤ) : (∀ x ∈ xs, x < a) ↔ xs.getLast hne < a := by
  constructor
  · exact fun h ↦ h _ (List.getLast_mem hne)
  · intro h x hx
    exact ((hxs.imp le_of_lt).rel_getLast hx).trans_lt h

theorem pairwise_with_last_iff {first last : ℤ} {picked : List ℤ}
    (hpicked : picked.Pairwise (· < ·)) :
    (if (first :: picked).getLast? ≠ some last then first :: picked ++ [last]
        else first :: picked).Pairwise (· < ·) ↔
      (∀ time ∈ picked, first < time) ∧ picked.getLast?.getD first ≤ last := by
  have hkept : (first :: picked).Pairwise (· < ·) ↔ ∀ time ∈ picked, first < time := by
    rw [List.pairwise_cons, and_iff_left hpicked]
  by_cases hlast : picked.getLast?.getD first = last
  · have hthere : (first :: picked).getLast? = some last := by
      rw [List.getLast?_cons, hlast]
    rw [if_neg (not_not.mpr hthere), hkept, and_iff_left hlast.le]
  · have hmissing : (first :: picked).getLast? ≠ some last := by
      rw [List.getLast?_cons]
      exact fun h ↦ hlast (Option.some.inj h)
    rw [if_pos hmissing, List.pairwise_append, hkept]
    refine and_congr_right fun hfirst ↦ ?_
    have hbefore : (∀ time ∈ first :: picked, time < last) ↔
        picked.getLast?.getD first < last := by
      rw [forall_lt_iff_getLast_lt (hkept.mpr hfirst) (List.cons_ne_nil first picked),
        List.getLast_eq_getLastD, List.getLastD_eq_getLast?]
    simp only [List.pairwise_singleton, List.mem_singleton, forall_eq, true_and, hbefore]
    omega

/-- The filtered boundaries increase exactly when the first and the last time do not
get in the way. -/
theorem pairwise_filterKeyframes_iff {step : ℤ} (hstep : 0 < step) (times : List ℤ) :
    (filterKeyframes times step).Pairwise (· < ·) ↔ EndsInOrder step times := by
  match times with
  | [] => simp [filterKeyframes, EndsInOrder]
  | [_] => simp [filterKeyframes, EndsInOrder]
  | first :: second :: rest =>
      have hpicked := pairwise_filterLoop hstep 1 (second :: rest)
      have hhead := head?_filterLoop hstep 1 (second :: rest)
      have hlast := getLast?_filterLoop hstep 1 (second :: rest)
      rw [one_mul] at hpicked hhead hlast
      rw [filterKeyframes, pairwise_with_last_iff hpicked, forall_lt_iff_of_pairwise hpicked,
        hhead, hlast]
      rfl

namespace Session

open Demuxer EbmlParser Server

variable {δ ε α : Type}

/-- The boundaries increase, so every window between two of them runs forward and
every segment has a positive duration in the manifest. -/
structure Increasing (keyframes : List ℤ) : Prop where
  boundaries : keyframes.Pairwise (· < ·)
  windows : ∀ idx w, segmentWindow keyframes idx = some w → w.segmentStartMs < w.segmentEndMs
  durations : ∀ d ∈ HlsManifest.segmentDurations keyframes, 0 < d

theorem increasing_iff (keyframes : List ℤ) :
    Increasing keyframes ↔ keyframes.Pairwise (· < ·) := by
  refine ⟨Increasing.boundaries, fun hpairwise ↦ ⟨hpairwise, ?_,
    (HlsManifest.segmentDurations_pos_iff keyframes).mpr hpairwise⟩⟩
  intro idx w hw
  obtain ⟨-, -, hstart, hend⟩ := segmentWindow_eq_some.mp hw
  obtain ⟨hlt, hstart⟩ := List.getElem?_eq_some_iff.mp hstart
  obtain ⟨hlt', hend⟩ := List.getElem?_eq_some_iff.mp hend
  rw [← hstart, ← hend]
  exact List.pairwise_iff_getElem.mp hpairwise _ _ hlt hlt' (Nat.lt_succ_self _)

/-- Whatever has happened to the session before, the boundaries that it hands out for
the file increase exactly when the cue times of the file allow it. -/
theorem keyframes_increasing_iff {m : Media} {s : Session δ ε α} (hfile : ReadsFile m s.demuxer)
    {keyframes : List ℤ} (hreturn : (s.getKeyframesMs m).1 = .ok keyframes) :
    Increasing keyframes ↔ EndsInOrder 10000 ((fileCues m).map CueEntry.timeMs) := by
  obtain ⟨hensured, hcached⟩ := hfile.ensureCueIndex
  rw [increasing_iff, ← pairwise_filterKeyframes_iff (by norm_num)]
  rw [getKeyframesMs, keyframesMs] at hreturn
  cases hensure : s.demuxer.ensureCueIndex m with
  | mk outcome d =>
      rw [hensure] at hensured hcached hreturn
      cases outcome with
      | error stop => cases hreturn
      | ok value =>
          obtain ⟨-, -, hkeyframes⟩ := hensured.cached (hcached rfl)
          cases hreturn
          rw [hkeyframes]

/-- A file with cues at 0, 20000 and 10000 ms, in this order. -/
def unsortedCueBytes : List UInt8 :=
  -- EBML header, Segment, SeekHead with a Seek for the Cues
  [0x1A, 0x45, 0xDF, 0xA3, 0x80, 0x18, 0x53, 0x80, 0x67, 0xC1, 0x11, 0x4D, 0x9B, 0x74, 0x8E,
    0x4D, 0xBB, 0x8B, 0x53, 0xAB, 0x84, 0x1C, 0x53, 0xBB, 0x6B, 0x53, 0xAC, 0x81, 0x13] ++
  -- Cues with three cue points
  [0x1C, 0x53, 0xBB, 0x6B, 0xA9,
    0xBB, 0x8B, 0xB3, 0x81, 0x00, 0xB7, 0x86, 0xF7, 0x81, 0x01, 0xF1, 0x81, 0x41,
    0xBB, 0x8C, 0xB3, 0x82, 0x4E, 0x20, 0xB7, 0x86, 0xF7, 0x81, 0x01, 0xF1, 0x81, 0x41,
    0xBB, 0x8C, 0xB3, 0x82, 0x27, 0x10, 0xB7, 0x86, 0xF7, 0x81, 0x01, 0xF1, 0x81, 0x41]

def unsortedCueFile : Media where
  context := ⟨[millisecondStream .video], 0, -1, 30000000⟩
  avioRead := fun offset n ↦ (unsortedCueBytes.drop offset.toNat).take n
  packetsFromOffset := fun _ _ ↦ []
  packetsFromTimestamp := fun _ _ _ ↦ []

theorem readCueEntries_unsortedCueFile :
    readCueEntries unsortedCueFile =
      .ok (some [⟨0, 0, 1, 75, -1⟩, ⟨20000, 20000, 1, 75, -1⟩, ⟨10000, 10000, 1, 75, -1⟩]) := by
  decide +kernel

def openedOver (m : Media) : Session Unit Unit Unit where
  demuxer := (Demuxer.create (.opened m.context)).2

theorem readsFile_unsortedCueFile :
    ReadsFile unsortedCueFile (openedOver unsortedCueFile).demuxer where
  timeBases := by
    intro ctx hctx
    cases hctx
    rfl
  video := rfl
  audio := rfl
  uncached := fun _ ↦ rfl
  cached := fun h ↦ by cases h

theorem keyframes_unsortedCueFile :
    ((openedOver unsortedCueFile).getKeyframesMs unsortedCueFile).1 = .ok [0, 20000, 10000] := by
  rw [getKeyframesMs_of_entries rfl rfl readCueEntries_unsortedCueFile]
  decide

theorem keyframes_increasing_iff_unsortedCueFile :
    Increasing [0, 20000, 10000] ↔
      EndsInOrder 10000 ((fileCues unsortedCueFile).map CueEntry.timeMs) :=
  keyframes_increasing_iff readsFile_unsortedCueFile keyframes_unsortedCueFile

theorem not_keyframes_increasing :
    ¬ ∀ (m : Media) (s : Session Unit Unit Unit) (keyframes : List ℤ),
      ReadsFile m s.demuxer → (s.getKeyframesMs m).1 = .ok keyframes → Increasing keyframes := by
  intro h
  have hincreasing := h unsortedCueFile _ _ readsFile_unsortedCueFile keyframes_unsortedCueFile
  have hlast : (20000 : ℤ) < 10000 := (List.pairwise_cons.mp
    (List.pairwise_cons.mp hincreasing.boundaries).2).1 10000 List.mem_cons_self
  omega

end Session

end Fmp4Packager
