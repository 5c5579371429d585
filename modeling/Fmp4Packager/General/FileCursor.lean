import Mathlib.Data.List.Basic

/-!
# A position in a file

A cursor is a position that is never past the end of its file.  It reads what lies
ahead and moves on by what it has read.
-/

variable {α : Type}

structure FileCursor (file : List α) where
  pos : ℕ
  le_length : pos ≤ file.length

namespace FileCursor

variable {file : List α}

/-- The next `n` elements, or as many as there are. -/
def read (k : FileCursor file) (n : ℕ) : List α := (file.drop k.pos).take n

/-- The cursor moved to `target`, or to the end if that comes first. -/
def moveTo (file : List α) (target : ℕ) : FileCursor file :=
  ⟨min target file.length, Nat.min_le_right target file.length⟩

/-- The cursor behind what `read` has returned. -/
def advance (k : FileCursor file) (n : ℕ) : FileCursor file := moveTo file (k.pos + n)

theorem length_read (k : FileCursor file) (n : ℕ) :
    (k.read n).length = min n (file.length - k.pos) := by
  rw [read, List.length_take, List.length_drop]

theorem pos_advance (k : FileCursor file) (n : ℕ) :
    (k.advance n).pos = k.pos + (k.read n).length := by
  have hle := k.le_length
  rw [length_read, advance, moveTo]
  dsimp only
  omega

theorem take_read (k : FileCursor file) (m n : ℕ) : (k.read n).take m = k.read (min m n) := by
  rw [read, List.take_take, read]

end FileCursor
