import Mathlib

/-!
# A terminal of unbounded length

The text stands in rows that never move; the cursor is in a window of `height` rows, which
only moves down, by a row whenever the cursor leaves it.

* `lineFeed`, `carriageReturn`, `print`, `backspace`: what a character does.
* `Fits`: the cursor is in the window and nothing has been written below it. The steps that the
  characters are made of keep it: `Fits.put`, `Fits.lineFeed` and `Fits.carriageReturn`.
-/

namespace Machine

variable {α : Type*}

structure Terminal (α : Type*) where
  cell : ℕ → ℕ → α
  row : ℕ
  column : ℕ
  /-- The first row of the window. -/
  top : ℕ

namespace Terminal

variable {width height : ℕ} {blank : α} {t : Terminal α}

/-- All rows blank, the cursor and the window at the first. -/
def start (blank : α) : Terminal α := ⟨fun _ _ => blank, 0, 0, 0⟩

/-- A cell is stored at the cursor. -/
def put (t : Terminal α) (x : α) : Terminal α :=
  { t with cell := Function.update t.cell t.row (Function.update (t.cell t.row) t.column x) }

def lineFeed (height : ℕ) (t : Terminal α) : Terminal α :=
  { t with
    row := t.row + 1
    column := 0
    top := if t.row + 1 = t.top + height then t.top + 1 else t.top }

def carriageReturn (t : Terminal α) : Terminal α := { t with column := 0 }

def print (width height : ℕ) (x : α) (t : Terminal α) : Terminal α :=
  if t.column + 1 = width then lineFeed height (t.put x) else { t.put x with column := t.column + 1 }

/-- One cell back, over the end of a row, but not out of the window. -/
def backspace (width : ℕ) (blank : α) (t : Terminal α) : Terminal α :=
  if 0 < t.column then put { t with column := t.column - 1 } blank
  else if t.top < t.row then put { t with row := t.row - 1, column := width - 1 } blank
  else t

theorem put_cell (t : Terminal α) (x : α) (r k : ℕ) :
    (t.put x).cell r k = if r = t.row ∧ k = t.column then x else t.cell r k := by
  unfold put
  dsimp only
  by_cases hr : r = t.row
  · subst hr
    rw [Function.update_self, Function.update_apply]
    simp
  · rw [Function.update_of_ne hr, if_neg (fun h => hr h.1)]

structure Fits (width height : ℕ) (blank : α) (t : Terminal α) : Prop where
  top_le : t.top ≤ t.row
  row_lt : t.row < t.top + height
  column_lt : t.column < width
  below : ∀ r, t.top + height ≤ r → ∀ k, t.cell r k = blank

theorem Fits.start (hw : 0 < width) (hh : 0 < height) (blank : α) : Fits width height blank (start blank) :=
  ⟨le_rfl, by simpa [Terminal.start] using hh, hw, fun _ _ _ => rfl⟩

theorem Fits.put (h : Fits width height blank t) (x : α) : Fits width height blank (t.put x) := by
  refine ⟨h.top_le, h.row_lt, h.column_lt, ?_⟩
  intro r hr k
  have hlt := h.row_lt
  have hne : r ≠ t.row := by
    change t.top + height ≤ r at hr
    omega
  rw [put_cell, if_neg fun heq => hne heq.1]
  exact h.below r hr k

theorem Fits.lineFeed (h : Fits width height blank t) (hw : 0 < width) (hh : 1 < height) :
    Fits width height blank (t.lineFeed height) := by
  have hle := h.top_le
  have hlt := h.row_lt
  unfold Terminal.lineFeed
  refine ⟨?_, ?_, hw, ?_⟩
  · dsimp only
    split_ifs <;> omega
  · dsimp only
    split_ifs <;> omega
  · intro r hr k
    apply h.below r
    dsimp only at hr
    split_ifs at hr <;> omega

theorem Fits.carriageReturn (h : Fits width height blank t) : Fits width height blank t.carriageReturn :=
  ⟨h.top_le, h.row_lt, (Nat.zero_le _).trans_lt h.column_lt, h.below⟩

end Terminal

end Machine
