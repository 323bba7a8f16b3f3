import Mathlib

/-!
# Counting the members of a finite table

`countBelow n P` is the number of indices below `n` at which the table `P` is
set. Changing one entry changes the count by that entry (`countBelow_step`).
-/

namespace Machine

def countBelow (n : ℕ) (P : ℕ → Bool) : ℕ := ((Finset.range n).filter fun i => P i = true).card

variable {n : ℕ} {P Q : ℕ → Bool}

theorem countBelow_eq_sum (n : ℕ) (P : ℕ → Bool) :
    countBelow n P = ∑ i ∈ Finset.range n, (P i).toNat := by
  rw [countBelow, Finset.card_filter]
  apply Finset.sum_congr rfl
  intro i _
  cases P i <;> rfl

/-- Two tables that differ at most at index `i` count alike up to entry `i`. -/
theorem countBelow_step {i : ℕ} (hi : i < n) (h : ∀ j, j ≠ i → Q j = P j) :
    countBelow n Q + (P i).toNat = countBelow n P + (Q i).toNat := by
  have hi' : i ∈ Finset.range n := Finset.mem_range.2 hi
  have hrest : ∑ j ∈ (Finset.range n).erase i, (Q j).toNat =
      ∑ j ∈ (Finset.range n).erase i, (P j).toNat :=
    Finset.sum_congr rfl fun j hj => by rw [h j (Finset.ne_of_mem_erase hj)]
  rw [countBelow_eq_sum, countBelow_eq_sum, ← Finset.add_sum_erase _ _ hi',
    ← Finset.add_sum_erase _ (fun j => (P j).toNat) hi', hrest]
  omega

theorem countBelow_congr (h : ∀ i < n, P i = Q i) : countBelow n P = countBelow n Q := by
  rw [countBelow_eq_sum, countBelow_eq_sum]
  exact Finset.sum_congr rfl fun i hi => by rw [h i (Finset.mem_range.1 hi)]

theorem countBelow_le (n : ℕ) (P : ℕ → Bool) : countBelow n P ≤ n := by
  rw [countBelow]
  exact (Finset.card_filter_le _ _).trans (by simp)

theorem countBelow_eq_zero (h : ∀ i < n, P i = false) : countBelow n P = 0 := by
  rw [countBelow_eq_sum]
  exact Finset.sum_eq_zero fun i hi => by rw [h i (Finset.mem_range.1 hi)]; rfl

theorem countBelow_pos {i : ℕ} (hi : i < n) (h : P i = true) : 0 < countBelow n P :=
  Finset.card_pos.2 ⟨i, Finset.mem_filter.2 ⟨Finset.mem_range.2 hi, h⟩⟩

end Machine
