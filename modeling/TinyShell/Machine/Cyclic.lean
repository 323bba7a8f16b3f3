import Mathlib

/-!
# Searching a ring of slots

A search that starts at slot `a` of a ring of `n` slots and goes once around.
`ahead n a j` is the number of steps from `a` to `j`.

* `cyclicFind_some`: the search finds the fitting slot that is fewest steps ahead.
* `ahead_add`, `ahead_sub`: steps add up, as long as they do not go once around.
-/

namespace Machine

variable {n a b i j k : ℕ}

/-- The first slot from `a` on, around a ring of `n` slots, with the property `p`. -/
def cyclicFind (n a : ℕ) (p : ℕ → Bool) : Option ℕ :=
  ((List.range n).find? fun k => p ((a + k) % n)).map fun k => (a + k) % n

/-- The number of steps from slot `a` forward to slot `j`. -/
def ahead (n a j : ℕ) : ℕ := (j + (n - a % n)) % n

theorem ahead_lt (hn : 0 < n) (a j : ℕ) : ahead n a j < n := Nat.mod_lt _ hn

theorem slot_ahead (hj : j < n) (a : ℕ) : (a + ahead n a j) % n = j := by
  have hr : a % n < n := Nat.mod_lt _ (by omega)
  have hsum : a % n + (j + (n - a % n)) = j + n := by omega
  rw [ahead, Nat.add_mod_mod, ← Nat.mod_add_mod, hsum, Nat.add_mod_right, Nat.mod_eq_of_lt hj]

theorem ahead_slot (hk : k < n) (a : ℕ) : ahead n a ((a + k) % n) = k := by
  have hr : a % n < n := Nat.mod_lt _ (by omega)
  have hsum : a % n + (k + (n - a % n)) = k + n := by omega
  rw [ahead, Nat.mod_add_mod, Nat.add_assoc, ← Nat.mod_add_mod, hsum, Nat.add_mod_right, Nat.mod_eq_of_lt hk]

theorem ahead_inj (hi : i < n) (hj : j < n) (h : ahead n a i = ahead n a j) : i = j := by
  rw [← slot_ahead hi a, h, slot_ahead hj]

/-- The slot after the last of `ahead n a b` steps is `b`. -/
theorem slot_ahead_mod (hn : 0 < n) (a b : ℕ) : (a + ahead n a b) % n = b % n := by
  have hsame : ahead n a b = ahead n a (b % n) := by rw [ahead, ahead, Nat.mod_add_mod]
  rw [hsame, slot_ahead (Nat.mod_lt b hn)]

/-- Steps add up, as long as they do not go once around. -/
theorem ahead_add (hj : j < n) (h : ahead n a b + ahead n b j < n) : ahead n a j = ahead n a b + ahead n b j := by
  have hslot : (a + (ahead n a b + ahead n b j)) % n = j := by
    rw [← Nat.add_assoc, ← Nat.mod_add_mod, slot_ahead_mod (by omega), Nat.mod_add_mod, slot_ahead hj]
  have hahead := ahead_slot h a
  rwa [hslot] at hahead

theorem ahead_sub (hj : j < n) (h : ahead n a b ≤ ahead n a j) : ahead n b j = ahead n a j - ahead n a b := by
  have hlt := ahead_lt (show 0 < n by omega) a j
  have hslot : (b + (ahead n a j - ahead n a b)) % n = j := by
    rw [← Nat.mod_add_mod, ← slot_ahead_mod (by omega) a b, Nat.mod_add_mod, Nat.add_assoc, Nat.add_sub_cancel' h,
      slot_ahead hj]
  have hahead := ahead_slot (show ahead n a j - ahead n a b < n by omega) b
  rwa [hslot] at hahead

/-- A slot no farther from `b` than `j` lies between `b` and `j`, seen from any `a` before. -/
theorem ahead_between (hi : i < n) (hj : j < n) (h : ahead n a b ≤ ahead n a j)
    (hnear : ahead n b i ≤ ahead n b j) :
    ahead n a b ≤ ahead n a i ∧ ahead n a i ≤ ahead n a j := by
  have hlt := ahead_lt (show 0 < n by omega) a j
  have hsub := ahead_sub hj h
  have hadd : ahead n a i = ahead n a b + ahead n b i := ahead_add hi (by omega)
  omega

theorem ahead_next (h : ahead n a i + 1 < n) : ahead n a (i + 1) = ahead n a i + 1 := by
  have hsum : i + 1 + (n - a % n) = i + (n - a % n) + 1 := by omega
  rw [ahead, hsum, ← Nat.mod_add_mod]
  exact Nat.mod_eq_of_lt h

/-- Slot `i` itself is the farthest from behind it. -/
theorem ahead_self (hi : i < n) : ahead n (i + 1) i = n - 1 := by
  have hslot : (i + 1 + (n - 1)) % n = i := by
    have hsum : i + 1 + (n - 1) = i + n := by omega
    rw [hsum, Nat.add_mod_right, Nat.mod_eq_of_lt hi]
  have hahead := ahead_slot (show n - 1 < n by omega) (i + 1)
  rwa [hslot] at hahead

variable {p q : ℕ → Bool}

theorem cyclicFind_mod : cyclicFind n (a % n) p = cyclicFind n a p := by
  simp only [cyclicFind, Nat.mod_add_mod]

theorem cyclicFind_congr (hn : 0 < n) (h : ∀ j < n, p j = q j) : cyclicFind n a p = cyclicFind n a q := by
  simp only [cyclicFind, h _ (Nat.mod_lt _ hn)]

theorem cyclicFind_eq_none (hn : 0 < n) : cyclicFind n a p = none ↔ ∀ j < n, p j = false := by
  rw [cyclicFind, Option.map_eq_none_iff, List.find?_eq_none]
  constructor
  · intro h j hj
    have := h (ahead n a j) (List.mem_range.2 (ahead_lt hn a j))
    rw [slot_ahead hj] at this
    simpa using this
  · intro h k _
    rw [h _ (Nat.mod_lt _ hn)]
    simp

/-- **The search** finds a slot with the property, and none is nearer. -/
theorem cyclicFind_some (h : cyclicFind n a p = some i) :
    i < n ∧ p i = true ∧ ∀ j < n, p j = true → ahead n a i ≤ ahead n a j := by
  rw [cyclicFind, Option.map_eq_some_iff] at h
  obtain ⟨k, hfind, rfl⟩ := h
  rw [List.find?_range_eq_some] at hfind
  obtain ⟨hp, hk, hbefore⟩ := hfind
  have hk' := List.mem_range.1 hk
  refine ⟨Nat.mod_lt _ (by omega), hp, ?_⟩
  intro j hj hpj
  rw [ahead_slot hk']
  by_contra hlt
  have := hbefore (ahead n a j) (by omega)
  rw [slot_ahead hj, hpj] at this
  simp at this

end Machine
