import TinyShell.Machine.Word

/-!
# Byte memory

Memory is a map from addresses to bytes; words are little-endian. A load reads
back the last store to its own word (`load32_store32`) and is not changed by
stores elsewhere (`load32_store32_of_disjoint`), or by anything that agrees with
the old memory on the word's bytes (`load32_congr`).
-/

namespace Machine

abbrev Memory := ℕ → U8

def load32 (m : Memory) (a : ℕ) : U32 := m (a + 3) ++ m (a + 2) ++ m (a + 1) ++ m a

def load64 (m : Memory) (a : ℕ) : U64 := load32 m (a + 4) ++ load32 m a

def store32 (m : Memory) (a : ℕ) (v : U32) : Memory :=
  fun x => if a ≤ x ∧ x < a + 4 then v.extractLsb' (8 * (x - a)) 8 else m x

variable {m m' : Memory} {a b : ℕ} {v : U32}

theorem load32_congr (h : ∀ i < 4, m (a + i) = m' (a + i)) : load32 m a = load32 m' a := by
  have h0 := h 0 (by omega)
  rw [Nat.add_zero] at h0
  rw [load32, load32, h0, h 1 (by omega), h 2 (by omega), h 3 (by omega)]

theorem store32_of_not_mem {x : ℕ} (h : ¬(a ≤ x ∧ x < a + 4)) : store32 m a v x = m x := if_neg h

/-- A load reads back the store to the same word. -/
@[simp] theorem load32_store32 (m : Memory) (a : ℕ) (v : U32) : load32 (store32 m a v) a = v := by
  have hbyte : ∀ i < 4, store32 m a v (a + i) = v.extractLsb' (8 * i) 8 := fun i hi => by
    rw [store32, if_pos (by omega), Nat.add_sub_cancel_left]
  have h0 := hbyte 0 (by omega)
  rw [Nat.add_zero] at h0
  rw [load32, h0, hbyte 1 (by omega), hbyte 2 (by omega), hbyte 3 (by omega)]
  apply BitVec.eq_of_getLsbD_eq
  intro i hi
  simp only [BitVec.getLsbD_append, BitVec.getLsbD_extractLsb']
  by_cases h1 : i < 8
  · simp [h1]
  · by_cases h2 : i - 8 < 8
    · simp [h1, h2, show 8 + (i - 8) = i by omega]
    · by_cases h3 : i - 8 - 8 < 8
      · simp [h1, h2, h3, show 16 + (i - 8 - 8) = i by omega]
      · simp [h1, h2, h3, show i - 8 - 8 - 8 < 8 by omega, show 24 + (i - 8 - 8 - 8) = i by omega]

theorem load32_store32_of_disjoint (h : b + 4 ≤ a ∨ a + 4 ≤ b) :
    load32 (store32 m a v) b = load32 m b :=
  load32_congr fun i hi => store32_of_not_mem (by omega)

end Machine
