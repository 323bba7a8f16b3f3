import TinyShell.Machine.Cells
import TinyShell.Machine.Memory

/-!
# Words in bytes, and checked loads

* `le32`, `le64`: the little-endian bytes of a word; `bytesFrom_word` and
  `bytesFrom_long` say that they are what a load reads, `le32_inj` and `le64_inj` that
  they determine the word.
* `place m a l`: the memory with the bytes `l` at `a`.
* `restrict m a n`: a memory of which only the `n` bytes from `a` on can be read;
  `checkedLoad32` and `checkedLoad64` fail on a byte outside.
-/

namespace Machine

variable {m : Memory} {a k n x : ℕ}

def le32 (v : U32) : List U8 :=
  [v.extractLsb' 0 8, v.extractLsb' 8 8, v.extractLsb' 16 8, v.extractLsb' 24 8]

def le64 (v : U64) : List U8 := le32 (v.extractLsb' 0 32) ++ le32 (v.extractLsb' 32 32)

/-- The `n` bytes from address `a` on. -/
def bytesFrom (m : Memory) (a n : ℕ) : List U8 := bytesAt (fun i => m (a + i)) n

@[simp] theorem length_bytesFrom (m : Memory) (a n : ℕ) : (bytesFrom m a n).length = n := length_bytesAt _ n

@[simp] theorem length_le32 (v : U32) : (le32 v).length = 4 := rfl

theorem bytesFrom_add (m : Memory) (a k n : ℕ) :
    bytesFrom m a (k + n) = bytesFrom m a k ++ bytesFrom m (a + k) n := by
  simp only [bytesFrom, bytesAt, List.range_add, List.map_append, List.map_map, Nat.add_assoc]
  rfl

theorem bytesFrom_word (m : Memory) (a : ℕ) : bytesFrom m a 4 = le32 (load32 m a) := by
  have hbytes : bytesFrom m a 4 = [m a, m (a + 1), m (a + 2), m (a + 3)] := rfl
  rw [hbytes, le32, load32]
  refine congrArg₂ _ ?_ (congrArg₂ _ ?_ (congrArg₂ _ ?_ (congrArg₂ _ ?_ rfl)))
  all_goals
    apply BitVec.eq_of_getLsbD_eq
    intro i hi
    simp only [BitVec.getLsbD_append, BitVec.getLsbD_extractLsb']
  · simp [hi]
  · simp [hi]
  · simp [hi, show ¬16 + i < 8 by omega, show 16 + i - 8 - 8 = i by omega, show ¬16 + i - 8 < 8 by omega]
  · simp [hi, show ¬24 + i < 8 by omega, show 24 + i - 8 - 8 - 8 = i by omega,
      show ¬24 + i - 8 < 8 by omega, show ¬24 + i - 8 - 8 < 8 by omega]

theorem bytesFrom_long (m : Memory) (a : ℕ) : bytesFrom m a 8 = le64 (load64 m a) := by
  rw [bytesFrom_add m a 4 4, bytesFrom_word, bytesFrom_word, le64, load64,
    BitVec.extractLsb'_append_eq_right, BitVec.extractLsb'_append_eq_left]

theorem le32_inj {v w : U32} (h : le32 v = le32 w) : v = w := by
  simp only [le32, List.cons.injEq, and_true] at h
  obtain ⟨h0, h1, h2, h3⟩ := h
  rw [← load32_store32 (fun _ => 0#8) 0 v, ← load32_store32 (fun _ => 0#8) 0 w]
  refine load32_congr fun i hi => ?_
  have : i = 0 ∨ i = 1 ∨ i = 2 ∨ i = 3 := by omega
  rcases this with rfl | rfl | rfl | rfl <;> assumption

theorem le64_inj {v w : U64} (h : le64 v = le64 w) : v = w := by
  obtain ⟨hlow, hhigh⟩ := List.append_inj h rfl
  have hsplit : ∀ u : U64, u = u.extractLsb' 32 32 ++ u.extractLsb' 0 32 := fun u => by
    apply BitVec.eq_of_getLsbD_eq
    intro i hi
    rw [BitVec.getLsbD_append, BitVec.getLsbD_extractLsb', BitVec.getLsbD_extractLsb']
    by_cases hlt : i < 32
    · simp [hlt]
    · simp [hlt, show i - 32 < 32 by omega, show 32 + (i - 32) = i by omega]
  rw [hsplit v, hsplit w, le32_inj hlow, le32_inj hhigh]

/-! ## Bytes put into memory -/

/-- The memory with the bytes `l` at `a`. -/
def place (m : Memory) (a : ℕ) (l : List U8) : Memory :=
  fun x => if a ≤ x ∧ x < a + l.length then l.getD (x - a) 0#8 else m x

theorem bytesFrom_place (m : Memory) (a : ℕ) (l : List U8) : bytesFrom (place m a l) a l.length = l := by
  refine List.ext_getElem (by simp) ?_
  intro i _ hi
  simp [bytesFrom, bytesAt, place, hi]

theorem load32_place_of_disjoint {l : List U8} (h : x + 4 ≤ a ∨ a + l.length ≤ x) :
    load32 (place m a l) x = load32 m x :=
  load32_congr fun i hi => if_neg (by omega)

/-! ## Checked loads -/

/-- A memory of which only the `n` bytes from `a` on can be read. -/
def restrict (m : Memory) (a n : ℕ) : ℕ → Option U8 := fun x => if a ≤ x ∧ x < a + n then some (m x) else none

def checkedLoad32 (m : ℕ → Option U8) (a : ℕ) : Option U32 := do
  let b0 ← m a
  let b1 ← m (a + 1)
  let b2 ← m (a + 2)
  let b3 ← m (a + 3)
  return b3 ++ b2 ++ b1 ++ b0

def checkedLoad64 (m : ℕ → Option U8) (a : ℕ) : Option U64 := do
  let low ← checkedLoad32 m a
  let high ← checkedLoad32 m (a + 4)
  return high ++ low

theorem checkedLoad32_restrict (h1 : a ≤ x) (h2 : x + 4 ≤ a + n) :
    checkedLoad32 (restrict m a n) x = some (load32 m x) := by
  have hbyte : ∀ i < 4, restrict m a n (x + i) = some (m (x + i)) := fun i hi => if_pos (by omega)
  have h0 := hbyte 0 (by omega)
  rw [Nat.add_zero] at h0
  simp [checkedLoad32, h0, hbyte 1 (by omega), hbyte 2 (by omega), hbyte 3 (by omega), load32]

theorem checkedLoad64_restrict (h1 : a ≤ x) (h2 : x + 8 ≤ a + n) :
    checkedLoad64 (restrict m a n) x = some (load64 m x) := by
  simp [checkedLoad64, checkedLoad32_restrict h1 (show x + 4 ≤ a + n by omega),
    checkedLoad32_restrict (show a ≤ x + 4 by omega) (show x + 4 + 4 ≤ a + n by omega), load64]

end Machine
