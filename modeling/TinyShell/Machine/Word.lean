import Mathlib

/-!
# Machine words

The fixed-width words of C (`uint8_t` to `uint64_t`) are `BitVec`s. The lemmas
here read the idioms of systems code in plain arithmetic:

* masking with `2 ^ k - 1` is a remainder (`toNat_and_low`), masking with its
  complement rounds down to a multiple of `2 ^ k` (`toNat_and_high`);
* a one-bit mask `1 << k` tests, sets and clears bit `k` and no other
  (`and_bit_ne_zero`, `getLsbD_or_bit`, `getLsbD_and_not_bit`);
* `checkedAdd` and `checkedSub` fail where the machine's operation wraps;
* an address and flags packed in one word are read back by their masks
  (`packed_and_mask`, `packed_and_flag`).
-/

namespace Machine

abbrev U8 := BitVec 8

abbrev U16 := BitVec 16

abbrev U32 := BitVec 32

abbrev U64 := BitVec 64

/-- The 32-bit word of a number. -/
abbrev word (n : ℕ) : U32 := BitVec.ofNat 32 n

theorem toNat_word {n : ℕ} (h : n < 2 ^ 32) : (word n).toNat = n := Nat.mod_eq_of_lt h

theorem word_succ (n : ℕ) : word (n + 1) = word n + 1 := BitVec.ofNat_add n 1

theorem word_add (i j : ℕ) : word i + word j = word (i + j) := (BitVec.ofNat_add i j).symm

theorem word_eq_zero {n : ℕ} (h : n < 2 ^ 32) : word n = 0 ↔ n = 0 := by bv_omega

variable {w : ℕ}

/-- `x + y`, failing where the sum does not fit. -/
def checkedAdd (x y : BitVec w) : Option (BitVec w) := if x.toNat + y.toNat < 2 ^ w then some (x + y) else none

/-- `x - y`, failing where the difference is negative. -/
def checkedSub (x y : BitVec w) : Option (BitVec w) := if y.toNat ≤ x.toNat then some (x - y) else none

theorem checkedAdd_eq {x y : BitVec w} (h : x.toNat + y.toNat < 2 ^ w) : checkedAdd x y = some (x + y) := if_pos h

theorem checkedSub_eq {x y : BitVec w} (h : y.toNat ≤ x.toNat) : checkedSub x y = some (x - y) := if_pos h

theorem getLsbD_low (k i : ℕ) :
    (BitVec.ofNat w (2 ^ k - 1)).getLsbD i = (decide (i < w) && decide (i < k)) := by
  simp [BitVec.getLsbD, Nat.testBit_mod_two_pow, Nat.testBit_two_pow_sub_one]

/-- `x & (2 ^ k - 1)` is the remainder modulo `2 ^ k`. -/
theorem toNat_and_low (x : BitVec w) {k : ℕ} (hk : k ≤ w) :
    (x &&& BitVec.ofNat w (2 ^ k - 1)).toNat = x.toNat % 2 ^ k := by
  have hlt : 2 ^ k - 1 < 2 ^ w := by
    have := Nat.pow_le_pow_right (n := 2) (by omega) hk
    have := Nat.two_pow_pos k
    omega
  rw [BitVec.toNat_and, BitVec.toNat_ofNat, Nat.mod_eq_of_lt hlt, Nat.and_two_pow_sub_one_eq_mod]

/-- `x & ~(2 ^ k - 1)` rounds `x` down to a multiple of `2 ^ k`. -/
theorem toNat_and_high (x : BitVec w) (k : ℕ) :
    (x &&& ~~~BitVec.ofNat w (2 ^ k - 1)).toNat = x.toNat / 2 ^ k * 2 ^ k := by
  have hshift : x &&& ~~~BitVec.ofNat w (2 ^ k - 1) = (x >>> k) <<< k := by
    apply BitVec.eq_of_getLsbD_eq
    intro i hi
    rw [BitVec.getLsbD_and, BitVec.getLsbD_not, getLsbD_low, BitVec.getLsbD_shiftLeft,
      BitVec.getLsbD_ushiftRight]
    by_cases hik : i < k
    · simp [hi, hik]
    · have : k + (i - k) = i := by omega
      simp [hi, hik, this]
  have hle : x.toNat / 2 ^ k * 2 ^ k < 2 ^ w :=
    lt_of_le_of_lt (Nat.div_mul_le_self _ _) x.isLt
  rw [hshift, BitVec.toNat_shiftLeft, BitVec.toNat_ushiftRight, Nat.shiftRight_eq_div_pow,
    Nat.shiftLeft_eq, Nat.mod_eq_of_lt hle]

theorem getLsbD_bit (k i : ℕ) :
    ((1 : BitVec w) <<< k).getLsbD i = (decide (i < w) && decide (i = k)) := by
  rw [BitVec.getLsbD_shiftLeft]
  by_cases hi : i < w
  · by_cases hik : i < k
    · have : i ≠ k := by omega
      simp [hi, hik, this]
    · by_cases he : i = k
      · subst he; simp [hi]; omega
      · have : i - k ≠ 0 := by omega
        simp [hi, hik, he, this]
  · simp [hi]

/-- `x & (1 << k)` is non-zero exactly when bit `k` of `x` is set. -/
theorem and_bit_ne_zero (x : BitVec w) (k : ℕ) :
    x &&& ((1 : BitVec w) <<< k) ≠ 0 ↔ x.getLsbD k = true := by
  constructor
  · intro h
    by_contra hk
    apply h
    apply BitVec.eq_of_getLsbD_eq
    intro i hi
    rw [BitVec.getLsbD_and, getLsbD_bit]
    by_cases he : i = k
    · subst he; simp [hk]
    · simp [he]
  · intro hk h
    have hkw : k < w := BitVec.lt_of_getLsbD hk
    have := congrArg (fun y => y.getLsbD k) h
    simp only [BitVec.getLsbD_and, getLsbD_bit, hk, hkw] at this
    simp at this

/-- `x | (1 << k)` sets bit `k` and keeps every other. -/
theorem getLsbD_or_bit (x : BitVec w) {k : ℕ} (hk : k < w) (i : ℕ) :
    (x ||| ((1 : BitVec w) <<< k)).getLsbD i = (decide (i = k) || x.getLsbD i) := by
  rw [BitVec.getLsbD_or, getLsbD_bit, Bool.or_comm]
  by_cases he : i = k
  · subst he; simp [hk]
  · simp [he]

/-- `x & ~(1 << k)` clears bit `k` and keeps every other. -/
theorem getLsbD_and_not_bit (x : BitVec w) (k i : ℕ) :
    (x &&& ~~~((1 : BitVec w) <<< k)).getLsbD i = (!decide (i = k) && x.getLsbD i) := by
  rw [BitVec.getLsbD_and, BitVec.getLsbD_not, getLsbD_bit, Bool.and_comm]
  by_cases hi : i < w
  · simp [hi]
  · simp [hi, BitVec.getLsbD_of_ge x i (by omega)]

section packed

variable {x m f b : BitVec w}

/-- A word packed from the masked bits of `x` and flags outside the mask: the mask
reads back `x`. -/
theorem packed_and_mask (h : f &&& m = 0) : (x &&& m ||| f) &&& m = x &&& m := by
  apply BitVec.eq_of_getLsbD_eq
  intro i hi
  have hb := congrArg (fun y => y.getLsbD i) h
  simp only [BitVec.getLsbD_and, BitVec.getLsbD_or, BitVec.ofNat_eq_ofNat, BitVec.getLsbD_zero] at hb ⊢
  cases hf : f.getLsbD i <;> cases hm : m.getLsbD i <;> simp [hf, hm] at hb ⊢

/-- The bits outside the mask are those of the flags. -/
theorem packed_and_flag (h : m &&& b = 0) : (x &&& m ||| f) &&& b = f &&& b := by
  apply BitVec.eq_of_getLsbD_eq
  intro i hi
  have hb := congrArg (fun y => y.getLsbD i) h
  simp only [BitVec.getLsbD_and, BitVec.getLsbD_or, BitVec.ofNat_eq_ofNat, BitVec.getLsbD_zero] at hb ⊢
  cases hb' : b.getLsbD i <;> cases hm : m.getLsbD i <;> simp [hb', hm] at hb ⊢

end packed

/-- A counter decremented when a flag is set. -/
theorem toNat_sub_flag (x : BitVec w) (b : Bool) (h : b.toNat ≤ x.toNat) :
    (x - if b then 1 else 0).toNat = x.toNat - b.toNat := by
  cases b with
  | false => simp
  | true =>
    have h1 : 1 ≤ x.toNat := h
    have hw : (1 : BitVec w).toNat = 1 :=
      Nat.mod_eq_of_lt (show 1 < 2 ^ w from lt_of_le_of_lt h1 x.isLt)
    rw [if_pos rfl, BitVec.toNat_sub_of_le (by rw [BitVec.le_def, hw]; exact h1), hw]
    rfl

/-- A counter incremented when a flag is set. -/
theorem toNat_add_flag (x : BitVec w) (b : Bool) (h : x.toNat + b.toNat < 2 ^ w) :
    (x + if b then 1 else 0).toNat = x.toNat + b.toNat := by
  cases b with
  | false => simp
  | true =>
    have h1 : x.toNat + 1 < 2 ^ w := h
    have hw : (1 : BitVec w).toNat = 1 := Nat.mod_eq_of_lt (show 1 < 2 ^ w by omega)
    rw [if_pos rfl, BitVec.toNat_add, hw, Nat.mod_eq_of_lt h1]
    rfl

end Machine
