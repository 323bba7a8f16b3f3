import TinyShell.Machine.Word

/-!
# Rings with free-running sequence numbers

A ring of `n` slots whose reader and writer count their operations in machine
words that are never reset. Item number `k` lies in slot `k % n`, the ring holds
`write - read` items, and both survive the wrap of the words because `n` divides
the modulus.

* `Holds n slots read write q`: the ring holds the queue `q`, oldest item first.
* `Holds.push`, `Holds.pop`: storing at the writer's slot appends an item, moving the
  reader on drops the oldest.
* `Holds.full_iff`, `Holds.empty_iff`: the tests on the words are those on the queue.
* `Holds.contents_eq`: the queue can be read off the ring.
-/

namespace Machine

variable {α : Type*} {n w : ℕ} {slots : ℕ → α} {read write : BitVec w} {q : List α} {x : α}

/-- A number of slots for which `w`-bit sequence numbers work. -/
structure Capacity (n w : ℕ) : Prop where
  pos : 0 < n
  dvd : n ∣ 2 ^ w
  lt : n < 2 ^ w

/-- The ring holds the queue `q`, oldest item first. -/
structure Holds (n : ℕ) (slots : ℕ → α) (read write : BitVec w) (q : List α) : Prop where
  size : (write - read).toNat = q.length
  bound : q.length ≤ n
  item : ∀ i x, q[i]? = some x → slots ((read.toNat + i) % n) = x

/-- The items between the reader and the writer. -/
def contents (n : ℕ) (slots : ℕ → α) (read write : BitVec w) : List α :=
  (List.range (write - read).toNat).map fun i => slots ((read.toNat + i) % n)

theorem Capacity.toNat_one (hc : Capacity n w) : (1 : BitVec w).toNat = 1 := by
  have h1 := hc.pos
  have h2 := hc.lt
  change (BitVec.ofNat w 1).toNat = 1
  rw [BitVec.toNat_ofNat, Nat.mod_eq_of_lt (by omega)]

/-- A sequence number and its successor stay in step with the slots over the wrap. -/
theorem Capacity.succ_slot (hc : Capacity n w) (a : BitVec w) (i : ℕ) :
    ((a + 1).toNat + i) % n = (a.toNat + (i + 1)) % n := by
  rw [BitVec.toNat_add, hc.toNat_one, Nat.add_mod, Nat.mod_mod_of_dvd _ hc.dvd, ← Nat.add_mod]
  congr 1
  omega

/-- Items less than one turn apart lie in different slots. -/
theorem slot_ne {r i j : ℕ} (hij : i < j) (hj : j < n) : (r + i) % n ≠ (r + j) % n := by
  intro heq
  have hmod : i % n = j % n := Nat.ModEq.add_left_cancel' r heq
  rw [Nat.mod_eq_of_lt (by omega), Nat.mod_eq_of_lt hj] at hmod
  omega

theorem Holds.nil (n : ℕ) (slots : ℕ → α) (a : BitVec w) : Holds n slots a a [] where
  size := by simp
  bound := Nat.zero_le _
  item := by simp

/-- The writer's slot is the one behind the newest item. -/
theorem Holds.write_slot (hc : Capacity n w) (h : Holds n slots read write q) :
    write.toNat % n = (read.toNat + q.length) % n := by
  have hsum : write = read + (write - read) := by
    rw [BitVec.add_comm, BitVec.sub_add_cancel]
  have := congrArg BitVec.toNat hsum
  rw [BitVec.toNat_add, h.size] at this
  rw [this, Nat.mod_mod_of_dvd _ hc.dvd]

theorem Holds.empty_iff (h : Holds n slots read write q) : read = write ↔ q = [] := by
  constructor
  · intro heq
    have hsize := h.size
    rw [heq, BitVec.sub_self, BitVec.toNat_ofNat, Nat.zero_mod] at hsize
    exact List.length_eq_zero_iff.1 hsize.symm
  · intro hq
    have hzero : write - read = 0 := by
      apply BitVec.eq_of_toNat_eq
      rw [h.size, hq]
      simp
    exact (sub_eq_zero.1 hzero).symm

theorem Holds.full_iff (h : Holds n slots read write q) : n ≤ (write - read).toNat ↔ q.length = n := by
  have := h.bound
  rw [h.size]
  omega

/-- **Push**: a store into the writer's slot, then the writer moves on. -/
theorem Holds.push (hc : Capacity n w) (h : Holds n slots read write q) (hroom : q.length < n) (x : α) :
    Holds n (Function.update slots (write.toNat % n) x) read (write + 1) (q ++ [x]) where
  size := by
    have hlt := hc.lt
    have hsub : write + 1 - read = write - read + 1 := by ring
    rw [hsub, BitVec.toNat_add, h.size, hc.toNat_one, Nat.mod_eq_of_lt (by omega), List.length_append]
    rfl
  bound := by
    rw [List.length_append]
    exact hroom
  item := by
    intro i y hi
    rw [h.write_slot hc]
    -- the writer's slot is free: it is less than a turn behind every queued item
    by_cases hlt : i < q.length
    · rw [List.getElem?_append_left hlt] at hi
      rw [Function.update_of_ne (slot_ne hlt hroom)]
      exact h.item i y hi
    · have hlen : i < (q ++ [x]).length := (List.getElem?_eq_some_iff.1 hi).1
      rw [List.length_append, List.length_singleton] at hlen
      obtain rfl : i = q.length := by omega
      rw [List.getElem?_concat_length, Option.some_inj] at hi
      rw [Function.update_self, hi]

/-- The oldest item lies in the reader's slot. -/
theorem Holds.front (h : Holds n slots read write (x :: q)) : slots (read.toNat % n) = x :=
  h.item 0 x rfl

/-- **Pop**: the reader moves on. -/
theorem Holds.pop (hc : Capacity n w) (h : Holds n slots read write (x :: q)) :
    Holds n slots (read + 1) write q where
  size := by
    have hsub : write - read = write - (read + 1) + 1 := by ring
    have hnat := congrArg BitVec.toNat hsub
    rw [BitVec.toNat_add, hc.toNat_one, h.size, List.length_cons] at hnat
    -- the difference has not reached the modulus, or the ring would be empty
    have hlt : (write - (read + 1)).toNat + 1 < 2 ^ w := by
      have hle : (write - (read + 1)).toNat + 1 ≤ 2 ^ w := (write - (read + 1)).isLt
      refine lt_of_le_of_ne hle ?_
      intro heq
      rw [heq, Nat.mod_self] at hnat
      omega
    rw [Nat.mod_eq_of_lt hlt] at hnat
    omega
  bound := (Nat.le_succ _).trans h.bound
  item := by
    intro i y hi
    rw [hc.succ_slot]
    exact h.item (i + 1) y hi

/-- The queue can be read off the ring. -/
theorem Holds.contents_eq (h : Holds n slots read write q) : contents n slots read write = q := by
  apply List.ext_getElem?
  intro i
  rw [contents, h.size, List.getElem?_map]
  by_cases hi : i < q.length
  · rw [List.getElem?_range hi, List.getElem?_eq_getElem hi]
    exact congrArg some (h.item i _ (List.getElem?_eq_getElem hi))
  · rw [List.getElem?_eq_none (by simpa using hi), List.getElem?_eq_none (by omega)]
    rfl

end Machine
