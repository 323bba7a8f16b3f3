import TinyShell.Machine.Word

/-!
# Arrays of bytes and C strings

An array of `n` cells is a function on `Fin n`; C code indexes it with a number and
hands it on as a pointer. A string is the bytes before the first NUL.

* `store`, `memoryOf`: a store at an index; the array as memory.
* `cString n p`: the string at `p`, as far as a scan of `n` bytes sees it.
* `StringAt p l`: the string at `p` is `l`.
* `padded n l`: the array that holds `l` and zeros behind it.
* `asciiText`: the bytes of a literal.
* `cString_eq`, `cString_padded`: the string that a scan finds.
* `store_padded_push`, `store_padded_pop`, `store_padded_nul`: stores at the string's end.
-/

namespace Machine

variable {n : ℕ} {α : Type*} {p : ℕ → U8} {l : List U8}

/-- The array after a store at index `i`. -/
def store (a : Fin n → α) (i : ℕ) (x : α) : Fin n → α := fun j => if j.val = i then x else a j

/-- The array as memory; nothing behind its end is read. -/
def memoryOf (a : Fin n → U8) : ℕ → U8 := fun i => if h : i < n then a ⟨i, h⟩ else 0#8

/-- The string at `p`, as far as a scan of `n` bytes sees it. -/
def cString : ℕ → (ℕ → U8) → List U8
  | 0, _ => []
  | n + 1, p => if p 0 = 0#8 then [] else p 0 :: cString n fun i => p (i + 1)

/-- The array that holds `l` and zeros behind it. -/
def padded (n : ℕ) (l : List U8) : Fin n → U8 := fun i => l.getD i.val 0#8

/-- The bytes at `p` are `l` and a NUL behind it. -/
structure StringAt (p : ℕ → U8) (l : List U8) : Prop where
  bytes : ∀ i < l.length, p i = l.getD i 0#8
  nul : p l.length = 0#8
  zero_notMem : 0#8 ∉ l

/-- The bytes of a string literal. -/
def asciiText (s : String) : List U8 := s.toList.map fun c => BitVec.ofNat 8 c.toNat

/-- The first `n` bytes at `p`. -/
def bytesAt (p : ℕ → U8) (n : ℕ) : List U8 := (List.range n).map p

@[simp] theorem length_bytesAt (p : ℕ → U8) (n : ℕ) : (bytesAt p n).length = n := by simp [bytesAt]

theorem getD_bytesAt (p : ℕ → U8) (n i : ℕ) : (bytesAt p n).getD i 0#8 = if i < n then p i else 0#8 := by
  unfold bytesAt
  split_ifs with hi
  · simp [hi]
  · exact List.getD_eq_default _ _ (by simpa using hi)

theorem bytesAt_getD (l : List U8) : bytesAt (fun i => l.getD i 0#8) l.length = l := by
  refine List.ext_getElem (by simp) ?_
  intro i _ hi
  simp [bytesAt, hi]

/-- One step of a scan that is at index `k`. -/
theorem cString_step (n k : ℕ) (p : ℕ → U8) :
    cString (n + 1) (fun i => p (k + i)) =
      if p k = 0#8 then [] else p k :: cString n fun i => p (k + 1 + i) := by
  simp only [cString, Nat.add_zero, Nat.add_assoc, Nat.add_comm 1]

theorem zero_notMem_cString (n : ℕ) (p : ℕ → U8) : 0#8 ∉ cString n p := by
  induction n generalizing p with
  | zero => simp [cString]
  | succ n ih =>
    unfold cString
    split_ifs with h0
    · simp
    · rw [List.mem_cons, not_or]
      exact ⟨Ne.symm h0, ih fun i => p (i + 1)⟩

/-- Below its end the string is the memory, and at its end there is the NUL. -/
theorem getD_cString (n : ℕ) (p : ℕ → U8) {i : ℕ} (hi : i ≤ (cString n p).length) (hin : i < n) :
    (cString n p).getD i 0#8 = p i := by
  induction n generalizing p i with
  | zero => omega
  | succ n ih =>
    unfold cString at hi ⊢
    split_ifs at hi ⊢ with h0
    · obtain rfl : i = 0 := by simpa using hi
      simp [h0]
    · cases i with
      | zero => simp
      | succ i => simpa using ih (fun i => p (i + 1)) (by simpa using hi) (by omega)

/-- A scan sees a string that ends in time. -/
theorem cString_list (h0 : 0#8 ∉ l) (hl : l.length ≤ n) : cString n (fun i => l.getD i 0#8) = l := by
  induction n generalizing l with
  | zero =>
    obtain rfl : l = [] := List.length_eq_zero_iff.1 (by omega)
    rfl
  | succ n ih =>
    cases l with
    | nil => simp [cString]
    | cons x l =>
      rw [List.mem_cons, not_or] at h0
      have htail := ih h0.2 (by simpa using hl)
      rw [cString, List.getD_cons_zero, if_neg (Ne.symm h0.1)]
      simpa only [List.getD_cons_succ] using congrArg (x :: ·) htail

/-- A bounded scan sees the beginning of the string. -/
theorem StringAt.cString (h : StringAt p l) (n : ℕ) : cString n p = l.take n := by
  obtain ⟨hbytes, hnul, h0⟩ := h
  induction n generalizing p l with
  | zero => rfl
  | succ n ih =>
    unfold Machine.cString
    cases l with
    | nil => exact if_pos hnul
    | cons x l =>
      have hx : p 0 = x := hbytes 0 (by simp)
      rw [List.mem_cons, not_or] at h0
      have htail : Machine.cString n (fun i => p (i + 1)) = l.take n := by
        refine ih ?_ hnul h0.2
        intro i hi
        rw [hbytes (i + 1) (by simpa using hi), List.getD_cons_succ]
      rw [hx, if_neg (Ne.symm h0.1), htail, List.take_succ_cons]

theorem stringAt_getD (h0 : 0#8 ∉ l) : StringAt (fun i => l.getD i 0#8) l :=
  ⟨fun _ _ => rfl, List.getD_eq_default _ _ le_rfl, h0⟩

theorem memoryOf_padded (hl : l.length ≤ n) : memoryOf (padded n l) = fun i => l.getD i 0#8 := by
  funext i
  unfold memoryOf padded
  split_ifs with hi
  · rfl
  · rw [List.getD_eq_default _ _ (by omega)]

/-- A string is read up to its NUL, whatever comes behind. -/
theorem cString_eq (h0 : 0#8 ∉ l) (hl : l.length < n) (hp : ∀ i < l.length, p i = l.getD i 0#8)
    (hend : p l.length = 0#8) : cString n p = l := by
  induction n generalizing l p with
  | zero => omega
  | succ n ih =>
    cases l with
    | nil => exact if_pos hend
    | cons x l =>
      rw [List.mem_cons, not_or] at h0
      rw [List.length_cons] at hl hp hend
      have hx : p 0 = x := hp 0 (by omega)
      have htail := ih (p := fun i => p (i + 1)) h0.2 (by omega)
        (fun i hi => by rw [hp (i + 1) (by omega), List.getD_cons_succ]) hend
      rw [cString, hx, if_neg (Ne.symm h0.1), htail]

theorem padded_apply (l : List U8) (j : Fin n) : padded n l j = l.getD j.val 0#8 := rfl

theorem getD_concat (l : List α) (x d : α) (i : ℕ) :
    (l ++ [x]).getD i d = if i = l.length then x else l.getD i d := by
  split_ifs with hi
  · rw [hi, List.getD_append_right _ _ _ _ le_rfl, Nat.sub_self, List.getD_cons_zero]
  · rcases Nat.lt_or_gt_of_ne hi with hlt | hgt
    · rw [List.getD_append _ _ _ _ hlt]
    · rw [List.getD_eq_default _ _ (by simp; omega), List.getD_eq_default _ _ (by omega)]

/-- A byte stored behind the string is added to it. -/
theorem store_padded_push (l : List U8) (x : U8) : store (padded n l) l.length x = padded n (l ++ [x]) := by
  funext j
  exact (getD_concat l x 0#8 j.val).symm

/-- A NUL stored over the last byte takes it away. -/
theorem store_padded_pop (l : List U8) (x : U8) : store (padded n (l ++ [x])) l.length 0#8 = padded n l := by
  funext j
  unfold store
  split_ifs with hj
  · rw [padded_apply, hj, List.getD_eq_default _ _ le_rfl]
  · rw [padded_apply, padded_apply, getD_concat, if_neg hj]

/-- Behind the string there are NULs already. -/
theorem store_padded_nul {k : ℕ} (hk : l.length ≤ k) : store (padded n l) k 0#8 = padded n l := by
  funext j
  unfold store
  split_ifs with hj
  · rw [padded_apply, hj, List.getD_eq_default _ _ hk]
  · rfl

/-- The string of a padded array. -/
theorem cString_padded (h0 : 0#8 ∉ l) (hl : l.length ≤ n) : cString n (memoryOf (padded n l)) = l := by
  rw [memoryOf_padded hl, cString_list h0 hl]

end Machine
