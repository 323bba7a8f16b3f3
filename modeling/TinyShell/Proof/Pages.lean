import TinyShell.Spec.Pmm

/-!
# The bitmaps as sets of pages

`managed s p` and `allocated s p` read the two bitmaps at page number `p`. The
bit operations of the allocator act on them pointwise (`managed_setManaged`,
`allocated_setAllocated`), and the page spans of a byte range are the pages
inside it (`mem_inward`) and the pages it touches (`mem_outward`).
-/

namespace TinyShell

open Machine

variable {s : Pmm} {page : U32} {p : ℕ}

/-- Page `p`'s bit in a bitmap. -/
def pageBit (bitmap : ℕ → U32) (p : ℕ) : Bool := (bitmap (p / 32)).getLsbD (p % 32)

def managed (s : Pmm) (p : ℕ) : Bool := pageBit s.managedPages p

def allocated (s : Pmm) (p : ℕ) : Bool := pageBit s.allocatedPages p

/-- A page that can be handed out. -/
def isFree (s : Pmm) (p : ℕ) : Bool := managed s p && !allocated s p

/-- A page that `mark_page_usable` takes to free: unknown, and not page 0. -/
def isNew (s : Pmm) (p : ℕ) : Bool := decide (p ≠ 0) && !managed s p && !allocated s p

/-! ## Bit operations -/

theorem bitmapWord_toNat (page : U32) : (bitmapWord page).toNat = page.toNat / 32 := by
  simp [bitmapWord]

theorem bitmapMask_eq (page : U32) : bitmapMask page = (1 : U32) <<< (page.toNat % 32) := by
  simp [bitmapMask]

theorem and_bitmapMask (bitmap : ℕ → U32) (page : U32) :
    (bitmap (bitmapWord page).toNat &&& bitmapMask page != 0) = pageBit bitmap page.toNat := by
  rw [bitmapWord_toNat, bitmapMask_eq, Bool.eq_iff_iff, bne_iff_ne, and_bit_ne_zero, pageBit]

@[simp] theorem pageIsManaged_eq (s : Pmm) (page : U32) :
    pageIsManaged s page = managed s page.toNat := and_bitmapMask _ _

@[simp] theorem pageIsAllocated_eq (s : Pmm) (page : U32) :
    pageIsAllocated s page = allocated s page.toNat := and_bitmapMask _ _

@[simp] theorem pageIsReserved_eq (s : Pmm) (page : U32) :
    pageIsReserved s page = (!managed s page.toNat && allocated s page.toNat) := by
  simp [pageIsReserved]

/-- Assigning a page's bit changes that page only. -/
theorem pageBit_assignBit (bitmap : ℕ → U32) (page : U32) (value : Bool) (p : ℕ) :
    pageBit (assignBit bitmap page value) p = if p = page.toNat then value else pageBit bitmap p := by
  simp only [pageBit, assignBit, bitmapWord_toNat, bitmapMask_eq]
  by_cases hw : p / 32 = page.toNat / 32
  · rw [hw, Function.update_self]
    have hp : p % 32 = page.toNat % 32 ↔ p = page.toNat := by omega
    have hlt : page.toNat % 32 < 32 := Nat.mod_lt _ (by omega)
    cases value with
    | true =>
      rw [if_pos rfl, getLsbD_or_bit _ hlt]
      by_cases h : p = page.toNat <;> simp [hp, h]
    | false =>
      rw [if_neg (by simp), getLsbD_and_not_bit]
      by_cases h : p = page.toNat <;> simp [hp, h]
  · rw [Function.update_of_ne hw]
    have : p ≠ page.toNat := fun h => hw (by rw [h])
    rw [if_neg this]

@[simp] theorem managed_setManaged (s : Pmm) (page : U32) (value : Bool) (p : ℕ) :
    managed (setManaged s page value) p = if p = page.toNat then value else managed s p :=
  pageBit_assignBit _ _ _ _

@[simp] theorem allocated_setManaged (s : Pmm) (page : U32) (value : Bool) (p : ℕ) :
    allocated (setManaged s page value) p = allocated s p := rfl

@[simp] theorem managed_setAllocated (s : Pmm) (page : U32) (value : Bool) (p : ℕ) :
    managed (setAllocated s page value) p = managed s p := rfl

@[simp] theorem allocated_setAllocated (s : Pmm) (page : U32) (value : Bool) (p : ℕ) :
    allocated (setAllocated s page value) p = if p = page.toNat then value else allocated s p :=
  pageBit_assignBit _ _ _ _

/-! ## Marking one page

What `mark_page_reserved` and `mark_page_usable` do to every page and to the
counters. -/

theorem markPageReserved_eq (s : Pmm) (page : U32) :
    markPageReserved s page =
      if pageIsReserved s page then s
      else if pageIsManaged s page then
        if pageIsAllocated s page then s
        else
          { setAllocated (setManaged s page false) page true with
            totalPages := s.totalPages - 1, freePages := s.freePages - 1 }
      else setAllocated s page true := rfl

theorem markPageUsable_eq (s : Pmm) (page : U32) :
    markPageUsable s page =
      if page = 0 || pageIsReserved s page || pageIsManaged s page then s
      else
        { setAllocated (setManaged s page true) page false with
          totalPages := s.totalPages + 1, freePages := s.freePages + 1 } := rfl

theorem managed_markPageReserved (s : Pmm) (page : U32) (p : ℕ) :
    managed (markPageReserved s page) p =
      (managed s p && !(decide (p = page.toNat) && !allocated s p)) := by
  rw [markPageReserved_eq]
  by_cases hp : p = page.toNat
  · subst hp
    cases hm : managed s page.toNat <;> cases ha : allocated s page.toNat <;> simp [hm, ha]
    simp [managed, setAllocated, setManaged, pageBit_assignBit]
  · split_ifs <;> simp [hp]
    simp [managed, setAllocated, setManaged, pageBit_assignBit, hp]

theorem allocated_markPageReserved (s : Pmm) (page : U32) (p : ℕ) :
    allocated (markPageReserved s page) p = (decide (p = page.toNat) || allocated s p) := by
  rw [markPageReserved_eq]
  by_cases hp : p = page.toNat
  · subst hp
    cases hm : managed s page.toNat <;> cases ha : allocated s page.toNat <;> simp [hm, ha]
    simp [allocated, setAllocated, setManaged, pageBit_assignBit]
  · split_ifs <;> simp [hp]
    simp [allocated, setAllocated, setManaged, pageBit_assignBit, hp]

theorem isFree_markPageReserved (s : Pmm) (page : U32) (p : ℕ) :
    isFree (markPageReserved s page) p = (isFree s p && !decide (p = page.toNat)) := by
  rw [isFree, isFree, managed_markPageReserved, allocated_markPageReserved]
  cases managed s p <;> cases allocated s p <;> cases decide (p = page.toNat) <;> rfl

theorem counters_markPageReserved (s : Pmm) (page : U32) :
    (markPageReserved s page).totalPages = s.totalPages - (if isFree s page.toNat then 1 else 0) ∧
      (markPageReserved s page).freePages = s.freePages - (if isFree s page.toNat then 1 else 0) ∧
      (markPageReserved s page).ownershipFrozen = s.ownershipFrozen := by
  rw [markPageReserved_eq, isFree]
  cases hm : managed s page.toNat <;> cases ha : allocated s page.toNat <;>
    simp [hm, ha, setAllocated, setManaged]

/-- `mark_page_usable` takes an unknown page other than page 0 to free. -/
theorem managed_markPageUsable (s : Pmm) (page : U32) (p : ℕ) :
    managed (markPageUsable s page) p = (managed s p || (decide (p = page.toNat) && isNew s p)) := by
  rw [markPageUsable_eq, isNew]
  have h0 : page = 0#32 ↔ page.toNat = 0 := by bv_omega
  by_cases hp : p = page.toNat
  · subst hp
    by_cases hz : page.toNat = 0
    · simp [h0.2 hz]
    · cases hm : managed s page.toNat <;> cases ha : allocated s page.toNat <;>
        simp [hm, ha, hz, mt h0.1 hz]
      simp [managed, setAllocated, setManaged, pageBit_assignBit]
  · split_ifs <;> simp [hp]
    simp [managed, setAllocated, setManaged, pageBit_assignBit, hp]

theorem allocated_markPageUsable (s : Pmm) (page : U32) (p : ℕ) :
    allocated (markPageUsable s page) p = allocated s p := by
  rw [markPageUsable_eq]
  split_ifs with h
  · rfl
  · simp only [pageIsReserved_eq, pageIsManaged_eq, Bool.or_eq_true, not_or, Bool.not_eq_true] at h
    by_cases hp : p = page.toNat
    · subst hp
      have ha : allocated s page.toNat = false := by
        have := h.1.2; rw [h.2] at this; simpa using this
      simp [allocated, setAllocated, setManaged, pageBit_assignBit] at ha ⊢
      exact ha
    · simp [allocated, setAllocated, setManaged, pageBit_assignBit, hp]

theorem isFree_markPageUsable (s : Pmm) (page : U32) (p : ℕ) :
    isFree (markPageUsable s page) p = (isFree s p || (decide (p = page.toNat) && isNew s p)) := by
  rw [isFree, isFree, managed_markPageUsable, allocated_markPageUsable, isNew]
  cases managed s p <;> cases allocated s p <;> cases decide (p = page.toNat) <;>
    cases decide (p ≠ 0) <;> rfl

theorem counters_markPageUsable (s : Pmm) (page : U32) :
    (markPageUsable s page).totalPages = s.totalPages + (if isNew s page.toNat then 1 else 0) ∧
      (markPageUsable s page).freePages = s.freePages + (if isNew s page.toNat then 1 else 0) ∧
      (markPageUsable s page).ownershipFrozen = s.ownershipFrozen := by
  rw [markPageUsable_eq, isNew]
  have h0 : page = 0#32 ↔ page.toNat = 0 := by bv_omega
  by_cases hz : page.toNat = 0
  · simp [h0.2 hz]
  · cases hm : managed s page.toNat <;> cases ha : allocated s page.toNat <;>
      simp [hm, ha, hz, mt h0.1 hz, setAllocated, setManaged]

/-! ## Page spans of a byte range -/

/-- The clip fails exactly when the range wraps. -/
theorem clipToPhysical_eq_none (base length : U64) :
    clipToPhysical base length = none ↔ length ≠ 0 ∧ 2 ^ 64 ≤ base.toNat + length.toNat := by
  unfold clipToPhysical
  by_cases hl : length = 0
  · simp [hl]
  · have hw : base > 0xFFFFFFFFFFFFFFFF - length ↔ 2 ^ 64 ≤ base.toNat + length.toNat := by bv_omega
    rw [if_neg hl]
    split_ifs with h1 h2
    · exact iff_of_true rfl ⟨hl, hw.1 h1⟩
    · exact iff_of_false (by simp) fun h => h1 (hw.2 h.2)
    · exact iff_of_false (by simp) fun h => h1 (hw.2 h.2)

/-- What the clip returns: nothing of the range is below 4 GiB, or the part of it
that is. -/
theorem clipToPhysical_cases {base length b e : U64}
    (h : clipToPhysical base length = some (b, e)) :
    (b = 0 ∧ e = 0 ∧ (length = 0 ∨ 2 ^ 32 ≤ base.toNat)) ∨
      (b = base ∧ length ≠ 0 ∧ base.toNat < 2 ^ 32 ∧
        e.toNat = min (2 ^ 32) (base.toNat + length.toNat)) := by
  unfold clipToPhysical at h
  split_ifs at h with hl hw hb he
  · simp only [Option.some.injEq, Prod.mk.injEq] at h
    exact Or.inl ⟨h.1.symm, h.2.symm, Or.inl hl⟩
  · simp only [Option.some.injEq, Prod.mk.injEq] at h
    exact Or.inl ⟨h.1.symm, h.2.symm, Or.inr (by bv_omega)⟩
  · simp only [Option.some.injEq, Prod.mk.injEq] at h
    exact Or.inr ⟨h.1.symm, hl, by bv_omega, by rw [← h.2]; bv_omega⟩
  · simp only [Option.some.injEq, Prod.mk.injEq] at h
    exact Or.inr ⟨h.1.symm, hl, by bv_omega, by rw [← h.2]; bv_omega⟩

theorem roundDown_toNat (x : U64) : (x &&& ~~~pmmPageMask).toNat = x.toNat / 4096 * 4096 :=
  toNat_and_high x 12

theorem pageNumber_toNat (x : U64) (h : x.toNat ≤ 2 ^ 32) :
    ((x >>> pmmPageShift).setWidth 32).toNat = x.toNat / 4096 := by
  rw [BitVec.toNat_setWidth, BitVec.toNat_ushiftRight, Nat.shiftRight_eq_div_pow, pmmPageShift]
  omega

/-- The pages of the inward span are those wholly inside the range and below
4 GiB, other than page 0. -/
theorem mem_inward {base length b e : U64} (h : clipToPhysical base length = some (b, e)) (p : ℕ) :
    ((inwardPageSpan b e).1.toNat ≤ p ∧ p < (inwardPageSpan b e).2.toNat) ↔
      p ≠ 0 ∧ p < 1048576 ∧ base.toNat ≤ 4096 * p ∧ 4096 * (p + 1) ≤ base.toNat + length.toNat := by
  rcases clipToPhysical_cases h with ⟨rfl, rfl, hout⟩ | ⟨rfl, hl, hb, he⟩
  · have : inwardPageSpan 0 0 = (0, 0) := by decide
    rw [this]
    rcases hout with hl | hb
    · subst hl; simp; omega
    · simp; omega
  · unfold inwardPageSpan
    set S : U64 := (b + pmmPageMask) &&& ~~~pmmPageMask with hSdef
    set E : U64 := e &&& ~~~pmmPageMask with hEdef
    have hS : S.toNat = (b.toNat + 4095) / 4096 * 4096 := by rw [hSdef, roundDown_toNat]; bv_omega
    have hE : E.toNat = e.toNat / 4096 * 4096 := roundDown_toNat e
    have hSp := pageNumber_toNat S (by omega)
    have hEp := pageNumber_toNat E (by omega)
    simp only [ge_iff_le, BitVec.le_def, ← BitVec.toNat_inj, hS, hE, hSp, hEp, apply_ite BitVec.toNat,
      BitVec.ofNat_eq_ofNat, BitVec.toNat_ofNat]
    split_ifs <;> simp only [hSp, hEp, hS, hE, BitVec.toNat_ofNat] <;> omega

/-- The pages of the outward span are those below 4 GiB that share a byte with
the range. -/
theorem mem_outward {base length b e : U64} (h : clipToPhysical base length = some (b, e)) (p : ℕ) :
    ((outwardPageSpan b e).1.toNat ≤ p ∧ p < (outwardPageSpan b e).2.toNat) ↔
      p < 1048576 ∧ length ≠ 0 ∧ base.toNat < 4096 * (p + 1) ∧
        4096 * p < base.toNat + length.toNat := by
  rcases clipToPhysical_cases h with ⟨rfl, rfl, hout⟩ | ⟨rfl, hl, hb, he⟩
  · have : outwardPageSpan 0 0 = (0, 0) := by decide
    rw [this]
    rcases hout with hl | hb
    · simp [hl]
    · simp; omega
  · have hl' : 0 < length.toNat := by bv_omega
    have hM : (e &&& pmmPageMask).toNat = e.toNat % 4096 := toNat_and_low e (k := 12) (by omega)
    unfold outwardPageSpan
    set S : U64 := b &&& ~~~pmmPageMask with hSdef
    -- the rounded end: a multiple of the page size at most 4 GiB
    set E : U64 := if e &&& pmmPageMask ≠ 0 then (e + pmmPageMask) &&& ~~~pmmPageMask else e with hEdef
    have hS : S.toNat = b.toNat / 4096 * 4096 := roundDown_toNat b
    have hE : E.toNat = (e.toNat + 4095) / 4096 * 4096 := by
      rw [hEdef]
      split_ifs with hm
      · rw [roundDown_toNat]; bv_omega
      · have : e.toNat % 4096 = 0 := by rw [← hM, not_not.1 hm]; rfl
        omega
    have hSp := pageNumber_toNat S (by omega)
    have hEp := pageNumber_toNat E (by omega)
    rw [and_iff_right hl]
    simp only [ge_iff_le, BitVec.le_def, hE, hSp, hEp, apply_ite BitVec.toNat, BitVec.ofNat_eq_ofNat,
      BitVec.toNat_ofNat]
    split_ifs <;> simp only [hSp, hEp, hS, hE, BitVec.toNat_ofNat] <;> omega

end TinyShell
