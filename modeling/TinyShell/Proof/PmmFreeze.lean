import TinyShell.Proof.PmmInv

/-!
# Page ownership freezes at the first allocation

`pmmEventChecked` stops where the code would wrap a counter or un-own a live
allocation. `pmmEvent_checked`: under the accounting invariant no call stops. After
`pmm_alloc_page`, and until the next `pmm_reset`, the calls only move pages between
free and allocated (`pmmStep_frozen`), so `page_ownership_freezes`.
-/

namespace TinyShell

open Machine

variable {s t : Pmm}

/-! ## No counter wraps -/

/-- Before the freeze no page is both managed and allocated, so a managed page is free
and both counters count it. -/
theorem markPageReserved_checked (hs : PmmOK s) (hfr : s.ownershipFrozen = false) {page : U32}
    (hp : page.toNat < 1048576) : markPageReservedChecked s page = some (markPageReserved s page) := by
  rw [markPageReservedChecked, markPageReservedM, markPageReserved_eq]
  split_ifs with hres hman hall
  · rfl
  · rw [pageIsManaged_eq] at hman
    rw [pageIsAllocated_eq, hs.setup hfr _ hp hman] at hall
    cases hall
  · have hfree : isFree s page.toNat = true := by
      rw [pageIsManaged_eq] at hman
      rw [pageIsAllocated_eq] at hall
      simp [isFree, hman, hall]
    obtain ⟨hf, ht⟩ := hs.free_le hp
    rw [hfree] at hf ht
    have hsubTotal : checkedSub s.totalPages 1#32 = some (s.totalPages - 1#32) := checkedSub_eq ht
    have hsubFree : checkedSub s.freePages 1#32 = some (s.freePages - 1#32) := checkedSub_eq hf
    simp [pmmUpdatesChecked, setManaged, setAllocated, hsubTotal, hsubFree]
  · rfl

theorem markPageUsable_checked (hs : PmmOK s) (page : U32) :
    markPageUsableChecked s page = some (markPageUsable s page) := by
  rw [markPageUsableChecked, markPageUsableM, markPageUsable_eq]
  split_ifs with hskip
  · rfl
  · obtain ⟨ht, hf⟩ := hs.counters_lt true
    have haddTotal : checkedAdd s.totalPages 1#32 = some (s.totalPages + 1#32) := checkedAdd_eq ht
    have haddFree : checkedAdd s.freePages 1#32 = some (s.freePages + 1#32) := checkedAdd_eq hf
    simp [pmmUpdatesChecked, setManaged, setAllocated, haddTotal, haddFree]

theorem markPageReserved_unmanaged {page : U32} (h : managed s page.toNat = false) :
    markPageReservedChecked s page = some (markPageReserved s page) := by
  have hman : pageIsManaged s page = false := by rw [pageIsManaged_eq, h]
  rw [markPageReservedChecked, markPageReservedM, markPageReserved_eq, hman, if_neg Bool.false_ne_true,
    if_neg Bool.false_ne_true]
  split_ifs <;> rfl

/-- The reset clears both bitmaps, so page 0 is unknown when it is marked. -/
theorem pmmReset_checked (s : Pmm) : pmmResetChecked s = some (pmmReset s) := by
  apply markPageReserved_unmanaged
  have hclear : fill s.managedPages 0 pmmBitmapWords (fun _ => (0 : U32)) 0 = 0 :=
    fill_of_mem le_rfl (by decide)
  simp only [managed, pageBit]
  exact congrArg (fun x : U32 => x.getLsbD 0) hclear

section region

variable {mark : Pmm → U32 → Pmm} {markChecked : Pmm → U32 → Option Pmm}
  (hmark : ∀ {t : Pmm} {page : U32}, PmmOK t → page.toNat < 1048576 →
    PmmOK (mark t page) ∧ (mark t page).ownershipFrozen = t.ownershipFrozen)
  (hchecked : ∀ {t : Pmm} {page : U32}, PmmOK t → t.ownershipFrozen = false → page.toNat < 1048576 →
    markChecked t page = some (mark t page))

include hmark hchecked

/-- A span is marked without a failure. -/
theorem markLoop_checked (hs : PmmOK s) (hfr : s.ownershipFrozen = false) {first last : U32}
    (hspan : ∀ p, first.toNat ≤ p ∧ p < last.toNat → p < 1048576) :
    forRangeM markChecked first last s = some (forRange mark first last s) := by
  apply forRangeM_eq_some (I := fun t => PmmOK t ∧ t.ownershipFrozen = false) ⟨hs, hfr⟩
  rintro t i h1 h2 ⟨hok, hunfrozen⟩
  have hp : (BitVec.ofNat 32 i).toNat < 1048576 := lt_of_le_of_lt (Nat.mod_le _ _) (hspan i ⟨h1, h2⟩)
  obtain ⟨hok', hfr'⟩ := hmark hok hp
  exact ⟨hchecked hok hunfrozen hp, hok', hfr'.trans hunfrozen⟩

/-- So is a region. -/
theorem markRegion_checked {pageSpan : U64 → U64 → U32 × U32} {base length : U64}
    (hspan : ∀ span, clipToPhysical base length = some span → ∀ p,
      (pageSpan span.1 span.2).1.toNat ≤ p ∧ p < (pageSpan span.1 span.2).2.toNat → p < 1048576)
    (hs : PmmOK s) :
    markRegionM markChecked pageSpan s base length =
      some (markRegionM (m := Id) mark pageSpan s base length) := by
  cases hfr : s.ownershipFrozen with
  | true =>
    rw [markRegionM_frozen hfr, markRegionM_frozen hfr]
    rfl
  | false =>
    cases hc : clipToPhysical base length with
    | none =>
      rw [markRegionM_none hc, markRegionM_none hc]
      rfl
    | some span =>
      rw [markRegionM_some hfr hc, markRegionM_some hfr hc,
        markLoop_checked hmark hchecked hs hfr (hspan span hc)]
      rfl

end region

theorem addUsable_checked (hs : PmmOK s) (base length : U64) :
    pmmAddUsableRegionChecked s base length = some (pmmAddUsableRegion s base length) := by
  refine markRegion_checked ?_ ?_ ?_ hs
  · intro t page hok hp
    exact ⟨markPageUsable_ok hok hp, (counters_markPageUsable _ _).2.2⟩
  · intro t page hok _ _
    exact markPageUsable_checked hok page
  · intro span hc p hp
    exact ((mem_inward hc p).1 hp).2.1

theorem reserve_checked (hs : PmmOK s) (base length : U64) :
    pmmReserveRegionChecked s base length = some (pmmReserveRegion s base length) := by
  refine markRegion_checked ?_ ?_ ?_ hs
  · intro t page hok hp
    exact ⟨markPageReserved_ok hok hp, (counters_markPageReserved _ _).2.2⟩
  · intro t page hok hunfrozen hp
    exact markPageReserved_checked hok hunfrozen hp
  · intro span hc p hp
    exact ((mem_outward hc p).1 hp).1

theorem alloc_checked (s : Pmm) : pmmAllocPageChecked s = some (pmmAllocPage s) := by
  unfold pmmAllocPageChecked pmmAllocPage pmmAllocPageM
  dsimp only
  by_cases h0 : s.freePages = 0
  · rw [if_pos h0, if_pos h0]
    rfl
  · have hsub : checkedSub s.freePages 1#32 = some (s.freePages - 1#32) :=
      checkedSub_eq (by simp; bv_omega)
    rw [if_neg h0, if_neg h0]
    split
    · rfl
    · simp only [pmmUpdatesChecked, setAllocated, BitVec.ofNat_eq_ofNat, hsub]
      rfl

theorem free_checked (hs : PmmOK s) (a : U32) : pmmFreePageChecked s a = some (pmmFreePage s a) := by
  have hadd : checkedAdd s.freePages 1#32 = some (s.freePages + 1#32) := checkedAdd_eq (hs.counters_lt true).2
  unfold pmmFreePageChecked pmmFreePage pmmFreePageM
  dsimp only
  split_ifs
  · rfl
  · rfl
  · rfl
  · rfl
  · simp only [pmmUpdatesChecked, setAllocated, BitVec.ofNat_eq_ofNat, hadd]
    rfl

/-- **No call wraps a counter or meets a live allocation.** -/
theorem pmmEvent_checked (hs : PmmOK s) (e : PmmEvent) : pmmEventChecked s e = some (pmmEventStep s e) := by
  rcases e with _ | ((⟨base, length⟩ | ⟨base, length⟩) | (_ | a))
  · simp only [pmmEventChecked, pmmReset_checked]; rfl
  · simp only [pmmEventChecked, addUsable_checked hs]; rfl
  · simp only [pmmEventChecked, reserve_checked hs]; rfl
  · simp only [pmmEventChecked, alloc_checked]; rfl
  · simp only [pmmEventChecked, free_checked hs]; rfl

/-! ## After the first allocation -/

/-- Page `p` is reserved: withheld from the allocator. -/
def reserved (s : Pmm) (p : ℕ) : Bool := !managed s p && allocated s p

/-- The managed and the reserved pages of `t` are those of `s`. -/
structure SameOwnership (s t : Pmm) : Prop where
  managed : ∀ p, managed t p = managed s p
  reserved : ∀ p, reserved t p = reserved s p

theorem SameOwnership.refl (s : Pmm) : SameOwnership s s := ⟨fun _ => rfl, fun _ => rfl⟩

/-- Only the allocated bit of one managed page differs. -/
theorem SameOwnership.of_page {page : ℕ} (hman : TinyShell.managed s page = true)
    (hm : ∀ p, TinyShell.managed t p = TinyShell.managed s p)
    (ha : ∀ p, p ≠ page → allocated t p = allocated s p) : SameOwnership s t := by
  refine ⟨hm, ?_⟩
  intro p
  unfold TinyShell.reserved
  rw [hm p]
  by_cases hp : p = page
  · -- a managed page is not reserved, whatever its other bit is
    rw [hp, hman]
    rfl
  · rw [ha p hp]

theorem alloc_sameOwnership (hs : PmmOK s) :
    SameOwnership s (pmmAllocPage s).2 ∧ (pmmAllocPage s).2.ownershipFrozen = true := by
  rcases alloc_cases hs with ⟨h, -⟩ | ⟨page, hp, hfree, -, h⟩
  · -- a failed allocation freezes the ownership too
    rw [h]
    exact ⟨⟨fun _ => rfl, fun _ => rfl⟩, rfl⟩
  · have hman : managed s page.toNat = true := by
      unfold isFree at hfree
      rw [Bool.and_eq_true] at hfree
      exact hfree.1
    rw [h]
    refine ⟨SameOwnership.of_page hman (fun p => managed_afterAlloc s page p) ?_, rfl⟩
    intro p hne
    simp [hne]

theorem free_sameOwnership (hs : PmmOK s) (a : U32) :
    SameOwnership s (pmmFreePage s a).2 ∧
      (pmmFreePage s a).2.ownershipFrozen = s.ownershipFrozen := by
  rcases free_cases hs a with ⟨h, -⟩ | ⟨page, hp, -, hman, -, h⟩
  · rw [h]
    exact ⟨SameOwnership.refl s, rfl⟩
  · rw [h]
    refine ⟨SameOwnership.of_page hman (fun p => managed_afterFree s page p) ?_, rfl⟩
    intro p hne
    simp [hne]

theorem regionStep_frozen (hfr : s.ownershipFrozen = true) (c : RegionCall) : regionStep s c = (false, s) := by
  cases c with
  | addUsable base length => exact (region_frozen hfr base length).1
  | reserve base length => exact (region_frozen hfr base length).2

/-- **A call on a frozen allocator** keeps it frozen and moves no page in or out of the
managed and the reserved ones. -/
theorem pmmStep_frozen (hs : PmmOK s) (hfr : s.ownershipFrozen = true) (c : PmmCall) :
    SameOwnership s (pmmStep s c).2 ∧ (pmmStep s c).2.ownershipFrozen = true := by
  rcases c with c | (_ | a)
  · have h : (pmmStep s (.region c)).2 = s := by simp [pmmStep, regionStep_frozen hfr c]
    rw [h]
    exact ⟨SameOwnership.refl s, hfr⟩
  · exact alloc_sameOwnership hs
  · obtain ⟨hsame, hkeep⟩ := free_sameOwnership hs a
    exact ⟨hsame, hkeep.trans hfr⟩

theorem SameOwnership.trans {u : Pmm} (h : SameOwnership s t) (h' : SameOwnership t u) : SameOwnership s u :=
  ⟨fun p => (h'.managed p).trans (h.managed p), fun p => (h'.reserved p).trans (h.reserved p)⟩

theorem pmmEventStep_ok (hs : PmmOK s) (e : PmmEvent) : PmmOK (pmmEventStep s e).2 := by
  cases e with
  | reset => exact (pmmReset_ok s).1
  | call c => exact pmmStep_ok hs c

/-- **Page ownership freezes at the first allocation.** In every state that calls reach
from `pmm_reset` the counters count the bitmaps and no call wraps a counter or
takes the branch for a live allocation. Whatever calls other than `pmm_reset` follow a
`pmm_alloc_page`, whether it found a page or not, every region call is refused and the
managed and reserved pages are those of that moment. -/
theorem page_ownership_freezes (s₀ : Pmm) (es : List PmmEvent) :
    pmmResetChecked s₀ = some (pmmReset s₀) ∧
      let s := exec pmmEventStep (pmmReset s₀) es
      PmmOK s ∧ reserved s 0 = true ∧ (∀ e, pmmEventChecked s e = some (pmmEventStep s e)) ∧
        ∀ cs : List PmmCall,
          let t := exec pmmStep (pmmAllocPage s).2 cs
          (∀ c, regionStep t c = (false, t)) ∧ SameOwnership s t := by
  refine ⟨pmmReset_checked s₀, ?_⟩
  have hs : PmmOK (exec pmmEventStep (pmmReset s₀) es) :=
    exec_inv (I := PmmOK) (fun s e h => pmmEventStep_ok h e) (pmmReset_ok s₀).1 es
  generalize exec pmmEventStep (pmmReset s₀) es = s at hs
  refine ⟨hs, ?_, fun e => pmmEvent_checked hs e, ?_⟩
  · unfold reserved
    rw [hs.zero_managed, hs.zero_allocated]
    rfl
  intro cs t
  obtain ⟨hsame, hfr⟩ := alloc_sameOwnership hs
  have hrun : PmmOK t ∧ t.ownershipFrozen = true ∧ SameOwnership s t := by
    apply exec_inv (I := fun t => PmmOK t ∧ t.ownershipFrozen = true ∧ SameOwnership s t)
    · rintro u c ⟨hok, hfrozen, hold⟩
      obtain ⟨hstep, hkeep⟩ := pmmStep_frozen hok hfrozen c
      exact ⟨pmmStep_ok hok c, hkeep, hold.trans hstep⟩
    · exact ⟨pageStep_ok hs .alloc, hfr, hsame⟩
  exact ⟨fun c => regionStep_frozen hrun.2.1 c, hrun.2.2⟩

end TinyShell
