import TinyShell.Proof.PmmInv

/-!
# Runs of the page allocator

* `reserved_wins`: after any sequence of region calls the free pages are those
  inside a usable region and touched by no reserved one, in whatever order the
  calls came.
* `pages_exclusive`: in any run, the pages handed out and not yet taken back are
  exactly the allocated ones, so a page is never handed out twice or lost.
-/

namespace TinyShell

open Machine

variable {s : Pmm}

/-! ## Region calls -/

/-- The byte range of a region call. -/
def RegionCall.range : RegionCall → U64 × U64
  | .addUsable base length => (base, length)
  | .reserve base length => (base, length)

/-- Page `p` is wholly inside the range of a successful `pmm_add_usable_region`. -/
def UsableIn (tr : List (RegionCall × Bool)) (p : ℕ) : Prop :=
  ∃ base length, (RegionCall.addUsable base length, true) ∈ tr ∧ PageInside base length p

/-- Page `p` shares a byte with the range of a successful `pmm_reserve_region`. -/
def ReservedIn (tr : List (RegionCall × Bool)) (p : ℕ) : Prop :=
  ∃ base length, (RegionCall.reserve base length, true) ∈ tr ∧ PageTouched base length p

theorem regionStep_result (hs : PmmOK s) (hfr : s.ownershipFrozen = false) (c : RegionCall) :
    (regionStep s c).1 = true ↔ RangeFits c.range.1 c.range.2 := by
  cases c with
  | addUsable base length => exact (addUsable_spec hs hfr base length).1
  | reserve base length => exact (reserve_spec hs hfr base length).1

/-- The state of page ownership after a history of region calls. -/
structure OwnedBy (tr : List (RegionCall × Bool)) (s : Pmm) : Prop where
  ok : PmmOK s
  unfrozen : s.ownershipFrozen = false
  managed : ∀ p < 1048576, managed s p = true ↔ p ≠ 0 ∧ UsableIn tr p ∧ ¬ReservedIn tr p
  allocated : ∀ p < 1048576, allocated s p = true ↔ p = 0 ∨ ReservedIn tr p

section

variable (tr : List (RegionCall × Bool)) (base length : U64) (r : Bool) (p : ℕ)

theorem usableIn_addUsable : UsableIn (tr ++ [(.addUsable base length, r)]) p ↔
    UsableIn tr p ∨ (r = true ∧ PageInside base length p) := by
  simp only [UsableIn, List.mem_append, List.mem_singleton, Prod.mk.injEq, RegionCall.addUsable.injEq,
    or_and_right, exists_or]
  refine or_congr_right ⟨?_, fun ⟨hr, hp⟩ => ⟨base, length, ⟨⟨rfl, rfl⟩, hr.symm⟩, hp⟩⟩
  rintro ⟨_, _, ⟨⟨rfl, rfl⟩, hr⟩, hp⟩
  exact ⟨hr.symm, hp⟩

theorem usableIn_reserve : UsableIn (tr ++ [(.reserve base length, r)]) p ↔ UsableIn tr p := by
  simp [UsableIn]

theorem reservedIn_reserve : ReservedIn (tr ++ [(.reserve base length, r)]) p ↔
    ReservedIn tr p ∨ (r = true ∧ PageTouched base length p) := by
  simp only [ReservedIn, List.mem_append, List.mem_singleton, Prod.mk.injEq, RegionCall.reserve.injEq,
    or_and_right, exists_or]
  refine or_congr_right ⟨?_, fun ⟨hr, hp⟩ => ⟨base, length, ⟨⟨rfl, rfl⟩, hr.symm⟩, hp⟩⟩
  rintro ⟨_, _, ⟨⟨rfl, rfl⟩, hr⟩, hp⟩
  exact ⟨hr.symm, hp⟩

theorem reservedIn_addUsable : ReservedIn (tr ++ [(.addUsable base length, r)]) p ↔ ReservedIn tr p := by
  simp [ReservedIn]

end

theorem ownedBy_reset (s₀ : Pmm) : OwnedBy [] (pmmReset s₀) := by
  obtain ⟨hok, hfr, hp⟩ := pmmReset_ok s₀
  refine ⟨hok, hfr, fun p hlt => ?_, fun p hlt => ?_⟩
  · simp [(hp p hlt).1, UsableIn]
  · simp [(hp p hlt).2, ReservedIn]

/-- One region call extends the ownership by its own range. -/
theorem ownedBy_step {tr : List (RegionCall × Bool)} (h : OwnedBy tr s) (c : RegionCall) :
    OwnedBy (tr ++ [(c, (regionStep s c).1)]) (regionStep s c).2 := by
  cases c with
  | addUsable base length =>
    obtain ⟨hr, hok, hfr, hp⟩ := addUsable_spec h.ok h.unfrozen base length
    refine ⟨hok, hfr, fun p hlt => ?_, fun p hlt => ?_⟩
    · have ha : allocated s p = false ↔ ¬(p = 0 ∨ ReservedIn tr p) := by
        rw [← h.allocated p hlt]; simp
      rw [usableIn_addUsable, reservedIn_addUsable]
      change managed (pmmAddUsableRegion s base length).2 p = true ↔
        p ≠ 0 ∧ (UsableIn tr p ∨ (pmmAddUsableRegion s base length).1 = true ∧ _) ∧ _
      rw [(hp p hlt).1, h.managed p hlt, ha, hr]
      tauto
    · rw [reservedIn_addUsable]
      change allocated (pmmAddUsableRegion s base length).2 p = true ↔ _
      rw [(hp p hlt).2, h.allocated p hlt]
  | reserve base length =>
    obtain ⟨hr, hok, hfr, hp⟩ := reserve_spec h.ok h.unfrozen base length
    refine ⟨hok, hfr, fun p hlt => ?_, fun p hlt => ?_⟩
    · rw [usableIn_reserve, reservedIn_reserve]
      change managed (pmmReserveRegion s base length).2 p = true ↔
        p ≠ 0 ∧ _ ∧ ¬(ReservedIn tr p ∨ (pmmReserveRegion s base length).1 = true ∧ _)
      rw [(hp p hlt).1, h.managed p hlt, hr]
      tauto
    · rw [reservedIn_reserve]
      change allocated (pmmReserveRegion s base length).2 p = true ↔
        p = 0 ∨ ReservedIn tr p ∨ (pmmReserveRegion s base length).1 = true ∧ _
      rw [(hp p hlt).2, h.allocated p hlt, hr]
      tauto

/-- Page ownership after a whole sequence of region calls. -/
theorem ownedBy_run (s₀ : Pmm) (cs : List RegionCall) :
    OwnedBy (trace regionStep (pmmReset s₀) cs) (exec regionStep (pmmReset s₀) cs) :=
  hist_inv (ownedBy_reset s₀) (fun _ _ c h => ownedBy_step h c) cs

/-- A region call's result depends on its own range only, whatever came before. -/
theorem mem_region_trace (s₀ : Pmm) (cs : List RegionCall) (c : RegionCall) (r : Bool) :
    (c, r) ∈ trace regionStep (pmmReset s₀) cs ↔
      c ∈ cs ∧ (r = true ↔ RangeFits c.range.1 c.range.2) := by
  have key : ∀ (cs : List RegionCall) (s : Pmm), (∃ tr, OwnedBy tr s) →
      ((c, r) ∈ trace regionStep s cs ↔ c ∈ cs ∧ (r = true ↔ RangeFits c.range.1 c.range.2)) := by
    intro cs
    induction cs with
    | nil => intro s _; simp [trace]
    | cons d ds ih =>
      rintro s ⟨tr, h⟩
      rw [trace, List.mem_cons, List.mem_cons, ih _ ⟨_, ownedBy_step h d⟩, Prod.mk.injEq]
      have hd := regionStep_result h.ok h.unfrozen d
      constructor
      · rintro (⟨rfl, rfl⟩ | ⟨hm, hr⟩)
        · exact ⟨Or.inl rfl, hd⟩
        · exact ⟨Or.inr hm, hr⟩
      · rintro ⟨rfl | hm, hr⟩
        · exact Or.inl ⟨rfl, Bool.eq_iff_iff.2 (hr.trans hd.symm)⟩
        · exact Or.inr ⟨hm, hr⟩
  exact key cs _ ⟨[], ownedBy_reset s₀⟩

theorem ownedBy_perm (s₀ : Pmm) {cs ds : List RegionCall} (h : cs.Perm ds) (p : ℕ) :
    (UsableIn (trace regionStep (pmmReset s₀) cs) p ↔ UsableIn (trace regionStep (pmmReset s₀) ds) p) ∧
      (ReservedIn (trace regionStep (pmmReset s₀) cs) p ↔
        ReservedIn (trace regionStep (pmmReset s₀) ds) p) := by
  simp only [UsableIn, ReservedIn, mem_region_trace, h.mem_iff, and_self]

/-- **Reserved wins, in any order.** After any sequence of region calls a page is
free exactly when it is not page 0, lies wholly inside the range of a
successful `pmm_add_usable_region` and shares no byte with the range of a
successful `pmm_reserve_region`; a call fails exactly when its range is
non-empty and ends beyond `UINT64_MAX`; and a permutation of the calls leaves
the same managed and reserved pages and the same counters. -/
theorem reserved_wins (s₀ : Pmm) (cs : List RegionCall) :
    (∀ page : U32, page.toNat < 1048576 →
      ((pageIsManaged (exec regionStep (pmmReset s₀) cs) page = true ∧
          pageIsAllocated (exec regionStep (pmmReset s₀) cs) page = false) ↔
        page ≠ 0 ∧ UsableIn (trace regionStep (pmmReset s₀) cs) page.toNat ∧
          ¬ReservedIn (trace regionStep (pmmReset s₀) cs) page.toNat)) ∧
    (∀ c r, (c, r) ∈ trace regionStep (pmmReset s₀) cs →
      (r = false ↔ c.range.2 ≠ 0 ∧ 2 ^ 64 - 1 < c.range.1.toNat + c.range.2.toNat)) ∧
    ∀ ds, cs.Perm ds →
      (∀ page : U32, page.toNat < 1048576 →
        pageIsManaged (exec regionStep (pmmReset s₀) cs) page =
            pageIsManaged (exec regionStep (pmmReset s₀) ds) page ∧
          pageIsReserved (exec regionStep (pmmReset s₀) cs) page =
            pageIsReserved (exec regionStep (pmmReset s₀) ds) page) ∧
      pmmTotalPageCount (exec regionStep (pmmReset s₀) cs) =
        pmmTotalPageCount (exec regionStep (pmmReset s₀) ds) ∧
      pmmFreePageCount (exec regionStep (pmmReset s₀) cs) =
        pmmFreePageCount (exec regionStep (pmmReset s₀) ds) := by
  have hc := ownedBy_run s₀ cs
  refine ⟨fun page hp => ?_, fun c r hr => ?_, fun ds hperm => ?_⟩
  · have h0 : page ≠ 0 ↔ page.toNat ≠ 0 := by bv_omega
    rw [pageIsManaged_eq, pageIsAllocated_eq, hc.managed _ hp, ← Bool.not_eq_true,
      hc.allocated _ hp, h0]
    tauto
  · have hfit := ((mem_region_trace s₀ cs c r).1 hr).2
    have hl : c.range.2 = 0 ↔ c.range.2.toNat = 0 := by bv_omega
    rw [← Bool.not_eq_true, hfit, RangeFits, ne_eq, hl]
    omega
  · have hd := ownedBy_run s₀ ds
    have hm : ∀ p < 1048576, managed (exec regionStep (pmmReset s₀) cs) p =
        managed (exec regionStep (pmmReset s₀) ds) p := fun p hp => by
      obtain ⟨h1, h2⟩ := ownedBy_perm s₀ hperm p
      rw [Bool.eq_iff_iff, hc.managed p hp, hd.managed p hp, h1, h2]
    have ha : ∀ p < 1048576, allocated (exec regionStep (pmmReset s₀) cs) p =
        allocated (exec regionStep (pmmReset s₀) ds) p := fun p hp => by
      rw [Bool.eq_iff_iff, hc.allocated p hp, hd.allocated p hp, (ownedBy_perm s₀ hperm p).2]
    refine ⟨fun page hp => ?_, ?_, ?_⟩
    · simp only [pageIsManaged_eq, pageIsReserved_eq, hm _ hp, ha _ hp, and_self]
    · rw [← BitVec.toNat_inj]
      exact hc.ok.total.trans ((countBelow_congr hm).trans hd.ok.total.symm)
    · rw [← BitVec.toNat_inj]
      refine hc.ok.free.trans ((countBelow_congr fun p hp => ?_).trans hd.ok.free.symm)
      rw [isFree, isFree, hm p hp, ha p hp]

/-! ## Allocation and freeing -/

/-- How one call changes the set of pages handed out. -/
def handOut (out : Finset U32) : PmmCall × PmmResult → Finset U32
  | (.page .alloc, .page a) => if a = 0 then out else insert a out
  | (.page (.free a), .flag true) => out.erase a
  | _ => out

/-- **The outstanding set** of a history: the addresses returned non-zero by
`pmm_alloc_page` and not yet successfully freed. -/
def outstanding (tr : List (PmmCall × PmmResult)) : Finset U32 := tr.foldl handOut ∅

theorem outstanding_append (tr : List (PmmCall × PmmResult)) (x : PmmCall × PmmResult) :
    outstanding (tr ++ [x]) = handOut (outstanding tr) x := by
  simp [outstanding]

/-- Page `p` is allocated. -/
def IsLive (s : Pmm) (p : ℕ) : Prop := managed s p = true ∧ allocated s p = true

/-- The outstanding addresses are those of the allocated pages. -/
def OutstandingOK (tr : List (PmmCall × PmmResult)) (s : Pmm) : Prop :=
  PmmOK s ∧ ∀ a, a ∈ outstanding tr ↔ ∃ p < 1048576, a.toNat = 4096 * p ∧ IsLive s p

theorem toNat_pageAddress {page : U32} (hp : page.toNat < 1048576) :
    (page <<< pmmPageShift).toNat = 4096 * page.toNat := by
  rw [BitVec.toNat_shiftLeft, Nat.shiftLeft_eq, pmmPageShift]
  omega

/-- Page 0 is not managed, so 0 is no managed page's address. -/
theorem pageAddress_ne_zero (hs : PmmOK s) {page : U32} (hp : page.toNat < 1048576)
    (hm : managed s page.toNat = true) : page <<< pmmPageShift ≠ 0 := by
  intro hz
  have haddr := toNat_pageAddress hp
  rw [hz] at haddr
  have h0 : page.toNat = 0 := by simp at haddr; exact haddr
  rw [h0, hs.zero_managed] at hm
  simp at hm

/-- A call that leaves every page as it was keeps the outstanding addresses. -/
theorem outstandingOK_same {tr : List (PmmCall × PmmResult)} (h : OutstandingOK tr s)
    {x : PmmCall × PmmResult} {t : Pmm} (ht : PmmOK t) (hx : handOut (outstanding tr) x = outstanding tr)
    (hlive : ∀ p < 1048576, IsLive t p ↔ IsLive s p) : OutstandingOK (tr ++ [x]) t := by
  refine ⟨ht, fun a => ?_⟩
  rw [outstanding_append, hx, h.2 a]
  exact exists_congr fun p => and_congr_right fun hp => by rw [hlive p hp]

/-- A region call leaves no page allocated before the freeze, and changes nothing
after it. -/
theorem isLive_regionStep (hs : PmmOK s) (c : RegionCall) {p : ℕ} (hp : p < 1048576) :
    IsLive (regionStep s c).2 p ↔ IsLive s p := by
  cases hfr : s.ownershipFrozen with
  | true => cases c with
    | addUsable base length => rw [regionStep, (region_frozen hfr base length).1]
    | reserve base length => rw [regionStep, (region_frozen hfr base length).2]
  | false =>
    have hfr' : (regionStep s c).2.ownershipFrozen = false := by
      cases c with
      | addUsable base length => exact (addUsable_spec hs hfr base length).2.2.1
      | reserve base length => exact (reserve_spec hs hfr base length).2.2.1
    exact iff_of_false (fun hl => by simp [IsLive, (regionStep_ok hs c).setup hfr' p hp hl.1] at hl)
      (fun hl => by simp [IsLive, hs.setup hfr p hp hl.1] at hl)

theorem outstandingOK_step {tr : List (PmmCall × PmmResult)} (h : OutstandingOK tr s) (c : PmmCall) :
    OutstandingOK (tr ++ [(c, (pmmStep s c).1)]) (pmmStep s c).2 := by
  have hok := pmmStep_ok h.1 c
  cases c with
  | region c => exact outstandingOK_same h hok rfl fun p hp => isLive_regionStep h.1 c hp
  | page c => cases c with
    | alloc =>
      change OutstandingOK (tr ++ [(.page .alloc, .page (pmmAllocPage s).1)]) (pmmAllocPage s).2
      change PmmOK (pmmAllocPage s).2 at hok
      rcases alloc_cases h.1 with ⟨he, -⟩ | ⟨page, hp, hfree, -, he⟩
      · rw [he] at hok ⊢
        exact outstandingOK_same h hok (by simp [handOut]) fun p _ => Iff.rfl
      · rw [he] at hok ⊢
        have haddr := toNat_pageAddress hp
        have hm : managed s page.toNat = true := by
          rw [isFree, Bool.and_eq_true] at hfree; exact hfree.1
        have hz := pageAddress_ne_zero h.1 hp hm
        refine ⟨hok, fun a => ?_⟩
        rw [outstanding_append, handOut, if_neg hz, Finset.mem_insert, h.2 a]
        constructor
        · rintro (rfl | ⟨p, hlt, ha, hl⟩)
          · exact ⟨page.toNat, hp, haddr, by simp [IsLive, hm]⟩
          · exact ⟨p, hlt, ha, by simp [IsLive, hl.1, hl.2]⟩
        · rintro ⟨p, hlt, ha, hl⟩
          by_cases hpp : p = page.toNat
          · left; rw [← BitVec.toNat_inj, ha, haddr, hpp]
          · right; exact ⟨p, hlt, ha, by simpa [IsLive, hpp] using hl⟩
    | free a =>
      change OutstandingOK (tr ++ [(.page (.free a), .flag (pmmFreePage s a).1)]) (pmmFreePage s a).2
      change PmmOK (pmmFreePage s a).2 at hok
      rcases free_cases h.1 a with ⟨he, -⟩ | ⟨page, hp, haddr, hm, hal, he⟩
      · rw [he] at hok ⊢
        exact outstandingOK_same h hok rfl fun p _ => Iff.rfl
      · rw [he] at hok ⊢
        refine ⟨hok, fun b => ?_⟩
        rw [outstanding_append, handOut, Finset.mem_erase, h.2 b]
        constructor
        · rintro ⟨hne, p, hlt, hb, hl⟩
          have hpp : p ≠ page.toNat := fun hpp => hne (by rw [← BitVec.toNat_inj, hb, haddr, hpp])
          exact ⟨p, hlt, hb, by simpa [IsLive, hpp] using hl⟩
        · rintro ⟨p, hlt, hb, hl⟩
          have hpp : p ≠ page.toNat := fun hpp => by simp [IsLive, hpp] at hl
          exact ⟨fun hab => hpp (by rw [hab] at hb; omega), p, hlt, hb, by simpa [IsLive, hpp] using hl⟩

theorem outstandingOK_run (s₀ : Pmm) (cs : List PmmCall) :
    OutstandingOK (trace pmmStep (pmmReset s₀) cs) (exec pmmStep (pmmReset s₀) cs) := by
  refine hist_inv (I := OutstandingOK) ⟨(pmmReset_ok s₀).1, fun a => ?_⟩
    (fun _ _ c h => outstandingOK_step h c) cs
  refine iff_of_false (by simp [outstanding]) ?_
  rintro ⟨p, hp, -, hm, -⟩
  rw [((pmmReset_ok s₀).2.2 p hp).1] at hm
  simp at hm

/-- The managed pages are the free and the allocated ones. -/
theorem count_managed (s : Pmm) :
    countBelow 1048576 (managed s) =
      countBelow 1048576 (isFree s) + countBelow 1048576 (fun p => managed s p && allocated s p) := by
  rw [countBelow_eq_sum, countBelow_eq_sum, countBelow_eq_sum, ← Finset.sum_add_distrib]
  refine Finset.sum_congr rfl fun p _ => ?_
  rw [isFree]
  cases managed s p <;> cases allocated s p <;> rfl

/-- As many addresses are outstanding as pages are allocated. -/
theorem card_outstanding {tr : List (PmmCall × PmmResult)} (h : OutstandingOK tr s) :
    (outstanding tr).card = countBelow 1048576 (fun p => managed s p && allocated s p) := by
  have himage : outstanding tr = ((Finset.range 1048576).filter fun p =>
      (managed s p && allocated s p) = true).image fun p => BitVec.ofNat 32 (4096 * p) := by
    ext a
    simp only [h.2 a, Finset.mem_image, Finset.mem_filter, Finset.mem_range, Bool.and_eq_true]
    constructor
    · rintro ⟨p, hp, ha, hl⟩
      exact ⟨p, ⟨hp, hl⟩, by rw [← BitVec.toNat_inj, BitVec.toNat_ofNat, ha]; omega⟩
    · rintro ⟨p, ⟨hp, hl⟩, rfl⟩
      exact ⟨p, hp, by rw [BitVec.toNat_ofNat]; omega, hl⟩
  rw [himage, Finset.card_image_of_injOn, countBelow]
  intro p hp q hq hpq
  simp only [Finset.coe_filter, Finset.mem_range, Set.mem_ofPred_eq] at hp hq
  have := congrArg BitVec.toNat hpq
  simp only [BitVec.toNat_ofNat] at this
  omega

theorem mem_outstanding_iff {tr : List (PmmCall × PmmResult)} (h : OutstandingOK tr s) {page : U32}
    (hp : page.toNat < 1048576) : page <<< pmmPageShift ∈ outstanding tr ↔ IsLive s page.toNat := by
  rw [h.2, toNat_pageAddress hp]
  constructor
  · rintro ⟨p, -, he, hl⟩
    rwa [show page.toNat = p by omega]
  · exact fun hl => ⟨page.toNat, hp, rfl, hl⟩

/-- **Pages are never handed out twice and never lost.** In every run after
`pmm_reset`: `pmm_alloc_page` returns 0 exactly when every managed page is
outstanding, and otherwise the lowest managed page that is not; `pmm_free_page`
succeeds exactly on the outstanding addresses and otherwise changes nothing;
and the free and the outstanding pages add up to the managed ones. -/
theorem pages_exclusive (s₀ : Pmm) (cs : List PmmCall) :
    let s := exec pmmStep (pmmReset s₀) cs
    let out := outstanding (trace pmmStep (pmmReset s₀) cs)
    ((pmmAllocPage s).1 = 0 ↔ ∀ page : U32, page.toNat < 1048576 → pageIsManaged s page = true →
      page <<< pmmPageShift ∈ out) ∧
    ((pmmAllocPage s).1 ≠ 0 → (pmmAllocPage s).1.toNat % 4096 = 0 ∧ ∃ page : U32,
      page.toNat < 1048576 ∧ (pmmAllocPage s).1 = page <<< pmmPageShift ∧ pageIsManaged s page = true ∧
      page <<< pmmPageShift ∉ out ∧
      ∀ other : U32, other.toNat < 1048576 → pageIsManaged s other = true →
        other <<< pmmPageShift ∉ out → page ≤ other) ∧
    (∀ a, (pmmFreePage s a).1 = true ↔ a ∈ out) ∧
    (∀ a, (pmmFreePage s a).1 = false → (pmmFreePage s a).2 = s) ∧
    (pmmFreePageCount s).toNat + out.card = (pmmTotalPageCount s).toNat := by
  intro s out
  have h : OutstandingOK (trace pmmStep (pmmReset s₀) cs) s := outstandingOK_run s₀ cs
  have hlive := @mem_outstanding_iff _ _ h
  -- a managed page is outstanding exactly when it is not free
  have hfree : ∀ page : U32, page.toNat < 1048576 → pageIsManaged s page = true →
      (page <<< pmmPageShift ∉ out ↔ isFree s page.toNat = true) := by
    intro page hp hm
    rw [pageIsManaged_eq] at hm
    rw [hlive hp, IsLive, isFree, hm]
    simp
  refine ⟨?_, ?_, fun a => ?_, fun a ha => ?_, ?_⟩
  · rcases alloc_cases h.1 with ⟨he, hnone⟩ | ⟨page, hp, hf, -, he⟩
    · refine iff_of_true (by rw [he]) fun page hp hm => ?_
      by_contra hout
      rw [hfree page hp hm, hnone _ hp] at hout
      simp at hout
    · have hm : pageIsManaged s page = true := by
        rw [isFree, Bool.and_eq_true] at hf; rw [pageIsManaged_eq]; exact hf.1
      refine iff_of_false ?_ fun hall => (hfree page hp hm).2 hf (hall page hp hm)
      rw [he]
      exact pageAddress_ne_zero h.1 hp (by rwa [pageIsManaged_eq] at hm)
  · intro hne
    rcases alloc_cases h.1 with ⟨he, -⟩ | ⟨page, hp, hf, hlow, he⟩
    · exact absurd (by rw [he]) hne
    · have hm : pageIsManaged s page = true := by
        rw [isFree, Bool.and_eq_true] at hf; rw [pageIsManaged_eq]; exact hf.1
      rw [he]
      refine ⟨by rw [toNat_pageAddress hp]; omega, page, hp, rfl, hm, (hfree page hp hm).2 hf, ?_⟩
      intro other ho hmo hout
      by_contra hlt
      have := hlow other.toNat (by bv_omega)
      rw [(hfree other ho hmo).1 hout] at this
      simp at this
  · rw [h.2 a]
    rcases free_cases h.1 a with ⟨he, hno⟩ | ⟨page, hp, ha, hm, hal, he⟩
    · exact iff_of_false (by rw [he]; simp) hno
    · exact iff_of_true (by rw [he]) ⟨page.toNat, hp, ha, hm, hal⟩
  · rcases free_cases h.1 a with ⟨he, -⟩ | ⟨page, -, -, -, -, he⟩
    · rw [he]
    · rw [he] at ha; simp at ha
  · change s.freePages.toNat + out.card = s.totalPages.toNat
    rw [h.1.free, h.1.total, count_managed, card_outstanding h]

end TinyShell
