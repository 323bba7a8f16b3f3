import TinyShell.Machine.Count
import TinyShell.Machine.Run
import TinyShell.Proof.Pages

/-!
# The accounting invariant of the page allocator

`PmmOK`: the two counters count the managed and the free pages of the bitmaps,
page 0 is reserved, and before the first allocation no page is both managed and
allocated. Every call keeps it (`pmmStep_ok`), and each call is described by one
lemma in terms of page sets: `addUsable_spec`, `reserve_spec`, `alloc_cases` and
`free_cases`.
-/

namespace TinyShell

open Machine

variable {s : Pmm}

/-- **The accounting invariant.** -/
structure PmmOK (s : Pmm) : Prop where
  total : s.totalPages.toNat = countBelow (1048576) (managed s)
  free : s.freePages.toNat = countBelow (1048576) (isFree s)
  zero_managed : managed s 0 = false
  zero_allocated : allocated s 0 = true
  setup : s.ownershipFrozen = false → ∀ p < 1048576, managed s p = true → allocated s p = false

theorem PmmOK.frozen (hs : PmmOK s) : PmmOK { s with ownershipFrozen := true } :=
  ⟨hs.total, hs.free, hs.zero_managed, hs.zero_allocated, fun h => by simp at h⟩

/-! ## Marking pages -/

theorem PmmOK.free_le (hs : PmmOK s) {p : ℕ} (hp : p < 1048576) :
    (isFree s p).toNat ≤ s.freePages.toNat ∧ (isFree s p).toNat ≤ s.totalPages.toNat := by
  rw [hs.free, hs.total]
  cases h : isFree s p with
  | false => simp
  | true =>
    have hm : managed s p = true := by
      unfold isFree at h; simp only [Bool.and_eq_true] at h; exact h.1
    exact ⟨countBelow_pos hp h, countBelow_pos hp hm⟩

theorem PmmOK.counters_lt (hs : PmmOK s) (b : Bool) :
    s.totalPages.toNat + b.toNat < 2 ^ 32 ∧ s.freePages.toNat + b.toNat < 2 ^ 32 := by
  have h1 := countBelow_le 1048576 (managed s)
  have h2 := countBelow_le 1048576 (isFree s)
  have h3 := Bool.toNat_le b
  rw [hs.total, hs.free]
  omega

theorem markPageReserved_ok (hs : PmmOK s) {page : U32} (hp : page.toNat < 1048576) :
    PmmOK (markPageReserved s page) := by
  obtain ⟨ht, hf, hz⟩ := counters_markPageReserved s page
  have hm := managed_markPageReserved s page
  have ha := allocated_markPageReserved s page
  have hfr := isFree_markPageReserved s page
  obtain ⟨hle1, hle2⟩ := hs.free_le hp
  refine ⟨?_, ?_, by simp [hm, hs.zero_managed], by simp [ha, hs.zero_allocated], ?_⟩
  · have hT := countBelow_step (P := managed s) (Q := managed (markPageReserved s page)) hp
      (fun j hj => by simp [hm, hj])
    have hb : (managed s page.toNat).toNat =
        (managed (markPageReserved s page) page.toNat).toNat + (isFree s page.toNat).toNat := by
      rw [hm, isFree]
      cases managed s page.toNat <;> cases allocated s page.toNat <;> simp
    rw [ht, toNat_sub_flag _ _ hle2, hs.total]
    omega
  · have hF := countBelow_step (P := isFree s) (Q := isFree (markPageReserved s page)) hp
      (fun j hj => by simp [hfr, hj])
    have hb : (isFree (markPageReserved s page) page.toNat).toNat = 0 := by simp [hfr]
    rw [hf, toNat_sub_flag _ _ hle1, hs.free]
    omega
  · intro hz' p hlt h
    have hsp := hs.setup (by rwa [hz] at hz') p hlt
    rw [hm] at h
    rw [ha]
    cases h1 : managed s p <;> cases h2 : allocated s p <;> simp_all

theorem markPageUsable_ok (hs : PmmOK s) {page : U32} (hp : page.toNat < 1048576) :
    PmmOK (markPageUsable s page) := by
  obtain ⟨ht, hf, hz⟩ := counters_markPageUsable s page
  have hm := managed_markPageUsable s page
  have ha := allocated_markPageUsable s page
  have hfr := isFree_markPageUsable s page
  obtain ⟨hlt1, hlt2⟩ := hs.counters_lt (isNew s page.toNat)
  refine ⟨?_, ?_, by simp [hm, hs.zero_managed, isNew], by simp [ha, hs.zero_allocated], ?_⟩
  · have hT := countBelow_step (P := managed s) (Q := managed (markPageUsable s page)) hp
      (fun j hj => by simp [hm, hj])
    have hb : (managed (markPageUsable s page) page.toNat).toNat =
        (managed s page.toNat).toNat + (isNew s page.toNat).toNat := by
      rw [hm, isNew]
      cases managed s page.toNat <;> simp
    rw [ht, toNat_add_flag _ _ hlt1, hs.total]
    omega
  · have hF := countBelow_step (P := isFree s) (Q := isFree (markPageUsable s page)) hp
      (fun j hj => by simp [hfr, hj])
    have hb : (isFree (markPageUsable s page) page.toNat).toNat =
        (isFree s page.toNat).toNat + (isNew s page.toNat).toNat := by
      rw [hfr, isNew, isFree]
      cases managed s page.toNat <;> simp
    rw [hf, toNat_add_flag _ _ hlt2, hs.free]
    omega
  · intro hz' p hlt h
    have hsp := hs.setup (by rwa [hz] at hz') p hlt
    rw [hm, isNew] at h
    rw [ha]
    cases h1 : managed s p <;> cases h2 : allocated s p <;> simp_all

/-! ## Regions -/

/-- The byte range ends at or below `UINT64_MAX`. -/
def RangeFits (base length : U64) : Prop := base.toNat + length.toNat < 2 ^ 64

/-- The byte range covers page `p` entirely. -/
def PageInside (base length : U64) (p : ℕ) : Prop :=
  base.toNat ≤ 4096 * p ∧ 4096 * (p + 1) ≤ base.toNat + length.toNat

/-- The byte range shares a byte with page `p`. -/
def PageTouched (base length : U64) (p : ℕ) : Prop :=
  ∃ x, base.toNat ≤ x ∧ x < base.toNat + length.toNat ∧ 4096 * p ≤ x ∧ x < 4096 * (p + 1)

theorem pageTouched_iff (base length : U64) (p : ℕ) :
    PageTouched base length p ↔
      length ≠ 0 ∧ base.toNat < 4096 * (p + 1) ∧ 4096 * p < base.toNat + length.toNat := by
  have hl : length ≠ 0 ↔ 0 < length.toNat := by bv_omega
  rw [hl]
  constructor
  · rintro ⟨x, h1, h2, h3, h4⟩; omega
  · rintro ⟨h1, h2, h3⟩
    exact ⟨max base.toNat (4096 * p), by omega, by omega, by omega, by omega⟩

theorem pmmReset_ok (s : Pmm) :
    PmmOK (pmmReset s) ∧ (pmmReset s).ownershipFrozen = false ∧
      ∀ p < 1048576, managed (pmmReset s) p = false ∧ allocated (pmmReset s) p = decide (p = 0) := by
  set s₀ := pmmCleared s with hs₀
  have hclear : ∀ p < 1048576, managed s₀ p = false ∧ allocated s₀ p = false := by
    intro p hp
    have : p / 32 < pmmBitmapWords := by rw [pmmBitmapWords]; omega
    simp [hs₀, pmmCleared, managed, allocated, pageBit, fill_of_mem (Nat.zero_le _) this]
  have hm : ∀ p < 1048576, managed (pmmReset s) p = false := fun p hp => by
    rw [pmmReset, managed_markPageReserved, (hclear p hp).1]; rfl
  have ha : ∀ p < 1048576, allocated (pmmReset s) p = decide (p = 0) := fun p hp => by
    rw [pmmReset, allocated_markPageReserved, (hclear p hp).2]; simp
  have hz : isFree s₀ 0 = false := by rw [isFree, (hclear 0 (by omega)).1]; rfl
  obtain ⟨ht, hf, hfr⟩ := counters_markPageReserved s₀ 0
  refine ⟨⟨?_, ?_, hm 0 (by omega), by rw [ha 0 (by omega)]; rfl, fun _ p hp h => ?_⟩, hfr,
    fun p hp => ⟨hm p hp, ha p hp⟩⟩
  · rw [countBelow_eq_zero hm]
    change (markPageReserved s₀ 0).totalPages.toNat = 0
    rw [ht]; simp [hz]; rfl
  · rw [countBelow_eq_zero fun p hp => by rw [isFree, hm p hp]; rfl]
    change (markPageReserved s₀ 0).freePages.toNat = 0
    rw [hf]; simp [hz]; rfl
  · rw [hm p hp] at h; simp at h

/-- Marking a span of pages keeps the invariant and the freeze flag. -/
theorem markLoop_ok (mark : Pmm → U32 → Pmm)
    (hmark : ∀ {t : Pmm} {page : U32}, PmmOK t → page.toNat < 1048576 →
      PmmOK (mark t page) ∧ (mark t page).ownershipFrozen = t.ownershipFrozen)
    (hs : PmmOK s) {first last : U32}
    (hspan : ∀ p, first.toNat ≤ p ∧ p < last.toNat → p < 1048576) :
    PmmOK (forRange mark first last s) ∧
      (forRange mark first last s).ownershipFrozen = s.ownershipFrozen :=
  forRange_inv mark first last (I := fun _ t => PmmOK t ∧ t.ownershipFrozen = s.ownershipFrozen) ⟨hs, rfl⟩ (by
    rintro i t h1 h2 ⟨hok, hfr⟩
    have hp : (BitVec.ofNat 32 i).toNat < 1048576 :=
      lt_of_le_of_lt (Nat.mod_le _ _) (hspan i ⟨h1, h2⟩)
    exact ⟨(hmark hok hp).1, (hmark hok hp).2.trans hfr⟩)

theorem reserveLoop_page (s : Pmm) (first last : U32) (p : ℕ) :
    managed (forRange markPageReserved first last s) p =
        (managed s p && !(decide (first.toNat ≤ p ∧ p < last.toNat) && !allocated s p)) ∧
      allocated (forRange markPageReserved first last s) p =
        (decide (first.toNat ≤ p ∧ p < last.toNat) || allocated s p) := by
  have h := forRange_pointwise (fun t p => (managed t p, allocated t p)) markPageReserved
    (g := fun _ x => (x.1 && x.2, true))
    (fun t i j => by
      rw [managed_markPageReserved, allocated_markPageReserved]
      by_cases hj : j = i.toNat <;> simp [hj]) first last s p
  by_cases hr : first.toNat ≤ p ∧ p < last.toNat
  · rw [if_pos hr] at h; simpa [hr] using h
  · rw [if_neg hr, Prod.mk.injEq] at h; rw [decide_eq_false hr]; simpa using h

theorem usableLoop_page (s : Pmm) (first last : U32) (p : ℕ) :
    managed (forRange markPageUsable first last s) p =
        (managed s p || (decide (first.toNat ≤ p ∧ p < last.toNat) && isNew s p)) ∧
      allocated (forRange markPageUsable first last s) p = allocated s p := by
  have h := forRange_pointwise (fun t p => (managed t p, allocated t p)) markPageUsable
    (g := fun p x => (x.1 || (decide (p ≠ 0) && !x.1 && !x.2), x.2))
    (fun t i j => by
      rw [managed_markPageUsable, allocated_markPageUsable, isNew]
      by_cases hj : j = i.toNat <;> simp [hj]) first last s p
  by_cases hr : first.toNat ≤ p ∧ p < last.toNat
  · rw [if_pos hr, Prod.mk.injEq] at h; simpa [hr, isNew] using h
  · rw [if_neg hr, Prod.mk.injEq] at h; rw [decide_eq_false hr]; simpa using h

theorem clip_iff_fits (base length : U64) :
    (clipToPhysical base length).isSome = true ↔ RangeFits base length := by
  have hl : length = 0 ↔ length.toNat = 0 := by bv_omega
  rw [Option.isSome_iff_ne_none, ne_eq, clipToPhysical_eq_none, ne_eq, hl, RangeFits]
  omega

section region

variable {m : Type → Type} [Monad m] {mark : Pmm → U32 → m Pmm} {pageSpan : U64 → U64 → U32 × U32}
  {base length : U64}

theorem markRegionM_none (hc : clipToPhysical base length = none) :
    markRegionM mark pageSpan s base length = pure (false, s) := by
  unfold markRegionM
  rw [hc]
  split_ifs <;> rfl

theorem markRegionM_some (hfr : s.ownershipFrozen = false) {span : U64 × U64}
    (hc : clipToPhysical base length = some span) :
    markRegionM mark pageSpan s base length =
      forRangeM mark (pageSpan span.1 span.2).1 (pageSpan span.1 span.2).2 s >>= fun s => pure (true, s) := by
  unfold markRegionM
  rw [hc, if_neg (by simp [hfr])]

theorem markRegionM_frozen (hfr : s.ownershipFrozen = true) :
    markRegionM mark pageSpan s base length = pure (false, s) := if_pos hfr

end region

/-- **`pmm_add_usable_region`** before the freeze: it succeeds unless the range
wraps, and then frees the unknown pages inside the range. -/
theorem addUsable_spec (hs : PmmOK s) (hfr : s.ownershipFrozen = false) (base length : U64) :
    ((pmmAddUsableRegion s base length).1 = true ↔ RangeFits base length) ∧
      PmmOK (pmmAddUsableRegion s base length).2 ∧
      (pmmAddUsableRegion s base length).2.ownershipFrozen = false ∧
      ∀ p < 1048576,
        (managed (pmmAddUsableRegion s base length).2 p = true ↔
          managed s p = true ∨ (RangeFits base length ∧ p ≠ 0 ∧
            PageInside base length p ∧ allocated s p = false)) ∧
        allocated (pmmAddUsableRegion s base length).2 p = allocated s p := by
  cases hc : clipToPhysical base length with
  | none =>
    have hw : ¬RangeFits base length := (clip_iff_fits base length).not.1 (by simp [hc])
    have hcall : pmmAddUsableRegion s base length = (false, s) := markRegionM_none hc
    rw [hcall]
    exact ⟨by simp [hw], hs, hfr, fun p _ => ⟨by simp [hw], rfl⟩⟩
  | some span =>
    obtain ⟨b, e⟩ := span
    have hw : RangeFits base length := (clip_iff_fits base length).1 (by simp [hc])
    have hcall : pmmAddUsableRegion s base length = (true, forRange markPageUsable _ _ s) :=
      markRegionM_some hfr hc
    rw [hcall]
    have hloop := markLoop_ok markPageUsable
      (fun hok hp => ⟨markPageUsable_ok hok hp, (counters_markPageUsable _ _).2.2⟩) hs
      (fun p hp => ((mem_inward hc p).1 hp).2.1)
    refine ⟨by simp [hw], hloop.1, hloop.2.trans hfr, fun p hp => ?_⟩
    obtain ⟨hm, ha⟩ := usableLoop_page s (inwardPageSpan b e).1 (inwardPageSpan b e).2 p
    refine ⟨?_, ha⟩
    have hspan := mem_inward hc p
    rw [and_iff_right hp, ← PageInside] at hspan
    rw [hm, isNew, Bool.or_eq_true, Bool.and_eq_true, decide_eq_true_iff, hspan]
    cases h1 : managed s p <;> simp [hw]
    tauto

/-- **`pmm_reserve_region`** before the freeze: it succeeds unless the range
wraps, and then reserves the pages the range touches. -/
theorem reserve_spec (hs : PmmOK s) (hfr : s.ownershipFrozen = false) (base length : U64) :
    ((pmmReserveRegion s base length).1 = true ↔ RangeFits base length) ∧
      PmmOK (pmmReserveRegion s base length).2 ∧
      (pmmReserveRegion s base length).2.ownershipFrozen = false ∧
      ∀ p < 1048576,
        (managed (pmmReserveRegion s base length).2 p = true ↔
          managed s p = true ∧
            ¬(RangeFits base length ∧ PageTouched base length p)) ∧
        (allocated (pmmReserveRegion s base length).2 p = true ↔
          allocated s p = true ∨ (RangeFits base length ∧ PageTouched base length p)) := by
  cases hc : clipToPhysical base length with
  | none =>
    have hw : ¬RangeFits base length := (clip_iff_fits base length).not.1 (by simp [hc])
    have hcall : pmmReserveRegion s base length = (false, s) := markRegionM_none hc
    rw [hcall]
    exact ⟨by simp [hw], hs, hfr, fun p _ => ⟨by simp [hw], by simp [hw]⟩⟩
  | some span =>
    obtain ⟨b, e⟩ := span
    have hw : RangeFits base length := (clip_iff_fits base length).1 (by simp [hc])
    have hcall : pmmReserveRegion s base length = (true, forRange markPageReserved _ _ s) :=
      markRegionM_some hfr hc
    rw [hcall]
    have hloop := markLoop_ok markPageReserved
      (fun hok hp => ⟨markPageReserved_ok hok hp, (counters_markPageReserved _ _).2.2⟩) hs
      (fun p hp => ((mem_outward hc p).1 hp).1)
    refine ⟨by simp [hw], hloop.1, hloop.2.trans hfr, fun p hp => ?_⟩
    obtain ⟨hm, ha⟩ := reserveLoop_page s (outwardPageSpan b e).1 (outwardPageSpan b e).2 p
    have hspan := mem_outward hc p
    rw [← pageTouched_iff, and_iff_right hp] at hspan
    have hset := hs.setup hfr p hp
    rw [hm, ha]
    by_cases hT : PageTouched base length p
    · rw [decide_eq_true (hspan.2 hT)]
      cases h1 : managed s p <;> simp [hw, hT]
      exact hset h1
    · rw [decide_eq_false (mt hspan.1 hT)]
      simp [hT]

/-- After the freeze both region calls are refused and change nothing. -/
theorem region_frozen (hfr : s.ownershipFrozen = true) (base length : U64) :
    pmmAddUsableRegion s base length = (false, s) ∧ pmmReserveRegion s base length = (false, s) :=
  ⟨markRegionM_frozen hfr, markRegionM_frozen hfr⟩

/-! ## Allocating and freeing -/

theorem getLsbD_freeMask (s : Pmm) (word : ℕ) {k : ℕ} (hk : k < 32) :
    (freeMask s word).getLsbD k = isFree s (32 * word + k) := by
  have h1 : (32 * word + k) / 32 = word := by omega
  have h2 : (32 * word + k) % 32 = k := by omega
  simp [freeMask, isFree, managed, allocated, pageBit, h1, h2, hk]

theorem freeMask_eq_zero (s : Pmm) (word : ℕ) :
    freeMask s word = 0 ↔ ∀ k < 32, isFree s (32 * word + k) = false := by
  constructor
  · intro h k hk
    rw [← getLsbD_freeMask s word hk, h]; simp
  · intro h
    apply BitVec.eq_of_getLsbD_eq
    intro k hk
    rw [getLsbD_freeMask s word hk, h k hk]; simp

/-- The state after `pmm_alloc_page` handed out `page`. -/
def afterAlloc (s : Pmm) (page : U32) : Pmm :=
  { setAllocated { s with ownershipFrozen := true } page true with freePages := s.freePages - 1 }

/-- **`pmm_alloc_page`** hands out the lowest free page, or returns 0 when there is
none. -/
theorem alloc_cases (hs : PmmOK s) :
    (pmmAllocPage s = (0, { s with ownershipFrozen := true }) ∧
        ∀ p < 1048576, isFree s p = false) ∨
      ∃ page : U32, page.toNat < 1048576 ∧ isFree s page.toNat = true ∧
        (∀ q < page.toNat, isFree s q = false) ∧
        pmmAllocPage s = (page <<< pmmPageShift, afterAlloc s page) := by
  unfold pmmAllocPage pmmAllocPageM
  by_cases h0 : s.freePages = 0
  · left
    refine ⟨if_pos h0, fun p hp => ?_⟩
    by_contra hfree
    have hpos := countBelow_pos hp (Bool.not_eq_false _ ▸ hfree)
    rw [← hs.free, h0] at hpos
    simp at hpos
  · dsimp only
    rw [if_neg h0]
    have hmask : ∀ word, freeMask { s with ownershipFrozen := true } word = freeMask s word := fun _ => rfl
    simp only [hmask]
    cases hw : (List.range pmmBitmapWords).find? fun word => freeMask s word != 0 with
    | none =>
      left
      refine ⟨rfl, fun p hp => ?_⟩
      rw [List.find?_eq_none] at hw
      have hz : freeMask s (p / 32) = 0 := by
        simpa using hw (p / 32) (List.mem_range.2 (by rw [pmmBitmapWords]; omega))
      have := (freeMask_eq_zero s (p / 32)).1 hz (p % 32) (by omega)
      rwa [show 32 * (p / 32) + p % 32 = p by omega] at this
    | some word =>
      right
      rw [List.find?_range_eq_some] at hw
      obtain ⟨hne, hlt, hbefore⟩ := hw
      rw [List.mem_range, pmmBitmapWords] at hlt
      have hne : freeMask s word ≠ 0 := by simpa using hne
      have hk : (freeMask s word).ctz.toNat < 32 := by
        simpa using BitVec.lt_def.1 (BitVec.ctz_lt_iff_ne_zero.2 hne)
      set bit := (freeMask s word).ctz with hbit
      have hpage : (BitVec.ofNat 32 word * 32 + bit).toNat = 32 * word + bit.toNat := by
        simp only [BitVec.toNat_add, BitVec.toNat_mul, BitVec.ofNat_eq_ofNat, BitVec.toNat_ofNat]
        omega
      refine ⟨BitVec.ofNat 32 word * 32 + bit, by omega, ?_, ?_, rfl⟩
      · rw [hpage, ← getLsbD_freeMask s word hk]
        exact BitVec.getLsbD_true_ctz_of_ne_zero hne
      · intro q hq
        rw [hpage] at hq
        rcases Nat.lt_or_ge (q / 32) word with hqw | hqw
        · -- an earlier word has no free page
          have hz : freeMask s (q / 32) = 0 := by simpa using hbefore (q / 32) hqw
          have := (freeMask_eq_zero s (q / 32)).1 hz (q % 32) (by omega)
          rwa [show 32 * (q / 32) + q % 32 = q by omega] at this
        · -- an earlier bit of the same word is clear
          have hq' : q = 32 * word + q % 32 := by omega
          rw [hq', ← getLsbD_freeMask s word (by omega)]
          exact BitVec.getLsbD_false_of_lt_ctz (by rw [← hbit]; omega)

/-- The state after `pmm_free_page` took back `page`. -/
def afterFree (s : Pmm) (page : U32) : Pmm :=
  { setAllocated s page false with freePages := s.freePages + 1 }

/-- **`pmm_free_page`** takes back exactly the address of an allocated page. -/
theorem free_cases (hs : PmmOK s) (a : U32) :
    (pmmFreePage s a = (false, s) ∧
        ¬∃ p < 1048576, a.toNat = 4096 * p ∧ managed s p = true ∧ allocated s p = true) ∨
      ∃ page : U32, page.toNat < 1048576 ∧ a.toNat = 4096 * page.toNat ∧
        managed s page.toNat = true ∧ allocated s page.toNat = true ∧
        pmmFreePage s a = (true, afterFree s page) := by
  unfold pmmFreePage pmmFreePageM
  have hlow : (a &&& 0xFFF).toNat = a.toNat % 4096 := toNat_and_low a (k := 12) (by omega)
  have hpage : (a >>> pmmPageShift).toNat = a.toNat / 4096 := by
    simp [Nat.shiftRight_eq_div_pow, pmmPageShift]
  by_cases h0 : a = 0
  · left
    refine ⟨if_pos h0, ?_⟩
    rintro ⟨p, -, hp, hm, -⟩
    have : p = 0 := by rw [h0] at hp; simp at hp; exact hp
    rw [this, hs.zero_managed] at hm
    simp at hm
  by_cases hal : a &&& 0xFFF ≠ 0
  · left
    refine ⟨by rw [if_neg h0, if_pos hal]; rfl, ?_⟩
    rintro ⟨p, -, hp, -, -⟩
    exact hal (by rw [← BitVec.toNat_inj, hlow]; simp; omega)
  have hal' : a.toNat % 4096 = 0 := by rw [← hlow, not_not.1 hal]; rfl
  have hmax : ¬a > (pmmPageCount - 1) <<< pmmPageShift := by
    rw [show (pmmPageCount - 1) <<< pmmPageShift = (0xFFFFF000 : U32) by decide]
    bv_omega
  rw [if_neg h0, if_neg hal, if_neg hmax]
  simp only [pageIsManaged_eq, pageIsAllocated_eq, hpage]
  have hdiv : a.toNat = 4096 * (a.toNat / 4096) := by omega
  split_ifs with hc
  · left
    refine ⟨rfl, ?_⟩
    rintro ⟨p, -, hp, hm, ha⟩
    have : a.toNat / 4096 = p := by omega
    rw [this] at hc
    simp [hm, ha] at hc
  · right
    simp only [Bool.or_eq_true, Bool.not_eq_true', not_or, Bool.not_eq_false] at hc
    exact ⟨a >>> pmmPageShift, by omega, by omega, by rw [hpage]; exact hc.1, by rw [hpage]; exact hc.2, rfl⟩

/-! ## Every call keeps the invariant -/

@[simp] theorem managed_afterAlloc (s : Pmm) (page : U32) (p : ℕ) :
    managed (afterAlloc s page) p = managed s p := rfl

@[simp] theorem allocated_afterAlloc (s : Pmm) (page : U32) (p : ℕ) :
    allocated (afterAlloc s page) p = (decide (p = page.toNat) || allocated s p) := by
  change pageBit (assignBit s.allocatedPages page true) p = _
  rw [pageBit_assignBit]
  by_cases hp : p = page.toNat <;> simp [hp, allocated]

@[simp] theorem managed_afterFree (s : Pmm) (page : U32) (p : ℕ) :
    managed (afterFree s page) p = managed s p := rfl

@[simp] theorem allocated_afterFree (s : Pmm) (page : U32) (p : ℕ) :
    allocated (afterFree s page) p = (!decide (p = page.toNat) && allocated s p) := by
  change pageBit (assignBit s.allocatedPages page false) p = _
  rw [pageBit_assignBit]
  by_cases hp : p = page.toNat <;> simp [hp, allocated]

theorem afterAlloc_ok (hs : PmmOK s) {page : U32} (hp : page.toNat < 1048576)
    (hfree : isFree s page.toNat = true) : PmmOK (afterAlloc s page) := by
  have hF := countBelow_step (P := isFree s) (Q := isFree (afterAlloc s page)) hp
    (fun j hj => by simp [isFree, hj])
  have hb : isFree (afterAlloc s page) page.toNat = false := by simp [isFree]
  have hle := (hs.free_le hp).1
  rw [hfree] at hF hle
  refine ⟨hs.total, ?_, hs.zero_managed, by simp [hs.zero_allocated],
    fun h => by simp [afterAlloc, setAllocated] at h⟩
  have hsub := toNat_sub_flag s.freePages true hle
  change (s.freePages - 1).toNat = _
  rw [if_pos rfl] at hsub
  rw [hsub, hs.free]
  rw [hb] at hF
  simp only [Bool.toNat_true, Bool.toNat_false] at hF ⊢
  omega

theorem afterFree_ok (hs : PmmOK s) {page : U32} (hp : page.toNat < 1048576)
    (hm : managed s page.toNat = true) (ha : allocated s page.toNat = true) :
    PmmOK (afterFree s page) := by
  have hF := countBelow_step (P := isFree s) (Q := isFree (afterFree s page)) hp
    (fun j hj => by simp [isFree, hj])
  have hb : isFree s page.toNat = false := by simp [isFree, ha]
  have hb' : isFree (afterFree s page) page.toNat = true := by simp [isFree, hm]
  have hz : page.toNat ≠ 0 := fun h => by rw [h, hs.zero_managed] at hm; simp at hm
  refine ⟨hs.total, ?_, hs.zero_managed, by simp [hs.zero_allocated, hz.symm], fun h p hlt hm' => ?_⟩
  · have hadd := toNat_add_flag s.freePages true (hs.counters_lt true).2
    change (s.freePages + 1).toNat = _
    rw [if_pos rfl] at hadd
    rw [hadd, hs.free]
    rw [hb, hb'] at hF
    simp only [Bool.toNat_true, Bool.toNat_false] at hF ⊢
    omega
  · rw [allocated_afterFree, hs.setup h p hlt hm']; simp

theorem regionStep_ok (hs : PmmOK s) (c : RegionCall) : PmmOK (regionStep s c).2 := by
  cases c with
  | addUsable base length =>
    change PmmOK (pmmAddUsableRegion s base length).2
    cases hfr : s.ownershipFrozen with
    | false => exact (addUsable_spec hs hfr base length).2.1
    | true => rw [(region_frozen hfr base length).1]; exact hs
  | reserve base length =>
    change PmmOK (pmmReserveRegion s base length).2
    cases hfr : s.ownershipFrozen with
    | false => exact (reserve_spec hs hfr base length).2.1
    | true => rw [(region_frozen hfr base length).2]; exact hs

theorem pageStep_ok (hs : PmmOK s) (c : PageCall) : PmmOK (pageStep s c).2 := by
  cases c with
  | alloc =>
    change PmmOK (pmmAllocPage s).2
    rcases alloc_cases hs with ⟨h, -⟩ | ⟨page, hp, hfree, -, h⟩
    · rw [h]; exact hs.frozen
    · rw [h]; exact afterAlloc_ok hs hp hfree
  | free a =>
    change PmmOK (pmmFreePage s a).2
    rcases free_cases hs a with ⟨h, -⟩ | ⟨page, hp, -, hm, ha, h⟩
    · rw [h]; exact hs
    · rw [h]; exact afterFree_ok hs hp hm ha

/-- **Every call keeps the accounting invariant.** -/
theorem pmmStep_ok (hs : PmmOK s) (c : PmmCall) : PmmOK (pmmStep s c).2 := by
  cases c with
  | region c => exact regionStep_ok hs c
  | page c => exact pageStep_ok hs c

end TinyShell
