import TinyShell.Spec.Boot
import TinyShell.Proof.MemoryMap
import TinyShell.Proof.PmmRuns

/-!
# Boot ownership safety

The ownership sequence of `kernel_main` is a run of region calls (`bootCalls`),
so `ownedBy_run` says which pages it leaves managed. Allocation and freeing never
change the managed set, hence every page handed out later is inside one usable
region of the memory map and clear of everything the kernel reserved.
-/

namespace TinyShell

open Machine

variable {m : Memory}

/-- The region call that imports one region of the memory map. -/
def importCall (r : BootMemoryRegion) : RegionCall :=
  if r.type = 1 then .addUsable r.base r.length else .reserve r.base r.length

/-- The region calls of the ownership sequence. -/
def bootCalls (rs : List BootMemoryRegion) (kernelStart kernelEnd : U32) (owned : BootOwnedRanges) :
    List RegionCall :=
  rs.map importCall ++
    [.reserve 0 lowMemoryLimit,
      .reserve (kernelStart.setWidth 64) ((kernelEnd - kernelStart).setWidth 64),
      .reserve (owned.infoAddress.setWidth 64) (owned.infoLength.setWidth 64),
      .reserve (owned.mmapAddress.setWidth 64) (owned.mmapLength.setWidth 64)]

theorem addMemoryRegion_eq (s : Pmm) (r : BootMemoryRegion) :
    addMemoryRegion s r = regionStep s (importCall r) := by
  unfold addMemoryRegion importCall
  split_ifs <;> rfl

theorem importCall_range (r : BootMemoryRegion) : (importCall r).range = (r.base, r.length) := by
  unfold importCall
  split_ifs <;> rfl

theorem mem_records_fits {stop cursor : ℕ} {rs : List BootMemoryRegion} (h : Records m stop cursor rs) :
    ∀ r ∈ rs, RangeFits r.base r.length := by
  induction h with
  | done => simp
  | record _ _ _ h4 _ ih =>
    intro r hr
    rcases List.mem_cons.1 hr with rfl | hr
    · exact h4
    · exact ih r hr

/-- Importing regions that do not wrap succeeds, and is a run of region calls. -/
theorem visitAll_import {rs : List BootMemoryRegion} :
    ∀ {s : Pmm} {tr : List (RegionCall × Bool)}, OwnedBy tr s → (∀ r ∈ rs, RangeFits r.base r.length) →
      visitAll (visitRegion (some addMemoryRegion)) rs s = (true, exec regionStep s (rs.map importCall)) := by
  induction rs with
  | nil => intro s tr _ _; rfl
  | cons r rs ih =>
    intro s tr h hfit
    have hr := regionStep_result h.ok h.unfrozen (importCall r)
    rw [importCall_range] at hr
    have hok := hr.2 (hfit r List.mem_cons_self)
    rw [visitAll, visitRegion, addMemoryRegion_eq, if_pos hok,
      ih (ownedBy_step h (importCall r)) fun x hx => hfit x (List.mem_cons_of_mem _ hx)]
    rfl

/-- `pmm_alloc_page` and `pmm_free_page` never change which pages are managed. -/
theorem managed_pageStep {s : Pmm} (hs : PmmOK s) (c : PageCall) (p : ℕ) :
    managed (pageStep s c).2 p = managed s p := by
  cases c with
  | alloc =>
    change managed (pmmAllocPage s).2 p = _
    rcases alloc_cases hs with ⟨h, -⟩ | ⟨page, -, -, -, h⟩
    · rw [h]; rfl
    · rw [h]; exact managed_afterAlloc s page p
  | free a =>
    change managed (pmmFreePage s a).2 p = _
    rcases free_cases hs a with ⟨h, -⟩ | ⟨page, -, -, -, -, h⟩
    · rw [h]
    · rw [h]; exact managed_afterFree s page p

/-- Every page handed out in a run of page calls was managed at its start. -/
theorem alloc_managed {s : Pmm} (hs : PmmOK s) (cs : List PageCall) {a : U32}
    (h : (PageCall.alloc, PmmResult.page a) ∈ trace pageStep s cs) (ha : a ≠ 0) :
    ∃ p < 1048576, a.toNat = 4096 * p ∧ managed s p = true := by
  obtain ⟨es₁, es₂, -, hr⟩ := mem_trace h
  have hinv : PmmOK (exec pageStep s es₁) ∧ ∀ p, managed (exec pageStep s es₁) p = managed s p :=
    exec_inv (I := fun t => PmmOK t ∧ ∀ p, managed t p = managed s p)
    (fun t c ht => ⟨pageStep_ok ht.1 c, fun p => by rw [managed_pageStep ht.1, ht.2 p]⟩)
    ⟨hs, fun _ => rfl⟩ es₁
  have hr' : a = (pmmAllocPage (exec pageStep s es₁)).1 := PmmResult.page.inj hr
  rcases alloc_cases hinv.1 with ⟨he, -⟩ | ⟨page, hp, hfree, -, he⟩
  · rw [he] at hr'; exact absurd hr' ha
  · rw [he] at hr'
    rw [isFree, Bool.and_eq_true] at hfree
    exact ⟨page.toNat, hp, by rw [hr']; exact toNat_pageAddress hp, by rw [← hinv.2]; exact hfree.1⟩

/-- The ranges that `multiboot_get_owned_ranges` reports. -/
def ownedRanges (m : Memory) (infoAddress : U32) : BootOwnedRanges :=
  ⟨infoAddress, multibootInfoSize, infoMmapAddr m infoAddress, infoMmapLength m infoAddress⟩

theorem multibootParse_eq_true {magic infoAddress : U32} {summary : BootMemorySummary}
    (h : (multibootParse m magic infoAddress (some summary)).1 = true) :
    validateMultibootInfo m magic infoAddress = some infoAddress ∧
      ∃ n, (walkMemoryMap m infoAddress (none : Option (RegionVisitor Unit)) ()).1 = some n := by
  unfold multibootParse at h
  simp only at h
  cases hv : validateMultibootInfo m magic infoAddress with
  | none => rw [hv] at h; simp at h
  | some info =>
    rw [hv] at h
    obtain rfl := (validateMultibootInfo_eq_some hv).1
    cases hw : (walkMemoryMap m info (none : Option (RegionVisitor Unit)) ()).1 with
    | none => simp only [hw] at h; simp at h
    | some n => exact ⟨rfl, n, rfl⟩

/-- **The ownership sequence** succeeds on every memory map, and is the run of its
region calls. -/
theorem setupOwnership_eq {magic infoAddress kernelStart kernelEnd n : U32} {rs : List BootMemoryRegion}
    (hv : validateMultibootInfo m magic infoAddress = some infoAddress)
    (hw : (walkMemoryMap m infoAddress (none : Option (RegionVisitor Unit)) ()).1 = some n)
    (hmap : MemoryMap m infoAddress rs) (s₀ : Pmm) :
    setupOwnership m magic infoAddress kernelStart kernelEnd (ownedRanges m infoAddress) s₀ =
      (⟨true, true, true, true, true⟩,
        exec regionStep (pmmReset s₀) (bootCalls rs kernelStart kernelEnd (ownedRanges m infoAddress))) := by
  have hwalk : multibootForEachMemoryRegion m magic infoAddress (some addMemoryRegion) (pmmReset s₀) =
      (true, exec regionStep (pmmReset s₀) (rs.map importCall)) := by
    unfold multibootForEachMemoryRegion
    simp only [hv, hw, walkMemoryMap_records (some addMemoryRegion) hmap,
      visitAll_import (ownedBy_reset s₀) (mem_records_fits hmap.records)]
    rfl
  -- a range of 32-bit words never wraps, so each reservation succeeds
  have hfit : ∀ a b : U32, RangeFits (a.setWidth 64) (b.setWidth 64) := fun a b => by
    unfold RangeFits; bv_omega
  have hres : ∀ {tr : List (RegionCall × Bool)} {s : Pmm} (_ : OwnedBy tr s) (b l : U64), RangeFits b l →
      pmmReserveRegion s b l = (true, (regionStep s (.reserve b l)).2) := fun h b l hbl =>
    Prod.ext ((reserve_spec h.ok h.unfrozen b l).1.2 hbl) rfl
  have h0 := ownedBy_run s₀ (rs.map importCall)
  have h1 := ownedBy_step h0 (.reserve 0 lowMemoryLimit)
  have h2 := ownedBy_step h1 (.reserve (kernelStart.setWidth 64) ((kernelEnd - kernelStart).setWidth 64))
  have h3 := ownedBy_step h2 (.reserve ((ownedRanges m infoAddress).infoAddress.setWidth 64)
    ((ownedRanges m infoAddress).infoLength.setWidth 64))
  unfold setupOwnership
  simp only [hwalk, hres h0 _ _ (show RangeFits 0 lowMemoryLimit by unfold RangeFits; decide),
    hres h1 _ _ (hfit _ _), hres h2 _ _ (hfit _ _), hres h3 _ _ (hfit _ _), bootCalls, exec_append]
  rfl

/-- A page that shares no byte with a range. -/
theorem not_touched {base length : U64} {p x : ℕ} (h : ¬PageTouched base length p)
    (h1 : 4096 * p ≤ x) (h2 : x < 4096 * p + 4096) :
    ¬(base.toNat ≤ x ∧ x < base.toNat + length.toNat) :=
  fun hx => h ⟨x, hx.1, hx.2, h1, by omega⟩

/-- What page ownership promises of an address handed out: a page wholly inside
one usable region of the map that shares no byte with low memory, the kernel
image, the Multiboot info prefix, the map buffer or an unusable region. -/
structure SafePage (m : Memory) (infoAddress kernelStart kernelEnd : U32) (rs : List BootMemoryRegion)
    (a : U32) : Prop where
  aligned : a.toNat % 4096 = 0
  inside : ∃ r ∈ rs, r.type = 1 ∧ r.base.toNat ≤ a.toNat ∧ a.toNat + 4096 ≤ r.base.toNat + r.length.toNat
  above_low : 0x100000 ≤ a.toNat
  off_kernel : ∀ x, a.toNat ≤ x → x < a.toNat + 4096 → ¬(kernelStart.toNat ≤ x ∧ x < kernelEnd.toNat)
  off_info : ∀ x, a.toNat ≤ x → x < a.toNat + 4096 →
    ¬(infoAddress.toNat ≤ x ∧ x < infoAddress.toNat + 52)
  off_map : ∀ x, a.toNat ≤ x → x < a.toNat + 4096 →
    ¬((infoMmapAddr m infoAddress).toNat ≤ x ∧
      x < (infoMmapAddr m infoAddress).toNat + (infoMmapLength m infoAddress).toNat)
  off_unusable : ∀ r ∈ rs, r.type ≠ 1 → ∀ x, a.toNat ≤ x → x < a.toNat + 4096 →
    ¬(r.base.toNat ≤ x ∧ x < r.base.toNat + r.length.toNat)

/-- A page left managed by the ownership sequence is safe. -/
theorem safePage_of_managed {infoAddress kernelStart kernelEnd : U32} {rs : List BootMemoryRegion}
    (hmap : MemoryMap m infoAddress rs) (hk : kernelStart < kernelEnd) (s₀ : Pmm) {p : ℕ} {a : U32}
    (hp : p < 1048576) (ha : a.toNat = 4096 * p)
    (hm : managed (exec regionStep (pmmReset s₀)
      (bootCalls rs kernelStart kernelEnd (ownedRanges m infoAddress))) p = true) :
    SafePage m infoAddress kernelStart kernelEnd rs a := by
  set cs := bootCalls rs kernelStart kernelEnd (ownedRanges m infoAddress) with hcs
  obtain ⟨-, ⟨b, l, hcall, hin⟩, hres⟩ := ((ownedBy_run s₀ cs).managed p hp).1 hm
  have hfits := mem_records_fits hmap.records
  -- no reserved range of the sequence touches the page
  have hoff : ∀ base length, RegionCall.reserve base length ∈ cs → RangeFits base length →
      ¬PageTouched base length p := fun base length hmem hfit ht =>
    hres ⟨base, length, (mem_region_trace s₀ cs _ _).2 ⟨hmem, iff_of_true rfl hfit⟩, ht⟩
  have hfit : ∀ a b : U32, RangeFits (a.setWidth 64) (b.setWidth 64) := fun a b => by
    unfold RangeFits; bv_omega
  have hlow := hoff 0 lowMemoryLimit (by simp [hcs, bootCalls]) (by unfold RangeFits; decide)
  have hker := hoff _ _ (show RegionCall.reserve (kernelStart.setWidth 64)
    ((kernelEnd - kernelStart).setWidth 64) ∈ cs by simp [hcs, bootCalls]) (hfit _ _)
  have hinfo := hoff _ _ (show RegionCall.reserve (infoAddress.setWidth 64)
    (multibootInfoSize.setWidth 64) ∈ cs by simp [hcs, bootCalls, ownedRanges]) (hfit _ _)
  have hbuf := hoff _ _ (show RegionCall.reserve ((infoMmapAddr m infoAddress).setWidth 64)
    ((infoMmapLength m infoAddress).setWidth 64) ∈ cs by simp [hcs, bootCalls, ownedRanges]) (hfit _ _)
  refine ⟨by omega, ?_, ?_, fun x h1 h2 => ?_, fun x h1 h2 => ?_, fun x h1 h2 => ?_, ?_⟩
  · -- the only calls that add usable pages import type-1 regions
    have hmem := ((mem_region_trace s₀ cs _ _).1 hcall).1
    simp only [hcs, bootCalls, List.mem_append, List.mem_map, List.mem_cons, reduceCtorEq,
      List.not_mem_nil, or_false] at hmem
    obtain ⟨r, hr, hcr⟩ := hmem
    unfold importCall at hcr
    split_ifs at hcr with ht
    obtain ⟨rfl, rfl⟩ := RegionCall.addUsable.inj hcr
    unfold PageInside at hin
    exact ⟨r, hr, ht, by omega, by omega⟩
  · by_contra hlt
    exact hlow ⟨4096 * p, by simp, by simp [lowMemoryLimit]; omega, le_rfl, by omega⟩
  · have := not_touched hker (x := x) (by omega) (by omega)
    bv_omega
  · have := not_touched hinfo (x := x) (by omega) (by omega)
    simp only [multibootInfoSize] at this
    bv_omega
  · have := not_touched hbuf (x := x) (by omega) (by omega)
    bv_omega
  · intro r hr ht x h1 h2
    have hmem : RegionCall.reserve r.base r.length ∈ cs := by
      rw [hcs, bootCalls, List.mem_append]
      exact Or.inl (List.mem_map.2 ⟨r, hr, if_neg ht⟩)
    exact not_touched (hoff _ _ hmem (hfits r hr)) (by omega) (by omega)

/-- **Boot ownership safety.** For every memory map that `multiboot_parse` accepts
and every kernel range, the ownership sequence of `kernel_main` succeeds, and
every page handed out in any later run of `pmm_alloc_page` and `pmm_free_page` is
safe. -/
theorem boot_ownership (m : Memory) (magic infoAddress kernelStart kernelEnd : U32)
    (summary : BootMemorySummary) (ranges : BootOwnedRanges) (s₀ : Pmm)
    (hparse : (multibootParse m magic infoAddress (some summary)).1 = true)
    (hk : kernelStart < kernelEnd) :
    multibootGetOwnedRanges m magic infoAddress (some ranges) = (true, some (ownedRanges m infoAddress)) ∧
    (∃ rs, MemoryMap m infoAddress rs) ∧
    (setupOwnership m magic infoAddress kernelStart kernelEnd (ownedRanges m infoAddress) s₀).1 =
      ⟨true, true, true, true, true⟩ ∧
    ∀ rs, MemoryMap m infoAddress rs → ∀ (cs : List PageCall) (a : U32),
      (PageCall.alloc, PmmResult.page a) ∈ trace pageStep
        (setupOwnership m magic infoAddress kernelStart kernelEnd (ownedRanges m infoAddress) s₀).2 cs →
      a ≠ 0 → SafePage m infoAddress kernelStart kernelEnd rs a := by
  obtain ⟨hv, n, hw⟩ := multibootParse_eq_true hparse
  obtain ⟨-, -, -, -, hz, -, hfit⟩ := validateMultibootInfo_eq_some hv
  obtain ⟨rs, hmap⟩ := memoryMap_of_walk hz hfit hw
  refine ⟨?_, ⟨rs, hmap⟩, by rw [setupOwnership_eq hv hw hmap], fun rs' hmap' cs a htr ha => ?_⟩
  · simp only [multibootGetOwnedRanges, hv, hw, ownedRanges]
  · rw [setupOwnership_eq hv hw hmap'] at htr
    obtain ⟨p, hp, hap, hm⟩ := alloc_managed (ownedBy_run s₀ _).ok cs htr ha
    exact safePage_of_managed hmap' hk s₀ hp hap hm

/-- A Multiboot image with the info structure at address 4 and a map of one usable
megabyte at 2 MiB behind it. -/
def sampleMap : Memory :=
  [(4, 65), (48, 24), (52, 56), (56, 20), (60, 0x200000), (68, 0x100000), (76, 1)].foldl
    (fun m (w : ℕ × U32) => store32 m w.1 w.2) fun _ => 0

theorem sampleMap_memoryMap : MemoryMap sampleMap 4 [⟨0x200000, 0x100000, 1⟩] where
  buffer_ne_zero := by decide
  buffer_fits := by decide
  nonempty := by decide
  records := Records.record (by decide) (by decide) (by decide) (by decide) Records.done

theorem sampleMap_parse :
    (multibootParse sampleMap multibootBootloaderMagic 4 (some ⟨0, 0, 0⟩)).1 = true := by
  have hv : validateMultibootInfo sampleMap multibootBootloaderMagic 4 = some 4 := by decide
  have hw : (walkMemoryMap sampleMap 4 (none : Option (RegionVisitor Unit)) ()).1 = some 1 := by
    rw [walkMemoryMap_records none sampleMap_memoryMap, visitAll_none]
    decide
  simp only [multibootParse, hv, hw]

theorem boot_ownership_sample :
    (setupOwnership sampleMap multibootBootloaderMagic 4 0x100000 0x180000 (ownedRanges sampleMap 4)
      ⟨fun _ => 0, fun _ => 0, 0, 0, false⟩).1 = ⟨true, true, true, true, true⟩ ∧
    ∀ (cs : List PageCall) (a : U32),
      (PageCall.alloc, PmmResult.page a) ∈ trace pageStep
        (setupOwnership sampleMap multibootBootloaderMagic 4 0x100000 0x180000 (ownedRanges sampleMap 4)
          ⟨fun _ => 0, fun _ => 0, 0, 0, false⟩).2 cs →
      a ≠ 0 → SafePage sampleMap 4 0x100000 0x180000 [⟨0x200000, 0x100000, 1⟩] a := by
  obtain ⟨-, -, hresults, hsafe⟩ :=
    boot_ownership sampleMap multibootBootloaderMagic 4 0x100000 0x180000 ⟨0, 0, 0⟩ ⟨0, 0, 0, 0⟩
      ⟨fun _ => 0, fun _ => 0, 0, 0, false⟩ sampleMap_parse (by decide)
  exact ⟨hresults, hsafe _ sampleMap_memoryMap⟩

end TinyShell
