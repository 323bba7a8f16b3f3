import TinyShell.Spec.Multiboot

/-!
# The memory map as a sequence of records

`Records m stop cursor rs`: the bytes of `m` from `cursor` to `stop` are exactly
the records of the regions `rs`. The walk succeeds exactly on such buffers
(`walkLoop_sound`, `walkLoop_records`) and shows the visitor the regions in order.
-/

namespace TinyShell

open Machine

variable {m : Memory} {σ : Type*}

/-- A buffer that is a concatenation of map records: a 4-byte size of at least 20,
then that many bytes that start with base, length and type; no region is empty or
ends beyond `UINT64_MAX`. -/
inductive Records (m : Memory) (stop : ℕ) : ℕ → List BootMemoryRegion → Prop
  | done : Records m stop stop []
  | record {cursor : ℕ} {rs : List BootMemoryRegion} :
      20 ≤ (load32 m cursor).toNat → cursor + 4 + (load32 m cursor).toNat ≤ stop →
      (entryRegion m cursor).length ≠ 0 →
      (entryRegion m cursor).base.toNat + (entryRegion m cursor).length.toNat < 2 ^ 64 →
      Records m stop (cursor + 4 + (load32 m cursor).toNat) rs →
      Records m stop cursor (entryRegion m cursor :: rs)

/-- A record takes at least 24 bytes. -/
theorem Records.length_le {stop cursor : ℕ} {rs : List BootMemoryRegion}
    (h : Records m stop cursor rs) : cursor + 24 * rs.length ≤ stop := by
  induction h with
  | done => simp
  | record h1 h2 _ _ _ ih => simp only [List.length_cons]; omega

/-- Regions are shown to the visitor in order until it refuses one. -/
def visitAll (visit : RegionVisitor σ) : List BootMemoryRegion → σ → Bool × σ
  | [], context => (true, context)
  | r :: rs, context =>
    if (visit context r).1 then visitAll visit rs (visit context r).2 else (false, (visit context r).2)

theorem walkLoop_done (visitor : Option (RegionVisitor σ)) (stop count : U32) (context : σ) :
    walkLoop m visitor stop stop count context = (some count, context) := by
  rw [walkLoop, if_neg (by simp)]

/-- The walk over one well-formed record. -/
theorem walkLoop_record (visitor : Option (RegionVisitor σ)) {mmapEnd cursor count : U32} (context : σ)
    (h1 : 20 ≤ (load32 m cursor.toNat).toNat)
    (h2 : cursor.toNat + 4 + (load32 m cursor.toNat).toNat ≤ mmapEnd.toNat)
    (h3 : (entryRegion m cursor.toNat).length ≠ 0)
    (h4 : (entryRegion m cursor.toNat).base.toNat + (entryRegion m cursor.toNat).length.toNat < 2 ^ 64)
    (hcount : count.toNat < 2 ^ 32 - 1) :
    walkLoop m visitor mmapEnd cursor count context =
      if (visitRegion visitor context (entryRegion m cursor.toNat)).1 then
        walkLoop m visitor mmapEnd (cursor + (load32 m cursor.toNat + 4)) (count + 1)
          (visitRegion visitor context (entryRegion m cursor.toNat)).2
      else (none, (visitRegion visitor context (entryRegion m cursor.toNat)).2) := by
  rw [walkLoop]
  have c1 : cursor < mmapEnd := by bv_omega
  have c2 : ¬mmapEnd - cursor < 4 := by bv_omega
  have c3 : ¬(load32 m cursor.toNat < 20 ∨ load32 m cursor.toNat > 0xFFFFFFFF - 4) := by bv_omega
  have c4 : ¬(load32 m cursor.toNat + 4 > mmapEnd - cursor ∨ (entryRegion m cursor.toNat).length = 0) := by
    rintro (h | h)
    · bv_omega
    · exact h3 h
  have c5 : ¬((entryRegion m cursor.toNat).base > 0xFFFFFFFFFFFFFFFF - (entryRegion m cursor.toNat).length ∨
      count = 0xFFFFFFFF) := by
    rintro (h | h) <;> bv_omega
  simp only [c1, c2, c3, c4, c5, if_true, if_false, dite_false]

/-- A walk that goes on to a result was at the end of the buffer or on a
well-formed record. -/
theorem walkLoop_inv {visitor : Option (RegionVisitor σ)} {mmapEnd cursor count n : U32} {context : σ}
    (h : (walkLoop m visitor mmapEnd cursor count context).1 = some n) :
    (mmapEnd ≤ cursor ∧ n = count) ∨
      (20 ≤ (load32 m cursor.toNat).toNat ∧
        cursor.toNat + 4 + (load32 m cursor.toNat).toNat ≤ mmapEnd.toNat ∧
        (entryRegion m cursor.toNat).length ≠ 0 ∧
        (entryRegion m cursor.toNat).base.toNat + (entryRegion m cursor.toNat).length.toNat < 2 ^ 64 ∧
        count.toNat < 2 ^ 32 - 1 ∧
        (walkLoop m visitor mmapEnd (cursor + (load32 m cursor.toNat + 4)) (count + 1)
          (visitRegion visitor context (entryRegion m cursor.toNat)).2).1 = some n) := by
  by_cases c1 : cursor < mmapEnd
  · right
    rw [walkLoop] at h
    by_cases c2 : mmapEnd - cursor < 4
    · simp only [c1, c2, if_true] at h; simp at h
    by_cases c3 : load32 m cursor.toNat < 20 ∨ load32 m cursor.toNat > 0xFFFFFFFF - 4
    · simp only [c1, c2, c3, if_true, if_false, dite_true] at h; simp at h
    by_cases c4 : load32 m cursor.toNat + 4 > mmapEnd - cursor ∨ (entryRegion m cursor.toNat).length = 0
    · simp only [c1, c2, c3, c4, if_true, if_false, dite_true, dite_false] at h; simp at h
    by_cases c5 : (entryRegion m cursor.toNat).base > 0xFFFFFFFFFFFFFFFF - (entryRegion m cursor.toNat).length ∨
        count = 0xFFFFFFFF
    · simp only [c1, c2, c3, c4, c5, if_true, if_false, dite_false] at h; simp at h
    simp only [c1, c2, c3, c4, c5, if_true, if_false, dite_false] at h
    split_ifs at h
    simp only [not_or] at c3 c4 c5
    exact ⟨by bv_omega, by bv_omega, c4.2, by bv_omega, by bv_omega, h⟩
  · left
    rw [walkLoop, if_neg c1] at h
    exact ⟨by bv_omega, (Option.some.inj h).symm⟩

/-- **Soundness of the walk**: a buffer it gets through is a sequence of records. -/
theorem walkLoop_sound {visitor : Option (RegionVisitor σ)} {mmapEnd : U32} {n : U32} :
    ∀ (k : ℕ) (cursor count : U32) (context : σ),
    mmapEnd.toNat - cursor.toNat = k → cursor ≤ mmapEnd →
      (walkLoop m visitor mmapEnd cursor count context).1 = some n →
      ∃ rs, Records m mmapEnd.toNat cursor.toNat rs := by
  intro k
  -- on the bytes that remain: a record leaves at least 24 fewer
  induction k using Nat.strong_induction_on with
  | _ k ih =>
    intro cursor count context hk hle h
    rcases walkLoop_inv h with ⟨hge, -⟩ | ⟨h1, h2, h3, h4, -, hrec⟩
    · have : cursor.toNat = mmapEnd.toNat := by bv_omega
      exact ⟨[], this ▸ Records.done⟩
    · have hnext : (cursor + (load32 m cursor.toNat + 4)).toNat =
          cursor.toNat + 4 + (load32 m cursor.toNat).toNat := by bv_omega
      obtain ⟨rs, hrs⟩ := ih _ (by omega) _ _ _ rfl (by bv_omega) hrec
      rw [hnext] at hrs
      exact ⟨_, Records.record h1 h2 h3 h4 hrs⟩

/-- **The walk over a sequence of records** shows the visitor each region in
order. -/
theorem walkLoop_records (visitor : Option (RegionVisitor σ)) {mmapEnd : U32} {cur : ℕ}
    {rs : List BootMemoryRegion} (h : Records m mmapEnd.toNat cur rs) :
    ∀ (cursor count : U32) (context : σ), cursor.toNat = cur → count.toNat + rs.length < 2 ^ 32 - 1 →
      walkLoop m visitor mmapEnd cursor count context =
        (if (visitAll (visitRegion visitor) rs context).1 then some (count + BitVec.ofNat 32 rs.length) else none,
          (visitAll (visitRegion visitor) rs context).2) := by
  induction h with
  | done =>
    intro cursor count context hcur _
    rw [BitVec.toNat_inj.1 hcur, walkLoop_done]
    simp [visitAll]
  | record h1 h2 h3 h4 hrs ih =>
    rename_i c rs
    intro cursor count context hcur hcount
    subst hcur
    rw [List.length_cons] at hcount
    rw [walkLoop_record visitor context h1 h2 h3 h4 (by omega), visitAll]
    have hnext : (cursor + (load32 m cursor.toNat + 4)).toNat =
        cursor.toNat + 4 + (load32 m cursor.toNat).toNat := by bv_omega
    have hcnt : (count + 1).toNat = count.toNat + 1 := by bv_omega
    by_cases hv : (visitRegion visitor context (entryRegion m cursor.toNat)).1 = true
    · rw [if_pos hv, if_pos hv, ih _ _ _ hnext (by omega)]
      have : count + 1 + BitVec.ofNat 32 rs.length = count + BitVec.ofNat 32 (rs.length + 1) := by
        bv_omega
      rw [this, List.length_cons]
    · rw [if_neg hv, if_neg hv]
      simp

theorem visitAll_none (rs : List BootMemoryRegion) (context : σ) :
    visitAll (visitRegion none) rs context = (true, context) := by
  induction rs with
  | nil => rfl
  | cons r rs ih => simp only [visitAll, visitRegion, if_true, ih]

/-! ## The entry points -/

/-- The memory map of a validated info structure: its buffer is a non-empty
sequence of records. -/
structure MemoryMap (m : Memory) (info : U32) (rs : List BootMemoryRegion) : Prop where
  buffer_ne_zero : infoMmapAddr m info ≠ 0
  buffer_fits : (infoMmapAddr m info).toNat + (infoMmapLength m info).toNat < 2 ^ 32
  records : Records m ((infoMmapAddr m info).toNat + (infoMmapLength m info).toNat)
    (infoMmapAddr m info).toNat rs
  nonempty : rs ≠ []

theorem validateMultibootInfo_eq_some {magic infoAddress info : U32}
    (h : validateMultibootInfo m magic infoAddress = some info) :
    info = infoAddress ∧ magic = multibootBootloaderMagic ∧ infoAddress ≠ 0 ∧
      infoAddress.toNat + 52 < 2 ^ 32 ∧ infoMmapAddr m infoAddress ≠ 0 ∧
      infoMmapLength m infoAddress ≠ 0 ∧
      (infoMmapAddr m infoAddress).toNat + (infoMmapLength m infoAddress).toNat < 2 ^ 32 := by
  unfold validateMultibootInfo at h
  by_cases h1 : magic ≠ multibootBootloaderMagic ∨ infoAddress = 0 ∨
      infoAddress > 0xFFFFFFFF - multibootInfoSize
  · rw [if_pos h1] at h; simp at h
  rw [if_neg h1] at h
  simp only at h
  split_ifs at h with h2
  simp only [not_or, not_not] at h1 h2
  refine ⟨(Option.some.inj h).symm, h1.1, h1.2.1, ?_, h2.2.1, h2.2.2.1, ?_⟩
  · have := h1.2.2; rw [multibootInfoSize] at this; bv_omega
  · have := h2.2.2.2; bv_omega

/-- **The walk accepts exactly the memory maps.** -/
theorem walkMemoryMap_records (visitor : Option (RegionVisitor σ)) {info : U32}
    {rs : List BootMemoryRegion} (h : MemoryMap m info rs) (context : σ) :
    walkMemoryMap m info visitor context =
      (if (visitAll (visitRegion visitor) rs context).1 then some (BitVec.ofNat 32 rs.length) else none,
        (visitAll (visitRegion visitor) rs context).2) := by
  have hend : (infoMmapAddr m info + infoMmapLength m info).toNat =
      (infoMmapAddr m info).toNat + (infoMmapLength m info).toNat := by
    have := h.buffer_fits; bv_omega
  have hrec := h.records
  have hlen := hrec.length_le
  have hpos : 0 < rs.length := List.length_pos_of_ne_nil h.nonempty
  have hlt := (infoMmapAddr m info + infoMmapLength m info).isLt
  rw [← hend] at hrec
  unfold walkMemoryMap
  simp only
  rw [walkLoop_records visitor hrec _ 0 context rfl (by simp; omega)]
  by_cases hv : (visitAll (visitRegion visitor) rs context).1 = true
  · have hne : BitVec.ofNat 32 rs.length ≠ 0#32 := by bv_omega
    simp [hv, hne]
  · simp [hv]

theorem memoryMap_of_walk {visitor : Option (RegionVisitor σ)} {context : σ} {info n : U32}
    (hz : infoMmapAddr m info ≠ 0) (hfit : (infoMmapAddr m info).toNat + (infoMmapLength m info).toNat < 2 ^ 32)
    (h : (walkMemoryMap m info visitor context).1 = some n) : ∃ rs, MemoryMap m info rs := by
  have hend : (infoMmapAddr m info + infoMmapLength m info).toNat =
      (infoMmapAddr m info).toNat + (infoMmapLength m info).toNat := by bv_omega
  unfold walkMemoryMap at h
  simp only at h
  cases hl : walkLoop m visitor (infoMmapAddr m info + infoMmapLength m info) (infoMmapAddr m info) 0 context with
  | mk count last =>
    rw [hl] at h
    cases count with
    | none => simp at h
    | some count =>
      have hl' := congrArg Prod.fst hl
      obtain ⟨rs, hrs⟩ := walkLoop_sound _ _ _ _ rfl (by bv_omega) hl'
      refine ⟨rs, hz, hfit, hend ▸ hrs, ?_⟩
      -- an empty map would leave the count at zero
      rintro rfl
      have := walkLoop_records visitor hrs _ 0 context rfl (by simp)
      rw [hl, visitAll] at this
      simp only [List.length_nil, if_true, Prod.mk.injEq, Option.some.injEq] at this
      rw [this.1] at h
      simp at h

end TinyShell
