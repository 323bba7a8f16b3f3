import TinyShell.Machine.Run
import TinyShell.Proof.VmmPool

/-!
# Paging refines a finite map

The abstract model is a partial map from the pages of the dynamic window, with
room for mappings in at most 32 regions of 4 MiB. Every call of the VMM answers as
the abstract model does, and the page tables hold exactly its mappings.

* `vmmStep_sim`, `vmmRun_sim`: one call and whole runs.
* `vmmTranslate_eq`: `vmm_translate` reads the abstract map.
* `hardwareWalk_eq`: so does the processor, with its permissions.
-/

namespace TinyShell

open Machine

variable {layout : TableLayout} {s : Vmm} {M : PageMap} {O : Set ℕ}

/-! ## The abstract model -/

/-- The 4 MiB region of an address. -/
def region (v : U32) : ℕ := v.toNat / 4194304

/-- The regions that hold a mapping. -/
def regions (M : PageMap) : Set ℕ := { r | ∃ v x, M v = some x ∧ region v = r }

/-- A page can be mapped: it is an unmapped page of the window, the arguments are well
formed, and there is room for its region. -/
structure MapAllowed (M : PageMap) (v p flags : U32) : Prop where
  window : 0x40000000 ≤ v.toNat ∧ v.toNat < 0xF0000000
  aligned : v.toNat % 4096 = 0
  page_aligned : p.toNat % 4096 = 0
  flags_known : flags &&& ~~~(vmmWritable ||| vmmUser) = 0
  unmapped : M v = none
  room : region v ∈ regions M ∨ (regions M).ncard < 32

open Classical in
/-- One call of the abstract model. -/
noncomputable def pageMapStep (M : PageMap) : VmmCall → VmmResult × PageMap
  | .map v p flags =>
    if MapAllowed M v p flags then (.mapped true, Function.update M v (some ⟨p, flags⟩))
    else (.mapped false, M)
  | .unmap v (some out) =>
    match M v with
    | some x => (.unmapped true (some x.page), Function.update M v none)
    | none => (.unmapped false (some out), M)
  | .unmap _ none => (.unmapped false none, M)

/-- No page is mapped. -/
def emptyMap : PageMap := fun _ => none

/-! ## Counting tables -/

theorem directoryIndex_eq_region (v : U32) : directoryIndex v = region v := directoryIndex_eq v

/-- There is a free table exactly when fewer than 32 regions have one. -/
theorem free_table_iff (h : PoolOK layout s M O) :
    (∃ t, 32 ≤ t ∧ t < 64 ∧ s.tableInUse t = false) ↔ O.ncard < 32 := by
  have hmaps : ∀ d ∈ O, (s.directoryTableIndices d).toNat ∈ Set.Ico 32 64 := by
    intro d hd
    exact ⟨(h.table hd).1, (h.table hd).2.1⟩
  have hinj : Set.InjOn (fun d => (s.directoryTableIndices d).toNat) O :=
    fun d hd d' hd' heq => h.table_inj hd hd' heq
  have hfin : O.Finite := (Set.finite_Ico 256 960).subset h.window
  have hcard : (Set.Ico 32 64 : Set ℕ).ncard = 32 := by simp [Set.ncard_eq_toFinset_card']
  constructor
  · rintro ⟨t, h1, h2, hfree⟩
    -- the regions inject into the other 31 tables
    have hle := Set.ncard_le_ncard_of_injOn (t := Set.Ico 32 64 \ {t}) _ (fun d hd => by
      refine ⟨hmaps d hd, ?_⟩
      rintro rfl
      obtain ⟨u, -, hu, hi, huse, -⟩ := h.opened d hd
      rw [hi, toNat_index hu, huse] at hfree
      simp at hfree) hinj ((Set.finite_Ico 32 64).sdiff)
    rw [Set.ncard_sdiff_singleton_of_mem (show t ∈ Set.Ico 32 64 from ⟨h1, h2⟩), hcard] at hle
    omega
  · intro hlt
    by_contra hnone
    have hall : ∀ t, 32 ≤ t → t < 64 → s.tableInUse t = true := by
      intro t h1 h2
      by_contra hf
      exact hnone ⟨t, h1, h2, by simpa using hf⟩
    have hsub : Set.Ico 32 64 ⊆ (fun d => (s.directoryTableIndices d).toNat) '' O := by
      rintro t ⟨h1, h2⟩
      obtain ⟨d, hd, hi⟩ := h.taken t h1 h2 (hall t h1 h2)
      exact ⟨d, hd, by simp only [hi, toNat_index h2]⟩
    have h1 := Set.ncard_le_ncard hsub (hfin.image _)
    have h2 := Set.ncard_image_le (f := fun d => (s.directoryTableIndices d).toNat) hfin
    omega

/-! ## The calls -/

/-- The page tables hold the mappings `M`, and exactly the regions with a mapping have
a table. -/
abbrev VmmOK (layout : TableLayout) (s : Vmm) (M : PageMap) : Prop := PoolOK layout s M (regions M)

theorem regions_update_some (M : PageMap) (v : U32) (x : Mapping) (hv : M v = none) :
    regions (Function.update M v (some x)) = insert (region v) (regions M) := by
  ext r
  simp only [regions, Set.mem_ofPred_eq, Set.mem_insert_iff]
  constructor
  · rintro ⟨w, y, hw, rfl⟩
    by_cases hwv : w = v
    · exact Or.inl (by rw [hwv])
    · rw [Function.update_of_ne hwv] at hw
      exact Or.inr ⟨w, y, hw, rfl⟩
  · rintro (rfl | ⟨w, y, hw, rfl⟩)
    · exact ⟨v, x, Function.update_self .., rfl⟩
    · refine ⟨w, y, ?_, rfl⟩
      rw [Function.update_of_ne, hw]
      rintro rfl
      rw [hv] at hw
      simp at hw

theorem vmmInit_ok (layout : TableLayout) {s₀ : Vmm} (h : s₀.enabled = false) :
    (vmmInit layout s₀).1 = true ∧ VmmOK layout (vmmInit layout s₀).2 emptyMap := by
  have hempty : regions emptyMap = ∅ := by
    ext r
    simp [regions, emptyMap]
  have huse : ∀ t < 64, (fill s₀.tableInUse 0 pageTableCount fun t => decide (t < identityTableCount)) t =
      decide (t < 32) := fun t ht => fill_of_mem (Nat.zero_le _) ht
  unfold vmmInit
  simp only [h, Bool.false_eq_true, if_false]
  refine ⟨trivial, ?_⟩
  rw [VmmOK, hempty]
  refine ⟨rfl, by simp [emptyMap], by simp, ?_, ?_, by simp, by simp [emptyMap], by simp, ?_, by simp⟩
  · intro t ht
    refine ⟨fill_of_mem (Nat.zero_le _) ht, fill_of_mem (Nat.zero_le _) ht, ?_, ?_⟩
    · exact (huse t (by omega)).trans (decide_eq_true ht)
    · intro e he
      simp only
      rw [fill_of_mem (Nat.zero_le _) ht]
      exact fill_of_mem (Nat.zero_le _) he
  · intro d hd h32 _
    have hnot : ¬(0 ≤ d ∧ d < identityTableCount) := by
      rintro ⟨-, hlt⟩
      exact absurd hlt (by change ¬d < 32; omega)
    exact ⟨(fill_of_not_mem hnot).trans (fill_of_mem (Nat.zero_le _) hd),
      (fill_of_not_mem hnot).trans (fill_of_mem (Nat.zero_le _) hd)⟩
  · intro t h1 h2 ht
    have hlt := of_decide_eq_true ((huse t h2).symm.trans ht)
    omega

/-- The argument checks of `vmm_map_page`. -/
theorem mapArgs_iff (v p flags : U32) (hen : s.enabled = true) :
    (!s.enabled || !dynamicAddressIsValid v || decide (p &&& pageOffsetMask ≠ 0) ||
      decide (flags &&& ~~~vmmAllowedFlags ≠ 0)) = false ↔
    dynamicAddressIsValid v = true ∧ p.toNat % 4096 = 0 ∧ flags &&& ~~~vmmAllowedFlags = 0 := by
  rw [hen]
  simp only [Bool.or_eq_false_iff, decide_eq_false_iff_not, not_not, Bool.not_true, true_and, Bool.not_eq_false',
    offset_eq_zero, and_assoc, ne_eq]

theorem window_iff (v : U32) : dynamicAddressIsValid v = true ↔
    (0x40000000 ≤ v.toNat ∧ v.toNat < 0xF0000000) ∧ v.toNat % 4096 = 0 := by
  rw [valid_iff, directoryIndex_eq]
  omega

/-- **Mapping a page** of an open region. Only a page for the user raises the user bit of the
directory slot, and before its entry is stored. -/
theorem mapEntry_ok (h : PoolOK layout s M O) {v p flags : U32} (hval : dynamicAddressIsValid v = true)
    (hvO : directoryIndex v ∈ O) (hpage : p &&& pageOffsetMask = 0) :
    (makePageFlags flags &&& pageUser ≠ 0 →
      PoolOK layout (storeEntry (raiseUser s (directoryIndex v)) v (encode (some ⟨p, flags⟩)))
        (Function.update M v (some ⟨p, flags⟩)) O) ∧
    (¬makePageFlags flags &&& pageUser ≠ 0 →
      PoolOK layout (storeEntry s v (encode (some ⟨p, flags⟩))) (Function.update M v (some ⟨p, flags⟩)) O) := by
  constructor
  · intro _
    apply store_ok (raise_ok h hvO) hval hvO
    intro y hy
    obtain rfl := Option.some.inj hy
    refine ⟨hpage, fun _ => ?_⟩
    rw [raiseUser_self]
    exact or_user_and_user _
  · intro huser
    apply store_ok h hval hvO
    intro y hy
    obtain rfl := Option.some.inj hy
    exact ⟨hpage, fun hu => absurd ((makePageFlags_user flags).2 hu) huser⟩

/-- A region whose slot has a table is open. -/
theorem open_of_index (h : PoolOK layout s M O) {v : U32} (hval : dynamicAddressIsValid v = true)
    (hindex : s.directoryTableIndices (directoryIndex v) ≠ tableIndexNone) : directoryIndex v ∈ O := by
  by_contra hvO
  have hwin := (valid_iff v).1 hval
  exact hindex (h.closed _ (directoryIndex_lt v) (by omega) hvO).1

/-- **`vmm_map_page`** maps what the abstract model allows. -/
theorem vmmMapPage_true (h : VmmOK layout s M) {v p flags : U32} (hallow : MapAllowed M v p flags) :
    (vmmMapPage layout s v p flags).1 = true ∧
      VmmOK layout (vmmMapPage layout s v p flags).2 (Function.update M v (some ⟨p, flags⟩)) := by
  have hval : dynamicAddressIsValid v = true := (window_iff v).2 ⟨hallow.window, hallow.aligned⟩
  have hwin := (valid_iff v).1 hval
  have hargs := (mapArgs_iff (s := s) v p flags h.enabled).2
    ⟨hval, hallow.page_aligned, hallow.flags_known⟩
  have hroom := hallow.room
  rw [← free_table_iff h, ← directoryIndex_eq_region] at hroom
  -- the region has a table now, and the entry of the page in it is not present
  obtain ⟨s', hopen, hs'⟩ := open_ok h ⟨hwin.1, hwin.2.1⟩ hroom
  have hvO : directoryIndex v ∈ insert (directoryIndex v) (regions M) := Set.mem_insert _ _
  have hentry := hs'.entries v hval hvO
  rw [hallow.unmapped] at hentry
  have habsent : ¬s'.pageTables (s'.directoryTableIndices (directoryIndex v)).toNat (entryIndex v) &&&
      pagePresent ≠ 0 := by
    rw [hentry]
    simp [encode]
  have hregions := regions_update_some M v ⟨p, flags⟩ hallow.unmapped
  rw [← directoryIndex_eq_region] at hregions
  have hpage : p &&& pageOffsetMask = 0 := (offset_eq_zero p).2 hallow.page_aligned
  unfold vmmMapPage
  simp only [hargs, Bool.false_eq_true, if_false, hopen, if_neg habsent]
  refine ⟨trivial, ?_⟩
  rw [VmmOK, hregions]
  obtain ⟨hraised, hplain⟩ := mapEntry_ok hs' hval hvO hpage
  by_cases huser : makePageFlags flags &&& pageUser ≠ 0
  · simp only [if_pos huser]
    exact hraised huser
  · simp only [if_neg huser]
    exact hplain huser

/-- Everything else it refuses, and leaves the state as it was. -/
theorem vmmMapPage_false (h : VmmOK layout s M) {v p flags : U32} (hno : ¬MapAllowed M v p flags) :
    vmmMapPage layout s v p flags = (false, s) := by
  unfold vmmMapPage
  simp only
  by_cases hargs : (!s.enabled || !dynamicAddressIsValid v || decide (p &&& pageOffsetMask ≠ 0) ||
      decide (flags &&& ~~~vmmAllowedFlags ≠ 0)) = true
  · rw [if_pos hargs]
  · rw [if_neg hargs]
    obtain ⟨hval, hp, hf⟩ := (mapArgs_iff (s := s) v p flags h.enabled).1 (by simpa using hargs)
    have hwin := (valid_iff v).1 hval
    by_cases hvO : directoryIndex v ∈ regions M
    · -- the region has a table, so the page itself is mapped
      have hmapped : M v ≠ none := by
        intro hnone
        obtain ⟨h1, h2⟩ := (window_iff v).1 hval
        exact hno ⟨h1, h2, hp, hf, hnone, Or.inl (by rwa [← directoryIndex_eq_region])⟩
      have hpresent : s.pageTables (s.directoryTableIndices (directoryIndex v)).toNat (entryIndex v) &&&
          pagePresent ≠ 0 := by
        rw [h.entries v hval hvO, ne_eq, encode_present]
        exact hmapped
      rw [openTable, if_neg (h.table hvO).2.2]
      simp only [if_pos hpresent]
    · -- the page is not mapped, so there is no room for its region
      have hnone : M v = none := by
        cases hm : M v with
        | none => rfl
        | some x => exact absurd (h.valid v x hm).2.1 hvO
      have hfull : ∀ t, 32 ≤ t → t < 64 → s.tableInUse t = true := by
        intro t h1 h2
        by_contra hfree
        obtain ⟨h3, h4⟩ := (window_iff v).1 hval
        exact hno ⟨h3, h4, hp, hf, hnone, Or.inr ((free_table_iff h).1 ⟨t, h1, h2, by simpa using hfree⟩)⟩
      rw [open_none h ⟨hwin.1, hwin.2.1⟩ hvO hfull]

theorem regions_update_none {v : U32} :
    regions (Function.update M v none) ⊆ regions M ∧
      ∀ r ∈ regions M, r ≠ region v → r ∈ regions (Function.update M v none) := by
  constructor
  · rintro r ⟨w, y, hw, rfl⟩
    by_cases hwv : w = v
    · rw [hwv, Function.update_self] at hw
      simp at hw
    · rw [Function.update_of_ne hwv] at hw
      exact ⟨w, y, hw, rfl⟩
  · rintro r ⟨w, y, hw, rfl⟩ hr
    have hwv : w ≠ v := by
      rintro rfl
      exact hr rfl
    exact ⟨w, y, by rw [Function.update_of_ne hwv, hw], rfl⟩

/-- The region lost its last mapping. -/
theorem regions_emptied {v : U32}
    (hnone : ∀ w y, Function.update M v none w = some y → directoryIndex w ≠ directoryIndex v) :
    regions (Function.update M v none) = regions M \ {directoryIndex v} := by
  obtain ⟨hsub, hsup⟩ := regions_update_none (M := M) (v := v)
  ext r
  constructor
  · rintro ⟨w, y, hw, rfl⟩
    exact ⟨hsub ⟨w, y, hw, rfl⟩, by rw [← directoryIndex_eq_region]; exact hnone w y hw⟩
  · rintro ⟨hr, hne⟩
    exact hsup r hr (by rwa [← directoryIndex_eq_region])

/-- Another page keeps the region. -/
theorem regions_kept {v : U32}
    (hother : ¬∀ w y, Function.update M v none w = some y → directoryIndex w ≠ directoryIndex v) :
    regions (Function.update M v none) = regions M := by
  obtain ⟨hsub, hsup⟩ := regions_update_none (M := M) (v := v)
  push Not at hother
  obtain ⟨w, y, hw, hwd⟩ := hother
  rw [directoryIndex_eq_region, directoryIndex_eq_region] at hwd
  refine Set.Subset.antisymm hsub fun r hr => ?_
  by_cases hrv : r = region v
  · exact ⟨w, y, hw, hwd.trans hrv.symm⟩
  · exact hsup r hr hrv

/-- **`vmm_unmap_page`** of a mapped page. -/
theorem vmmUnmapPage_true (h : VmmOK layout s M) {v : U32} {x : Mapping} (hx : M v = some x) (out : U32) :
    ∃ s', vmmUnmapPage s v (some out) = (true, some x.page, s') ∧
      VmmOK layout s' (Function.update M v none) := by
  obtain ⟨hval, hvO, hpage⟩ := h.valid v x hx
  obtain ⟨h32, h64, hne⟩ := h.table hvO
  have hargs : (!s.enabled || (some out).isNone || !dynamicAddressIsValid v) = false := by
    simp [h.enabled, hval]
  have hentry := h.entries v hval hvO
  rw [hx] at hentry
  have hpresent : ¬encode (some x) &&& pagePresent = 0 := by
    rw [encode_present]
    simp
  have hcleared : PoolOK layout (storeEntry s v 0) (Function.update M v none) (regions M) := by
    have hstore := store_ok (x := none) h hval hvO (by simp)
    exact hstore
  have hempty := tableIsEmpty_iff hcleared hvO
  have hge : decide ((s.directoryTableIndices (directoryIndex v)).toNat ≥ identityTableCount) = true :=
    decide_eq_true h32
  unfold vmmUnmapPage
  simp only [hargs, Bool.false_eq_true, if_false, if_neg hne, hentry, if_neg hpresent, encode_page,
    page_of_aligned hpage, hge, Bool.true_and]
  refine ⟨_, rfl, ?_⟩
  split_ifs with hclose
  · -- the table is given back
    have hnone := hempty.1 hclose
    rw [VmmOK, regions_emptied hnone]
    exact close_ok hcleared hvO hnone
  · rw [VmmOK, regions_kept (mt hempty.2 hclose)]
    exact hcleared

theorem vmmUnmapPage_false (h : VmmOK layout s M) {v : U32} {out : Option U32}
    (hno : out = none ∨ M v = none) : vmmUnmapPage s v out = (false, out, s) := by
  unfold vmmUnmapPage
  simp only
  split_ifs with hargs hidx hpres
  · rfl
  · rfl
  · rfl
  -- past all the checks the entry is present, so the page is mapped
  all_goals
    simp only [Bool.or_eq_true, not_or, Bool.not_eq_true, Bool.not_eq_false'] at hargs
    obtain ⟨⟨-, hout⟩, hval⟩ := hargs
    have hnone : M v = none := hno.resolve_left (by rintro rfl; simp at hout)
    rw [h.entries v hval (open_of_index h hval hidx), hnone] at hpres
    exact absurd rfl hpres

/-- **Step lemma**: every call answers as the abstract model does. -/
theorem vmmStep_sim (h : VmmOK layout s M) (c : VmmCall) :
    (vmmStep layout s c).1 = (pageMapStep M c).1 ∧ VmmOK layout (vmmStep layout s c).2 (pageMapStep M c).2 := by
  cases c with
  | map v p flags =>
    by_cases hallow : MapAllowed M v p flags
    · obtain ⟨hok, hs⟩ := vmmMapPage_true h hallow
      simp only [vmmStep, pageMapStep, if_pos hallow, hok]
      exact ⟨trivial, hs⟩
    · simp only [vmmStep, pageMapStep, if_neg hallow, vmmMapPage_false h hallow]
      exact ⟨trivial, h⟩
  | unmap v out =>
    cases out with
    | none =>
      simp only [vmmStep, pageMapStep, vmmUnmapPage_false h (Or.inl rfl)]
      exact ⟨trivial, h⟩
    | some out =>
      cases hx : M v with
      | none =>
        simp only [vmmStep, pageMapStep, hx, vmmUnmapPage_false h (Or.inr hx)]
        exact ⟨trivial, h⟩
      | some x =>
        obtain ⟨s', hcall, hs'⟩ := vmmUnmapPage_true h hx out
        simp only [vmmStep, pageMapStep, hx, hcall]
        exact ⟨trivial, hs'⟩

/-- **Run lemma**: so do whole runs. -/
theorem vmmRun_sim (layout : TableLayout) {s₀ : Vmm} (h₀ : s₀.enabled = false) (cs : List VmmCall) :
    trace (vmmStep layout) (vmmInit layout s₀).2 cs = trace pageMapStep emptyMap cs ∧
      VmmOK layout (exec (vmmStep layout) (vmmInit layout s₀).2 cs) (exec pageMapStep emptyMap cs) :=
  trace_sim (R := fun s M => VmmOK layout s M) (fun _ _ c h => vmmStep_sim h c) (vmmInit_ok layout h₀).2 cs

/-! ## Translation -/

/-- What the abstract model says of an address: its mapping, or the identity below
128 MiB, where page zero is left out and only the kernel may write. -/
def mapTranslate (M : PageMap) (x : U32) : Option Translation :=
  match M (x &&& pageAddressMask) with
  | some m =>
    some ⟨m.page + (x &&& pageOffsetMask), decide (m.flags &&& vmmWritable ≠ 0), decide (m.flags &&& vmmUser ≠ 0)⟩
  | none => if 4096 ≤ x.toNat ∧ x.toNat < 0x08000000 then some ⟨x, true, false⟩ else none

theorem tableEntry_eq (layout : TableLayout) (t : ℕ) :
    tableEntry layout t = layout.address t &&& pageAddressMask ||| 3 := by
  rw [tableEntry, BitVec.or_assoc]
  rfl

/-- The directory entry of a slot with a table, and its user bit. -/
theorem directory_entry (h : PoolOK layout s M O) {d : ℕ} (hd : d < 32 ∨ d ∈ O) :
    ∃ t f, t < 64 ∧ (f = 3 ∨ f = 7) ∧ s.directoryTableIndices d = BitVec.ofNat 16 t ∧
      s.pageDirectory d = layout.address t &&& pageAddressMask ||| f := by
  rcases hd with hd | hd
  · obtain ⟨hi, hdir, -⟩ := h.identity d hd
    exact ⟨d, 3, by omega, Or.inl rfl, hi, by rw [hdir, tableEntry_eq]⟩
  · obtain ⟨t, -, ht, hi, -, hdir⟩ := h.opened d hd
    rw [tableEntry_eq, BitVec.or_assoc] at hdir
    rcases hdir with hdir | hdir
    · exact ⟨t, 3, ht, Or.inl rfl, hi, hdir⟩
    · exact ⟨t, 7, ht, Or.inr rfl, hi, hdir⟩

/-- A slot with a table is present and writable and names its table. -/
theorem directory_open (h : PoolOK layout s M O) {d : ℕ} (hd : d < 32 ∨ d ∈ O) :
    ∃ t < 64, s.directoryTableIndices d = BitVec.ofNat 16 t ∧
      ¬s.pageDirectory d &&& pagePresent = 0 ∧ s.pageDirectory d &&& pageWritable ≠ 0 ∧
      s.pageDirectory d &&& pageAddressMask = layout.address t := by
  obtain ⟨t, f, ht, hf, hi, hdir⟩ := directory_entry h hd
  have hfmask : f &&& pageAddressMask = 0 := by rcases hf with rfl | rfl <;> decide
  refine ⟨t, ht, hi, ?_, ?_, ?_⟩
  · rw [hdir, packed_and_flag (by decide)]
    rcases hf with rfl | rfl <;> decide
  · rw [hdir, packed_and_flag (by decide)]
    rcases hf with rfl | rfl <;> decide
  · rw [hdir, packed_and_mask hfmask, layout.aligned t ht]

/-- The entry that both views end at. -/
def leafEntry (M : PageMap) (x : U32) : U32 :=
  if x.toNat < 0x08000000 then (if x.toNat < 4096 then 0 else x &&& pageAddressMask ||| 3)
  else encode (M (x &&& pageAddressMask))

theorem identityEntry_eq (x : U32) (hx : x.toNat < 0x08000000) :
    identityEntry (directoryIndex x) (entryIndex x) =
      if x.toNat < 4096 then 0 else x &&& pageAddressMask ||| 3 := by
  have hphys : BitVec.ofNat 32 ((directoryIndex x * pageTableEntries + entryIndex x) * 4096) =
      x &&& pageAddressMask := by
    apply BitVec.eq_of_toNat_eq
    rw [toNat_page, BitVec.toNat_ofNat, directoryIndex_eq, entryIndex_eq]
    change (x.toNat / 4194304 * 1024 + x.toNat / 4096 % 1024) * 4096 % 2 ^ 32 = _
    omega
  have hzero : x &&& pageAddressMask = 0 ↔ x.toNat < 4096 := by
    rw [← BitVec.toNat_inj, toNat_page]
    simp
  unfold identityEntry
  simp only [hphys, ne_eq, hzero]
  split_ifs with hlow
  · rfl
  · rw [BitVec.or_assoc]
    rfl

theorem leaf_entry (h : PoolOK layout s M O) {x : U32} (hx : directoryIndex x < 32 ∨ directoryIndex x ∈ O) :
    s.pageTables (s.directoryTableIndices (directoryIndex x)).toNat (entryIndex x) = leafEntry M x := by
  unfold leafEntry
  rcases hx with hd | hd
  · obtain ⟨hi, -, -, hentry⟩ := h.identity _ hd
    have hlt : x.toNat < 0x08000000 := by
      rw [directoryIndex_eq] at hd
      omega
    rw [hi, toNat_index (by omega), hentry _ (entryIndex_lt x), if_pos hlt, identityEntry_eq x hlt]
  · have hwin := h.window _ hd
    obtain ⟨h1, h2⟩ := page_indices x
    have hval : dynamicAddressIsValid (x &&& pageAddressMask) = true := by
      rw [valid_iff, h1, toNat_page]
      omega
    have hge : ¬x.toNat < 0x08000000 := by
      rw [directoryIndex_eq] at hwin
      omega
    have hentry := h.entries _ hval (by rwa [h1])
    rw [h1, h2] at hentry
    rw [if_neg hge, hentry]

theorem page_add_offset (x : U32) : (x &&& pageAddressMask) + (x &&& pageOffsetMask) = x := by
  apply BitVec.eq_of_toNat_eq
  rw [BitVec.toNat_add, toNat_page, toNat_offset]
  omega

/-- The translation that an entry stands for. -/
def entryTranslation (entry x : U32) : Translation :=
  ⟨(entry &&& pageAddressMask) + (x &&& pageOffsetMask), decide (entry &&& pageWritable ≠ 0),
    decide (entry &&& pageUser ≠ 0)⟩

/-- No page below the window is mapped. -/
theorem unmapped_below (h : PoolOK layout s M O) {x : U32} (hlow : x.toNat < 0x08000000) :
    M (x &&& pageAddressMask) = none := by
  cases hm : M (x &&& pageAddressMask) with
  | none => rfl
  | some m =>
    have hwin := h.window _ (h.valid _ m hm).2.1
    rw [(page_indices x).1, directoryIndex_eq] at hwin
    omega

/-- The abstract translation is the one that the entry stands for. -/
theorem mapTranslate_eq (h : PoolOK layout s M O) (x : U32) :
    mapTranslate M x = if leafEntry M x &&& pagePresent = 0 then none
      else some (entryTranslation (leafEntry M x) x) := by
  unfold mapTranslate leafEntry
  by_cases hlow : x.toNat < 0x08000000
  · rw [if_pos hlow, unmapped_below h hlow]
    by_cases hzero : x.toNat < 4096
    · rw [if_pos hzero, if_neg (by omega), if_pos (by decide)]
    · have hpresent : ¬(x &&& pageAddressMask ||| 3) &&& pagePresent = 0 := by
        rw [packed_and_flag (by decide)]
        decide
      rw [if_neg hzero, if_pos ⟨by omega, hlow⟩, if_neg hpresent, entryTranslation,
        packed_and_mask (by decide), page_add_offset, packed_and_flag (by decide), packed_and_flag (by decide)]
      rfl
  · rw [if_neg hlow]
    cases hm : M (x &&& pageAddressMask) with
    | none => rw [if_neg (by omega), if_pos ((encode_present none).2 rfl)]
    | some m =>
      have hpage := page_of_aligned (h.valid _ m hm).2.2
      have hpresent : ¬encode (some m) &&& pagePresent = 0 := by
        rw [encode_present]
        simp
      have hw : decide (encode (some m) &&& pageWritable ≠ 0) = decide (m.flags &&& vmmWritable ≠ 0) := by
        refine decide_eq_decide.2 ?_
        rw [encode, packed_and_flag (by decide), makePageFlags_writable]
      have hu : decide (encode (some m) &&& pageUser ≠ 0) = decide (m.flags &&& vmmUser ≠ 0) := by
        refine decide_eq_decide.2 ?_
        rw [encode, packed_and_flag (by decide), makePageFlags_user]
      rw [if_neg hpresent, entryTranslation, encode_page, hpage, hw, hu]

theorem mapTranslate_closed (h : PoolOK layout s M O) (x : U32)
    (hx : ¬(directoryIndex x < 32 ∨ directoryIndex x ∈ O)) : mapTranslate M x = none := by
  rw [not_or] at hx
  have hnone : M (x &&& pageAddressMask) = none := by
    cases hm : M (x &&& pageAddressMask) with
    | none => rfl
    | some m =>
      have hmem := (h.valid _ m hm).2.1
      rw [(page_indices x).1] at hmem
      exact absurd hmem hx.2
  have hge := hx.1
  rw [directoryIndex_eq] at hge
  rw [mapTranslate, hnone]
  exact if_neg (by omega)

/-- **`vmm_translate`** reads the abstract map. -/
theorem vmmTranslate_eq (h : PoolOK layout s M O) (x out : U32) :
    vmmTranslate s x (some out) = match mapTranslate M x with
      | some t => (true, some t.physicalAddress)
      | none => (false, some out) := by
  have hen : (!s.enabled || (some out).isNone) = false := by simp [h.enabled]
  unfold vmmTranslate
  simp only [hen, Bool.false_eq_true, if_false]
  by_cases hx : directoryIndex x < 32 ∨ directoryIndex x ∈ O
  · obtain ⟨t, ht, hi, hpde, -, -⟩ := directory_open h hx
    have hidx : ¬s.directoryTableIndices (directoryIndex x) = tableIndexNone := by
      rw [hi]
      exact index_ne_none ht
    rw [if_neg hpde, if_neg hidx, leaf_entry h hx, mapTranslate_eq h x]
    split_ifs <;> rfl
  · have hclosed := h.closed _ (directoryIndex_lt x) (by omega) (fun hO => hx (Or.inr hO))
    rw [hclosed.2, mapTranslate_closed h x hx, if_pos (by decide)]

/-! ## The processor's view -/

theorem physicalWord_table (layout : TableLayout) (other : U32 → U32) (s : Vmm) {t : ℕ} (ht : t < 64) (x : U32) :
    physicalWord layout other s (layout.address t + ((x >>> 12) &&& 0x3FF) <<< 2) =
      s.pageTables t (entryIndex x) := by
  have he : ((x >>> 12) &&& 0x3FF).toNat = entryIndex x := rfl
  have hlt := entryIndex_lt x
  have hal : (layout.address t).toNat % 4096 = 0 := by
    have := congrArg BitVec.toNat (layout.aligned t ht)
    rw [toNat_page] at this
    omega
  have hshift : (((x >>> 12) &&& 0x3FF) <<< 2).toNat = 4 * entryIndex x := by
    rw [BitVec.toNat_shiftLeft, he, Nat.shiftLeft_eq]
    omega
  have hsum : (layout.address t + ((x >>> 12) &&& 0x3FF) <<< 2).toNat =
      (layout.address t).toNat + 4 * entryIndex x := by
    rw [BitVec.toNat_add, hshift]
    omega
  have hpage : (layout.address t + ((x >>> 12) &&& 0x3FF) <<< 2) &&& pageAddressMask = layout.address t := by
    apply BitVec.eq_of_toNat_eq
    rw [toNat_page, hsum]
    omega
  have hword : (((layout.address t + ((x >>> 12) &&& 0x3FF) <<< 2) &&& pageOffsetMask) >>> 2).toNat =
      entryIndex x := by
    rw [BitVec.toNat_ushiftRight, toNat_offset, hsum, Nat.shiftRight_eq_div_pow]
    omega
  have hfind : ((List.range pageTableCount).find? fun u => decide (layout.address u = layout.address t)) =
      some t := by
    rw [List.find?_range_eq_some]
    refine ⟨decide_eq_true rfl, List.mem_range.2 ht, fun u hu => ?_⟩
    have hne : layout.address u ≠ layout.address t := by
      intro heq
      have := layout.distinct u (by omega) t ht heq
      omega
    simp [hne]
  rw [physicalWord, hpage, hfind, hword]

/-- The hardware puts page and offset together without a carry. -/
theorem page_or_offset (p x : U32) :
    p &&& pageAddressMask ||| x &&& pageOffsetMask = (p &&& pageAddressMask) + (x &&& pageOffsetMask) := by
  refine (BitVec.add_eq_or_of_and_eq_zero _ _ ?_).symm
  have hmasks : pageAddressMask &&& pageOffsetMask = 0 := by decide
  rw [BitVec.and_comm x, BitVec.and_assoc, ← BitVec.and_assoc pageAddressMask, hmasks]
  simp

theorem leaf_user (h : PoolOK layout s M O) {x : U32} (hu : leafEntry M x &&& pageUser ≠ 0) :
    s.pageDirectory (directoryIndex x) &&& pageUser ≠ 0 := by
  unfold leafEntry at hu
  split_ifs at hu with hlow hzero
  · exact absurd (by decide) hu
  · rw [packed_and_flag (by decide)] at hu
    exact absurd (by decide) hu
  · cases hm : M (x &&& pageAddressMask) with
    | none =>
      rw [hm] at hu
      exact absurd (by decide) hu
    | some m =>
      rw [hm, encode, packed_and_flag (by decide), makePageFlags_user] at hu
      have := h.user _ m hm hu
      rwa [(page_indices x).1] at this

/-- **The hardware walk** sees the abstract translation. -/
theorem hardwareWalk_eq (h : PoolOK layout s M O) (other : U32 → U32) (x : U32) :
    hardwareWalk layout other s x = mapTranslate M x := by
  unfold hardwareWalk
  simp only
  by_cases hx : directoryIndex x < 32 ∨ directoryIndex x ∈ O
  · obtain ⟨t, ht, hi, hpde, hwritable, htable⟩ := directory_open h hx
    have hleaf := leaf_entry h hx
    rw [hi, toNat_index ht] at hleaf
    rw [if_neg hpde, htable, physicalWord_table layout other s ht, hleaf, mapTranslate_eq h x]
    split_ifs with hpresent
    · rfl
    · -- a user page raises the user bit of its directory slot
      have huser : (decide (s.pageDirectory (directoryIndex x) &&& pageUser ≠ 0) &&
          decide (leafEntry M x &&& pageUser ≠ 0)) = decide (leafEntry M x &&& pageUser ≠ 0) := by
        by_cases hu : leafEntry M x &&& pageUser ≠ 0
        · rw [decide_eq_true (leaf_user h hu), Bool.true_and]
        · rw [decide_eq_false hu, Bool.and_false]
      rw [page_or_offset, decide_eq_true hwritable, huser, Bool.true_and]
      rfl
  · have hclosed := h.closed _ (directoryIndex_lt x) (by omega) (fun hO => hx (Or.inr hO))
    rw [hclosed.2, mapTranslate_closed h x hx, if_pos (by decide)]

end TinyShell
