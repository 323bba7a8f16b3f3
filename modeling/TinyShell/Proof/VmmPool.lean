import TinyShell.Spec.Vmm

/-!
# The page-table pool

`PoolOK layout s M O`: the page tables of `s` hold the mappings `M`, the regions
(4 MiB directory slots) in `O` have a dynamic table each, and the identity half is
as `vmm_init` left it. Opening a region, storing or clearing one of its entries and
closing it again each keep this for the new `M` and `O` (`open_ok`, `store_ok`,
`close_ok`).
-/

namespace TinyShell

open Machine

/-! ## Page addresses -/

theorem directoryIndex_eq (v : U32) : directoryIndex v = v.toNat / 4194304 := by
  rw [directoryIndex, BitVec.toNat_ushiftRight, Nat.shiftRight_eq_div_pow]

theorem entryIndex_eq (v : U32) : entryIndex v = v.toNat / 4096 % 1024 := by
  have h := toNat_and_low (v >>> 12) (k := 10) (by omega)
  rw [BitVec.toNat_ushiftRight, Nat.shiftRight_eq_div_pow] at h
  exact h

theorem directoryIndex_lt (v : U32) : directoryIndex v < 1024 := by
  rw [directoryIndex_eq]
  omega

theorem entryIndex_lt (v : U32) : entryIndex v < 1024 := by
  rw [entryIndex_eq]
  omega

theorem toNat_offset (v : U32) : (v &&& pageOffsetMask).toNat = v.toNat % 4096 :=
  toNat_and_low v (k := 12) (by omega)

theorem toNat_page (v : U32) : (v &&& pageAddressMask).toNat = v.toNat / 4096 * 4096 :=
  toNat_and_high v 12

theorem offset_eq_zero (v : U32) : v &&& pageOffsetMask = 0 ↔ v.toNat % 4096 = 0 := by
  rw [← toNat_offset]
  exact ⟨fun h => by rw [h]; rfl, fun h => BitVec.eq_of_toNat_eq h⟩

/-- An aligned address is its own page. -/
theorem page_of_aligned {v : U32} (h : v &&& pageOffsetMask = 0) : v &&& pageAddressMask = v := by
  rw [offset_eq_zero] at h
  apply BitVec.eq_of_toNat_eq
  rw [toNat_page]
  omega

theorem valid_iff (v : U32) : dynamicAddressIsValid v = true ↔
    256 ≤ directoryIndex v ∧ directoryIndex v < 960 ∧ v.toNat % 4096 = 0 := by
  unfold dynamicAddressIsValid
  rw [Bool.and_eq_true, Bool.and_eq_true, decide_eq_true_eq, decide_eq_true_eq, decide_eq_true_eq,
    offset_eq_zero, directoryIndex_eq, vmmDynamicStart, vmmDynamicEnd]
  bv_omega

/-- Two pages of the window with the same indices are the same. -/
theorem valid_ext {v w : U32} (hv : dynamicAddressIsValid v = true) (hw : dynamicAddressIsValid w = true)
    (hd : directoryIndex v = directoryIndex w) (he : entryIndex v = entryIndex w) : v = w := by
  have h1 := ((valid_iff v).1 hv).2.2
  have h2 := ((valid_iff w).1 hw).2.2
  rw [directoryIndex_eq, directoryIndex_eq] at hd
  rw [entryIndex_eq, entryIndex_eq] at he
  apply BitVec.eq_of_toNat_eq
  omega

/-- Every entry of a window region is that of a page. -/
theorem exists_valid {d e : ℕ} (h1 : 256 ≤ d) (h2 : d < 960) (he : e < 1024) :
    ∃ v, dynamicAddressIsValid v = true ∧ directoryIndex v = d ∧ entryIndex v = e := by
  have hv : (word (d * 4194304 + e * 4096)).toNat = d * 4194304 + e * 4096 := toNat_word (by omega)
  refine ⟨word (d * 4194304 + e * 4096), (valid_iff _).2 ⟨?_, ?_, ?_⟩, ?_, ?_⟩ <;>
    simp only [directoryIndex_eq, entryIndex_eq, hv] <;> omega

/-- The page of an address has the same indices. -/
theorem page_indices (v : U32) : directoryIndex (v &&& pageAddressMask) = directoryIndex v ∧
    entryIndex (v &&& pageAddressMask) = entryIndex v := by
  simp only [directoryIndex_eq, entryIndex_eq, toNat_page]
  omega

/-! ## Entries -/

/-- What a page of the dynamic window is mapped to. -/
structure Mapping where
  page : U32
  flags : U32
  deriving DecidableEq

/-- A partial map from page addresses to mappings. -/
abbrev PageMap := U32 → Option Mapping

/-- The page-table entry of a page. -/
def encode : Option Mapping → U32
  | none => 0
  | some x => x.page &&& pageAddressMask ||| makePageFlags x.flags

theorem makePageFlags_cases (flags : U32) : makePageFlags flags = 1 ∨ makePageFlags flags = 3 ∨
    makePageFlags flags = 5 ∨ makePageFlags flags = 7 := by
  unfold makePageFlags
  split_ifs <;> simp [pagePresent, pageWritable, pageUser]

theorem makePageFlags_writable (flags : U32) :
    makePageFlags flags &&& pageWritable ≠ 0 ↔ flags &&& vmmWritable ≠ 0 := by
  unfold makePageFlags
  split_ifs with hw hu hu
  · exact iff_of_true (by decide) hw
  · exact iff_of_true (by decide) hw
  · exact iff_of_false (by decide) hw
  · exact iff_of_false (by decide) hw

theorem makePageFlags_user (flags : U32) :
    makePageFlags flags &&& pageUser ≠ 0 ↔ flags &&& vmmUser ≠ 0 := by
  unfold makePageFlags
  split_ifs with hw hu hu
  · exact iff_of_true (by decide) hu
  · exact iff_of_false (by decide) hu
  · exact iff_of_true (by decide) hu
  · exact iff_of_false (by decide) hu

theorem encode_present (x : Option Mapping) : encode x &&& pagePresent = 0 ↔ x = none := by
  cases x with
  | none => simp [encode]
  | some x =>
    rw [encode, packed_and_flag (by decide)]
    rcases makePageFlags_cases x.flags with h | h | h | h <;> rw [h] <;> simp

theorem encode_page (x : Mapping) : encode (some x) &&& pageAddressMask = x.page &&& pageAddressMask := by
  refine packed_and_mask ?_
  rcases makePageFlags_cases x.flags with h | h | h | h <;> rw [h] <;> decide

/-! ## The invariant -/

section pool

variable {layout : TableLayout} {s : Vmm} {M : PageMap} {O : Set ℕ}

/-- The page tables hold the mappings `M`, and the regions `O` have a table each. -/
structure PoolOK (layout : TableLayout) (s : Vmm) (M : PageMap) (O : Set ℕ) : Prop where
  enabled : s.enabled = true
  valid : ∀ v x, M v = some x → dynamicAddressIsValid v = true ∧ directoryIndex v ∈ O ∧
    x.page &&& pageOffsetMask = 0
  window : ∀ d ∈ O, 256 ≤ d ∧ d < 960
  identity : ∀ t < 32, s.directoryTableIndices t = BitVec.ofNat 16 t ∧
    s.pageDirectory t = tableEntry layout t ∧ s.tableInUse t = true ∧
    ∀ e < 1024, s.pageTables t e = identityEntry t e
  closed : ∀ d < 1024, 32 ≤ d → d ∉ O → s.directoryTableIndices d = tableIndexNone ∧ s.pageDirectory d = 0
  opened : ∀ d ∈ O, ∃ t, 32 ≤ t ∧ t < 64 ∧ s.directoryTableIndices d = BitVec.ofNat 16 t ∧
    s.tableInUse t = true ∧
    (s.pageDirectory d = tableEntry layout t ∨ s.pageDirectory d = tableEntry layout t ||| pageUser)
  user : ∀ v x, M v = some x → x.flags &&& vmmUser ≠ 0 →
    s.pageDirectory (directoryIndex v) &&& pageUser ≠ 0
  alone : ∀ d ∈ O, ∀ d' ∈ O, s.directoryTableIndices d = s.directoryTableIndices d' → d = d'
  taken : ∀ t, 32 ≤ t → t < 64 → s.tableInUse t = true →
    ∃ d ∈ O, s.directoryTableIndices d = BitVec.ofNat 16 t
  entries : ∀ v, dynamicAddressIsValid v = true → directoryIndex v ∈ O →
    s.pageTables (s.directoryTableIndices (directoryIndex v)).toNat (entryIndex v) = encode (M v)

theorem toNat_index {t : ℕ} (ht : t < 64) : (BitVec.ofNat 16 t).toNat = t := by
  rw [BitVec.toNat_ofNat]
  omega

theorem index_ne_none {t : ℕ} (ht : t < 64) : BitVec.ofNat 16 t ≠ tableIndexNone := by
  intro h
  have := congrArg BitVec.toNat h
  rw [toNat_index ht] at this
  simp at this
  omega

theorem index_inj {t u : ℕ} (ht : t < 64) (hu : u < 64) (h : BitVec.ofNat 16 t = BitVec.ofNat 16 u) : t = u := by
  have := congrArg BitVec.toNat h
  rwa [toNat_index ht, toNat_index hu] at this

/-- The table of an open region. -/
theorem PoolOK.table (h : PoolOK layout s M O) {d : ℕ} (hd : d ∈ O) :
    32 ≤ (s.directoryTableIndices d).toNat ∧ (s.directoryTableIndices d).toNat < 64 ∧
      s.directoryTableIndices d ≠ tableIndexNone := by
  obtain ⟨t, h1, h2, hi, -⟩ := h.opened d hd
  rw [hi, toNat_index h2]
  exact ⟨h1, h2, index_ne_none h2⟩

/-- Distinct open regions have distinct tables. -/
theorem PoolOK.table_inj (h : PoolOK layout s M O) {d d' : ℕ} (hd : d ∈ O) (hd' : d' ∈ O)
    (heq : (s.directoryTableIndices d).toNat = (s.directoryTableIndices d').toNat) : d = d' :=
  h.alone d hd d' hd' (BitVec.eq_of_toNat_eq heq)

/-! ## Opening a region -/

theorem mem_dynamicTables (t : ℕ) :
    t ∈ List.range' identityTableCount (pageTableCount - identityTableCount) ↔ 32 ≤ t ∧ t < 64 := by
  rw [List.mem_range'_1]
  change 32 ≤ t ∧ t < 32 + (64 - 32) ↔ _
  omega

theorem allocateDynamicTable_none (h : ∀ t, 32 ≤ t → t < 64 → s.tableInUse t = true) :
    allocateDynamicTable s = (tableIndexNone, s) := by
  have hfind : ((List.range' identityTableCount (pageTableCount - identityTableCount)).find?
      fun index => !s.tableInUse index) = none := by
    rw [List.find?_eq_none]
    intro t ht
    rw [mem_dynamicTables] at ht
    rw [h t ht.1 ht.2]
    simp
  rw [allocateDynamicTable, hfind]

theorem allocateDynamicTable_some (h : ∃ t, 32 ≤ t ∧ t < 64 ∧ s.tableInUse t = false) :
    ∃ t, 32 ≤ t ∧ t < 64 ∧ s.tableInUse t = false ∧ allocateDynamicTable s = (BitVec.ofNat 16 t,
      { s with
        tableInUse := Function.update s.tableInUse t true
        pageTables := Function.update s.pageTables t (clearTable (s.pageTables t)) }) := by
  cases hfind : (List.range' identityTableCount (pageTableCount - identityTableCount)).find?
      fun index => !s.tableInUse index with
  | none =>
    obtain ⟨t, h1, h2, hfree⟩ := h
    have := List.find?_eq_none.1 hfind t ((mem_dynamicTables t).2 ⟨h1, h2⟩)
    simp [hfree] at this
  | some t =>
    obtain ⟨h1, h2⟩ := (mem_dynamicTables t).1 (List.mem_of_find?_eq_some hfind)
    have hfree := List.find?_some hfind
    refine ⟨t, h1, h2, by simpa using hfree, ?_⟩
    rw [allocateDynamicTable, hfind]

/-- The state after a free table `t` was installed for region `d`. -/
def install (layout : TableLayout) (s : Vmm) (d t : ℕ) : Vmm :=
  { s with
    tableInUse := Function.update s.tableInUse t true
    pageTables := Function.update s.pageTables t (clearTable (s.pageTables t))
    directoryTableIndices := Function.update s.directoryTableIndices d (BitVec.ofNat 16 t)
    pageDirectory := Function.update s.pageDirectory d (tableEntry layout t) }

theorem install_ok (h : PoolOK layout s M O) {d t : ℕ} (hd : 256 ≤ d ∧ d < 960) (hdO : d ∉ O)
    (ht : 32 ≤ t ∧ t < 64) (hfree : s.tableInUse t = false) :
    PoolOK layout (install layout s d t) M (insert d O) := by
  -- what belongs to another region is as it was
  have hne : ∀ {d'}, d' ∈ O → d' ≠ d := by
    rintro d' hd' rfl
    exact hdO hd'
  have hindex : ∀ {d'}, d' ≠ d →
      (install layout s d t).directoryTableIndices d' = s.directoryTableIndices d' :=
    fun h => Function.update_of_ne h _ _
  have hdir : ∀ {d'}, d' ≠ d → (install layout s d t).pageDirectory d' = s.pageDirectory d' :=
    fun h => Function.update_of_ne h _ _
  have htable : ∀ {u}, u ≠ t → (install layout s d t).pageTables u = s.pageTables u :=
    fun h => Function.update_of_ne h _ _
  have hself : (install layout s d t).directoryTableIndices d = BitVec.ofNat 16 t := Function.update_self ..
  have hclear : (install layout s d t).pageTables t = clearTable (s.pageTables t) := Function.update_self ..
  -- a free table belongs to no region, so clearing it loses nothing
  have hfresh : ∀ d' ∈ O, s.directoryTableIndices d' ≠ BitVec.ofNat 16 t := by
    intro d' hd' heq
    obtain ⟨u, -, hu, hi, huse, -⟩ := h.opened d' hd'
    rw [hi] at heq
    rw [index_inj hu ht.2 heq, hfree] at huse
    simp at huse
  refine ⟨h.enabled, ?_, ?_, ?_, ?_, ?_, ?_, ?_, ?_, ?_⟩
  · intro v x hv
    obtain ⟨h1, h2, h3⟩ := h.valid v x hv
    exact ⟨h1, Set.mem_insert_of_mem _ h2, h3⟩
  · rintro d' (rfl | hd')
    · exact hd
    · exact h.window d' hd'
  · intro u hu
    obtain ⟨h1, h2, h3, h4⟩ := h.identity u hu
    have hud : u ≠ d := by omega
    have hut : u ≠ t := by omega
    refine ⟨(hindex hud).trans h1, (hdir hud).trans h2, ?_, ?_⟩
    · exact (Function.update_of_ne hut _ _).trans h3
    · intro e he
      rw [htable hut]
      exact h4 e he
  · intro d' hd' h32 hnot
    rw [Set.mem_insert_iff, not_or] at hnot
    obtain ⟨h1, h2⟩ := h.closed d' hd' h32 hnot.2
    exact ⟨(hindex hnot.1).trans h1, (hdir hnot.1).trans h2⟩
  · rintro d' (rfl | hd')
    · exact ⟨t, ht.1, ht.2, hself, Function.update_self .., Or.inl (Function.update_self ..)⟩
    · obtain ⟨u, h1, h2, h3, h4, h5⟩ := h.opened d' hd'
      refine ⟨u, h1, h2, (hindex (hne hd')).trans h3, ?_, ?_⟩
      · by_cases hut : u = t
        · rw [hut]
          exact Function.update_self ..
        · exact (Function.update_of_ne hut _ _).trans h4
      · rw [hdir (hne hd')]
        exact h5
  · intro v x hv hx
    have hvO := (h.valid v x hv).2.1
    rw [hdir (hne hvO)]
    exact h.user v x hv hx
  · -- the new region shares its table with none of the old ones
    rintro d₁ (rfl | h₁) d₂ (rfl | h₂) heq
    · rfl
    · rw [hself, hindex (hne h₂)] at heq
      exact absurd heq.symm (hfresh d₂ h₂)
    · rw [hself, hindex (hne h₁)] at heq
      exact absurd heq (hfresh d₁ h₁)
    · rw [hindex (hne h₁), hindex (hne h₂)] at heq
      exact h.alone d₁ h₁ d₂ h₂ heq
  · intro u h1 h2 huse
    by_cases hut : u = t
    · exact ⟨d, Set.mem_insert _ _, by rw [hself, hut]⟩
    · obtain ⟨d', hd', hi⟩ := h.taken u h1 h2 ((Function.update_of_ne hut _ _).symm.trans huse)
      exact ⟨d', Set.mem_insert_of_mem _ hd', (hindex (hne hd')).trans hi⟩
  · rintro v hv (hvd | hvO)
    · -- the new table is clear, and the region had no mapping
      have hnone : M v = none := by
        cases hm : M v with
        | none => rfl
        | some x => exact absurd (hvd ▸ (h.valid v x hm).2.1) hdO
      rw [hvd, hself, toNat_index ht.2, hnone, hclear]
      exact fill_of_mem (Nat.zero_le _) (entryIndex_lt v)
    · rw [hindex (hne hvO), ← h.entries v hv hvO, htable]
      intro heq
      exact hfresh _ hvO (BitVec.eq_of_toNat_eq (by rw [heq, toNat_index ht.2]))

/-- **Opening a region** gives it a table, if it has none and there is a free one. -/
theorem open_ok (h : PoolOK layout s M O) {d : ℕ} (hd : 256 ≤ d ∧ d < 960)
    (hroom : d ∈ O ∨ ∃ t, 32 ≤ t ∧ t < 64 ∧ s.tableInUse t = false) :
    ∃ s', openTable layout s d = some (s'.directoryTableIndices d, s') ∧
      PoolOK layout s' M (insert d O) := by
  unfold openTable
  by_cases hdO : d ∈ O
  · rw [if_neg (h.table hdO).2.2, Set.insert_eq_of_mem hdO]
    exact ⟨s, rfl, h⟩
  · rw [if_pos (h.closed d (by omega) (by omega) hdO).1]
    obtain ⟨t, h1, h2, hfree, halloc⟩ := allocateDynamicTable_some (hroom.resolve_left hdO)
    refine ⟨install layout s d t, ?_, install_ok h hd hdO ⟨h1, h2⟩ hfree⟩
    simp only [halloc, if_neg (index_ne_none h2), toNat_index h2, install, Function.update_self]

theorem open_none (h : PoolOK layout s M O) {d : ℕ} (hd : 256 ≤ d ∧ d < 960) (hdO : d ∉ O)
    (hfull : ∀ t, 32 ≤ t → t < 64 → s.tableInUse t = true) : openTable layout s d = none := by
  unfold openTable
  rw [if_pos (h.closed d (by omega) (by omega) hdO).1, allocateDynamicTable_none hfull]
  rfl

/-! ## Storing an entry -/

/-- The state after the entry of a page was stored. -/
def storeEntry (s : Vmm) (v entry : U32) : Vmm :=
  { s with
    pageTables := setEntry s.pageTables (s.directoryTableIndices (directoryIndex v)).toNat (entryIndex v) entry }

theorem storeEntry_table (s : Vmm) (v entry : U32) {t : ℕ}
    (ht : t ≠ (s.directoryTableIndices (directoryIndex v)).toNat) :
    (storeEntry s v entry).pageTables t = s.pageTables t := Function.update_of_ne ht _ _

/-- The entry of another page is not changed. -/
theorem storeEntry_entry (h : PoolOK layout s M O) {v w entry : U32} (hv : dynamicAddressIsValid v = true)
    (hw : dynamicAddressIsValid w = true) (hvO : directoryIndex v ∈ O) (hwO : directoryIndex w ∈ O) :
    (storeEntry s v entry).pageTables (s.directoryTableIndices (directoryIndex w)).toNat (entryIndex w) =
      if w = v then entry
      else s.pageTables (s.directoryTableIndices (directoryIndex w)).toNat (entryIndex w) := by
  split_ifs with hwv
  · rw [hwv, storeEntry, setEntry]
    simp only [Function.update_self]
  · -- another page of the same region has another entry, another region another table
    by_cases hd : directoryIndex w = directoryIndex v
    · have he : entryIndex w ≠ entryIndex v := fun he => hwv (valid_ext hw hv hd he)
      rw [hd, storeEntry, setEntry]
      simp only [Function.update_self]
      rw [Function.update_of_ne he]
    · rw [storeEntry_table]
      exact fun heq => hd (h.table_inj hwO hvO heq)

/-- **Storing or clearing an entry** of an open region. -/
theorem store_ok (h : PoolOK layout s M O) {v : U32} (hv : dynamicAddressIsValid v = true)
    (hvO : directoryIndex v ∈ O) {x : Option Mapping}
    (hx : ∀ y, x = some y → y.page &&& pageOffsetMask = 0 ∧
      (y.flags &&& vmmUser ≠ 0 → s.pageDirectory (directoryIndex v) &&& pageUser ≠ 0)) :
    PoolOK layout (storeEntry s v (encode x)) (Function.update M v x) O := by
  obtain ⟨h32, h64, -⟩ := h.table hvO
  refine ⟨h.enabled, ?_, h.window, ?_, h.closed, h.opened, ?_, h.alone, h.taken, ?_⟩
  · intro w y hw
    by_cases hwv : w = v
    · rw [hwv, Function.update_self] at hw
      rw [hwv]
      exact ⟨hv, hvO, (hx y hw).1⟩
    · rw [Function.update_of_ne hwv] at hw
      exact h.valid w y hw
  · -- an open region never uses an identity table
    intro t ht
    obtain ⟨h1, h2, h3, h4⟩ := h.identity t ht
    refine ⟨h1, h2, h3, ?_⟩
    rw [storeEntry_table _ _ _ (by omega)]
    exact h4
  · intro w y hw hy
    by_cases hwv : w = v
    · rw [hwv, Function.update_self] at hw
      rw [hwv]
      exact (hx y hw).2 hy
    · rw [Function.update_of_ne hwv] at hw
      exact h.user w y hw hy
  · intro w hw hwO
    refine (storeEntry_entry h hv hw hvO hwO).trans ?_
    by_cases hwv : w = v
    · rw [if_pos hwv, hwv, Function.update_self]
    · rw [if_neg hwv, Function.update_of_ne hwv]
      exact h.entries w hw hwO

/-- The state after the user bit of a directory slot was raised. -/
def raiseUser (s : Vmm) (d : ℕ) : Vmm :=
  { s with pageDirectory := Function.update s.pageDirectory d (s.pageDirectory d ||| pageUser) }

theorem raiseUser_self (s : Vmm) (d : ℕ) : (raiseUser s d).pageDirectory d = s.pageDirectory d ||| pageUser :=
  Function.update_self ..

theorem or_user_and_user (x : U32) : (x ||| pageUser) &&& pageUser ≠ 0 := by
  intro h
  have := congrArg (fun y => y.getLsbD 2) h
  simp at this

/-- **Raising the user bit** of an open region. -/
theorem raise_ok (h : PoolOK layout s M O) {d : ℕ} (hd : d ∈ O) : PoolOK layout (raiseUser s d) M O := by
  have hdw := h.window d hd
  have hdir : ∀ {d'}, d' ≠ d → (raiseUser s d).pageDirectory d' = s.pageDirectory d' :=
    fun h => Function.update_of_ne h _ _
  refine ⟨h.enabled, h.valid, h.window, ?_, ?_, ?_, ?_, h.alone, h.taken, h.entries⟩
  · intro t ht
    obtain ⟨h1, h2, h3⟩ := h.identity t ht
    exact ⟨h1, (hdir (by omega)).trans h2, h3⟩
  · intro d' hd' h32 hnot
    obtain ⟨h1, h2⟩ := h.closed d' hd' h32 hnot
    refine ⟨h1, (hdir ?_).trans h2⟩
    rintro rfl
    exact hnot hd
  · intro d' hd'
    obtain ⟨t, h1, h2, h3, h4, h5⟩ := h.opened d' hd'
    refine ⟨t, h1, h2, h3, h4, ?_⟩
    by_cases hdd : d' = d
    · subst hdd
      rw [raiseUser_self]
      rcases h5 with h5 | h5
      · exact Or.inr (by rw [h5])
      · exact Or.inr (by rw [h5, BitVec.or_assoc, BitVec.or_self])
    · rw [hdir hdd]
      exact h5
  · intro v x hv hx
    by_cases hdd : directoryIndex v = d
    · rw [hdd, raiseUser_self]
      exact or_user_and_user _
    · rw [hdir hdd]
      exact h.user v x hv hx

/-! ## Closing a region -/

/-- The table of an open region is empty exactly when the region has no mapping. -/
theorem tableIsEmpty_iff (h : PoolOK layout s M O) {d : ℕ} (hd : d ∈ O) :
    tableIsEmpty (s.pageTables (s.directoryTableIndices d).toNat) = true ↔
      ∀ v x, M v = some x → directoryIndex v ≠ d := by
  unfold tableIsEmpty
  rw [List.all_eq_true]
  constructor
  · intro hall v x hv heq
    obtain ⟨hval, hvO, -⟩ := h.valid v x hv
    have hentry := of_decide_eq_true (hall (entryIndex v) (List.mem_range.2 (entryIndex_lt v)))
    rw [← heq, h.entries v hval hvO, encode_present, hv] at hentry
    simp at hentry
  · -- every entry of the table is that of some page of the region
    intro hnone e he
    obtain ⟨h1, h2⟩ := h.window d hd
    obtain ⟨v, hval, hvd, hve⟩ := exists_valid h1 h2 (List.mem_range.1 he)
    have hmv : M v = none := by
      cases hm : M v with
      | none => rfl
      | some x => exact absurd hvd (hnone v x hm)
    have hentry := h.entries v hval (hvd ▸ hd)
    rw [hvd, hve, hmv] at hentry
    rw [hentry]
    rfl

/-- The state after the table of a region was given back. -/
def closeRegion (s : Vmm) (d : ℕ) : Vmm :=
  { s with
    pageDirectory := Function.update s.pageDirectory d 0
    directoryTableIndices := Function.update s.directoryTableIndices d tableIndexNone
    tableInUse := Function.update s.tableInUse (s.directoryTableIndices d).toNat false }

/-- **Closing a region** without mappings. -/
theorem close_ok (h : PoolOK layout s M O) {d : ℕ} (hd : d ∈ O)
    (hnone : ∀ v x, M v = some x → directoryIndex v ≠ d) : PoolOK layout (closeRegion s d) M (O \ {d}) := by
  obtain ⟨t, ht1, ht2, hti, -, -⟩ := h.opened d hd
  have htn : (s.directoryTableIndices d).toNat = t := by rw [hti, toNat_index ht2]
  have hdw := h.window d hd
  have hindex : ∀ {d'}, d' ≠ d → (closeRegion s d).directoryTableIndices d' = s.directoryTableIndices d' :=
    fun h => Function.update_of_ne h _ _
  have hdir : ∀ {d'}, d' ≠ d → (closeRegion s d).pageDirectory d' = s.pageDirectory d' :=
    fun h => Function.update_of_ne h _ _
  have huse : ∀ {u}, u ≠ t → (closeRegion s d).tableInUse u = s.tableInUse u :=
    fun h => Function.update_of_ne (by rwa [htn]) _ _
  refine ⟨h.enabled, ?_, fun d' hd' => h.window d' hd'.1, ?_, ?_, ?_, ?_, ?_, ?_, ?_⟩
  · intro v x hv
    obtain ⟨h1, h2, h3⟩ := h.valid v x hv
    exact ⟨h1, ⟨h2, hnone v x hv⟩, h3⟩
  · intro u hu
    obtain ⟨h1, h2, h3, h4⟩ := h.identity u hu
    exact ⟨(hindex (by omega)).trans h1, (hdir (by omega)).trans h2, (huse (by omega)).trans h3, h4⟩
  · intro d' hd' h32 hnot
    by_cases hdd : d' = d
    · rw [hdd]
      exact ⟨Function.update_self .., Function.update_self ..⟩
    · obtain ⟨h1, h2⟩ := h.closed d' hd' h32 fun hO => hnot ⟨hO, hdd⟩
      exact ⟨(hindex hdd).trans h1, (hdir hdd).trans h2⟩
  · rintro d' ⟨hd', hdd⟩
    obtain ⟨u, h1, h2, h3, h4, h5⟩ := h.opened d' hd'
    have hut : u ≠ t := by
      rintro rfl
      exact hdd (h.alone d' hd' d hd (h3.trans hti.symm))
    refine ⟨u, h1, h2, (hindex hdd).trans h3, (huse hut).trans h4, ?_⟩
    rw [hdir hdd]
    exact h5
  · intro v x hv hx
    rw [hdir (hnone v x hv)]
    exact h.user v x hv hx
  · rintro d₁ ⟨h₁, hne₁⟩ d₂ ⟨h₂, hne₂⟩ heq
    rw [hindex hne₁, hindex hne₂] at heq
    exact h.alone d₁ h₁ d₂ h₂ heq
  · -- a table that is still taken is not the one given back
    intro u h1 h2 hu
    have hut : u ≠ t := by
      rintro rfl
      rw [closeRegion, htn] at hu
      simp at hu
    obtain ⟨d', hd', hi⟩ := h.taken u h1 h2 ((huse hut).symm.trans hu)
    have hdd : d' ≠ d := by
      rintro rfl
      exact hut (index_inj h2 ht2 (hi.symm.trans hti))
    exact ⟨d', ⟨hd', hdd⟩, (hindex hdd).trans hi⟩
  · rintro v hv ⟨hvO, hvd⟩
    rw [hindex hvd]
    exact h.entries v hv hvO

end pool

end TinyShell
