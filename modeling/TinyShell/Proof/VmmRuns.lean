import TinyShell.Proof.VmmMap

/-!
# Paging over whole runs

What holds after `vmm_init` and any list of calls with any arguments.

* `vmm_refines_map`: the VMM is a finite map, and translation reads it.
* `walk_agrees`: the processor's walk gives the addresses of `vmm_translate`, with the
  permissions asked for when the page was mapped.
* `vmm_pool_invariant`: no run leaks a table or shares one between regions.
-/

namespace TinyShell

open Machine

variable {layout : TableLayout} {s : Vmm} {M : PageMap}

/-! ## A layout and a state to start from -/

/-- `page_tables` is one array: its tables follow each other from `base` on. -/
def contiguousLayout (base : ℕ) (haligned : base % 4096 = 0) (hfits : base + 262144 ≤ 2 ^ 32) : TableLayout where
  address t := word (base + 4096 * t)
  aligned := by
    intro t ht
    apply BitVec.eq_of_toNat_eq
    rw [toNat_page, toNat_word (by omega)]
    omega
  distinct := by
    intro t ht u hu heq
    have := congrArg BitVec.toNat heq
    rw [toNat_word (by omega), toNat_word (by omega)] at this
    omega

/-- The tables as the loader leaves them in `.bss`. -/
def bssVmm : Vmm := ⟨fun _ => 0, fun _ _ => 0, fun _ => 0, fun _ => false, false⟩

/-- The tables right behind a kernel that ends at 2 MiB. -/
def sampleLayout : TableLayout := contiguousLayout 0x200000 (by decide) (by decide)

/-! ## Refinement -/

/-- **The VMM refines a finite map.** After `vmm_init` every run of calls answers as
the abstract map does, the map stays in the dynamic window, and translation reads it. -/
theorem vmm_refines_map (layout : TableLayout) (s₀ : Vmm) (h₀ : s₀.enabled = false) (cs : List VmmCall) :
    (vmmInit layout s₀).1 = true ∧
    trace (vmmStep layout) (vmmInit layout s₀).2 cs = trace pageMapStep emptyMap cs ∧
    (∀ v m, exec pageMapStep emptyMap cs v = some m →
      0x40000000 ≤ v.toNat ∧ v.toNat < 0xF0000000 ∧ v.toNat % 4096 = 0) ∧
    ∀ x out, vmmTranslate (exec (vmmStep layout) (vmmInit layout s₀).2 cs) x (some out) =
      match exec pageMapStep emptyMap cs (x &&& pageAddressMask) with
      | some m => (true, some (m.page + (x &&& pageOffsetMask)))
      | none => if 4096 ≤ x.toNat ∧ x.toNat < 0x08000000 then (true, some x) else (false, some out) := by
  obtain ⟨htrace, hs⟩ := vmmRun_sim layout h₀ cs
  refine ⟨(vmmInit_ok layout h₀).1, htrace, ?_, ?_⟩
  · intro v m hv
    obtain ⟨⟨h1, h2⟩, h3⟩ := (window_iff v).1 (hs.valid v m hv).1
    exact ⟨h1, h2, h3⟩
  · intro x out
    rw [vmmTranslate_eq hs, mapTranslate]
    cases exec pageMapStep emptyMap cs (x &&& pageAddressMask) with
    | none =>
      simp only
      split_ifs <;> rfl
    | some m => rfl

/-- Map a page, try to map it again, unmap it. -/
theorem vmm_refines_map_remap :
    bssVmm.enabled = false ∧
    trace (vmmStep sampleLayout) (vmmInit sampleLayout bssVmm).2
        [.map 0x40000000 0x300000 3, .map 0x40000000 0x301000 0, .unmap 0x40000000 (some 0)] =
      trace pageMapStep emptyMap
        [.map 0x40000000 0x300000 3, .map 0x40000000 0x301000 0, .unmap 0x40000000 (some 0)] :=
  ⟨rfl, (vmm_refines_map sampleLayout bssVmm rfl _).2.1⟩

/-! ## The processor's view -/

/-- The mappings that the successful calls of a history established: a map sets one,
an unmap removes it. -/
def establish (E : PageMap) : VmmCall × VmmResult → PageMap
  | (.map v p flags, .mapped true) => Function.update E v (some ⟨p, flags⟩)
  | (.unmap v _, .unmapped true _) => Function.update E v none
  | _ => E

def established (history : List (VmmCall × VmmResult)) : PageMap := history.foldl establish emptyMap

theorem establish_step (M : PageMap) (c : VmmCall) :
    establish M (c, (pageMapStep M c).1) = (pageMapStep M c).2 := by
  rcases c with ⟨v, p, flags⟩ | ⟨v, _ | out⟩
  · by_cases hallow : MapAllowed M v p flags
    · simp only [pageMapStep, if_pos hallow, establish]
    · simp only [pageMapStep, if_neg hallow, establish]
  · rfl
  · cases hx : M v with
    | none => simp only [pageMapStep, hx, establish]
    | some x => simp only [pageMapStep, hx, establish]

/-- The abstract map is what the history established. -/
theorem established_trace (cs : List VmmCall) :
    established (trace pageMapStep emptyMap cs) = exec pageMapStep emptyMap cs := by
  refine hist_inv (I := fun tr M => established tr = M) rfl ?_ cs
  intro tr M c h
  rw [established, List.foldl_append]
  change establish (established tr) _ = _
  rw [h, establish_step]

/-- **Software and hardware agree.** After every run and whatever the rest of the
memory holds, the walk from `page_directory` succeeds exactly when `vmm_translate`
does and gives the same address; a page of the window has the permissions of the call
that mapped it, an identity page is writable and for the kernel only. -/
theorem walk_agrees (layout : TableLayout) (other : U32 → U32) (s₀ : Vmm) (h₀ : s₀.enabled = false)
    (cs : List VmmCall) :
    (∀ x out, vmmTranslate (exec (vmmStep layout) (vmmInit layout s₀).2 cs) x (some out) =
      match hardwareWalk layout other (exec (vmmStep layout) (vmmInit layout s₀).2 cs) x with
      | some t => (true, some t.physicalAddress)
      | none => (false, some out)) ∧
    (∀ x : U32, 0x40000000 ≤ x.toNat → x.toNat < 0xF0000000 →
      hardwareWalk layout other (exec (vmmStep layout) (vmmInit layout s₀).2 cs) x =
        (established (trace (vmmStep layout) (vmmInit layout s₀).2 cs) (x &&& pageAddressMask)).map fun m =>
          ⟨m.page + (x &&& pageOffsetMask), decide (m.flags &&& vmmWritable ≠ 0),
            decide (m.flags &&& vmmUser ≠ 0)⟩) ∧
    ∀ x : U32, 4096 ≤ x.toNat → x.toNat < 0x08000000 →
      hardwareWalk layout other (exec (vmmStep layout) (vmmInit layout s₀).2 cs) x = some ⟨x, true, false⟩ := by
  obtain ⟨htrace, hs⟩ := vmmRun_sim layout h₀ cs
  refine ⟨?_, ?_, ?_⟩
  · intro x out
    have htranslate := vmmTranslate_eq hs x out
    rw [← hardwareWalk_eq hs other] at htranslate
    exact htranslate
  · intro x hlow _
    rw [hardwareWalk_eq hs, htrace, established_trace, mapTranslate]
    cases exec pageMapStep emptyMap cs (x &&& pageAddressMask) with
    | none => exact if_neg (by omega)
    | some m => rfl
  · intro x hlow hhigh
    rw [hardwareWalk_eq hs, mapTranslate, unmapped_below hs hhigh]
    exact if_pos ⟨hlow, hhigh⟩

/-- A read-only kernel page next to a writable user page of the same region. -/
theorem walk_agrees_shared_region :
    bssVmm.enabled = false ∧
    hardwareWalk sampleLayout (fun _ => 0)
        (exec (vmmStep sampleLayout) (vmmInit sampleLayout bssVmm).2
          [.map 0x40000000 0x300000 3, .map 0x40001000 0x301000 0]) 0x40001004 =
      some ⟨0x301004, false, false⟩ :=
  ⟨rfl, ((walk_agrees sampleLayout (fun _ => 0) bssVmm rfl _).2.1 0x40001004 (by decide) (by decide)).trans
    (by decide)⟩

/-! ## The pool of tables -/

/-- What every reachable state of the pool keeps; `s₁` is the state that `vmm_init` left. -/
structure PoolInvariant (layout : TableLayout) (s₁ s : Vmm) : Prop where
  /-- The shadow array and the directory name the same slots. -/
  shadow : ∀ d < 1024, s.directoryTableIndices d = tableIndexNone ↔ s.pageDirectory d &&& pagePresent = 0
  address : ∀ d < 1024, s.directoryTableIndices d ≠ tableIndexNone → (s.directoryTableIndices d).toNat < 64 ∧
    s.pageDirectory d &&& pageAddressMask = layout.address (s.directoryTableIndices d).toNat
  exclusive : ∀ d < 1024, ∀ d' < 1024, s.directoryTableIndices d ≠ tableIndexNone →
    s.directoryTableIndices d = s.directoryTableIndices d' → d = d'
  /-- A dynamic table is taken by exactly one slot of the window, or free. -/
  dynamic : ∀ t, 32 ≤ t → t < 64 → (s.tableInUse t = true ↔
    ∃! d, (256 ≤ d ∧ d < 960) ∧ s.directoryTableIndices d = BitVec.ofNat 16 t)
  nonempty : ∀ t, 32 ≤ t → t < 64 → s.tableInUse t = true → ∃ e < 1024, s.pageTables t e &&& pagePresent ≠ 0
  identity : ∀ t < 32, s.directoryTableIndices t = s₁.directoryTableIndices t ∧
    s.pageDirectory t = s₁.pageDirectory t ∧ s.tableInUse t = s₁.tableInUse t ∧
    ∀ e < 1024, s.pageTables t e = s₁.pageTables t e

/-- A slot with a table is an identity slot or that of a region with a mapping. -/
theorem slot_of_index (h : VmmOK layout s M) {d : ℕ} (hd : d < 1024)
    (hi : s.directoryTableIndices d ≠ tableIndexNone) : d < 32 ∨ d ∈ regions M := by
  by_contra hx
  rw [not_or] at hx
  exact hi (h.closed d hd (by omega) hx.2).1

theorem slot_region (h : VmmOK layout s M) {d t : ℕ} (hd : 256 ≤ d ∧ d < 960) (ht : t < 64)
    (hi : s.directoryTableIndices d = BitVec.ofNat 16 t) : d ∈ regions M := by
  have hne : s.directoryTableIndices d ≠ tableIndexNone := by
    rw [hi]
    exact index_ne_none ht
  rcases slot_of_index h (by omega) hne with hlow | hreg
  · omega
  · exact hreg

theorem slot_present (h : VmmOK layout s M) {d : ℕ} (hd : d < 1024) :
    s.directoryTableIndices d = tableIndexNone ↔ s.pageDirectory d &&& pagePresent = 0 := by
  by_cases hx : d < 32 ∨ d ∈ regions M
  · obtain ⟨t, ht, hi, hpresent, -, -⟩ := directory_open h hx
    rw [hi]
    exact iff_of_false (index_ne_none ht) hpresent
  · rw [not_or] at hx
    obtain ⟨hi, hdir⟩ := h.closed d hd (by omega) hx.2
    rw [hdir]
    exact iff_of_true hi (by decide)

/-- No two slots share a table, identity slots included. -/
theorem slot_inj (h : VmmOK layout s M) {d d' : ℕ} (hd : d < 32 ∨ d ∈ regions M) (hd' : d' < 32 ∨ d' ∈ regions M)
    (heq : s.directoryTableIndices d = s.directoryTableIndices d') : d = d' := by
  have hlow : ∀ d < 32, (s.directoryTableIndices d).toNat = d := by
    intro d hd
    rw [(h.identity d hd).1, toNat_index (by omega)]
  have heq' := congrArg BitVec.toNat heq
  -- identity slot `d` uses table `d`, below all the dynamic ones
  rcases hd with hd | hd <;> rcases hd' with hd' | hd'
  · rwa [hlow d hd, hlow d' hd'] at heq'
  · have := (h.table hd').1
    rw [hlow d hd] at heq'
    omega
  · have := (h.table hd).1
    rw [hlow d' hd'] at heq'
    omega
  · exact h.alone d hd d' hd' heq

theorem table_taken_iff (h : VmmOK layout s M) {t : ℕ} (h1 : 32 ≤ t) (h2 : t < 64) : s.tableInUse t = true ↔
    ∃! d, (256 ≤ d ∧ d < 960) ∧ s.directoryTableIndices d = BitVec.ofNat 16 t := by
  constructor
  · intro huse
    obtain ⟨d, hd, hi⟩ := h.taken t h1 h2 huse
    refine ⟨d, ⟨h.window d hd, hi⟩, ?_⟩
    intro d' hd'
    exact h.alone d' (slot_region h hd'.1 h2 hd'.2) d hd (hd'.2.trans hi.symm)
  · intro hex
    obtain ⟨d, ⟨hd, hi⟩, -⟩ := hex
    obtain ⟨u, -, hu, hi', huse, -⟩ := h.opened d (slot_region h hd h2 hi)
    rwa [index_inj h2 hu (hi.symm.trans hi')]

/-- A taken table holds the entry of some mapping. -/
theorem taken_nonempty (h : VmmOK layout s M) {t : ℕ} (h1 : 32 ≤ t) (h2 : t < 64) (huse : s.tableInUse t = true) :
    ∃ e < 1024, s.pageTables t e &&& pagePresent ≠ 0 := by
  obtain ⟨d, hd, hi⟩ := h.taken t h1 h2 huse
  obtain ⟨v, x, hv, rfl⟩ := hd
  obtain ⟨hval, hmem, -⟩ := h.valid v x hv
  have hentry := h.entries v hval hmem
  rw [directoryIndex_eq_region, hi, toNat_index h2, hv] at hentry
  refine ⟨entryIndex v, entryIndex_lt v, ?_⟩
  rw [hentry, ne_eq, encode_present]
  simp

theorem vmmOK_pool {s₁ : Vmm} (h₁ : VmmOK layout s₁ emptyMap) (h : VmmOK layout s M) :
    PoolInvariant layout s₁ s where
  shadow d hd := slot_present h hd
  address := by
    intro d hd hi
    obtain ⟨t, ht, hi', -, -, htable⟩ := directory_open h (slot_of_index h hd hi)
    rw [hi', toNat_index ht]
    exact ⟨ht, htable⟩
  exclusive := by
    intro d hd d' hd' hi heq
    exact slot_inj h (slot_of_index h hd hi) (slot_of_index h hd' (heq ▸ hi)) heq
  dynamic t h1 h2 := table_taken_iff h h1 h2
  nonempty t h1 h2 huse := taken_nonempty h h1 h2 huse
  identity := by
    intro t ht
    obtain ⟨hi, hdir, huse, hentry⟩ := h.identity t ht
    obtain ⟨hi₁, hdir₁, huse₁, hentry₁⟩ := h₁.identity t ht
    refine ⟨hi.trans hi₁.symm, hdir.trans hdir₁.symm, huse.trans huse₁.symm, ?_⟩
    intro e he
    rw [hentry e he, hentry₁ e he]

/-- **The pool invariant** holds after `vmm_init` and any list of calls. -/
theorem vmm_pool_invariant (layout : TableLayout) (s₀ : Vmm) (h₀ : s₀.enabled = false) (cs : List VmmCall) :
    PoolInvariant layout (vmmInit layout s₀).2 (exec (vmmStep layout) (vmmInit layout s₀).2 cs) :=
  vmmOK_pool (vmmInit_ok layout h₀).2 (vmmRun_sim layout h₀ cs).2

/-- The pool after a map that failed in a region of its own and one that succeeded. -/
theorem vmm_pool_invariant_failed_map :
    bssVmm.enabled = false ∧
    PoolInvariant sampleLayout (vmmInit sampleLayout bssVmm).2
      (exec (vmmStep sampleLayout) (vmmInit sampleLayout bssVmm).2
        [.map 0x40000000 0x300001 3, .map 0x50000000 0x301000 0]) :=
  ⟨rfl, vmm_pool_invariant sampleLayout bssVmm rfl _⟩

end TinyShell
