import TinyShell.Proof.VmmRuns
import TinyShell.Spec.Tlb

/-!
# The TLB agrees with the tables

A cached translation can only be wrong for the page that a running `vmm_unmap_page` has cleared and
not yet invalidated. Every other store leaves the walk of every page as it was, or gives a
translation to a page that had none.

* `vmmMapPageStores_eq`, `vmmUnmapPageStores_eq`: the stores of a call, made one after the other, are
  the call.
* `call_plan`: what the walk sees after each of them.
* `tlbRun_ok`, `tlb_coherent`: whole runs, with fills between any two stores.
-/

namespace TinyShell

open Machine

variable {layout : TableLayout} {s : Vmm} {M N : PageMap} {O : Set ℕ} {hole : Option U32}

/-! ## The stores of a call are the call -/

theorem applyStores_append (s : Vmm) (l₁ l₂ : List VmmStore) :
    applyStores s (l₁ ++ l₂) = applyStores (applyStores s l₁) l₂ := List.foldl_append

theorem applyStores_cons (s : Vmm) (store : VmmStore) (l : List VmmStore) :
    applyStores s (store :: l) = applyStores (applyStore s store) l := rfl

theorem clearTableStores_apply (s : Vmm) (t : ℕ) :
    applyStores s (clearTableStores t) =
      { s with pageTables := Function.update s.pageTables t (clearTable (s.pageTables t)) } := by
  -- the first `n` entries are cleared, the others are as they were
  have hfirst : ∀ n, applyStores s ((List.range n).map fun e => .entry t e 0) =
      { s with pageTables := Function.update s.pageTables t (fill (s.pageTables t) 0 n fun _ => 0) } := by
    intro n
    induction n with
    | zero =>
      have hfill : fill (s.pageTables t) 0 0 (fun _ => 0) = s.pageTables t := by
        funext e
        exact fill_of_not_mem (by omega)
      rw [hfill, Function.update_eq_self]
      rfl
    | succ n ih =>
      have hfill : Function.update (fill (s.pageTables t) 0 n fun _ => 0) n 0 =
          fill (s.pageTables t) 0 (n + 1) fun _ => 0 := by
        funext e
        unfold fill
        rw [Function.update_apply]
        split_ifs <;> first | rfl | omega
      rw [List.range_succ, List.map_append, applyStores_append, ih]
      change ({ s with pageTables := setEntry _ t n 0 } : Vmm) = _
      simp only [setEntry, Function.update_self, Function.update_idem, hfill]
  exact hfirst pageTableEntries

theorem allocateDynamicTableStores_eq (s : Vmm) :
    allocateDynamicTable s =
      ((allocateDynamicTableStores s).1, applyStores s (allocateDynamicTableStores s).2) := by
  unfold allocateDynamicTable allocateDynamicTableStores
  cases (List.range' identityTableCount (pageTableCount - identityTableCount)).find?
      fun index => !s.tableInUse index with
  | none => rfl
  | some index =>
    simp only
    rw [applyStores_cons, clearTableStores_apply]
    rfl

theorem openTableStores_eq (layout : TableLayout) (s : Vmm) (d : ℕ) :
    openTable layout s d = (openTableStores layout s d).map fun o => (o.1, applyStores s o.2) := by
  unfold openTable openTableStores
  rw [allocateDynamicTableStores_eq]
  simp only
  split_ifs with hindex halloc
  · rfl
  · rw [Option.map_some, applyStores_append]
    rfl
  · rfl

theorem vmmMapPageStores_eq (layout : TableLayout) (s : Vmm) (v p flags : U32) :
    vmmMapPage layout s v p flags =
      ((vmmMapPageStores layout s v p flags).1, applyStores s (vmmMapPageStores layout s v p flags).2) := by
  unfold vmmMapPage vmmMapPageStores
  simp only [openTableStores_eq]
  by_cases hargs : (!s.enabled || !dynamicAddressIsValid v || decide (p &&& pageOffsetMask ≠ 0) ||
      decide (flags &&& ~~~vmmAllowedFlags ≠ 0)) = true
  · rw [if_pos hargs, if_pos hargs]
    rfl
  rw [if_neg hargs, if_neg hargs]
  cases openTableStores layout s (directoryIndex v) with
  | none => rfl
  | some o =>
    simp only [Option.map_some]
    split_ifs with hpresent huser
    · rfl
    · simp only [applyStores_append]
      rfl
    · simp only [applyStores_append]
      rfl

theorem vmmUnmapPageStores_eq (s : Vmm) (v : U32) (out : Option U32) :
    vmmUnmapPage s v out =
      ((vmmUnmapPageStores s v out).1, (vmmUnmapPageStores s v out).2.1,
        applyStores s (vmmUnmapPageStores s v out).2.2) := by
  unfold vmmUnmapPage vmmUnmapPageStores
  simp only
  split_ifs with hargs hindex hpresent hempty hempty' hempty'
  · rfl
  · rfl
  · rfl
  · rfl
  · exact absurd hempty hempty'
  · exact absurd hempty' hempty
  · rfl

/-- **A call is the list of its stores.** -/
theorem callStores_eq (layout : TableLayout) (s : Vmm) (c : VmmCall) :
    vmmStep layout s c = ((callStores layout s c).1, applyStores s (callStores layout s c).2) := by
  cases c with
  | map v p flags =>
    unfold vmmStep callStores
    simp only [vmmMapPageStores_eq]
  | unmap v out =>
    unfold vmmStep callStores
    simp only [vmmUnmapPageStores_eq]

/-! ## What the walk sees -/

/-- The processor sees the mappings `M`, whatever the rest of the memory holds. -/
def Walks (layout : TableLayout) (s : Vmm) (M : PageMap) : Prop :=
  ∀ other x, hardwareWalk layout other s x = mapTranslate M x

theorem PoolOK.walks (h : PoolOK layout s M O) : Walks layout s M := hardwareWalk_eq h

/-- A free table is not seen. -/
theorem PoolOK.walks_scratch (h : PoolOK layout s M O) {t : ℕ} (ht : 32 ≤ t ∧ t < 64)
    (hfree : s.tableInUse t = false) (table : ℕ → U32) :
    Walks layout { s with pageTables := Function.update s.pageTables t table } M := by
  refine PoolOK.walks (O := O) ⟨h.enabled, h.valid, h.window, ?_, h.closed, h.opened, h.user, h.alone,
    h.taken, ?_⟩
  · intro u hu
    obtain ⟨h1, h2, h3, h4⟩ := h.identity u hu
    refine ⟨h1, h2, h3, ?_⟩
    simp only
    rwa [Function.update_of_ne (by omega)]
  · intro v hv hvO
    simp only
    rw [Function.update_of_ne, h.entries v hv hvO]
    -- the table of an open region is in use
    obtain ⟨u, -, hu, hi, huse, -⟩ := h.opened _ hvO
    rw [hi, toNat_index hu]
    rintro rfl
    rw [hfree] at huse
    simp at huse

/-- The translation of a page that is neither mapped nor below 128 MiB. -/
theorem mapTranslate_none {v : U32} (hv : dynamicAddressIsValid v = true) (hnone : M v = none) :
    mapTranslate M v = none := by
  obtain ⟨⟨hlow, -⟩, haligned⟩ := (window_iff v).1 hv
  unfold mapTranslate
  rw [page_of_aligned ((offset_eq_zero v).2 haligned), hnone]
  exact if_neg (by omega)

/-- Another page keeps its translation. -/
theorem mapTranslate_update {v x : U32} (hx : x &&& pageAddressMask ≠ v) (m : Option Mapping) :
    mapTranslate (Function.update M v m) x = mapTranslate M x := by
  unfold mapTranslate
  rw [Function.update_of_ne hx]

/-! ## The plan of a call -/

/-- The stores still to make lead from the mappings `M` to the mappings `N`, and after each of them the
walk sees mappings again. A store may map a page that was not mapped, or unmap one, which then is the
`hole`: what is cached for it may be stale until it is invalidated. -/
inductive Plan (layout : TableLayout) (N : PageMap) : Vmm → PageMap → Option U32 → List VmmStore → Prop
  | done {s : Vmm} : Plan layout N s N none []
  | quiet {s : Vmm} {M : PageMap} {store : VmmStore} {rest : List VmmStore} :
      Walks layout (applyStore s store) M → Plan layout N (applyStore s store) M none rest →
      Plan layout N s M none (store :: rest)
  | map {s : Vmm} {M : PageMap} {v : U32} {m : Mapping} {store : VmmStore} {rest : List VmmStore} :
      dynamicAddressIsValid v = true → M v = none →
      Walks layout (applyStore s store) (Function.update M v (some m)) →
      Plan layout N (applyStore s store) (Function.update M v (some m)) none rest →
      Plan layout N s M none (store :: rest)
  | unmap {s : Vmm} {M : PageMap} {v : U32} {store : VmmStore} {rest : List VmmStore} :
      Walks layout (applyStore s store) (Function.update M v none) →
      Plan layout N (applyStore s store) (Function.update M v none) (some v) rest →
      Plan layout N s M none (store :: rest)
  | invalidate {s : Vmm} {M : PageMap} {v : U32} {rest : List VmmStore} :
      dynamicAddressIsValid v = true → Plan layout N s M none rest →
      Plan layout N s M (some v) (.invalidate v :: rest)

/-- Clearing a free table. -/
theorem plan_clear {t : ℕ} {rest : List VmmStore} :
    ∀ {entries : List ℕ} {s : Vmm},
      (∀ table, Walks layout { s with pageTables := Function.update s.pageTables t table } M) →
      Plan layout N (applyStores s (entries.map fun e => .entry t e 0)) M none rest →
      Plan layout N s M none ((entries.map fun e => .entry t e 0) ++ rest) := by
  intro entries
  induction entries with
  | nil => intro s _ hrest; exact hrest
  | cons e entries ih =>
    intro s hscratch hrest
    refine Plan.quiet (hscratch _) (ih ?_ hrest)
    intro table
    have hnext := hscratch table
    rw [← Function.update_idem (a := t) (Function.update (s.pageTables t) e 0) table s.pageTables] at hnext
    exact hnext

/-- **Opening a region** is quiet. -/
theorem opening_plan (h : PoolOK layout s M O) {d : ℕ} (hd : 256 ≤ d ∧ d < 960) {tableIndex : U16}
    {opening : List VmmStore} (hopen : openTableStores layout s d = some (tableIndex, opening)) :
    tableIndex = (applyStores s opening).directoryTableIndices d ∧
    PoolOK layout (applyStores s opening) M (insert d O) ∧
    ∀ rest, Plan layout N (applyStores s opening) M none rest → Plan layout N s M none (opening ++ rest) := by
  unfold openTableStores at hopen
  by_cases hdO : d ∈ O
  · rw [if_neg (h.table hdO).2.2] at hopen
    obtain ⟨rfl, rfl⟩ := Prod.mk.inj (Option.some.inj hopen)
    rw [Set.insert_eq_of_mem hdO]
    exact ⟨rfl, h, fun rest hrest => hrest⟩
  · rw [if_pos (h.closed d (by omega) (by omega) hdO).1] at hopen
    unfold allocateDynamicTableStores at hopen
    cases hfind : (List.range' identityTableCount (pageTableCount - identityTableCount)).find?
        fun index => !s.tableInUse index with
    | none => simp [hfind] at hopen
    | some t =>
      have ht := (mem_dynamicTables t).1 (List.mem_of_find?_eq_some hfind)
      have hfree : s.tableInUse t = false := by simpa using List.find?_some hfind
      rw [hfind] at hopen
      simp only [if_neg (index_ne_none ht.2), toNat_index ht.2] at hopen
      obtain ⟨rfl, rfl⟩ := Prod.mk.inj (Option.some.inj hopen)
      -- up to the store to the directory the new table is not seen
      have hcleared := clearTableStores_apply (applyStore s (.tableInUse t true)) t
      have hinstall : applyStores s (.tableInUse t true :: clearTableStores t ++
          [.tableIndex d (BitVec.ofNat 16 t), .directory d (tableEntry layout t)]) = install layout s d t := by
        rw [applyStores_append, applyStores_cons s, hcleared]
        rfl
      have hpool := install_ok h hd hdO ht hfree
      rw [hinstall]
      have hself : (install layout s d t).directoryTableIndices d = BitVec.ofNat 16 t := Function.update_self ..
      refine ⟨hself.symm, hpool, ?_⟩
      intro rest hrest
      rw [List.append_assoc]
      refine Plan.quiet h.walks (plan_clear (h.walks_scratch ht hfree) ?_)
      change Plan layout N (applyStores _ (clearTableStores t)) M none _
      rw [hcleared]
      exact Plan.quiet (h.walks_scratch ht hfree _) (Plan.quiet hpool.walks hrest)

theorem map_plan (h : VmmOK layout s M) (v p flags : U32) :
    Plan layout (establish M (.map v p flags, .mapped (vmmMapPageStores layout s v p flags).1)) s M none
      (vmmMapPageStores layout s v p flags).2 := by
  unfold vmmMapPageStores
  simp only
  by_cases hargs : (!s.enabled || !dynamicAddressIsValid v || decide (p &&& pageOffsetMask ≠ 0) ||
      decide (flags &&& ~~~vmmAllowedFlags ≠ 0)) = true
  · rw [if_pos hargs]
    exact Plan.done
  rw [if_neg hargs]
  obtain ⟨hval, hp, -⟩ := (mapArgs_iff (s := s) v p flags h.enabled).1 (by simpa using hargs)
  have hwin := (valid_iff v).1 hval
  cases hopen : openTableStores layout s (directoryIndex v) with
  | none => exact Plan.done
  | some o =>
    obtain ⟨tableIndex, opening⟩ := o
    simp only
    obtain ⟨rfl, hpool, hplan⟩ := opening_plan (N := establish M (.map v p flags, .mapped true)) h
      ⟨hwin.1, hwin.2.1⟩ hopen
    have hvO : directoryIndex v ∈ insert (directoryIndex v) (regions M) := Set.mem_insert _ _
    split_ifs with hpresent huser
    · have hrefused := (opening_plan (N := M) h ⟨hwin.1, hwin.2.1⟩ hopen).2.2 [] Plan.done
      rwa [List.append_nil] at hrefused
    all_goals
      have hnone : M v = none := by
        rw [hpool.entries v hval hvO, ne_eq, not_not, encode_present] at hpresent
        exact hpresent
      have hpage : p &&& pageOffsetMask = 0 := (offset_eq_zero p).2 hp
    · -- the raised user bit changes no translation: a page without it in its own entry stays the kernel's
      have hstore := (mapEntry_ok hpool hval hvO hpage).1 huser
      rw [List.append_assoc]
      refine hplan _ (Plan.quiet (raise_ok hpool hvO).walks (Plan.map hval hnone hstore.walks ?_))
      exact Plan.quiet hstore.walks Plan.done
    · have hstore := (mapEntry_ok hpool hval hvO hpage).2 huser
      rw [List.append_nil]
      exact hplan _ (Plan.map hval hnone hstore.walks (Plan.quiet hstore.walks Plan.done))

theorem unmap_plan (h : VmmOK layout s M) (v : U32) (out : Option U32) :
    Plan layout (establish M (.unmap v out, .unmapped (vmmUnmapPageStores s v out).1
      (vmmUnmapPageStores s v out).2.1)) s M none (vmmUnmapPageStores s v out).2.2 := by
  unfold vmmUnmapPageStores
  simp only
  by_cases hargs : (!s.enabled || out.isNone || !dynamicAddressIsValid v) = true
  · rw [if_pos hargs]
    exact Plan.done
  rw [if_neg hargs]
  simp only [Bool.or_eq_true, not_or, Bool.not_eq_true, Bool.not_eq_false'] at hargs
  have hval := hargs.2
  by_cases hindex : s.directoryTableIndices (directoryIndex v) = tableIndexNone
  · rw [if_pos hindex]
    exact Plan.done
  have hvO := open_of_index h hval hindex
  rw [if_neg hindex]
  by_cases hpresent : s.pageTables (s.directoryTableIndices (directoryIndex v)).toNat (entryIndex v) &&&
      pagePresent = 0
  · rw [if_pos hpresent]
    exact Plan.done
  rw [if_neg hpresent]
  have hcleared : PoolOK layout (storeEntry s v 0) (Function.update M v none) (regions M) :=
    store_ok (x := none) h hval hvO (by simp)
  refine Plan.unmap hcleared.walks (Plan.invalidate hval ?_)
  change Plan layout (Function.update M v none) (storeEntry s v 0) _ none
    (if (decide _ && tableIsEmpty ((storeEntry s v 0).pageTables _)) = true then _ else _)
  split_ifs with hempty
  · -- the table is given back, and no page of its region is mapped
    rw [Bool.and_eq_true] at hempty
    have hclosed := close_ok hcleared hvO ((tableIsEmpty_iff hcleared hvO).1 hempty.2)
    exact Plan.quiet hclosed.walks (Plan.quiet hclosed.walks (Plan.quiet hclosed.walks Plan.done))
  · exact Plan.done

/-- **What a call does to the walk**, store by store. -/
theorem call_plan (h : VmmOK layout s M) (c : VmmCall) :
    Plan layout (establish M (c, (callStores layout s c).1)) s M none (callStores layout s c).2 := by
  cases c with
  | map v p flags => exact map_plan h v p flags
  | unmap v out => exact unmap_plan h v out

/-! ## The invariant -/

/-- What is cached is right, the hole apart. -/
def Coherent (M : PageMap) (hole : Option U32) (tlb : List (U32 × Translation)) : Prop :=
  ∀ page t, (page, t) ∈ tlb → page &&& pageAddressMask = page ∧ (hole ≠ some page → mapTranslate M page = some t)

/-- A call of `vmm_unmap_page` that was not refused for its arguments: it returned true, or its page
was not mapped. -/
def Unmaps (v : U32) (out : Option U32) (ok : Bool) : Prop :=
  ok = true ∨ out ≠ none ∧ dynamicAddressIsValid v = true

/-- The running call leads from the mappings `M` that the processor sees now to the mappings `N`. -/
structure TlbOK (layout : TableLayout) (sys : TlbSystem) (M N : PageMap) (hole : Option U32) : Prop where
  returns : VmmOK layout (applyStores sys.vmm sys.pending) N
  walks : Walks layout sys.vmm M
  coherent : Coherent M hole sys.tlb
  plan : Plan layout N sys.vmm M hole sys.pending
  unmapped : ∀ v out ok a, sys.last = some (.unmap v out, .unmapped ok a) → Unmaps v out ok →
    dynamicAddressIsValid v = true ∧ N v = none

/-- Between two calls the tables hold the mappings that the processor sees. -/
theorem TlbOK.idle {sys : TlbSystem} (h : TlbOK layout sys M N hole) (hidle : sys.pending = []) :
    M = N ∧ hole = none ∧ VmmOK layout sys.vmm N := by
  obtain ⟨hreturns, -, -, hplan, -⟩ := h
  rw [hidle] at hplan hreturns
  cases hplan
  exact ⟨rfl, rfl, hreturns⟩

theorem Coherent.fill {tlb : List (U32 × Translation)} (h : Coherent M hole tlb) {v : U32} {t : Translation}
    (ht : mapTranslate M (v &&& pageAddressMask) = some t) :
    Coherent M hole ((v &&& pageAddressMask, t) :: tlb) := by
  intro page t' hmem
  rcases List.mem_cons.1 hmem with heq | hmem
  · obtain ⟨rfl, rfl⟩ := Prod.mk.inj heq
    refine ⟨?_, fun _ => ht⟩
    rw [BitVec.and_assoc, BitVec.and_self]
  · exact h page t' hmem

/-- No store adds to the TLB. -/
theorem mem_tlbAfter {tlb : List (U32 × Translation)} {store : VmmStore} {cached : U32 × Translation}
    (h : cached ∈ tlbAfter tlb store) : cached ∈ tlb := by
  cases store with
  | invalidate v => exact List.mem_of_mem_filter h
  | _ => exact h

/-- **Step lemma** for one store. -/
theorem tlbAdvance_ok {sys : TlbSystem} (h : TlbOK layout sys M N hole) :
    ∃ M' hole', TlbOK layout (tlbStep layout sys .advance) M' N hole' := by
  obtain ⟨vmm, tlb, pending, last⟩ := sys
  obtain ⟨hreturns, hwalks, hcoherent, hplan, hunmapped⟩ := h
  simp only at hreturns hwalks hcoherent hplan hunmapped
  cases hplan with
  | done => exact ⟨_, _, hreturns, hwalks, hcoherent, Plan.done, hunmapped⟩
  | quiet hnext hrest =>
    refine ⟨_, _, hreturns, hnext, ?_, hrest, hunmapped⟩
    intro page t hmem
    exact hcoherent page t (mem_tlbAfter hmem)
  | @map _ _ v m _ _ hval hnone hnext hrest =>
    refine ⟨_, _, hreturns, hnext, ?_, hrest, hunmapped⟩
    intro page t hmem
    obtain ⟨haligned, hright⟩ := hcoherent page t (mem_tlbAfter hmem)
    have hcached := hright (by simp)
    refine ⟨haligned, fun _ => ?_⟩
    -- nothing was cached for a page that was not mapped
    have hne : page &&& pageAddressMask ≠ v := by
      rw [haligned]
      rintro rfl
      rw [mapTranslate_none hval hnone] at hcached
      simp at hcached
    rw [mapTranslate_update hne, hcached]
  | @unmap _ _ v _ _ hnext hrest =>
    refine ⟨_, _, hreturns, hnext, ?_, hrest, hunmapped⟩
    intro page t hmem
    obtain ⟨haligned, hright⟩ := hcoherent page t (mem_tlbAfter hmem)
    refine ⟨haligned, fun hhole => ?_⟩
    have hne : page &&& pageAddressMask ≠ v := by
      rw [haligned]
      rintro rfl
      exact hhole rfl
    rw [mapTranslate_update hne, hright (by simp)]
  | @invalidate _ _ v _ hval hrest =>
    refine ⟨_, _, hreturns, hwalks, ?_, hrest, hunmapped⟩
    intro page t hmem
    obtain ⟨hmem, hkept⟩ := List.mem_filter.1 hmem
    obtain ⟨haligned, hright⟩ := hcoherent page t hmem
    refine ⟨haligned, fun _ => hright ?_⟩
    rintro ⟨⟩
    exact of_decide_eq_true hkept haligned.symm

/-- After an unmap that was not refused the page is not mapped. -/
theorem unmaps_none (h : VmmOK layout s M) {v : U32} {out a : Option U32} {ok : Bool}
    (hresult : (pageMapStep M (.unmap v out)).1 = .unmapped ok a) (hunmaps : Unmaps v out ok) :
    dynamicAddressIsValid v = true ∧ establish M (.unmap v out, .unmapped ok a) v = none := by
  cases out with
  | none =>
    simp only [pageMapStep, VmmResult.unmapped.injEq] at hresult
    rcases hunmaps with rfl | hunmaps
    · exact absurd hresult.1 (by simp)
    · exact absurd rfl hunmaps.1
  | some out =>
    cases hm : M v with
    | some m =>
      simp only [pageMapStep, hm, VmmResult.unmapped.injEq] at hresult
      rw [← hresult.1]
      exact ⟨(h.valid v m hm).1, Function.update_self ..⟩
    | none =>
      simp only [pageMapStep, hm, VmmResult.unmapped.injEq] at hresult
      rw [← hresult.1] at hunmaps ⊢
      exact ⟨(hunmaps.resolve_left (by simp)).2, hm⟩

/-- **Step lemma** for a call: it starts with all its stores to make. -/
theorem tlbCall_ok {sys : TlbSystem} (h : TlbOK layout sys M N hole) (hidle : sys.pending = []) (c : VmmCall) :
    ∃ N', TlbOK layout (tlbStep layout sys (.call c)) N N' none := by
  obtain ⟨rfl, rfl, hok⟩ := h.idle hidle
  obtain ⟨hresult, hreturns⟩ := vmmStep_sim hok c
  rw [callStores_eq] at hresult hreturns
  rw [← establish_step, ← hresult] at hreturns
  unfold tlbStep
  rw [hidle]
  refine ⟨_, hreturns, h.walks, h.coherent, call_plan hok c, ?_⟩
  intro v out ok a hlast hunmaps
  obtain ⟨rfl, hanswer⟩ := Prod.mk.inj (Option.some.inj hlast)
  rw [hanswer]
  rw [hanswer] at hresult
  exact unmaps_none hok hresult.symm hunmaps

/-- **Step lemma.** -/
theorem tlbStep_ok {sys : TlbSystem} (h : TlbOK layout sys M N hole) (e : TlbEvent) :
    ∃ M' N' hole', TlbOK layout (tlbStep layout sys e) M' N' hole' := by
  cases e with
  | call c =>
    cases hidle : sys.pending with
    | nil =>
      obtain ⟨N', h'⟩ := tlbCall_ok h hidle c
      exact ⟨_, _, _, h'⟩
    | cons store rest =>
      refine ⟨M, N, hole, ?_⟩
      unfold tlbStep
      simp only [hidle]
      exact h
  | init =>
    refine ⟨M, N, hole, ?_⟩
    unfold tlbStep
    cases hidle : sys.pending with
    | nil =>
      -- paging is enabled by now, so a second `vmm_init` returns at once
      have hagain : (vmmInit layout sys.vmm).2 = sys.vmm := by
        unfold vmmInit
        rw [if_pos (h.idle hidle).2.2.enabled]
      have hreturns := h.returns
      have hplan := h.plan
      rw [hidle] at hreturns hplan
      simp only [hagain]
      refine ⟨hreturns, h.walks, h.coherent, hplan, ?_⟩
      intro v out ok a hlast
      simp at hlast
    | cons store rest => exact h
  | translate v out => exact ⟨M, N, hole, h⟩
  | advance =>
    obtain ⟨M', hole', h'⟩ := tlbAdvance_ok h
    exact ⟨M', N, hole', h'⟩
  | fill v other =>
    refine ⟨M, N, hole, ?_⟩
    unfold tlbStep
    simp only
    cases hwalk : hardwareWalk layout other sys.vmm (v &&& pageAddressMask) with
    | none => exact h
    | some t =>
      rw [h.walks] at hwalk
      exact ⟨h.returns, h.walks, h.coherent.fill hwalk, h.plan, h.unmapped⟩

/-- The system right after the first `vmm_init`. -/
def tlbStart (layout : TableLayout) (s₀ : Vmm) : TlbSystem := ⟨(vmmInit layout s₀).2, [], [], none⟩

/-- **Run lemma.** -/
theorem tlbRun_ok (layout : TableLayout) {s₀ : Vmm} (h₀ : s₀.enabled = false) (es : List TlbEvent) :
    ∃ M N hole, TlbOK layout (es.foldl (tlbStep layout) (tlbStart layout s₀)) M N hole := by
  have hrun : ∀ (es : List TlbEvent) (sys : TlbSystem), (∃ M N hole, TlbOK layout sys M N hole) →
      ∃ M N hole, TlbOK layout (es.foldl (tlbStep layout) sys) M N hole := by
    intro es
    induction es with
    | nil => intro sys h; exact h
    | cons e es ih =>
      rintro sys ⟨M, N, hole, h⟩
      exact ih _ (tlbStep_ok h e)
  have hinit := (vmmInit_ok layout h₀).2
  refine hrun es _ ⟨emptyMap, emptyMap, none, hinit, hinit.walks, ?_, Plan.done, ?_⟩
  · intro page t hmem
    exact absurd hmem (List.not_mem_nil)
  · intro v out ok a hlast
    simp [tlbStart] at hlast

/-- **The TLB never outlives the tables.** Whatever is filled between the stores of whatever calls,
once a call has returned everything cached is what the walk gives now, with its permissions; and after
an unmap that was not refused for its arguments nothing is cached for its page. -/
theorem tlb_coherent (layout : TableLayout) (s₀ : Vmm) (h₀ : s₀.enabled = false) (es : List TlbEvent)
    (hreturned : (es.foldl (tlbStep layout) (tlbStart layout s₀)).pending.isEmpty = true) :
    (∀ page t, (page, t) ∈ (es.foldl (tlbStep layout) (tlbStart layout s₀)).tlb → ∀ other,
      hardwareWalk layout other (es.foldl (tlbStep layout) (tlbStart layout s₀)).vmm page = some t) ∧
    ∀ v out ok a, (es.foldl (tlbStep layout) (tlbStart layout s₀)).last =
        some (.unmap v out, .unmapped ok a) → Unmaps v out ok →
      ∀ t, (v &&& pageAddressMask, t) ∉ (es.foldl (tlbStep layout) (tlbStart layout s₀)).tlb := by
  obtain ⟨M, N, hole, h⟩ := tlbRun_ok layout h₀ es
  obtain ⟨rfl, rfl, -⟩ := h.idle (List.isEmpty_iff.1 hreturned)
  constructor
  · intro page t hmem other
    rw [h.walks]
    exact (h.coherent page t hmem).2 (by simp)
  · intro v out ok a hlast hunmaps t hmem
    obtain ⟨hval, hnone⟩ := h.unmapped v out ok a hlast hunmaps
    have hcached := (h.coherent _ t hmem).2 (by simp)
    rw [page_of_aligned ((offset_eq_zero v).2 ((valid_iff v).1 hval).2.2),
      mapTranslate_none hval hnone] at hcached
    simp at hcached

/-- Two pages of one region are mapped; both are cached, the second one also between the stores of
the call that unmaps it. -/
def tlbRaces : List TlbEvent :=
  TlbEvent.call (.map 0x40000000 0x300000 3) :: List.replicate 1030 TlbEvent.advance ++
    [TlbEvent.call (.map 0x40001000 0x301000 0), TlbEvent.advance, TlbEvent.advance,
      TlbEvent.fill 0x40000004 fun _ => 0, TlbEvent.call (.unmap 0x40001000 (some 0)),
      TlbEvent.fill 0x40001008 fun _ => 0, TlbEvent.advance, TlbEvent.fill 0x40000ABC fun _ => 0,
      TlbEvent.advance]

theorem tlb_coherent_races :
    bssVmm.enabled = false ∧
    (tlbRaces.foldl (tlbStep sampleLayout) (tlbStart sampleLayout bssVmm)).pending.isEmpty = true ∧
    (tlbRaces.foldl (tlbStep sampleLayout) (tlbStart sampleLayout bssVmm)).tlb =
      [(0x40000000, ⟨0x300000, true, true⟩), (0x40000000, ⟨0x300000, true, true⟩)] ∧
    hardwareWalk sampleLayout (fun _ => 0)
        (tlbRaces.foldl (tlbStep sampleLayout) (tlbStart sampleLayout bssVmm)).vmm 0x40000000 =
      some ⟨0x300000, true, true⟩ := by
  have hpending :
      (tlbRaces.foldl (tlbStep sampleLayout) (tlbStart sampleLayout bssVmm)).pending.isEmpty = true := by
    decide +kernel
  have htlb : (tlbRaces.foldl (tlbStep sampleLayout) (tlbStart sampleLayout bssVmm)).tlb =
      [(0x40000000, ⟨0x300000, true, true⟩), (0x40000000, ⟨0x300000, true, true⟩)] := by
    decide +kernel
  refine ⟨rfl, hpending, htlb, ?_⟩
  refine (tlb_coherent sampleLayout bssVmm rfl tlbRaces hpending).1 _ _ ?_ _
  rw [htlb]
  exact List.mem_cons_self

end TinyShell
