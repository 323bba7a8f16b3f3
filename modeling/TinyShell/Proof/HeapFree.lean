import TinyShell.Proof.HeapRuns

/-!
# What `kfree` gives back

The block list of a well-formed heap is a function of its blocks (`blockList_ok`), so
what `release` does to the blocks says what `kfree` does to the list.

* `holds_iff`: the clients hold a pointer exactly when it has been returned and not been
  freed since.
* `kfree_exact`: `kfree` accepts exactly these pointers.
* `free_order`: the order in which allocations are freed does not matter.
* `kfree_undoes_kmalloc`: freeing what was just allocated restores the list.
-/

namespace TinyShell

open Machine

variable {arena : Arena} {h : Heap} {b : Block} {bs : List Block} {m : Memory}

/-! ## The block list -/

/-- The headers of a list of blocks. -/
def viewsOf : ℕ → List Block → List BlockView
  | _, [] => []
  | previous, b :: bs =>
    ⟨word b.addr, heapBlockMagic, stateWord b.free, word b.size, word previous, word (firstAddr 0 bs)⟩ ::
      viewsOf b.addr bs

theorem blocksFrom_linked {previous fuel : ℕ} (hlink : Linked m previous 0 bs) (hpos : ∀ b ∈ bs, 0 < b.addr)
    (hfuel : bs.length < fuel) : blocksFrom m fuel (word (firstAddr 0 bs)) = viewsOf previous bs := by
  induction bs generalizing previous fuel with
  | nil =>
    obtain ⟨fuel, rfl⟩ : ∃ k, fuel = k + 1 := ⟨fuel - 1, by omega⟩
    exact if_pos rfl
  | cons b bs ih =>
    rw [List.forall_mem_cons] at hpos
    rw [List.length_cons] at hfuel
    obtain ⟨fuel, rfl⟩ : ∃ k, fuel = k + 1 := ⟨fuel - 1, by omega⟩
    obtain ⟨hh, htail⟩ := hlink
    have hne : ¬word b.addr = 0 := by
      rw [word_eq_zero hh.addr_lt]
      omega
    rw [blocksFrom, firstAddr, if_neg hne, blockView, hh.magic, hh.state, hh.payloadSize, hh.previous, hh.next,
      ih htail hpos.2 (by omega), viewsOf]

/-- **The block list** of a well-formed heap. -/
theorem blockList_ok (hok : HeapOK arena h bs) : blockList h = viewsOf 0 bs := by
  have hlen := hok.length_le
  rw [blockList, hok.firstBlock_eq]
  refine blocksFrom_linked hok.linked (fun b hb => (hok.placed.bounds hb).1) ?_
  rw [blockFuel]
  simp
  omega

/-! ## Live pointers -/

/-- The call has returned the pointer. -/
def Returns (p : U32) (call : HeapEvent × Option HeapResult) : Prop :=
  p ≠ 0 ∧ ((∃ size, call = (.call (.kmalloc size), some (.pointer p))) ∨
    ∃ count size, call = (.call (.kcalloc count size), some (.pointer p)))

/-- The call has freed the pointer. -/
def Frees (p : U32) (call : HeapEvent × Option HeapResult) : Prop :=
  call = (.call (.kfree p), some (.flag true))

/-- Returned by an earlier call and not successfully freed since. -/
def LiveIn (calls : List (HeapEvent × Option HeapResult)) (p : U32) : Prop := Since (Returns p) (Frees p) calls

/-- The client holds the pointer. -/
def HoldsPointer (s : HeapClient) (p : U32) : Prop := ∃ a ∈ s.live, a.pointer = p

/-- A call that returns the pointer `q`, NULL where it fails. -/
theorem holds_returned (live : List Allocation) (n : ℕ) (p q : U32) :
    (∃ a ∈ if q = 0 then live else ⟨q, n⟩ :: live, a.pointer = p) ↔ (p ≠ 0 ∧ q = p) ∨
      ∃ a ∈ live, a.pointer = p := by
  by_cases hq : q = 0
  · have hnull : ¬(p ≠ 0 ∧ q = p) := fun h => h.1 (h.2.symm.trans hq)
    rw [if_pos hq, or_iff_right hnull]
  · have hpq : q = p ↔ p ≠ 0 ∧ q = p := ⟨fun h => ⟨h ▸ hq, h⟩, And.right⟩
    rw [if_neg hq, ← hpq]
    simp only [List.mem_cons, exists_eq_or_imp]

/-- What the clients hold after an event. -/
theorem holds_step (arena : Arena) (s : HeapClient) (e : HeapEvent) (p : U32) :
    HoldsPointer (clientStep arena s e).2 p ↔
      Returns p (e, (clientStep arena s e).1) ∨ HoldsPointer s p ∧ ¬Frees p (e, (clientStep arena s e).1) := by
  cases e with
  | write pointer offset value =>
    have hlive : (clientStep arena s (.write pointer offset value)).2.live = s.live := by
      rw [clientStep]
      split_ifs <;> rfl
    rw [HoldsPointer, hlive]
    simp [Returns, Frees, HoldsPointer]
  | call c =>
    cases c with
    | kmalloc size =>
      refine (holds_returned s.live _ p (kmalloc arena s.heap size).1).trans ?_
      simp [Returns, Frees, HoldsPointer, clientStep, heapStep]
    | kcalloc count size =>
      refine (holds_returned s.live _ p (kcalloc arena s.heap count size).1).trans ?_
      simp [Returns, Frees, HoldsPointer, clientStep, heapStep]
    | kfree pointer =>
      cases hok : (kfree arena s.heap pointer).1 with
      | false => simp [Returns, Frees, HoldsPointer, clientStep, heapStep, hok, liveAfter]
      | true =>
        have hlive : (clientStep arena s (.call (.kfree pointer))).2.live =
            s.live.filter fun a => a.pointer ≠ pointer := by
          simp only [clientStep, heapStep, hok, liveAfter]
        have hfrees : Frees p (.call (.kfree pointer), (clientStep arena s (.call (.kfree pointer))).1) ↔
            pointer = p := by
          simp [Frees, clientStep, heapStep, hok]
        have hreturns : ¬Returns p (.call (.kfree pointer), (clientStep arena s (.call (.kfree pointer))).1) := by
          simp [Returns]
        rw [or_iff_right hreturns, hfrees, HoldsPointer, hlive, HoldsPointer]
        constructor
        · rintro ⟨a, ha, rfl⟩
          obtain ⟨ha, hne⟩ := List.mem_filter.1 ha
          exact ⟨⟨a, ha, rfl⟩, Ne.symm (of_decide_eq_true hne)⟩
        · rintro ⟨⟨a, ha, rfl⟩, hne⟩
          exact ⟨a, List.mem_filter.2 ⟨ha, decide_eq_true (Ne.symm hne)⟩, rfl⟩
    | getStats stats => simp [Returns, Frees, HoldsPointer, clientStep, heapStep, liveAfter]

/-- **History lemma**: the clients hold a pointer exactly when it is live. -/
theorem holds_iff (arena : Arena) (h₀ : Heap) (es : List HeapEvent) (p : U32) :
    HoldsPointer (exec (clientStep arena) (freshHeap arena h₀) es) p ↔
      LiveIn (trace (clientStep arena) (freshHeap arena h₀) es) p := by
  refine hist_inv (I := fun calls s => HoldsPointer s p ↔ LiveIn calls p) ?_ ?_ es
  · exact iff_of_false (by simp [HoldsPointer, freshHeap]) (not_since_nil _ _)
  · intro calls s e h
    rw [holds_step, h]
    exact since_concat.symm

/-! ## Accepting exactly the live pointers -/

/-- The pointers that clients hold are the payloads of the allocated blocks. -/
theorem ClientOK.holds_iff {s : HeapClient} (hs : ClientOK arena s bs) (p : U32) :
    HoldsPointer s p ↔ ∃ b ∈ bs, b.free = false ∧ p = word (b.addr + 32) := by
  constructor
  · rintro ⟨a, ha, rfl⟩
    obtain ⟨b, hb, hfree, hp, -⟩ := hs.live a ha
    exact ⟨b, hb, hfree, hp⟩
  · rintro ⟨b, hb, hfree, rfl⟩
    exact hs.held b hb hfree

/-- **`kfree` accepts exactly the live pointers** and changes nothing when it refuses. -/
theorem kfree_exact (arena : Arena) (h₀ : Heap) (es : List HeapEvent) (p : U32) :
    let h := (exec (clientStep arena) (freshHeap arena h₀) es).heap
    ((kfree arena h p).1 = true ↔ LiveIn (trace (clientStep arena) (freshHeap arena h₀) es) p) ∧
      ((kfree arena h p).1 = false → (kfree arena h p).2 = h) := by
  intro h
  obtain ⟨bs, hs⟩ := clientRun_ok arena h₀ es
  rw [← holds_iff, hs.holds_iff]
  by_cases hlive : ∃ b ∈ bs, b.free = false ∧ p = word (b.addr + 32)
  · obtain ⟨b, hb, hfree, rfl⟩ := hlive
    obtain ⟨m', bs', hcall, -⟩ := kfree_true hs.heap hb hfree
    rw [show kfree arena h (word (b.addr + 32)) = _ from hcall]
    exact ⟨iff_of_true rfl ⟨b, hb, hfree, rfl⟩, nofun⟩
  · have hcall : kfree arena h p = (false, h) :=
      kfree_false hs.heap fun b hb hfree heq => hlive ⟨b, hb, hfree, heq⟩
    rw [hcall]
    exact ⟨iff_of_false Bool.false_ne_true hlive, fun _ => rfl⟩

/-! ## The order of frees -/

/-- The address of the block that a pointer belongs to. -/
def blockAddr (p : U32) : ℕ := p.toNat - 32

/-- **Run lemma**: freeing some allocated blocks marks them all free and fuses. -/
theorem freeAll_ok {ps : List U32} (hok : HeapOK arena h bs) (hps : ps.Nodup)
    (hlive : ∀ p ∈ ps, ∃ b ∈ bs, b.free = false ∧ p = word (b.addr + 32)) :
    HeapOK arena (exec (kfree arena) h ps) (coalesce 32 (markAll (ps.map blockAddr) bs)) ∧
      ∀ call ∈ trace (kfree arena) h ps, call.2 = true := by
  induction ps generalizing h bs with
  | nil =>
    exact ⟨by rwa [List.map_nil, markAll, List.foldl_nil, coalesce_of_coalesced hok.coalesced], by simp [trace]⟩
  | cons p ps ih =>
    rw [List.nodup_cons] at hps
    rw [List.forall_mem_cons] at hlive
    obtain ⟨⟨b, hb, hfree, rfl⟩, hrest⟩ := hlive
    obtain ⟨m', bs', hcall, hrelease, hok', -⟩ := kfree_true hok hb hfree
    have hbound := hok.placed.bounds hb
    have haddr : blockAddr (word (b.addr + 32)) = b.addr := by
      rw [blockAddr, toNat_word (by omega), Nat.add_sub_cancel]
    have hbs' : bs' = coalesce 32 (markFree b.addr bs) := by
      rw [release, if_pos ⟨b, hb, rfl, hfree⟩] at hrelease
      exact (Option.some.inj hrelease).symm
    have hlive' : ∀ q ∈ ps, ∃ c ∈ bs', c.free = false ∧ q = word (c.addr + 32) := by
      intro q hq
      obtain ⟨c, hc, hcfree, rfl⟩ := hrest q hq
      refine ⟨c, (mem_release hrelease hcfree).2 ⟨hc, fun heq => hps.1 ?_⟩, hcfree, rfl⟩
      rwa [← heq]
    obtain ⟨hfinal, htrue⟩ := ih hok' hps.2 hlive'
    rw [hbs', coalesce_markAll] at hfinal
    simp only [exec, trace, hcall, List.map_cons, haddr]
    exact ⟨hfinal, List.forall_mem_cons.2 ⟨rfl, htrue⟩⟩

/-- A heap as `kheap_init` leaves it: one free block of the arena less a header. -/
structure InitialHeap (arena : Arena) (h : Heap) : Prop where
  blocks : blockList h = [⟨arena.begin, heapBlockMagic, heapBlockFree, kheapArenaSize - heapBlockSize, 0, 0⟩]
  stats : ∀ stats, kheapGetStats arena h (some stats) =
    (true, some ⟨totalCapacity, totalCapacity, totalCapacity, 0⟩)

theorem HeapOK.initialHeap (hok : HeapOK arena h (initialBlocks arena)) : InitialHeap arena h := by
  refine ⟨?_, fun stats => ?_⟩
  · rw [blockList_ok hok]
    simp [viewsOf, initialBlocks, firstAddr, stateWord]
  · simp [kheapGetStats, inspectHeap_ok hok, blockStats, initialBlocks, freeBytes, largestFree, allocatedCount]
    rfl

/-- Freeing all allocated blocks leaves one free block. -/
theorem freeAll_initial (ps : List U32) (hok : HeapOK arena h bs)
    (hall : ∀ b ∈ bs, b.free = false → b.addr ∈ ps.map blockAddr) :
    coalesce 32 (markAll (ps.map blockAddr) bs) = initialBlocks arena := by
  have hcut := markAll_cut (ps.map blockAddr) hok.cut
  have hfree : ∀ b ∈ markAll (ps.map blockAddr) bs, b.free = true := by
    intro b hb
    by_contra hbfree
    rw [Bool.not_eq_true] at hbfree
    obtain ⟨hmem, hnot⟩ := (mem_markAll hbfree).1 hb
    exact hnot (hall b hmem hbfree)
  have hne : markAll (ps.map blockAddr) bs ≠ [] := by
    intro hnil
    have htiles := hcut.tiles
    rw [hnil] at htiles
    have : arena.begin.toNat = arena.begin.toNat + 262144 := htiles
    omega
  rw [coalesce_all_free hcut.tiles hne hfree, initialBlocks, Nat.add_sub_cancel_left]

/-- Freeing some pointers in one order and in another. -/
structure FreeOrder (arena : Arena) (h : Heap) (live : U32 → Prop) (ps ps' : List U32) : Prop where
  accepted : ∀ call ∈ trace (kfree arena) h ps, call.2 = true
  accepted' : ∀ call ∈ trace (kfree arena) h ps', call.2 = true
  same : blockList (exec (kfree arena) h ps) = blockList (exec (kfree arena) h ps')
  restored : (∀ p, live p → p ∈ ps) →
    InitialHeap arena (exec (kfree arena) h ps) ∧ ∀ h₀, InitialHeap arena (kheapInit arena h₀).2

/-- **The order of frees does not matter and nothing is lost.** -/
theorem free_order (arena : Arena) (h₀ : Heap) (es : List HeapEvent) (ps ps' : List U32) (hps : ps.Nodup)
    (hlive : ∀ p ∈ ps, LiveIn (trace (clientStep arena) (freshHeap arena h₀) es) p) (hperm : ps.Perm ps') :
    FreeOrder arena (exec (clientStep arena) (freshHeap arena h₀) es).heap
      (LiveIn (trace (clientStep arena) (freshHeap arena h₀) es)) ps ps' := by
  obtain ⟨bs, hs⟩ := clientRun_ok arena h₀ es
  have hblock : ∀ p, LiveIn (trace (clientStep arena) (freshHeap arena h₀) es) p ↔
      ∃ b ∈ bs, b.free = false ∧ p = word (b.addr + 32) := fun p => by
    rw [← holds_iff, hs.holds_iff]
  have hblocks := fun p hp => (hblock p).1 (hlive p hp)
  obtain ⟨hok, htrue⟩ := freeAll_ok hs.heap hps hblocks
  obtain ⟨hok', htrue'⟩ := freeAll_ok hs.heap (hperm.nodup hps) fun p hp => hblocks p (hperm.mem_iff.2 hp)
  rw [← markAll_perm (hperm.map blockAddr)] at hok'
  refine ⟨htrue, htrue', by rw [blockList_ok hok, blockList_ok hok'], fun hall => ?_⟩
  have hinitial := freeAll_initial ps hs.heap fun b hb hfree => by
    have hbound := hs.heap.placed.bounds hb
    refine List.mem_map.2 ⟨_, hall _ ((hblock _).2 ⟨b, hb, hfree, rfl⟩), ?_⟩
    rw [blockAddr, toNat_word (by omega), Nat.add_sub_cancel]
  rw [hinitial] at hok
  exact ⟨hok.initialHeap, fun h₁ => (kheapInit_ok arena h₁).2.initialHeap⟩

/-- An arena at one megabyte. -/
def lowArena : Arena := ⟨0x100000, by decide, by decide, by decide⟩

def zeroHeap : Heap := ⟨fun _ => 0, 0, false⟩

/-- Two small allocations are next to each other at the start of the arena. -/
theorem kmalloc_twice :
    ∃ h h', kmalloc lowArena (freshHeap lowArena zeroHeap).heap 1#32 = (0x100020#32, h) ∧
      kmalloc lowArena h 1#32 = (0x100050#32, h') := by
  obtain ⟨m, hcall, hok, -⟩ := kmalloc_some (freshHeap_ok lowArena zeroHeap).heap (show 1#32 ≠ 0 by decide)
    (show alloc 32 16 16 [⟨0x100000, 262112, true⟩] = some _ from rfl)
  obtain ⟨m', hcall', -⟩ := kmalloc_some hok (show 1#32 ≠ 0 by decide)
    (show alloc 32 16 16 _ = some _ from rfl)
  exact ⟨_, _, hcall, hcall'⟩

theorem free_order_two :
    FreeOrder lowArena (exec (clientStep lowArena) (freshHeap lowArena zeroHeap)
        [.call (.kmalloc 1#32), .call (.kmalloc 1#32)]).heap
      (LiveIn (trace (clientStep lowArena) (freshHeap lowArena zeroHeap)
        [.call (.kmalloc 1#32), .call (.kmalloc 1#32)]))
      [0x100020#32, 0x100050#32] [0x100050#32, 0x100020#32] := by
  obtain ⟨h, h', hfirst, hsecond⟩ := kmalloc_twice
  refine free_order lowArena zeroHeap _ _ _ (by decide) (fun p hp => ?_) (List.Perm.swap _ _ _)
  rw [← holds_iff]
  simp only [List.mem_cons, List.not_mem_nil, or_false] at hp
  rcases hp with rfl | rfl <;> simp [exec, clientStep, heapStep, hfirst, hsecond, liveAfter, HoldsPointer]

/-! ## Freeing what was just allocated -/

/-- **`kfree` undoes `kmalloc`.** -/
theorem kfree_undoes_kmalloc (arena : Arena) (h₀ : Heap) (es : List HeapEvent) (size : U32)
    (hp : (kmalloc arena (exec (clientStep arena) (freshHeap arena h₀) es).heap size).1 ≠ 0) :
    let h := (exec (clientStep arena) (freshHeap arena h₀) es).heap
    (kfree arena (kmalloc arena h size).2 (kmalloc arena h size).1).1 = true ∧
      blockList (kfree arena (kmalloc arena h size).2 (kmalloc arena h size).1).2 = blockList h := by
  intro h
  obtain ⟨bs, hs⟩ := clientRun_ok arena h₀ es
  have hok : HeapOK arena h bs := hs.heap
  have hsize : size ≠ 0 := by
    rintro rfl
    exact hp (by rw [kmalloc_none hs.heap (.inl rfl)])
  cases halloc : alloc 32 16 (roundUp size.toNat) bs with
  | none => exact absurd (by rw [kmalloc_none hs.heap (.inr halloc)]) hp
  | some r =>
    obtain ⟨a, bs'⟩ := r
    obtain ⟨m', hcall, hok', -⟩ := kmalloc_some hok hsize halloc
    obtain ⟨n, -, hmem⟩ := mem_alloc halloc
    have hb : (⟨a, n, false⟩ : Block) ∈ bs' := (hmem _ rfl).2 (.inr rfl)
    obtain ⟨m'', bs'', hfree, hrelease, hok'', -⟩ := kfree_true hok' hb rfl
    have hround : 0 < roundUp size.toNat ∧ roundUp size.toNat % 16 = 0 := by
      have : size.toNat ≠ 0 := fun hz => hsize (BitVec.eq_of_toNat_eq hz)
      rw [roundUp]
      omega
    have hsame := release_alloc (by decide) hok.cut hok.coalesced rfl hround.1 hround.2 halloc
    rw [hsame] at hrelease
    obtain rfl := Option.some.inj hrelease
    rw [hcall, hfree]
    exact ⟨rfl, by rw [blockList_ok hok, blockList_ok hok'']⟩

theorem kfree_undoes_kmalloc_second :
    let h := (exec (clientStep lowArena) (freshHeap lowArena zeroHeap) [.call (.kmalloc 1#32)]).heap
    (kfree lowArena (kmalloc lowArena h 1#32).2 (kmalloc lowArena h 1#32).1).1 = true ∧
      blockList (kfree lowArena (kmalloc lowArena h 1#32).2 (kmalloc lowArena h 1#32).1).2 = blockList h := by
  obtain ⟨h, h', hfirst, hsecond⟩ := kmalloc_twice
  refine kfree_undoes_kmalloc lowArena zeroHeap [.call (.kmalloc 1#32)] 1#32 ?_
  simp [exec, clientStep, heapStep, hfirst, hsecond]

end TinyShell
