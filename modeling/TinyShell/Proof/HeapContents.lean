import TinyShell.Proof.HeapFree

/-!
# What clients store does not matter

`blocksStep` is the allocator on a bare list of blocks, with no memory at all. The code
answers as `blocksStep` does and leaves the blocks that it leaves (`heapStep_blocks`),
and a client's store leaves the blocks alone. So two runs with the same calls give the
same answers and the same lists, whatever was in memory and whatever the clients store.
-/

namespace TinyShell

open Machine

variable {arena : Arena} {h : Heap} {b : Block} {bs bs' : List Block} {s : HeapClient}

/-! ## The allocator on blocks -/

/-- First fit for a request of `n` bytes; NULL where there is none. -/
def blocksAlloc (bs : List Block) (n : ℕ) : U32 × List Block :=
  match alloc 32 16 (roundUp n) bs with
  | none => (0, bs)
  | some (a, bs') => (word (a + 32), bs')

def blocksStep (bs : List Block) : HeapCall → HeapResult × List Block
  | .kmalloc size => if size = 0 then (.pointer 0, bs) else (blocksAlloc bs size.toNat).map .pointer id
  | .kcalloc count size =>
    if count = 0 ∨ size = 0 ∨ size > 0xFFFFFFFF / count then (.pointer 0, bs)
    else (blocksAlloc bs (count * size).toNat).map .pointer id
  | .kfree pointer =>
    match release 32 (blockAddr pointer) bs with
    | none => (.flag false, bs)
    | some bs' => (.flag true, bs')
  | .getStats none => (.stats false none, bs)
  | .getStats (some _) => (.stats true (some (blockStats bs)), bs)

/-- The pointer that a block was handed out with leads back to it. -/
theorem blockAddr_pointer (hok : HeapOK arena h bs) (hb : b ∈ bs) : blockAddr (word (b.addr + 32)) = b.addr := by
  have hbound := hok.placed.bounds hb
  rw [blockAddr, toNat_word (by omega)]
  omega

/-- What `release` finds at the address that a pointer leads to. -/
theorem release_pointer (hok : HeapOK arena h bs) (p : U32) :
    (∃ b ∈ bs, b.addr = blockAddr p ∧ b.free = false) ↔ ∃ b ∈ bs, b.free = false ∧ p = word (b.addr + 32) := by
  constructor
  · rintro ⟨b, hb, haddr, hfree⟩
    refine ⟨b, hb, hfree, ?_⟩
    have hbound := hok.placed.bounds hb
    rw [blockAddr] at haddr
    bv_omega
  · rintro ⟨b, hb, hfree, rfl⟩
    exact ⟨b, hb, (blockAddr_pointer hok hb).symm, hfree⟩

/-- A call answers and changes the blocks as on the bare list. -/
def StepsAsBlocks (arena : Arena) (h : Heap) (bs : List Block) (c : HeapCall) : Prop :=
  (heapStep arena h c).1 = (blocksStep bs c).1 ∧ HeapOK arena (heapStep arena h c).2 (blocksStep bs c).2

theorem kmalloc_blocks (hok : HeapOK arena h bs) (size : U32) : StepsAsBlocks arena h bs (.kmalloc size) := by
  unfold StepsAsBlocks
  by_cases hsize : size = 0
  · simp only [heapStep, blocksStep, kmalloc_none hok (Or.inl hsize), if_pos hsize]
    exact ⟨trivial, hok⟩
  cases halloc : alloc 32 16 (roundUp size.toNat) bs with
  | none =>
    simp only [heapStep, blocksStep, blocksAlloc, kmalloc_none hok (Or.inr halloc), if_neg hsize, halloc]
    exact ⟨rfl, hok⟩
  | some r =>
    obtain ⟨m', hcall, hok', -⟩ := kmalloc_some hok hsize halloc
    simp only [heapStep, blocksStep, blocksAlloc, hcall, if_neg hsize, halloc]
    exact ⟨rfl, hok'⟩

theorem kcalloc_blocks (hok : HeapOK arena h bs) (count size : U32) :
    StepsAsBlocks arena h bs (.kcalloc count size) := by
  unfold StepsAsBlocks
  by_cases hargs : count = 0 ∨ size = 0 ∨ size > 0xFFFFFFFF / count
  · simp only [heapStep, blocksStep, kcalloc_none (Or.inl hargs), if_pos hargs]
    exact ⟨trivial, hok⟩
  have hsize : count * size ≠ 0 := by
    intro hzero
    have htotal := calloc_total hargs
    rw [calloc_refused_iff, not_or] at hargs
    rw [hzero] at htotal
    exact hargs.1 htotal.symm
  cases halloc : alloc 32 16 (roundUp (count * size).toNat) bs with
  | none =>
    have hcall : kcalloc arena h count size = (0, h) := kcalloc_none (Or.inr (kmalloc_none hok (Or.inr halloc)))
    simp only [heapStep, blocksStep, blocksAlloc, hcall, if_neg hargs, halloc]
    exact ⟨rfl, hok⟩
  | some r =>
    -- the block is cleared after it was handed out, and keeps its header
    obtain ⟨b, m', haddr, hcall, hout⟩ := kmalloc_handedOut hok hsize halloc
    obtain ⟨m'', hcalloc, hout'⟩ := kcalloc_handedOut hargs hcall hout
    simp only [heapStep, blocksStep, blocksAlloc, hcalloc, if_neg hargs, halloc]
    rw [haddr]
    exact ⟨rfl, hout'.heap⟩

theorem kfree_blocks (hok : HeapOK arena h bs) (pointer : U32) : StepsAsBlocks arena h bs (.kfree pointer) := by
  unfold StepsAsBlocks
  by_cases hlive : ∃ b ∈ bs, b.free = false ∧ pointer = word (b.addr + 32)
  · obtain ⟨b, hb, hfree, rfl⟩ := hlive
    obtain ⟨m', bs', hcall, hrelease, hok', -⟩ := kfree_true hok hb hfree
    simp only [heapStep, blocksStep, hcall, blockAddr_pointer hok hb, hrelease]
    exact ⟨trivial, hok'⟩
  · have hcall : kfree arena h pointer = (false, h) := by
      apply kfree_false hok
      intro b hb hfree heq
      exact hlive ⟨b, hb, hfree, heq⟩
    have hrelease : release 32 (blockAddr pointer) bs = none := by
      rw [← release_pointer hok] at hlive
      rw [release, if_neg hlive]
    simp only [heapStep, blocksStep, hcall, hrelease]
    exact ⟨trivial, hok⟩

/-- **Step lemma**: so does every call. -/
theorem heapStep_blocks (hok : HeapOK arena h bs) (c : HeapCall) : StepsAsBlocks arena h bs c := by
  cases c with
  | kmalloc size => exact kmalloc_blocks hok size
  | kcalloc count size => exact kcalloc_blocks hok count size
  | kfree pointer => exact kfree_blocks hok pointer
  | getStats stats =>
    unfold StepsAsBlocks
    cases stats with
    | none => exact ⟨rfl, hok⟩
    | some stats =>
      simp only [heapStep, blocksStep, kheapGetStats, inspectHeap_ok hok]
      exact ⟨trivial, hok⟩

/-! ## Client stores -/

/-- The headers determine the blocks. -/
theorem viewsOf_inj (p p' : ℕ) (hbs : ∀ b ∈ bs, b.addr < 2 ^ 32 ∧ b.size < 2 ^ 32)
    (hbs' : ∀ b ∈ bs', b.addr < 2 ^ 32 ∧ b.size < 2 ^ 32) (heq : viewsOf p bs = viewsOf p' bs') : bs = bs' := by
  induction bs generalizing p p' bs' with
  | nil =>
    cases bs' with
    | nil => rfl
    | cons c cs => simp [viewsOf] at heq
  | cons b bs ih =>
    cases bs' with
    | nil => simp [viewsOf] at heq
    | cons c cs =>
      rw [List.forall_mem_cons] at hbs hbs'
      simp only [viewsOf, List.cons.injEq, BlockView.mk.injEq] at heq
      obtain ⟨⟨haddr, -, hstate, hsize, -, -⟩, htail⟩ := heq
      have h1 : b.addr = c.addr := by
        rw [← toNat_word hbs.1.1, ← toNat_word hbs'.1.1, haddr]
      have h2 : b.size = c.size := by
        rw [← toNat_word hbs.1.2, ← toNat_word hbs'.1.2, hsize]
      have h3 : b.free = c.free := by
        rw [Bool.eq_iff_iff, ← stateWord_eq_free, ← stateWord_eq_free, hstate]
      obtain ⟨addr, size, free⟩ := b
      obtain rfl : bs = cs := ih _ _ hbs.2 hbs'.2 htail
      obtain ⟨rfl, rfl, rfl⟩ : addr = c.addr ∧ size = c.size ∧ free = c.free := ⟨h1, h2, h3⟩
      rfl

/-- A heap has one list of blocks. -/
theorem HeapOK.unique (hok : HeapOK arena h bs) (hok' : HeapOK arena h bs') : bs = bs' := by
  have hlt : ∀ {bs : List Block}, HeapOK arena h bs → ∀ b ∈ bs, b.addr < 2 ^ 32 ∧ b.size < 2 ^ 32 := by
    intro bs hok b hb
    have hbound := hok.placed.bounds hb
    omega
  apply viewsOf_inj 0 0 (hlt hok) (hlt hok')
  rw [← blockList_ok hok, ← blockList_ok hok']

def HeapEvent.call? : HeapEvent → Option HeapCall
  | .call c => some c
  | .write _ _ _ => none

/-- The calls of a run. -/
def heapCalls (es : List HeapEvent) : List HeapCall := es.filterMap HeapEvent.call?

/-- The answers of the calls of a run, each with the block list that the call leaves. -/
def callLog (arena : Arena) (s : HeapClient) : List HeapEvent → List (HeapResult × List BlockView)
  | [] => []
  | e :: es =>
    let (r, s) := clientStep arena s e
    (r.map fun r => (r, blockList s.heap)).toList ++ callLog arena s es

/-- The same on bare blocks. -/
def blocksLog (bs : List Block) : List HeapCall → List (HeapResult × List BlockView)
  | [] => []
  | c :: cs => ((blocksStep bs c).1, viewsOf 0 (blocksStep bs c).2) :: blocksLog (blocksStep bs c).2 cs

/-- **Run lemma**: the log of a run is that of its calls on bare blocks. -/
theorem callLog_eq (hs : ClientOK arena s bs) (es : List HeapEvent) :
    callLog arena s es = blocksLog bs (heapCalls es) := by
  induction es generalizing s bs with
  | nil => rfl
  | cons e es ih =>
    cases e with
    | call c =>
      obtain ⟨hresult, hok⟩ := heapStep_blocks hs.heap c
      obtain ⟨bs', hs', -⟩ := heapStep_ok hs c
      obtain rfl : bs' = (blocksStep bs c).2 := hs'.heap.unique hok
      have htail := ih hs'
      have hlist := blockList_ok hok
      simp only [callLog, clientStep, heapCalls, List.filterMap_cons, HeapEvent.call?, blocksLog]
      rw [← hresult, ← hlist, ← heapCalls, ← htail]
      rfl
    | write pointer offset value =>
      -- a store is no call, and it is to the payload of a block that stays
      have hnone : (clientStep arena s (.write pointer offset value)).1 = none := by
        simp only [clientStep]
        split_ifs <;> rfl
      have hcalls : heapCalls (.write pointer offset value :: es) = heapCalls es := rfl
      rw [hcalls, ← ih (clientWrite_ok hs pointer offset value), callLog]
      generalize clientStep arena s (.write pointer offset value) = step at hnone ⊢
      obtain ⟨r, s'⟩ := step
      obtain rfl : r = none := hnone
      rfl

/-- **What clients store does not matter**: two runs with the same calls give the same
answers and the same block list after each of them. -/
theorem heap_contents_irrelevant (arena : Arena) (h₀ h₀' : Heap) (es es' : List HeapEvent)
    (hcalls : heapCalls es = heapCalls es') :
    callLog arena (freshHeap arena h₀) es = callLog arena (freshHeap arena h₀') es' := by
  rw [callLog_eq (freshHeap_ok arena h₀) es, callLog_eq (freshHeap_ok arena h₀') es', hcalls]

/-- One client stores the magic number of a header into its allocation, and both free a
pointer into it. -/
theorem heap_contents_irrelevant_forged :
    heapCalls [.call (.kmalloc 64#32), .write 0x100020#32 0#32 0x50#8, .write 0x100020#32 1#32 0x41#8,
        .write 0x100020#32 2#32 0x45#8, .write 0x100020#32 3#32 0x48#8, .call (.kfree 0x100040#32)] =
      heapCalls [.call (.kmalloc 64#32), .call (.kfree 0x100040#32)] ∧
    callLog lowArena (freshHeap lowArena zeroHeap)
        [.call (.kmalloc 64#32), .write 0x100020#32 0#32 0x50#8, .write 0x100020#32 1#32 0x41#8,
          .write 0x100020#32 2#32 0x45#8, .write 0x100020#32 3#32 0x48#8, .call (.kfree 0x100040#32)] =
      callLog lowArena (freshHeap lowArena zeroHeap) [.call (.kmalloc 64#32), .call (.kfree 0x100040#32)] :=
  ⟨rfl, heap_contents_irrelevant lowArena zeroHeap zeroHeap _ _ rfl⟩

end TinyShell
