import TinyShell.Machine.Run
import TinyShell.Proof.HeapOps

/-!
# Runs of the heap

A run interleaves heap calls with arbitrary arguments and client stores inside the
payloads of live allocations. `ClientOK` ties the allocations held by the clients
to the allocated blocks; every event keeps it (`clientStep_ok`).

* `heap_disjoint`: live allocations are aligned, inside the arena, disjoint from
  each other and from every header, and no call changes their bytes.
* `heap_invariant`: inspection succeeds in every reachable state.
-/

namespace TinyShell

open Machine

variable {arena : Arena} {s : HeapClient} {b c : Block} {bs bs' : List Block} {m' : Memory}

/-- The clients hold exactly the allocated blocks. -/
structure ClientOK (arena : Arena) (s : HeapClient) (bs : List Block) : Prop where
  heap : HeapOK arena s.heap bs
  live : ∀ a ∈ s.live, ∃ b ∈ bs, b.free = false ∧ a.pointer = word (b.addr + 32) ∧ a.size ≤ b.size
  held : ∀ b ∈ bs, b.free = false → ∃ a ∈ s.live, a.pointer = word (b.addr + 32)
  distinct : s.live.Pairwise fun a a' => a.pointer ≠ a'.pointer

theorem payload_inj {h : Heap} (hok : HeapOK arena h bs) (hb : b ∈ bs) (hc : c ∈ bs)
    (heq : word (b.addr + 32) = word (c.addr + 32)) : b = c := by
  have h1 := hok.placed.bounds hb
  have h2 := hok.placed.bounds hc
  exact hok.cut.tiles.addr_inj (by omega) hb hc (by bv_omega)

/-- An allocation call that hands out a block. -/
theorem ClientOK.handOut (hs : ClientOK arena s bs) {n : ℕ} (hout : HandedOut arena s.heap bs n b bs' m') :
    ClientOK arena ⟨{ s.heap with mem := m' }, ⟨word (b.addr + 32), n⟩ :: s.live⟩ bs' := by
  have hb : b ∈ bs' := (hout.mem b hout.allocated).2 (Or.inr rfl)
  refine ⟨hout.heap, ?_, ?_, List.pairwise_cons.2 ⟨?_, hs.distinct⟩⟩
  · intro a ha
    rcases List.mem_cons.1 ha with rfl | ha
    · exact ⟨b, hb, hout.allocated, rfl, hout.size⟩
    · obtain ⟨c, hc, hcfree, hp, hsize⟩ := hs.live a ha
      exact ⟨c, (hout.mem c hcfree).2 (Or.inl hc), hcfree, hp, hsize⟩
  · intro c hc hcfree
    rcases (hout.mem c hcfree).1 hc with hc | rfl
    · obtain ⟨a, ha, hp⟩ := hs.held c hc hcfree
      exact ⟨a, List.mem_cons_of_mem _ ha, hp⟩
    · exact ⟨_, List.mem_cons_self, rfl⟩
  · -- the block is new, so its pointer is too
    intro a ha heq
    obtain ⟨c, hc, hcfree, hp, -⟩ := hs.live a ha
    have hcb : c = b := payload_inj hout.heap ((hout.mem c hcfree).2 (Or.inl hc)) hb (by rw [← hp, ← heq])
    exact hout.fresh c hc hcfree (by rw [hcb])

/-- A `kfree` that succeeds. -/
theorem ClientOK.freed (hs : ClientOK arena s bs) (hb : b ∈ bs) (hr : release 32 b.addr bs = some bs')
    (hok : HeapOK arena { s.heap with mem := m' } bs') :
    ClientOK arena ⟨{ s.heap with mem := m' }, s.live.filter fun a => a.pointer ≠ word (b.addr + 32)⟩ bs' := by
  refine ⟨hok, ?_, ?_, hs.distinct.filter _⟩
  · intro a ha
    simp only [List.mem_filter, decide_eq_true_eq] at ha
    obtain ⟨c, hc, hcfree, hp, hsize⟩ := hs.live a ha.1
    refine ⟨c, (mem_release hr hcfree).2 ⟨hc, ?_⟩, hcfree, hp, hsize⟩
    intro heq
    exact ha.2 (by rw [hp, heq])
  · intro c hc hcfree
    obtain ⟨hc, hne⟩ := (mem_release hr hcfree).1 hc
    obtain ⟨a, ha, hp⟩ := hs.held c hc hcfree
    refine ⟨a, ?_, hp⟩
    simp only [List.mem_filter, decide_eq_true_eq]
    refine ⟨ha, fun heq => hne ?_⟩
    rw [payload_inj hs.heap hc hb (by rw [← hp, heq])]

/-- **Step lemma for calls**: the clients still hold exactly the allocated blocks, and
no payload byte of a block allocated before has changed. -/
theorem heapStep_ok (hs : ClientOK arena s bs) (c : HeapCall) :
    ∃ bs', ClientOK arena ⟨(heapStep arena s.heap c).2, liveAfter s.live c (heapStep arena s.heap c).1⟩ bs' ∧
      Kept bs s.heap.mem (heapStep arena s.heap c).2.mem := by
  have hsame : ∀ {h : Heap}, h = s.heap → Kept bs s.heap.mem h.mem := by
    rintro h rfl b _ _ x _ _
    rfl
  -- both allocation calls fail with the heap unchanged or hand out a block
  have halloc : ∀ {n : ℕ} {r : U32 × Heap}, (r = (0, s.heap) ∨ ∃ b bs' m',
      r = (word (b.addr + 32), { s.heap with mem := m' }) ∧ HandedOut arena s.heap bs n b bs' m') →
      ∃ bs', ClientOK arena ⟨r.2, if r.1 = 0 then s.live else ⟨r.1, n⟩ :: s.live⟩ bs' ∧
        Kept bs s.heap.mem r.2.mem := by
    rintro n r (rfl | ⟨b, bs', m', rfl, hout⟩)
    · exact ⟨bs, hs, hsame rfl⟩
    · have hb := hout.heap.placed.bounds ((hout.mem b hout.allocated).2 (Or.inr rfl))
      have hne : ¬word (b.addr + 32) = 0 := by
        rw [word_eq_zero (by omega)]
        omega
      simp only [if_neg hne]
      exact ⟨bs', hs.handOut hout, hout.kept⟩
  cases c with
  | kmalloc size => exact halloc (kmalloc_cases hs.heap size)
  | kcalloc count size => exact halloc (kcalloc_cases hs.heap count size)
  | kfree pointer =>
    by_cases hlive : ∃ b ∈ bs, b.free = false ∧ pointer = word (b.addr + 32)
    · obtain ⟨b, hb, hfree, rfl⟩ := hlive
      obtain ⟨m', bs', hcall, hr, hok, hkept⟩ := kfree_true hs.heap hb hfree
      simp only [heapStep, hcall, liveAfter]
      exact ⟨bs', hs.freed hb hr hok, hkept⟩
    · have hcall : kfree arena s.heap pointer = (false, s.heap) :=
        kfree_false hs.heap fun b hb hfree heq => hlive ⟨b, hb, hfree, heq⟩
      simp only [heapStep, hcall, liveAfter]
      exact ⟨bs, hs, hsame rfl⟩
  | getStats stats => exact ⟨bs, hs, hsame rfl⟩

/-- The payload size that a client's pointer leads to. -/
theorem payloadSize_of_pointer (hok : HeapOK arena s.heap bs) (hb : b ∈ bs) :
    getField s.heap.mem (word (b.addr + 32) - heapBlockSize) .payloadSize = word b.size := by
  obtain ⟨p, q, hh⟩ := hok.linked.mem hb
  have hsub : word (b.addr + 32) - heapBlockSize = word b.addr := by
    rw [heapBlockSize]
    bv_omega
  rw [hsub, hh.payloadSize]

/-- A client's store leaves all blocks as they are. -/
theorem clientWrite_ok (hs : ClientOK arena s bs) (pointer offset : U32) (value : U8) :
    ClientOK arena (clientStep arena s (.write pointer offset value)).2 bs := by
  simp only [clientStep]
  split_ifs with hmay
  · simp only [clientMayWrite, Bool.and_eq_true, List.any_eq_true, decide_eq_true_eq] at hmay
    obtain ⟨⟨a, ha, rfl⟩, hoff⟩ := hmay
    obtain ⟨b, hb, hfree, hp, -⟩ := hs.live a ha
    have hbound := hs.heap.placed.bounds hb
    rw [hp, payloadSize_of_pointer hs.heap hb] at hoff
    refine ⟨hs.heap.write hb fun x hx => Function.update_of_ne ?_ _ _, hs.live, hs.held, hs.distinct⟩
    rw [hp]
    bv_omega
  · exact hs

/-- **Step lemma**: every event keeps the clients in step with the blocks. -/
theorem clientStep_ok (hs : ClientOK arena s bs) (e : HeapEvent) :
    ∃ bs', ClientOK arena (clientStep arena s e).2 bs' := by
  cases e with
  | call c =>
    obtain ⟨bs', h, -⟩ := heapStep_ok hs c
    exact ⟨bs', h⟩
  | write pointer offset value => exact ⟨bs, clientWrite_ok hs pointer offset value⟩

/-- The state in which the clients find a fresh heap. -/
def freshHeap (arena : Arena) (h₀ : Heap) : HeapClient := ⟨(kheapInit arena h₀).2, []⟩

theorem freshHeap_ok (arena : Arena) (h₀ : Heap) :
    ClientOK arena (freshHeap arena h₀) (initialBlocks arena) := by
  refine ⟨(kheapInit_ok arena h₀).2, by simp [freshHeap], ?_, List.Pairwise.nil⟩
  intro b hb hfree
  simp only [initialBlocks, List.mem_singleton] at hb
  rw [hb] at hfree
  simp at hfree

/-- **Run lemma**: the clients hold exactly the allocated blocks after every run. -/
theorem clientRun_ok (arena : Arena) (h₀ : Heap) (es : List HeapEvent) :
    ∃ bs, ClientOK arena (exec (clientStep arena) (freshHeap arena h₀) es) bs :=
  exec_inv (I := fun s => ∃ bs, ClientOK arena s bs) (fun _ e ⟨_, hs⟩ => clientStep_ok hs e)
    ⟨_, freshHeap_ok arena h₀⟩ es

/-! ## Allocations -/

/-- The headers on the list are those of the blocks. -/
theorem onList_mem {h : Heap} (hok : HeapOK arena h bs) {block : U32} (hl : OnList h block) :
    ∃ b ∈ bs, block = word b.addr := by
  induction hl with
  | first =>
    obtain ⟨b, bs', rfl⟩ := List.exists_cons_of_ne_nil hok.ne_nil
    refine ⟨b, List.mem_cons_self, ?_⟩
    rw [hok.first, hok.cut.tiles.1]
    simp
  | next hprev hne ih =>
    obtain ⟨b, hb, rfl⟩ := ih
    exact (hok.linked.next_mem hb).resolve_left hne

/-- The byte ranges of two allocations have nothing in common. -/
def Allocation.Disjoint (a a' : Allocation) : Prop :=
  a.pointer.toNat + a.size ≤ a'.pointer.toNat ∨ a'.pointer.toNat + a'.size ≤ a.pointer.toNat

/-- An allocation that its client may use: aligned, inside the arena and its block's
payload, and off every header on the list. -/
structure Usable (arena : Arena) (h : Heap) (a : Allocation) : Prop where
  aligned : a.pointer.toNat % 16 = 0
  inside : arena.begin.toNat ≤ a.pointer.toNat ∧ a.pointer.toNat + a.size ≤ arena.begin.toNat + 262144
  payload : a.size ≤ (getField h.mem (a.pointer - heapBlockSize) .payloadSize).toNat
  off_headers : ∀ block, OnList h block →
    a.pointer.toNat + a.size ≤ block.toNat ∨ block.toNat + 32 ≤ a.pointer.toNat

/-- The bytes a call asks for. -/
def HeapCall.requested : HeapCall → ℕ
  | .kmalloc size => size.toNat
  | .kcalloc count size => count.toNat * size.toNat
  | _ => 0

theorem ClientOK.usable (hs : ClientOK arena s bs) {a : Allocation} (ha : a ∈ s.live) :
    Usable arena s.heap a := by
  obtain ⟨b, hb, -, hp, hsize⟩ := hs.live a ha
  have hbound := hs.heap.placed.bounds hb
  have hin := hs.heap.cut.tiles.bounds hb
  have halign := hs.heap.cut.addr_mod rfl arena.aligned hb
  simp only [Block.stop] at hin
  have hpn : a.pointer.toNat = b.addr + 32 := by
    rw [hp, toNat_word (by omega)]
  refine ⟨by omega, by omega, ?_, ?_⟩
  · rw [hp, payloadSize_of_pointer hs.heap hb, toNat_word (by omega)]
    exact hsize
  · intro block hblock
    obtain ⟨c, hc, rfl⟩ := onList_mem hs.heap hblock
    have hcbound := hs.heap.placed.bounds hc
    rw [toNat_word (by omega)]
    rcases hs.heap.cut.tiles.apart hb hc with rfl | hle | hle
    · omega
    all_goals
      simp only [Block.stop] at hle
      omega

theorem ClientOK.disjoint (hs : ClientOK arena s bs) : s.live.Pairwise Allocation.Disjoint := by
  refine hs.distinct.imp_of_mem ?_
  intro a a' ha ha' hne
  obtain ⟨b, hb, -, hp, hsize⟩ := hs.live a ha
  obtain ⟨c, hc, -, hp', hsize'⟩ := hs.live a' ha'
  have hbound := hs.heap.placed.bounds hb
  have hcbound := hs.heap.placed.bounds hc
  rw [Allocation.Disjoint, hp, hp', toNat_word (by omega), toNat_word (by omega)]
  rcases hs.heap.cut.tiles.apart hb hc with rfl | hle | hle
  · exact absurd (hp.trans hp'.symm) hne
  all_goals
    simp only [Block.stop] at hle
    omega

/-- **Heap allocations are disjoint and preserved.** After every run since
`kheap_init`, the live allocations are usable and pairwise disjoint; a pointer
returned by the next call is such an allocation too, and the call changes no byte
of an allocation that stays live. -/
theorem heap_disjoint (arena : Arena) (h₀ : Heap) (es : List HeapEvent) :
    let s := exec (clientStep arena) (freshHeap arena h₀) es
    (∀ a ∈ s.live, Usable arena s.heap a) ∧ s.live.Pairwise Allocation.Disjoint ∧
    ∀ c : HeapCall,
      let s' := (clientStep arena s (.call c)).2
      (∀ p, (heapStep arena s.heap c).1 = .pointer p → p ≠ 0 →
        Usable arena s'.heap ⟨p, c.requested⟩ ∧ s'.live = ⟨p, c.requested⟩ :: s.live ∧
          ∀ a ∈ s.live, Allocation.Disjoint ⟨p, c.requested⟩ a) ∧
      ∀ a ∈ s.live, a ∈ s'.live → ∀ i < a.size,
        s'.heap.mem (a.pointer.toNat + i) = s.heap.mem (a.pointer.toNat + i) := by
  intro s
  obtain ⟨bs, hs⟩ := clientRun_ok arena h₀ es
  refine ⟨fun a ha => hs.usable ha, hs.disjoint, fun c => ?_⟩
  obtain ⟨bs', hs', hkept⟩ := heapStep_ok hs c
  refine ⟨fun p hp hne => ?_, fun a ha _ i hi => ?_⟩
  · have hlive : liveAfter s.live c (heapStep arena s.heap c).1 = ⟨p, c.requested⟩ :: s.live := by
      rw [hp]
      cases c with
      | kmalloc size => exact if_neg hne
      | kcalloc count size => exact if_neg hne
      | kfree pointer => simp [heapStep] at hp
      | getStats stats => simp [heapStep] at hp
    have hmem : ⟨p, c.requested⟩ ∈ liveAfter s.live c (heapStep arena s.heap c).1 := by
      rw [hlive]
      exact List.mem_cons_self
    have hpair := hs'.disjoint
    rw [hlive] at hpair
    exact ⟨hs'.usable hmem, hlive, (List.pairwise_cons.1 hpair).1⟩
  · obtain ⟨b, hb, hfree, hp, hsize⟩ := hs.live a ha
    have hbound := hs.heap.placed.bounds hb
    rw [hp, toNat_word (by omega)]
    exact hkept b hb hfree _ (by omega) (by omega)

/-! ## The representation invariant -/

/-- **Heap representation invariant.** `kheap_init` succeeds, and after every run since
the arena is cut into blocks that are linked both ways, hold positive multiples of
16 bytes and are never free next to each other; so inspection succeeds, far below
its limit on the number of blocks. -/
theorem heap_invariant (arena : Arena) (h₀ : Heap) :
    (kheapInit arena h₀).1 = true ∧ ∀ es : List HeapEvent,
      let h := (exec (clientStep arena) (freshHeap arena h₀) es).heap
      ∃ bs, HeapOK arena h bs ∧ inspectHeap arena h = some (blockStats bs) ∧
        freeBytes bs + allocatedBytes bs + 32 * (bs.length - 1) = totalCapacity.toNat ∧
        kheapValidate arena h = true ∧
        (∀ stats, kheapGetStats arena h (some stats) = (true, some (blockStats bs))) ∧
        bs.length < maximumBlocks.toNat := by
  refine ⟨(kheapInit_ok arena h₀).1, fun es => ?_⟩
  intro h
  obtain ⟨bs, hs⟩ := clientRun_ok arena h₀ es
  have hok : HeapOK arena h bs := hs.heap
  have hinspect := inspectHeap_ok hok
  have hsum := hok.cut.tiles.sum
  have hsplit := free_add_allocated bs
  have hlen := hok.length_le
  have hpos := List.length_pos_of_ne_nil hok.ne_nil
  have hcap : totalCapacity.toNat = 262112 := rfl
  have hmax : maximumBlocks.toNat = 8192 := rfl
  refine ⟨bs, hok, hinspect, by omega, ?_, fun stats => ?_, by omega⟩
  · rw [kheapValidate, hinspect]
    rfl
  · simp only [kheapGetStats, hinspect]

end TinyShell
