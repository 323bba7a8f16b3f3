import TinyShell.Proof.HeapInspect

/-!
# The heap calls refine the block list

On a heap that holds the blocks `bs`, `kmalloc` is first fit on `bs`
(`kmalloc_none`, `kmalloc_some`) and `kfree` is `release` on `bs` (`kfree_true`,
`kfree_false`). Neither touches the payload of an allocated block (`Kept`).
-/

namespace TinyShell

open Machine

variable {arena : Arena} {m m' : Memory} {h : Heap} {b c : Block} {bs xs ys : List Block} {lo hi x : ℕ}

/-- The payload bytes of the allocated blocks are the same in two memories. -/
def Kept (bs : List Block) (m m' : Memory) : Prop :=
  ∀ b ∈ bs, b.free = false → ∀ x, b.addr + 32 ≤ x → x < b.addr + 32 + b.size → m' x = m x

/-- Payload bytes are in no header. -/
theorem offHeaders_of_payload (ht : Tiles 32 lo hi bs) (hb : b ∈ bs) (h1 : b.addr + 32 ≤ x)
    (h2 : x < b.addr + 32 + b.size) : OffHeaders bs x := by
  intro c hc
  rcases ht.apart hb hc with rfl | hle | hle
  · exact Or.inr h1
  all_goals
    simp only [Block.stop] at hle
    omega

/-! ## `kheap_init` -/

/-- The single free block of a fresh heap. -/
def initialBlocks (arena : Arena) : List Block := [⟨arena.begin.toNat, 262112, true⟩]

/-- **`kheap_init`** succeeds and leaves one free block. -/
theorem kheapInit_ok (arena : Arena) (h : Heap) :
    (kheapInit arena h).1 = true ∧ HeapOK arena (kheapInit arena h).2 (initialBlocks arena) := by
  have hfits := arena.fits
  have hbegin : arena.begin = word arena.begin.toNat := by simp
  set m := splitHeader (fill h.mem arena.begin.toNat (arena.begin.toNat + kheapArenaSize.toNat) fun _ => 0)
    ⟨arena.begin.toNat, 262112, true⟩ 0 0 with hm
  have hok : HeapOK arena ⟨m, arena.begin, true⟩ (initialBlocks arena) := by
    refine ⟨rfl, rfl, cut_cons.2 ⟨rfl, ⟨by simp, by simp⟩, ⟨?_, by simp⟩⟩, List.isChain_singleton _, ?_, trivial⟩
    · change arena.begin.toNat + 32 + 262112 = arena.begin.toNat + 262144
      omega
    · exact splitHeader_header (by simp only; omega) rfl
  have hinit : kheapInit arena h = (true, ⟨m, arena.begin, true⟩) := by
    unfold kheapInit
    have hstores : setField (setField (setField (setField (setField (fill h.mem arena.begin.toNat
        (arena.begin.toNat + kheapArenaSize.toNat) fun _ => 0) arena.begin .magic heapBlockMagic) arena.begin
        .state heapBlockFree) arena.begin .payloadSize (kheapArenaSize - heapBlockSize)) arena.begin
        .previous 0) arena.begin .next 0 = m := by
      have hsize : kheapArenaSize - heapBlockSize = word 262112 := by decide
      rw [hm, splitHeader, hsize]
      simp only [← hbegin]
      rfl
    simp only [hstores, inspectHeap_ok hok]
  rw [hinit]
  exact ⟨rfl, hok⟩

/-! ## `kmalloc` -/

/-- A request rounded up to the alignment. -/
def roundUp (n : ℕ) : ℕ := (n + 15) / 16 * 16

theorem alignRequest_eq (size : U32) : alignRequest size =
    if size.toNat = 0 ∨ 2 ^ 32 ≤ roundUp size.toNat then none else some (word (roundUp size.toNat)) := by
  have hmask : (kheapAlignment - 1 : U32) = BitVec.ofNat 32 (2 ^ 4 - 1) := rfl
  have hcond : (size = 0 ∨ size > 0xFFFFFFFF - (kheapAlignment - 1)) ↔
      (size.toNat = 0 ∨ 2 ^ 32 ≤ roundUp size.toNat) := by
    rw [roundUp, kheapAlignment]
    bv_omega
  unfold alignRequest
  simp only [hcond]
  split_ifs with hc
  · rfl
  · congr 1
    apply BitVec.eq_of_toNat_eq
    rw [hmask, toNat_and_high, toNat_word (by omega), roundUp]
    have : (size + BitVec.ofNat 32 (2 ^ 4 - 1)).toNat = size.toNat + 15 := by
      rw [roundUp] at hc
      bv_omega
    rw [this, show 2 ^ 4 = 16 from rfl]

/-- What `kmalloc` looks for. -/
theorem fits_iff (hlink : Linked m 0 0 bs) (hb : b ∈ bs) (hsize : b.size < 2 ^ 32) {n : ℕ} (hn : n < 2 ^ 32) :
    (getField m (word b.addr) .state = heapBlockFree ∧ getField m (word b.addr) .payloadSize ≥ word n) ↔
      (b.free = true ∧ n ≤ b.size) := by
  obtain ⟨p, q, hh⟩ := hlink.mem hb
  rw [hh.state, hh.payloadSize, stateWord_eq_free]
  refine and_congr_right fun _ => ?_
  bv_omega

/-- **`kmalloc` fails** exactly as first fit does, and changes nothing. -/
theorem kmalloc_none (hok : HeapOK arena h bs) {size : U32}
    (hfail : size = 0 ∨ alloc 32 16 (roundUp size.toNat) bs = none) : kmalloc arena h size = (0, h) := by
  unfold kmalloc
  rw [alignRequest_eq]
  split_ifs with hc
  · rfl
  · have hnone : alloc 32 16 (roundUp size.toNat) bs = none := by
      refine hfail.resolve_left ?_
      rintro rfl
      exact hc (Or.inl rfl)
    have hfind : (bs.find? fun b => decide (getField h.mem (word b.addr) .state = heapBlockFree ∧
        getField h.mem (word b.addr) .payloadSize ≥ word (roundUp size.toNat))) = none := by
      rw [List.find?_eq_none]
      intro b hb hfit
      have := hok.placed.bounds hb
      exact alloc_eq_none.1 hnone b hb ((fits_iff hok.linked hb (by omega) (by omega)).1 (of_decide_eq_true hfit))
    simp only [inspectHeap_ok hok, hok.search, hfind, Option.elim_none, if_true]

/-- **`kmalloc` is first fit** on the blocks of the heap. -/
theorem kmalloc_some (hok : HeapOK arena h bs) {size : U32} (hsize : size ≠ 0) {a : ℕ} {bs' : List Block}
    (halloc : alloc 32 16 (roundUp size.toNat) bs = some (a, bs')) :
    ∃ m', kmalloc arena h size = (word (a + 32), { h with mem := m' }) ∧
      HeapOK arena { h with mem := m' } bs' ∧ Kept bs h.mem m' := by
  have hsize0 : size.toNat ≠ 0 := fun hz => hsize (BitVec.eq_of_toNat_eq hz)
  obtain ⟨xs, b, ys, rfl, hxs, hb, rfl, rfl⟩ := exists_first_fit halloc
  have hplaced := hok.placed
  have hbound := hplaced.bounds (b := b) (by simp)
  have hround : 0 < roundUp size.toNat ∧ roundUp size.toNat % 16 = 0 := by
    rw [roundUp]
    omega
  -- the search stops at the block that first fit takes
  have hfind : ((xs ++ b :: ys).find? fun b => decide (getField h.mem (word b.addr) .state = heapBlockFree ∧
      getField h.mem (word b.addr) .payloadSize ≥ word (roundUp size.toNat))) = some b := by
    rw [List.find?_eq_some_iff_append]
    refine ⟨decide_eq_true ((fits_iff hok.linked (by simp) (by omega) (by omega)).2 hb), xs, ys, rfl, ?_⟩
    intro c hc
    have hcb := hplaced.bounds (b := c) (by simp [hc])
    have hno :=
      (fits_iff hok.linked (b := c) (n := roundUp size.toNat) (by simp [hc]) (by omega) (by omega)).not.2
      (hxs c hc)
    rw [decide_eq_false hno]
    rfl
  refine ⟨takeBlock h.mem (word b.addr) (word (roundUp size.toNat)), ?_, ?_, ?_⟩
  · have hne : ¬word b.addr = 0 := by
      rw [word_eq_zero (by omega)]
      omega
    have hpayload : blockPayload (word b.addr) = word (b.addr + 32) := by
      rw [blockPayload, heapBlockSize]
      bv_omega
    unfold kmalloc
    rw [alignRequest_eq, if_neg (by omega)]
    simp only [inspectHeap_ok hok, hok.search, hfind, Option.elim_some, if_neg hne, hpayload]
  · exact ⟨hok.initialized, hok.first, alloc_cut rfl hround.1 hround.2 hok.cut halloc,
      alloc_coalesced hok.coalesced halloc, take_linked hplaced hok.linked hb.2⟩
  · intro c hc hcfree x h1 h2
    refine take_of_not_mem hplaced hok.linked hb.2 (offHeaders_of_payload hok.cut.tiles hc h1 h2) ?_
    -- the block taken was free, so it is not the allocated block
    rcases hok.cut.tiles.apart hc (c := b) (by simp) with rfl | hle | hle
    · rw [hb.1] at hcfree
      simp at hcfree
    all_goals
      simp only [Block.stop] at hle
      omega

/-! ## Allocations -/

/-- The heap after `n` bytes were handed out: block `b` is new and all the other
allocated blocks are as they were. -/
structure HandedOut (arena : Arena) (h : Heap) (bs : List Block) (n : ℕ) (b : Block) (bs' : List Block)
    (m' : Memory) : Prop where
  heap : HeapOK arena { h with mem := m' } bs'
  allocated : b.free = false
  size : n ≤ b.size
  mem : ∀ c : Block, c.free = false → (c ∈ bs' ↔ c ∈ bs ∨ c = b)
  fresh : ∀ c ∈ bs, c.free = false → c.addr ≠ b.addr
  kept : Kept bs h.mem m'

theorem kmalloc_handedOut (hok : HeapOK arena h bs) {size : U32} (hsize : size ≠ 0) {a : ℕ} {bs' : List Block}
    (halloc : alloc 32 16 (roundUp size.toNat) bs = some (a, bs')) :
    ∃ b m', b.addr = a ∧ kmalloc arena h size = (word (b.addr + 32), { h with mem := m' }) ∧
      HandedOut arena h bs size.toNat b bs' m' := by
  obtain ⟨m', hcall, hok', hkept⟩ := kmalloc_some hok hsize halloc
  obtain ⟨n, hn, hmem⟩ := mem_alloc halloc
  obtain ⟨xs, d, ys, rfl, -, hd, rfl, -⟩ := exists_first_fit halloc
  refine ⟨⟨d.addr, n, false⟩, m', rfl, hcall, hok', rfl, ?_, hmem, ?_, hkept⟩
  · rw [roundUp] at hn
    simp only
    omega
  · -- the block handed out was free
    intro c hc hcfree hcd
    have hc' : c = d := hok.cut.tiles.addr_inj (by omega) hc (by simp) hcd
    rw [hc', hd.1] at hcfree
    simp at hcfree

theorem kmalloc_cases (hok : HeapOK arena h bs) (size : U32) :
    kmalloc arena h size = (0, h) ∨
      ∃ b bs' m', kmalloc arena h size = (word (b.addr + 32), { h with mem := m' }) ∧
      HandedOut arena h bs size.toNat b bs' m' := by
  by_cases hsize : size = 0
  · exact Or.inl (kmalloc_none hok (Or.inl hsize))
  cases halloc : alloc 32 16 (roundUp size.toNat) bs with
  | none => exact Or.inl (kmalloc_none hok (Or.inr halloc))
  | some r =>
    obtain ⟨b, m', -, hcall, hout⟩ := kmalloc_handedOut hok hsize halloc
    exact Or.inr ⟨b, r.2, m', hcall, hout⟩

/-- A change inside the payload of one block keeps the heap. -/
theorem HeapOK.write (hok : HeapOK arena h bs) (hb : b ∈ bs)
    (hm : ∀ x, x < b.addr + 32 ∨ b.addr + 32 + b.size ≤ x → m' x = h.mem x) :
    HeapOK arena { h with mem := m' } bs := by
  refine ⟨hok.initialized, hok.first, hok.cut, hok.coalesced, hok.linked.frame fun c hc x h1 h2 => hm x ?_⟩
  rcases hok.cut.tiles.apart hb hc with rfl | hle | hle
  · exact Or.inl h2
  all_goals
    simp only [Block.stop] at hle
    omega

/-- `kcalloc` refuses the sizes whose product is zero or does not fit a word. -/
theorem calloc_refused_iff (count size : U32) : (count = 0 ∨ size = 0 ∨ size > 0xFFFFFFFF / count) ↔
    (count.toNat * size.toNat = 0 ∨ 2 ^ 32 ≤ count.toNat * size.toNat) := by
  rw [← or_assoc, Nat.mul_eq_zero]
  have hzero : ∀ x : U32, x = 0 ↔ x.toNat = 0 := fun x => BitVec.toNat_eq
  rw [hzero count, hzero size]
  by_cases hpos : count.toNat = 0
  · simp [hpos]
  · refine or_congr Iff.rfl ?_
    rw [gt_iff_lt, BitVec.lt_def, BitVec.toNat_udiv, Nat.div_lt_iff_lt_mul (by omega), Nat.mul_comm]
    change 4294967295 < _ ↔ _
    omega

/-- The product of sizes that are not refused does not wrap. -/
theorem calloc_total {count size : U32} (hargs : ¬(count = 0 ∨ size = 0 ∨ size > 0xFFFFFFFF / count)) :
    (count * size).toNat = count.toNat * size.toNat := by
  rw [calloc_refused_iff] at hargs
  rw [BitVec.toNat_mul, Nat.mod_eq_of_lt (by omega)]

/-- `kcalloc` clears part of the payload that `kmalloc` hands out. -/
theorem kcalloc_handedOut {count size : U32} (hargs : ¬(count = 0 ∨ size = 0 ∨ size > 0xFFFFFFFF / count))
    {bs' : List Block} (hcall : kmalloc arena h (count * size) = (word (b.addr + 32), { h with mem := m' }))
    (hout : HandedOut arena h bs (count * size).toNat b bs' m') :
    ∃ m'', kcalloc arena h count size = (word (b.addr + 32), { h with mem := m'' }) ∧
      HandedOut arena h bs (count.toNat * size.toNat) b bs' m'' := by
  have htotal := calloc_total hargs
  have hb : b ∈ bs' := (hout.mem b hout.allocated).2 (Or.inr rfl)
  have hbound := hout.heap.placed.bounds hb
  have hne : ¬word (b.addr + 32) = 0 := by
    rw [word_eq_zero (by omega)]
    omega
  have hsize := hout.size
  set m'' := fill m' (b.addr + 32) (b.addr + 32 + (count * size).toNat) fun _ => (0 : U8) with hm''
  have hfill : ∀ x, x < b.addr + 32 ∨ b.addr + 32 + b.size ≤ x → m'' x = m' x := by
    intro x hx
    exact fill_of_not_mem (by omega)
  refine ⟨m'', ?_, hout.heap.write hb hfill, hout.allocated, by omega, hout.mem, hout.fresh, ?_⟩
  · unfold kcalloc
    simp only [if_neg hargs, hcall, if_neg hne, toNat_word (show b.addr + 32 < 2 ^ 32 by omega), ← hm'']
  · intro c hc hcfree x h1 h2
    rw [← hout.kept c hc hcfree x h1 h2]
    refine hfill x ?_
    have hc' : c ∈ bs' := (hout.mem c hcfree).2 (Or.inl hc)
    rcases hout.heap.cut.tiles.apart hc' hb with rfl | hle | hle
    · exact absurd rfl (hout.fresh c hc hcfree)
    all_goals
      simp only [Block.stop] at hle
      omega

/-- `kcalloc` fails where it refuses its arguments, and where `kmalloc` fails. -/
theorem kcalloc_none {count size : U32}
    (hfail : (count = 0 ∨ size = 0 ∨ size > 0xFFFFFFFF / count) ∨ kmalloc arena h (count * size) = (0, h)) :
    kcalloc arena h count size = (0, h) := by
  unfold kcalloc
  split_ifs with hargs
  · rfl
  · simp [hfail.resolve_left hargs]

theorem kcalloc_cases (hok : HeapOK arena h bs) (count size : U32) :
    kcalloc arena h count size = (0, h) ∨
      ∃ b bs' m', kcalloc arena h count size = (word (b.addr + 32), { h with mem := m' }) ∧
        HandedOut arena h bs (count.toNat * size.toNat) b bs' m' := by
  by_cases hargs : count = 0 ∨ size = 0 ∨ size > 0xFFFFFFFF / count
  · exact Or.inl (kcalloc_none (Or.inl hargs))
  rcases kmalloc_cases hok (count * size) with hcall | ⟨b, bs', m', hcall, hout⟩
  · exact Or.inl (kcalloc_none (Or.inr hcall))
  · obtain ⟨m'', hcalloc, hout'⟩ := kcalloc_handedOut hargs hcall hout
    exact Or.inr ⟨b, bs', m'', hcalloc, hout'⟩

/-! ## `kfree` -/

/-- `if (block->next != NULL && block->next->state == FREE) merge_with_next(block)`. -/
def mergeRight (m : Memory) (block : U32) : Memory :=
  if getField m block .next ≠ 0 ∧ getField m (getField m block .next) .state = heapBlockFree then
    mergeWithNext m block
  else m

theorem mergeRight_linked (hp : Placed lo hi (xs ++ b :: ys)) (hb : b.free = true)
    (hlink : Linked m 0 0 (xs ++ b :: ys)) :
    Linked (mergeRight m (word b.addr)) 0 0 (xs ++ fuse 32 b ys) ∧
      ∀ x, OffHeaders (xs ++ b :: ys) x → mergeRight m (word b.addr) x = m x := by
  obtain ⟨-, hh, hys⟩ := linked_append.1 hlink
  unfold mergeRight
  rw [hh.next]
  cases ys with
  | nil =>
    rw [if_neg (by simp [firstAddr])]
    exact ⟨hlink, fun x _ => rfl⟩
  | cons c cs =>
    have hc := hys.1
    have hbound := hp.bounds (b := c) (by simp)
    have hne : word c.addr ≠ 0 := by
      rw [ne_eq, word_eq_zero (by omega)]
      omega
    rw [firstAddr, hc.state, fuse, hb]
    by_cases hfree : c.free = true
    · rw [if_pos ⟨hne, (stateWord_eq_free _).2 hfree⟩, if_pos ⟨rfl, hfree⟩]
      refine ⟨?_, fun x hx => merge_of_not_mem hp hlink hx⟩
      have := merge_linked hp hlink
      rwa [hb] at this
    · rw [if_neg (fun hboth => hfree ((stateWord_eq_free _).1 hboth.2)), if_neg (fun hboth => hfree hboth.2)]
      exact ⟨hlink, fun x _ => rfl⟩

theorem freeBlock_eq (m : Memory) (block : U32) : freeBlock m block =
    if getField (setField m block .state heapBlockFree) block .previous ≠ 0 ∧
        getField (setField m block .state heapBlockFree)
          (getField (setField m block .state heapBlockFree) block .previous) .state = heapBlockFree then
      mergeRight (mergeWithNext (setField m block .state heapBlockFree)
        (getField (setField m block .state heapBlockFree) block .previous))
        (getField (setField m block .state heapBlockFree) block .previous)
    else mergeRight (setField m block .state heapBlockFree) block := by
  unfold freeBlock mergeRight
  simp only
  by_cases hprev : getField (setField m block .state heapBlockFree) block .previous ≠ 0 ∧
      getField (setField m block .state heapBlockFree)
        (getField (setField m block .state heapBlockFree) block .previous) .state = heapBlockFree
  · rw [if_pos hprev, if_pos hprev]
  · rw [if_neg hprev, if_neg hprev]

theorem Placed.setFree (hp : Placed lo hi (xs ++ b :: ys)) (free : Bool) :
    Placed lo hi (xs ++ { b with free := free } :: ys) := by
  obtain ⟨mid, hxs, hb⟩ := cut_append.1 hp.cut
  obtain ⟨h1, h2, hys⟩ := cut_cons.1 hb
  exact ⟨cut_append.2 ⟨mid, hxs, cut_cons.2 ⟨h1, h2, hys⟩⟩, hp.lo_pos, hp.hi_lt⟩

theorem Placed.merge (hp : Placed lo hi (xs ++ b :: c :: ys)) (free : Bool) :
    Placed lo hi (xs ++ ⟨b.addr, b.size + 32 + c.size, free⟩ :: ys) := by
  obtain ⟨mid, hxs, hb⟩ := cut_append.1 hp.cut
  obtain ⟨h1, h2, hc⟩ := cut_cons.1 hb
  obtain ⟨h3, h4, hys⟩ := cut_cons.1 hc
  refine ⟨cut_append.2 ⟨mid, hxs, cut_cons.2 ⟨h1, ⟨by simp only; omega, by simp only; omega⟩, ?_⟩⟩, hp.lo_pos,
    hp.hi_lt⟩
  have hstop : Block.stop 32 ⟨b.addr, b.size + 32 + c.size, free⟩ = c.stop 32 := by
    simp only [Block.stop] at *
    omega
  rwa [hstop]

/-- **The stores of `kfree`** mark the block free and fuse it with free neighbours. -/
theorem freeBlock_linked (hp : Placed lo hi (xs ++ b :: ys)) (hco : Coalesced (xs ++ b :: ys))
    (hlink : Linked m 0 0 (xs ++ b :: ys)) :
    Linked (freeBlock m (word b.addr)) 0 0 (coalesce 32 (xs ++ { b with free := true } :: ys)) ∧
      ∀ x, OffHeaders (xs ++ b :: ys) x → freeBlock m (word b.addr) x = m x := by
  obtain ⟨hxs, hbys, -⟩ := coalesced_append.1 hco
  have hys := hbys.tail
  have hlt := (linked_append.1 hlink).2.1.addr_lt
  have hmark := setState_linked hp hlink true
  have hp' := hp.setFree true
  rw [freeBlock_eq]
  rw [show stateWord true = heapBlockFree from rfl] at hmark
  set m₁ := setField m (word b.addr) .state heapBlockFree with hm₁
  have hframe : ∀ x, OffHeaders (xs ++ b :: ys) x → m₁ x = m x := by
    intro x hx
    exact setField_of_not_mem hlt (hx b (by simp))
  -- the headers of the marked list are at the same places
  have hoff : ∀ x, OffHeaders (xs ++ b :: ys) x → OffHeaders (xs ++ { b with free := true } :: ys) x := by
    intro x hx c hc
    simp only [List.mem_append, List.mem_cons] at hc
    rcases hc with hc | rfl | hc
    · exact hx c (by simp [hc])
    · exact hx b (by simp)
    · exact hx c (by simp [hc])
  have hprev : getField m₁ (word b.addr) .previous = word (lastAddr 0 xs) := (linked_append.1 hmark).2.1.previous
  rw [hprev]
  rcases List.eq_nil_or_concat xs with rfl | ⟨zs, p, rfl⟩
  · rw [if_neg (by simp [lastAddr]), coalesce_merge_right hxs (by simp) hys]
    obtain ⟨h1, h2⟩ := mergeRight_linked hp' rfl hmark
    exact ⟨h1, fun x hx => (h2 x (hoff x hx)).trans (hframe x hx)⟩
  · rw [List.concat_eq_append] at *
    have hpb := hp.bounds (b := p) (by simp)
    obtain ⟨u, v, hph⟩ := hmark.mem (b := p) (by simp)
    have hne : word p.addr ≠ 0 := by
      rw [ne_eq, word_eq_zero hph.addr_lt]
      omega
    rw [lastAddr_concat, hph.state]
    by_cases hpfree : p.free = true
    · rw [if_pos ⟨hne, (stateWord_eq_free _).2 hpfree⟩, coalesce_merge_left hpfree hxs hys]
      have hsplit :
          zs ++ [p] ++ { b with free := true } :: ys = zs ++ p :: { b with free := true } :: ys := by simp
      rw [hsplit] at hmark hp' hoff
      have hmerged := merge_linked hp' hmark
      rw [hpfree] at hmerged
      obtain ⟨h1, h2⟩ := mergeRight_linked (hp'.merge true) rfl hmerged
      refine ⟨h1, fun x hx => ?_⟩
      have hx' := hoff x hx
      have hx'' : OffHeaders (zs ++ ⟨p.addr, p.size + 32 + b.size, true⟩ :: ys) x := by
        intro c hc
        simp only [List.mem_append, List.mem_cons] at hc
        rcases hc with hc | rfl | hc
        · exact hx' c (by simp [hc])
        · exact hx' p (by simp)
        · exact hx' c (by simp [hc])
      exact (h2 x hx'').trans ((merge_of_not_mem hp' hmark hx').trans (hframe x hx))
    · rw [if_neg (fun hboth => hpfree ((stateWord_eq_free _).1 hboth.2)),
        coalesce_merge_right hxs (by simp [hpfree]) hys]
      obtain ⟨h1, h2⟩ := mergeRight_linked hp' rfl hmark
      exact ⟨h1, fun x hx => (h2 x (hoff x hx)).trans (hframe x hx)⟩

theorem blockPayload_word (a : ℕ) : blockPayload (word a) = word (a + 32) := by
  rw [blockPayload, heapBlockSize]
  bv_omega

/-- `kfree` finds a block by its payload. -/
theorem find_payload (hok : HeapOK arena h bs) (hb : b ∈ bs) :
    (bs.find? fun c => decide (blockPayload (word c.addr) = word (b.addr + 32))) = some b := by
  have hinj : ∀ c ∈ bs, blockPayload (word c.addr) = word (b.addr + 32) → c = b := by
    intro c hc heq
    have h1 := hok.placed.bounds hb
    have h2 := hok.placed.bounds hc
    rw [blockPayload_word] at heq
    exact hok.cut.tiles.addr_inj (by omega) hc hb (by bv_omega)
  cases hfind : bs.find? fun c => decide (blockPayload (word c.addr) = word (b.addr + 32)) with
  | none => exact absurd (decide_eq_true (blockPayload_word b.addr)) (List.find?_eq_none.1 hfind b hb)
  | some c =>
    have hc := List.mem_of_find?_eq_some hfind
    have heq := List.find?_some hfind
    rw [hinj c hc (of_decide_eq_true heq)]

/-- **`kfree` of an allocated block** is `release` on the blocks of the heap. -/
theorem kfree_true (hok : HeapOK arena h bs) (hb : b ∈ bs) (hfree : b.free = false) :
    ∃ m' bs', kfree arena h (word (b.addr + 32)) = (true, { h with mem := m' }) ∧
      release 32 b.addr bs = some bs' ∧ HeapOK arena { h with mem := m' } bs' ∧ Kept bs h.mem m' := by
  have hplaced := hok.placed
  have hbound := hplaced.bounds hb
  have hin := hok.cut.tiles.bounds hb
  have hsize := hok.cut.units b hb
  have halign := arena.aligned
  have hfits := arena.fits
  simp only [Block.stop] at hin
  obtain ⟨p, q, hh⟩ := hok.linked.mem hb
  have hfind := find_payload hok hb
  obtain ⟨xs, ys, rfl⟩ := List.append_of_mem hb
  have hrelease : release 32 b.addr (xs ++ b :: ys) =
      some (coalesce 32 (xs ++ { b with free := true } :: ys)) := by
    rw [release, if_pos ⟨b, hb, rfl, hfree⟩, markFree_append (by omega) hok.cut.tiles]
  obtain ⟨hlink, hframe⟩ := freeBlock_linked hplaced hok.coalesced hok.linked
  refine ⟨freeBlock h.mem (word b.addr), _, ?_, hrelease, ?_, ?_⟩
  · have hargs : ¬(word (b.addr + 32) = 0 ∨ word (b.addr + 32) < arena.begin + heapBlockSize ∨
        word (b.addr + 32) ≥ arena.stop ∨ word (b.addr + 32) &&& (kheapAlignment - 1) ≠ 0) := by
      have haddr := hok.cut.addr_mod rfl halign hb
      rintro (hc | hc | hc | hc)
      · rw [word_eq_zero (by omega)] at hc; omega
      · rw [heapBlockSize] at hc; bv_omega
      · rw [Arena.stop_eq] at hc; bv_omega
      · exact hc ((word_aligned (by omega)).2 (by omega))
    have hlive : ¬(word b.addr = 0 ∨ getField h.mem (word b.addr) .state ≠ heapBlockAllocated) := by
      rw [hh.state, hfree, word_eq_zero (by omega)]
      simp [stateWord]
      omega
    unfold kfree
    rw [if_neg hargs]
    simp only [inspectHeap_ok hok, hok.search, hfind, Option.elim_some, if_neg hlive]
  · exact ⟨hok.initialized, hok.first, release_cut rfl hok.cut hrelease, release_coalesced hrelease, hlink⟩
  · intro c hc _ x h1 h2
    exact hframe x (offHeaders_of_payload hok.cut.tiles hc h1 h2)

/-- **`kfree` of anything else** fails and changes nothing. -/
theorem kfree_false (hok : HeapOK arena h bs) {pointer : U32}
    (hno : ∀ b ∈ bs, b.free = false → pointer ≠ word (b.addr + 32)) :
    kfree arena h pointer = (false, h) := by
  unfold kfree
  split_ifs with hargs
  · rfl
  · simp only [inspectHeap_ok hok, hok.search]
    cases hfind : bs.find? fun c => decide (blockPayload (word c.addr) = pointer) with
    | none => simp
    | some c =>
      have hc := List.mem_of_find?_eq_some hfind
      have heq : blockPayload (word c.addr) = pointer := by
        have := List.find?_some hfind
        exact of_decide_eq_true this
      rw [blockPayload_word] at heq
      obtain ⟨p, q, hh⟩ := hok.linked.mem hc
      have hstate : getField h.mem (word c.addr) .state ≠ heapBlockAllocated := by
        intro hs
        rw [hh.state] at hs
        refine hno c hc ?_ heq.symm
        cases hcf : c.free with
        | true => rw [hcf] at hs; exact absurd hs (by decide)
        | false => rfl
      exact if_pos (Or.inr hstate)

end TinyShell
