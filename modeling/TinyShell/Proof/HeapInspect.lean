import TinyShell.Proof.HeapRep

/-!
# Inspection of a well-formed heap

`HeapOK arena h bs`: the arena of `h` is cut into the blocks `bs`, none next to
another free one, with their headers linked in memory. `inspect_heap` accepts such
a heap and reports the exact statistics of its blocks (`inspectHeap_ok`); a search
of the list finds the first block with the property (`searchBlocks_ok`).
-/

namespace TinyShell

open Machine

variable {arena : Arena} {m : Memory} {h : Heap} {b c : Block} {bs xs ys : List Block} {st : Inspection}
  {lo hi previous : ℕ}

/-- A heap that holds the blocks `bs`. -/
structure HeapOK (arena : Arena) (h : Heap) (bs : List Block) : Prop where
  initialized : h.heapInitialized = true
  first : h.firstBlock = arena.begin
  cut : Cut 32 16 arena.begin.toNat (arena.begin.toNat + 262144) bs
  coalesced : Coalesced bs
  linked : Linked h.mem 0 0 bs

theorem HeapOK.placed (hok : HeapOK arena h bs) :
    Placed arena.begin.toNat (arena.begin.toNat + 262144) bs :=
  ⟨hok.cut, arena.nonNull, arena.fits⟩

theorem Arena.stop_eq (arena : Arena) : arena.stop = word (arena.begin.toNat + 262144) := by
  have := arena.fits
  rw [Arena.stop, kheapArenaSize]
  bv_omega

/-- The word of an address or size tests aligned exactly when the number is. -/
theorem word_aligned {n : ℕ} (hn : n < 2 ^ 32) : word n &&& (kheapAlignment - 1) = 0 ↔ n % 16 = 0 := by
  have hmask : (word n &&& (kheapAlignment - 1)).toNat = n % 16 := by
    have := toNat_and_low (word n) (k := 4) (by omega)
    rwa [toNat_word hn] at this
  rw [← hmask]
  exact ⟨fun h => by rw [h]; rfl, fun h => BitVec.eq_of_toNat_eq h⟩

theorem stateWord_eq_free (free : Bool) : stateWord free = heapBlockFree ↔ free = true := by
  cases free <;> decide

/-! ## One block -/

/-- The locals of the loop after a block. -/
def afterBlock (st : Inspection) (b : Block) : Inspection where
  measured :=
    if b.free then
      { st.measured with
        freeBytes := st.measured.freeBytes + word b.size
        largestFreeBlock :=
          if word b.size > st.measured.largestFreeBlock then word b.size
          else st.measured.largestFreeBlock }
    else { st.measured with allocatedBlocks := st.measured.allocatedBlocks + 1 }
  previous := word b.addr
  cursor := word (b.stop 32)
  payloadBytes := st.payloadBytes + word b.size
  blockCount := st.blockCount + 1
  previousWasFree := b.free

/-- The loop is about to inspect the blocks `bs`, with room in its counters. -/
structure Ready (st : Inspection) (lo previous : ℕ) (bs : List Block) : Prop where
  cursor : st.cursor = word lo
  previous : st.previous = word previous
  wasFree : st.previousWasFree = true → ∀ c ∈ bs.head?, ¬c.free = true
  count : st.blockCount.toNat + bs.length ≤ 8192
  payload : st.payloadBytes.toNat + (bs.map Block.size).sum < 2 ^ 32
  free : st.measured.freeBytes.toNat + (bs.map Block.size).sum < 2 ^ 32
  allocated : st.measured.allocatedBlocks.toNat + bs.length < 2 ^ 32 - 1

/-- What is left of the bounds at the next block. -/
theorem Ready.bounds (hr : Ready st lo previous (b :: bs)) :
    st.blockCount.toNat + (bs.length + 1) ≤ 8192 ∧
      st.payloadBytes.toNat + (b.size + (bs.map Block.size).sum) < 2 ^ 32 ∧
      st.measured.freeBytes.toNat + (b.size + (bs.map Block.size).sum) < 2 ^ 32 ∧
      st.measured.allocatedBlocks.toNat + (bs.length + 1) < 2 ^ 32 - 1 :=
  ⟨hr.count, hr.payload, hr.free, hr.allocated⟩

theorem measureBlock_ok (hr : Ready st lo previous (b :: bs)) (hsize : b.size < 2 ^ 32) :
    measureBlock st.measured b.free st.previousWasFree (word b.size) = some (afterBlock st b).measured := by
  obtain ⟨-, -, hfree, hall⟩ := hr.bounds
  unfold measureBlock afterBlock
  cases hb : b.free with
  | true =>
    have hwas : ¬st.previousWasFree = true := by
      intro hw
      exact hr.wasFree hw b rfl hb
    have hroom : ¬(st.previousWasFree = true ∨ st.measured.freeBytes > 0xFFFFFFFF - word b.size) := by
      rintro (hw | hw)
      · exact hwas hw
      · bv_omega
    rw [if_pos rfl, if_neg hroom, if_pos rfl]
  | false =>
    have hroom : ¬st.measured.allocatedBlocks = 0xFFFFFFFF := by bv_omega
    rw [if_neg (by simp), if_neg hroom, if_neg (by simp)]

/-- One iteration of `inspect_heap` over a good block. -/
theorem inspectBlock_ok (hstop : arena.stop = word hi) (hhi : hi < 2 ^ 32) (hlo : 0 < lo)
    (halign : lo % 16 = 0) (hcut : Cut 32 16 lo hi (b :: bs)) (hlink : Linked m previous 0 (b :: bs))
    (hr : Ready st lo previous (b :: bs)) :
    inspectBlock arena m st = some (decide (bs = []), afterBlock st b) := by
  obtain ⟨rfl, hsize, htail⟩ := cut_cons.1 hcut
  obtain ⟨hh, -⟩ := hlink
  have hle := htail.tiles.le
  obtain ⟨hcount, hpay, -, -⟩ := hr.bounds
  simp only [Block.stop] at hle
  have c1 : ¬(st.blockCount ≥ maximumBlocks ∨ word b.addr &&& (kheapAlignment - 1) ≠ 0 ∨
      word b.addr > word hi - heapBlockSize) := by
    have hmax : maximumBlocks = 8192#32 := rfl
    rintro (hc | hc | hc)
    · rw [hmax] at hc; bv_omega
    · exact hc ((word_aligned (by omega)).2 halign)
    · rw [heapBlockSize] at hc; bv_omega
  have c2 : ¬(heapBlockMagic ≠ heapBlockMagic ∨
      (stateWord b.free ≠ heapBlockFree ∧ stateWord b.free ≠ heapBlockAllocated) ∨
      word previous ≠ word previous ∨ word b.size < kheapAlignment ∨
      word b.size &&& (kheapAlignment - 1) ≠ 0) := by
    rintro (hc | hc | hc | hc | hc)
    · exact hc rfl
    · cases hfree : b.free <;> simp [hfree, stateWord] at hc
    · exact hc rfl
    · rw [kheapAlignment] at hc; bv_omega
    · exact hc ((word_aligned (by omega)).2 hsize.2)
  have c3 : ¬word b.size > word hi - (word b.addr + heapBlockSize) := by
    rw [heapBlockSize]; bv_omega
  have c4 : ¬st.payloadBytes > 0xFFFFFFFF - word b.size := by bv_omega
  have hfree : decide (stateWord b.free = heapBlockFree) = b.free := by
    cases b.free <;> decide
  have hend : word b.addr + heapBlockSize + word b.size = word (b.stop 32) := by
    rw [heapBlockSize, Block.stop]; bv_omega
  unfold inspectBlock inspectView blockView
  simp only [hr.cursor, hr.previous, hstop, hh.magic, hh.state, hh.payloadSize, hh.previous, hh.next, if_neg c1,
    if_neg c2, if_neg c3, if_neg c4, hfree, measureBlock_ok hr (by omega), hend]
  cases bs with
  | nil =>
    have hlast : ¬word (b.stop 32) ≠ word hi := by rw [show b.stop 32 = hi from htail.tiles]; simp
    rw [firstAddr, if_pos (show word 0 = 0 from rfl), if_neg hlast]
    rfl
  | cons d ds =>
    obtain ⟨hd, -, hds⟩ := cut_cons.1 htail
    have hdle := hds.tiles.le
    simp only [Block.stop] at hd hdle
    have hne : ¬word d.addr = 0 := by rw [word_eq_zero (by omega)]; omega
    have hgo : ¬(word (b.stop 32) ≥ word hi ∨ word d.addr ≠ word (b.stop 32)) := by
      rintro (hc | hc)
      · rw [Block.stop] at hc; bv_omega
      · exact hc (by rw [Block.stop, hd])
    rw [firstAddr, if_neg hne, if_neg hgo]
    rfl

/-- The loop is ready for the next block. -/
theorem Ready.after (hco : Coalesced (b :: bs))
    (hr : Ready st lo previous (b :: bs)) : Ready (afterBlock st b) (b.stop 32) b.addr bs := by
  obtain ⟨hcount, hpay, hfree, hall⟩ := hr.bounds
  refine ⟨rfl, rfl, ?_, ?_, ?_, ?_, ?_⟩
  · intro hb c hc hcfree
    exact (coalesced_cons.1 hco).1 c hc ⟨hb, hcfree⟩
  · simp only [afterBlock]; bv_omega
  · simp only [afterBlock]; bv_omega
  · simp only [afterBlock]; split_ifs <;> simp only <;> bv_omega
  · simp only [afterBlock]; split_ifs <;> simp only <;> bv_omega

/-! ## The whole list -/

/-- **The loop of `inspect_heap`** runs through a well-formed list to its end. -/
theorem inspectLoop_ok (hstop : arena.stop = word hi) (hhi : hi < 2 ^ 32) {fuel : ℕ} (hlo : 0 < lo)
    (halign : lo % 16 = 0) (hne : bs ≠ []) (hcut : Cut 32 16 lo hi bs) (hco : Coalesced bs)
    (hlink : Linked m previous 0 bs) (hr : Ready st lo previous bs) (hfuel : bs.length ≤ fuel) :
    inspectLoop arena m fuel st = some (bs.foldl afterBlock st) := by
  induction bs generalizing lo previous st fuel with
  | nil => exact absurd rfl hne
  | cons b bs ih =>
    obtain ⟨fuel, rfl⟩ : ∃ k, fuel = k + 1 := ⟨fuel - 1, by simp at hfuel; omega⟩
    rw [inspectLoop, inspectBlock_ok hstop hhi hlo halign hcut hlink hr, List.foldl_cons]
    by_cases hbs : bs = []
    · rw [decide_eq_true hbs, hbs]
      rfl
    · rw [decide_eq_false hbs]
      obtain ⟨rfl, hsize, htail⟩ := cut_cons.1 hcut
      exact ih (by simp only [Block.stop]; omega) (by simp only [Block.stop]; omega) hbs htail hco.tail
        hlink.2 (hr.after hco) (by simpa using hfuel)

/-- What the loop has measured over a list of blocks. -/
structure Measured (st st' : Inspection) (bs : List Block) : Prop where
  payload : st'.payloadBytes.toNat = st.payloadBytes.toNat + (bs.map Block.size).sum
  count : st'.blockCount.toNat = st.blockCount.toNat + bs.length
  total : st'.measured.totalBytes = st.measured.totalBytes
  free : st'.measured.freeBytes.toNat = st.measured.freeBytes.toNat + freeBytes bs
  largest : st'.measured.largestFreeBlock.toNat =
    max st.measured.largestFreeBlock.toNat (largestFree bs)
  allocated : st'.measured.allocatedBlocks.toNat = st.measured.allocatedBlocks.toNat + allocatedCount bs

theorem afterBlock_measured (hr : Ready st lo previous (b :: bs)) : Measured st (afterBlock st b) [b] := by
  obtain ⟨hcount, hpay, hfree, hall⟩ := hr.bounds
  cases hb : b.free with
  | true =>
    refine ⟨?_, ?_, ?_, ?_, ?_, ?_⟩ <;>
      simp only [afterBlock, hb, if_true, freeBytes, largestFree, allocatedCount, List.map_cons, List.map_nil,
        List.sum_cons, List.sum_nil, List.length_cons, List.length_nil, List.foldr_cons, List.foldr_nil]
    · bv_omega
    · bv_omega
    · bv_omega
    · split_ifs <;> bv_omega
    · simp [hb]
  | false =>
    refine ⟨?_, ?_, ?_, ?_, ?_, ?_⟩ <;>
      simp only [afterBlock, hb, freeBytes, largestFree, allocatedCount, List.map_cons, List.map_nil,
        List.sum_cons, List.sum_nil, List.length_cons, List.length_nil, List.foldr_cons, List.foldr_nil]
    · bv_omega
    · bv_omega
    · simp
    · simp
    · simp
    · simp [hb]
      bv_omega

theorem Measured.cons {st' st'' : Inspection} (h1 : Measured st st' [b]) (h2 : Measured st' st'' bs) :
    Measured st st'' (b :: bs) := by
  obtain ⟨p1, c1, t1, f1, l1, a1⟩ := h1
  obtain ⟨p2, c2, t2, f2, l2, a2⟩ := h2
  simp only [freeBytes, largestFree, allocatedCount, List.map_cons, List.map_nil, List.sum_cons, List.sum_nil,
    List.length_cons, List.length_nil, List.foldr_cons, List.foldr_nil, List.countP_cons, List.countP_nil]
    at *
  exact ⟨by simp only [List.map_cons, List.sum_cons]; omega, by simp only [List.length_cons]; omega,
    t2.trans t1, by simp only [freeBytes, List.map_cons, List.sum_cons]; omega,
    by simp only [largestFree, List.map_cons, List.foldr_cons]; omega,
    by simp only [allocatedCount, List.countP_cons]; omega⟩

theorem foldl_measured (hco : Coalesced bs) (hr : Ready st lo previous bs) :
    Measured st (bs.foldl afterBlock st) bs := by
  induction bs generalizing lo previous st with
  | nil => exact ⟨rfl, rfl, rfl, rfl, (max_eq_left (Nat.zero_le _)).symm, rfl⟩
  | cons b bs ih => exact (afterBlock_measured hr).cons (ih hco.tail (hr.after hco))

/-- The statistics of a list of blocks. -/
def blockStats (bs : List Block) : HeapStats :=
  ⟨totalCapacity, word (freeBytes bs), word (largestFree bs), word (allocatedCount bs)⟩

theorem HeapOK.length_le (hok : HeapOK arena h bs) : 48 * bs.length ≤ 262144 := by
  have := hok.cut.length_le
  omega

theorem HeapOK.ne_nil (hok : HeapOK arena h bs) : bs ≠ [] := by
  rintro rfl
  have : arena.begin.toNat = arena.begin.toNat + 262144 := hok.cut.tiles
  omega

/-- **Inspection of a well-formed heap** succeeds with the exact statistics. -/
theorem inspectHeap_ok (hok : HeapOK arena h bs) : inspectHeap arena h = some (blockStats bs) := by
  have hlen := hok.length_le
  have hpos := List.length_pos_of_ne_nil hok.ne_nil
  have hsum := hok.cut.tiles.sum
  have hsplit := free_add_allocated bs
  have hlarge := largestFree_le bs
  have hfits := arena.fits
  have hr : Ready (inspectStart arena) arena.begin.toNat 0 bs := by
    refine ⟨by simp [inspectStart], rfl, by simp [inspectStart], ?_, ?_, ?_, ?_⟩ <;> simp [inspectStart] <;> omega
  obtain ⟨hpay, hcount, htotal, hfree, hlargest, hall⟩ := foldl_measured hok.coalesced hr
  have hloop :
      inspectLoop arena h.mem blockFuel (inspectStart arena) = some (bs.foldl afterBlock (inspectStart arena)) :=
    inspectLoop_ok arena.stop_eq hfits arena.nonNull arena.aligned hok.ne_nil hok.cut hok.coalesced
      hok.linked hr (by rw [blockFuel]; simp; omega)
  set st := bs.foldl afterBlock (inspectStart arena)
  have hentry : ¬(¬h.heapInitialized = true ∨ h.firstBlock ≠ arena.begin ∨
      arena.begin > 0xFFFFFFFF - kheapArenaSize) := by
    rw [hok.initialized, hok.first, kheapArenaSize]
    simp only [not_true_eq_false, ne_eq, false_or]
    bv_omega
  simp only [inspectStart, BitVec.ofNat_eq_ofNat, BitVec.toNat_ofNat, Nat.zero_mod, Nat.zero_add, Nat.zero_max]
    at hpay hcount hfree hlargest hall
  have hcap : totalCapacity = 262112#32 := rfl
  have hblocks : ¬(st.blockCount = 0 ∨ st.blockCount - 1 > 0xFFFFFFFF / heapBlockSize) := by
    have : (0xFFFFFFFF : U32) / heapBlockSize = 0x7FFFFFF#32 := rfl
    rw [this]
    bv_omega
  have htotals : ¬(st.payloadBytes > totalCapacity ∨
      (st.blockCount - 1) * heapBlockSize ≠ totalCapacity - st.payloadBytes ∨
      st.measured.freeBytes > totalCapacity ∨ st.measured.largestFreeBlock > st.measured.freeBytes) := by
    rw [hcap, heapBlockSize]
    bv_omega
  unfold inspectHeap
  simp only [if_neg hentry, hloop, if_neg hblocks, if_neg htotals]
  -- the counters did not wrap, so they are the words of the measures
  have hw : ∀ {x : U32} {n : ℕ}, x.toNat = n → x = word n := fun h => by bv_omega
  rw [blockStats, ← hw hfree, ← hw hlargest, ← hw hall, ← show st.measured.totalBytes = totalCapacity from htotal]

/-- **A search of the list** finds the first block with the property and does not run
out of fuel. -/
theorem searchBlocks_ok (p : U32 → Bool) {fuel : ℕ} (hlink : Linked m previous 0 bs)
    (hpos : ∀ b ∈ bs, 0 < b.addr) (hfuel : bs.length < fuel) :
    searchBlocks m p fuel (word (firstAddr 0 bs)) =
      some ((bs.find? fun b => p (word b.addr)).elim 0 fun b => word b.addr) := by
  induction bs generalizing previous fuel with
  | nil =>
    obtain ⟨fuel, rfl⟩ : ∃ k, fuel = k + 1 := ⟨fuel - 1, by omega⟩
    rw [searchBlocks, firstAddr, if_pos (show word 0 = 0 from rfl)]
    rfl
  | cons b bs ih =>
    rw [List.forall_mem_cons] at hpos
    rw [List.length_cons] at hfuel
    obtain ⟨fuel, rfl⟩ : ∃ k, fuel = k + 1 := ⟨fuel - 1, by omega⟩
    obtain ⟨hh, htail⟩ := hlink
    have hne : ¬word b.addr = 0 := by
      rw [word_eq_zero hh.addr_lt]
      omega
    rw [searchBlocks, firstAddr, if_neg hne, List.find?_cons]
    by_cases hp : p (word b.addr) = true
    · rw [if_pos hp, hp]
      rfl
    · rw [if_neg hp, hh.next, ih htail hpos.2 (by omega)]
      simp only [hp]

theorem HeapOK.firstBlock_eq (hok : HeapOK arena h bs) : h.firstBlock = word (firstAddr 0 bs) := by
  obtain ⟨b, bs', rfl⟩ := List.exists_cons_of_ne_nil hok.ne_nil
  obtain ⟨hb, -⟩ := hok.cut.tiles
  rw [hok.first, firstAddr, hb]
  simp

theorem HeapOK.search (hok : HeapOK arena h bs) (p : U32 → Bool) :
    searchBlocks h.mem p blockFuel h.firstBlock =
      some ((bs.find? fun b => p (word b.addr)).elim 0 fun b => word b.addr) := by
  have hlen := hok.length_le
  rw [hok.firstBlock_eq]
  refine searchBlocks_ok p hok.linked (fun b hb => (hok.placed.bounds hb).1) ?_
  rw [blockFuel]
  simp
  omega

end TinyShell
