import TinyShell.Proof.HeapInspect

/-!
# `inspect_heap` on arbitrary memory

An iteration of `inspect_heap` that does not fail has read the header of a good block
(`inspectBlock_inv`), so a loop that ends well has seen a list of them
(`inspectLoop_inv`). With `inspectHeap_ok` this makes the validator exact.

* `inspectLoop_ends`: the loop without a bound on its iterations ends.
* `inspectLoopChecked_restrict`: it reads nothing outside the arena.
* `inspect_exact`: what it accepts, and what the other calls do where it does not.
-/

namespace TinyShell

open Machine

variable {arena : Arena} {m : Memory} {st st' : Inspection} {b : Block} {bs : List Block} {last : Bool}

/-! ## One iteration -/

theorem measureBlock_inv {measured : HeapStats}
    (h : measureBlock st.measured b.free st.previousWasFree (word b.size) = some measured) :
    ¬(st.previousWasFree = true ∧ b.free = true) ∧ measured = (afterBlock st b).measured := by
  unfold measureBlock at h
  cases hfree : b.free with
  | true =>
    rw [hfree, if_pos rfl] at h
    by_cases hroom : st.previousWasFree = true ∨ st.measured.freeBytes > 0xFFFFFFFF - word b.size
    · rw [if_pos hroom] at h
      exact absurd h (by simp)
    · rw [if_neg hroom] at h
      refine ⟨fun hboth => hroom (.inl hboth.1), ?_⟩
      simp only [afterBlock, hfree, if_true]
      exact (Option.some.inj h).symm
  | false =>
    rw [hfree, if_neg Bool.false_ne_true] at h
    split_ifs at h
    refine ⟨fun hboth => Bool.false_ne_true hboth.2, ?_⟩
    simp only [afterBlock, hfree]
    exact (Option.some.inj h).symm

/-- The block that a header describes. -/
def BlockView.block (v : BlockView) : Block :=
  ⟨v.address.toNat, v.payloadSize.toNat, decide (v.state = heapBlockFree)⟩

/-- The members of a header that fits the list so far. -/
structure GoodView (arena : Arena) (st : Inspection) (last : Bool) (v : BlockView) : Prop where
  magic : v.magic = heapBlockMagic
  state : v.state = stateWord v.block.free
  previous : v.previous = st.previous
  payload : 0 < v.block.size ∧ v.block.size % 16 = 0
  apart : ¬(st.previousWasFree = true ∧ v.block.free = true)
  next : v.next = word (if last then 0 else v.block.stop 32)
  stop : if last then v.block.stop 32 = arena.begin.toNat + 262144
    else v.block.stop 32 < arena.begin.toNat + 262144

theorem inspectView_inv {v : BlockView} (haddr : v.address = st.cursor)
    (hcur : ¬st.cursor > arena.stop - heapBlockSize) (h : inspectView arena st v = some (last, st')) :
    GoodView arena st last v ∧ st' = afterBlock st v.block := by
  have hfits := arena.fits
  have hend := arena.stop_eq
  rw [inspectView, Option.ite_none_left_eq_some] at h
  obtain ⟨hview, h⟩ := h
  simp only [not_or, not_not] at hview
  obtain ⟨hmagic, hstate, hprevious, hpos, hunit⟩ := hview
  dsimp only at h
  rw [Option.ite_none_left_eq_some, Option.ite_none_left_eq_some] at h
  obtain ⟨hsize, -, h⟩ := h
  have hfree : decide (v.state = heapBlockFree) = v.block.free := rfl
  have hbsize : v.payloadSize = word v.block.size := by simp [BlockView.block]
  have hbstate : v.state = stateWord v.block.free := by
    by_cases hfree : v.state = heapBlockFree
    · simp [BlockView.block, hfree, stateWord]
    · have hallocated := not_not.1 fun hne => hstate ⟨hfree, hne⟩
      simp [BlockView.block, hallocated, stateWord]
  have hpayload : 0 < v.block.size ∧ v.block.size % 16 = 0 := by
    have hlt : v.block.size < 2 ^ 32 := v.payloadSize.isLt
    rw [hbsize] at hpos hunit
    rw [kheapAlignment] at hpos
    exact ⟨by bv_omega, (word_aligned hlt).1 hunit⟩
  have hstop : v.block.stop 32 = st.cursor.toNat + 32 + v.payloadSize.toNat := by rw [← haddr]; rfl
  rw [heapBlockSize] at hcur hsize
  have hle : v.block.stop 32 ≤ arena.begin.toNat + 262144 := by bv_omega
  have hblockEnd : st.cursor + heapBlockSize + v.payloadSize = word (v.block.stop 32) := by
    rw [heapBlockSize]
    bv_omega
  rw [hblockEnd, hfree, hbsize] at h
  cases hmeasure : measureBlock st.measured v.block.free st.previousWasFree (word v.block.size) with
  | none => simp [hmeasure] at h
  | some measured =>
    obtain ⟨hapart, hmeasured⟩ := measureBlock_inv hmeasure
    rw [hmeasure] at h
    dsimp only at h
    have hafter : (⟨measured, v.address, word (v.block.stop 32), st.payloadBytes + word v.block.size,
        st.blockCount + 1, v.block.free⟩ : Inspection) = afterBlock st v.block := by
      rw [hmeasured, afterBlock]
      simp [BlockView.block]
    rw [hafter] at h
    by_cases hnext : v.next = 0
    · rw [if_pos hnext, Option.ite_none_left_eq_some] at h
      obtain ⟨hlast, h⟩ := h
      obtain ⟨rfl, rfl⟩ := Prod.mk.inj (Option.some.inj h)
      refine ⟨⟨hmagic, hbstate, hprevious, hpayload, hapart, hnext, ?_⟩, rfl⟩
      rw [not_not, hend] at hlast
      rw [if_pos rfl]
      bv_omega
    · rw [if_neg hnext, Option.ite_none_left_eq_some, not_or, not_not] at h
      obtain ⟨⟨hmore, hnext'⟩, h⟩ := h
      obtain ⟨rfl, rfl⟩ := Prod.mk.inj (Option.some.inj h)
      refine ⟨⟨hmagic, hbstate, hprevious, hpayload, hapart, hnext', ?_⟩, rfl⟩
      rw [if_neg Bool.false_ne_true]
      bv_omega

/-- The header at the cursor is that of a block which fits the list so far. -/
structure GoodBlock (arena : Arena) (m : Memory) (st : Inspection) (last : Bool) (b : Block) : Prop where
  cursor : st.cursor = word b.addr
  header : Header m b st.previous.toNat (if last then 0 else b.stop 32)
  payload : 0 < b.size ∧ b.size % 16 = 0
  apart : ¬(st.previousWasFree = true ∧ b.free = true)
  stop : if last then b.stop 32 = arena.begin.toNat + 262144 else b.stop 32 < arena.begin.toNat + 262144

/-- **Inversion of an iteration**: where it does not fail it has read a good block. -/
theorem inspectBlock_inv (h : inspectBlock arena m st = some (last, st')) :
    ∃ b, GoodBlock arena m st last b ∧ st.blockCount.toNat < 8192 ∧ st' = afterBlock st b := by
  rw [inspectBlock, Option.ite_none_left_eq_some] at h
  obtain ⟨hentry, h⟩ := h
  simp only [not_or] at hentry
  obtain ⟨hcount, -, hcur⟩ := hentry
  obtain ⟨hv, rfl⟩ := inspectView_inv rfl hcur h
  have hword : word st.cursor.toNat = st.cursor := by simp
  refine ⟨(blockView m st.cursor).block, ⟨hword.symm, ?_, hv.payload, hv.apart, hv.stop⟩, ?_, rfl⟩
  · refine ⟨st.cursor.isLt, ?_, ?_, ?_, ?_, ?_⟩ <;> change getField m (word st.cursor.toNat) _ = _ <;> rw [hword]
    · exact hv.magic
    · exact hv.state
    · simp [BlockView.block, blockView]
    · rw [show word st.previous.toNat = st.previous by simp]
      exact hv.previous
    · exact hv.next
  · have hmax : maximumBlocks = 8192#32 := rfl
    rw [hmax] at hcount
    bv_omega

/-! ## The loop -/

/-- **Inversion of the loop**: where it ends well it has seen a list of good blocks. -/
theorem inspectLoop_inv {fuel : ℕ} (h : inspectLoop arena m fuel st = some st') :
    ∃ bs, bs ≠ [] ∧ Cut 32 16 st.cursor.toNat (arena.begin.toNat + 262144) bs ∧ Coalesced bs ∧
      (st.previousWasFree = true → ∀ c ∈ bs.head?, ¬c.free = true) ∧ Linked m st.previous.toNat 0 bs := by
  have hfits := arena.fits
  induction fuel generalizing st with
  | zero => simp [inspectLoop] at h
  | succ fuel ih =>
    rw [inspectLoop] at h
    split at h
    · simp at h
    · -- the last block
      rename_i hblock
      obtain ⟨b, hb, -, -⟩ := inspectBlock_inv hblock
      have haddr : st.cursor.toNat = b.addr := by rw [hb.cursor, toNat_word hb.header.addr_lt]
      refine ⟨[b], by simp, cut_cons.2 ⟨haddr.symm, hb.payload, ⟨hb.stop, by simp⟩⟩, List.isChain_singleton b, ?_,
        hb.header, trivial⟩
      intro hfree c hc hcfree
      obtain rfl : b = c := by simpa using hc
      exact hb.apart ⟨hfree, hcfree⟩
    · rename_i st₁ hblock
      obtain ⟨b, hb, -, rfl⟩ := inspectBlock_inv hblock
      obtain ⟨bs, hne, hcut, hco, hhead, hlink⟩ := ih h
      have haddr : st.cursor.toNat = b.addr := by rw [hb.cursor, toNat_word hb.header.addr_lt]
      have hlt : b.stop 32 < arena.begin.toNat + 262144 := hb.stop
      have hcursor : (afterBlock st b).cursor.toNat = b.stop 32 := toNat_word (by omega)
      have hprevious : (afterBlock st b).previous.toNat = b.addr := toNat_word hb.header.addr_lt
      rw [hcursor] at hcut
      rw [hprevious] at hlink
      have hfirst : firstAddr 0 bs = b.stop 32 := by
        obtain ⟨c, cs, rfl⟩ := List.exists_cons_of_ne_nil hne
        exact hcut.tiles.1
      refine ⟨b :: bs, by simp, cut_cons.2 ⟨haddr.symm, hb.payload, hcut⟩, coalesced_cons.2 ⟨?_, hco⟩,
        ?_, ?_, hlink⟩
      · exact fun c hc hboth => hhead hboth.1 c hc hboth.2
      · intro hfree c hc hcfree
        obtain rfl : b = c := by simpa using hc
        exact hb.apart ⟨hfree, hcfree⟩
      · rw [hfirst]
        exact hb.header

/-- **Termination**: the check of `block_count` ends the loop before the bound of the
model does. -/
theorem inspectLoop_ends {fuel : ℕ} (hcount : st.blockCount.toNat ≤ 8192)
    (hfuel : 8192 < st.blockCount.toNat + fuel) :
    Ends (inspectBlock arena m) st (inspectLoop arena m fuel st) := by
  induction fuel generalizing st with
  | zero => omega
  | succ fuel ih =>
    rw [inspectLoop]
    split
    · exact .fail ‹_›
    · exact .stop ‹_›
    · rename_i st₁ hblock
      obtain ⟨b, -, hlt, rfl⟩ := inspectBlock_inv hblock
      have hnext : (afterBlock st b).blockCount.toNat = st.blockCount.toNat + 1 := by
        rw [afterBlock]
        bv_omega
      exact .next hblock (ih (by omega) (by omega))

theorem checkedView_restrict {cursor : U32} {a n : ℕ} (h1 : a ≤ cursor.toNat) (h2 : cursor.toNat + 32 ≤ a + n) :
    checkedView (restrict m a n) cursor = some (blockView m cursor) := by
  have hfield : ∀ f, checkedField (restrict m a n) cursor f = some (getField m cursor f) := by
    intro f
    have := f.offset_le
    exact checkedLoad32_restrict (by omega) (by omega)
  simp [checkedView, hfield, blockView]

theorem inspectBlockChecked_restrict (hcur : arena.begin.toNat ≤ st.cursor.toNat) :
    inspectBlockChecked arena (restrict m arena.begin.toNat 262144) st = some (inspectBlock arena m st) := by
  have hfits := arena.fits
  have hend := arena.stop_eq
  rw [inspectBlock, inspectBlockChecked]
  split_ifs with hentry
  · rfl
  · simp only [not_or] at hentry
    have hle := hentry.2.2
    rw [heapBlockSize] at hle
    rw [checkedView_restrict hcur (by bv_omega), Option.map_some]

/-- **The loop reads nothing outside the arena.** -/
theorem inspectLoopChecked_restrict {fuel : ℕ} (hcur : arena.begin.toNat ≤ st.cursor.toNat) :
    inspectLoopChecked arena (restrict m arena.begin.toNat 262144) fuel st =
      some (inspectLoop arena m fuel st) := by
  induction fuel generalizing st with
  | zero => rfl
  | succ fuel ih =>
    rw [inspectLoopChecked, inspectLoop, inspectBlockChecked_restrict hcur]
    cases hblock : inspectBlock arena m st with
    | none => rfl
    | some r =>
      obtain ⟨last, st₁⟩ := r
      cases last with
      | true => rfl
      | false =>
        obtain ⟨b, hb, -, rfl⟩ := inspectBlock_inv hblock
        have hlt : b.stop 32 < arena.begin.toNat + 262144 := hb.stop
        have hfits := arena.fits
        have hcursor : (afterBlock st b).cursor.toNat = b.stop 32 := toNat_word (by omega)
        have haddr : st.cursor.toNat = b.addr := by rw [hb.cursor, toNat_word hb.header.addr_lt]
        refine ih ?_
        rw [hcursor, Block.stop]
        omega

/-! ## The validator -/

/-- The arena is a sequence of consecutive blocks, doubly linked, no two free ones
next to each other. -/
structure ArenaBlocks (arena : Arena) (m : Memory) (bs : List Block) : Prop where
  tiles : Tiles 32 arena.begin.toNat (arena.begin.toNat + 262144) bs
  aligned : ∀ b ∈ bs, b.addr % 16 = 0
  payload : ∀ b ∈ bs, 0 < b.size ∧ b.size % 16 = 0
  linked : Linked m 0 0 bs
  coalesced : Coalesced bs

/-- The statistics of the blocks: the sum and the maximum of the free payloads and the
number of the others. -/
structure ExactStats (bs : List Block) (stats : HeapStats) : Prop where
  total : stats.totalBytes = totalCapacity
  free : stats.freeBytes.toNat = freeBytes bs
  largest : stats.largestFreeBlock.toNat = largestFree bs
  allocated : stats.allocatedBlocks.toNat = allocatedCount bs

/-- A heap whose arena holds arbitrary bytes. -/
def heapOf (arena : Arena) (m : Memory) : Heap := ⟨m, arena.begin, true⟩

theorem arenaBlocks_iff : ArenaBlocks arena m bs ↔ HeapOK arena (heapOf arena m) bs := by
  constructor
  · intro h
    exact ⟨rfl, rfl, ⟨h.tiles, h.payload⟩, h.coalesced, h.linked⟩
  · intro h
    exact ⟨h.cut.tiles, fun b hb => h.cut.addr_mod rfl arena.aligned hb, h.cut.units, h.linked, h.coalesced⟩

theorem exactStats_iff (h : ArenaBlocks arena m bs) (stats : HeapStats) :
    ExactStats bs stats ↔ stats = blockStats bs := by
  have hsum := h.tiles.sum
  have hsplit := free_add_allocated bs
  have hlarge := largestFree_le bs
  have hcount : allocatedCount bs ≤ bs.length := List.countP_le_length
  have hfits := arena.fits
  constructor
  · intro hs
    have hword : ∀ {x : U32} {n : ℕ}, x.toNat = n → x = word n := fun h => by bv_omega
    obtain ⟨total, free, largest, allocated⟩ := stats
    rw [blockStats, ← hword hs.free, ← hword hs.largest, ← hword hs.allocated, ← hs.total]
  · rintro rfl
    exact ⟨rfl, toNat_word (by omega), toNat_word (by omega), toNat_word (by omega)⟩

theorem inspectHeap_none (h : inspectLoop arena m blockFuel (inspectStart arena) = none) :
    inspectHeap arena (heapOf arena m) = none := by
  have hloop : inspectLoop arena (heapOf arena m).mem blockFuel (inspectStart arena) = none := h
  unfold inspectHeap
  rw [hloop]
  split_ifs <;> rfl

/-- Inspection of a memory succeeds exactly when the arena holds blocks. -/
theorem inspectHeap_iff (arena : Arena) (m : Memory) (stats : HeapStats) :
    inspectHeap arena (heapOf arena m) = some stats ↔ ∃ bs, ArenaBlocks arena m bs ∧ ExactStats bs stats := by
  constructor
  · intro h
    cases hst : inspectLoop arena m blockFuel (inspectStart arena) with
    | none => simp [inspectHeap_none hst] at h
    | some st =>
      obtain ⟨bs, -, hcut, hco, -, hlink⟩ := inspectLoop_inv hst
      have hok : HeapOK arena (heapOf arena m) bs := ⟨rfl, rfl, hcut, hco, hlink⟩
      have hbs := arenaBlocks_iff.2 hok
      rw [inspectHeap_ok hok] at h
      exact ⟨bs, hbs, (exactStats_iff hbs stats).2 (Option.some.inj h).symm⟩
  · rintro ⟨bs, hbs, hstats⟩
    rw [inspectHeap_ok (arenaBlocks_iff.1 hbs), (exactStats_iff hbs stats).1 hstats]

/-- A heap that fails inspection serves no call. -/
theorem calls_fail {h : Heap} (hnone : inspectHeap arena h = none) :
    (∀ size, kmalloc arena h size = (0, h)) ∧ (∀ count size, kcalloc arena h count size = (0, h)) ∧
      ∀ pointer, kfree arena h pointer = (false, h) := by
  have hmalloc : ∀ size, kmalloc arena h size = (0, h) := by
    intro size
    unfold kmalloc
    cases alignRequest size with
    | none => rfl
    | some alignedSize => simp only [hnone]
  refine ⟨hmalloc, fun count size => ?_, fun pointer => ?_⟩
  · unfold kcalloc
    split_ifs
    · rfl
    · simp [hmalloc]
  · unfold kfree
    split_ifs
    · rfl
    · simp only [hnone]

/-- `inspect_heap` on arbitrary bytes. -/
structure InspectExact (arena : Arena) (m : Memory) : Prop where
  terminates : ∀ r, Ends (inspectBlock arena m) (inspectStart arena) r ↔
    r = inspectLoop arena m blockFuel (inspectStart arena)
  reads_inside : inspectLoopChecked arena (restrict m arena.begin.toNat kheapArenaSize.toNat) blockFuel
    (inspectStart arena) = some (inspectLoop arena m blockFuel (inspectStart arena))
  accepts : ∀ stats, inspectHeap arena (heapOf arena m) = some stats ↔
    ∃ bs, ArenaBlocks arena m bs ∧ ExactStats bs stats
  refuses : (¬∃ bs, ArenaBlocks arena m bs) → inspectHeap arena (heapOf arena m) = none ∧
    (∀ size, kmalloc arena (heapOf arena m) size = (0, heapOf arena m)) ∧
    (∀ count size, kcalloc arena (heapOf arena m) count size = (0, heapOf arena m)) ∧
    ∀ pointer, kfree arena (heapOf arena m) pointer = (false, heapOf arena m)

/-- **The validator is exact** on arbitrary memory. -/
theorem inspect_exact (arena : Arena) (m : Memory) : InspectExact arena m := by
  have hends :
      Ends (inspectBlock arena m) (inspectStart arena) (inspectLoop arena m blockFuel (inspectStart arena)) :=
    inspectLoop_ends (by simp [inspectStart]) (by simp [inspectStart, blockFuel])
  refine ⟨fun r => ⟨fun h => h.unique hends, fun h => h ▸ hends⟩, inspectLoopChecked_restrict le_rfl,
    inspectHeap_iff arena m, fun hno => ?_⟩
  have hnone : inspectHeap arena (heapOf arena m) = none := by
    refine Option.eq_none_iff_forall_ne_some.2 fun stats h => hno ?_
    obtain ⟨bs, hbs, -⟩ := (inspectHeap_iff arena m stats).1 h
    exact ⟨bs, hbs⟩
  exact ⟨hnone, calls_fail hnone⟩

end TinyShell
