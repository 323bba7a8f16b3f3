import TinyShell.Proof.HeapFree

/-!
# When allocation succeeds, and where

On a heap that holds the blocks `bs` a request fits exactly when it is at most
`largestFree bs` (`alloc_isSome`), which is what `kheap_get_stats` reports.

* `kmalloc_exact`: `kmalloc` succeeds exactly then, at the first block that fits.
* `kcalloc_exact`: `kcalloc` is `kmalloc` of the product, with the bytes cleared.
-/

namespace TinyShell

open Machine

variable {arena : Arena} {h : Heap} {b : Block} {bs : List Block} {previous : ℕ}

/-! ## Blocks on the list -/

/-- The header shows the block. -/
def Shows (v : BlockView) (b : Block) : Prop :=
  v.address = word b.addr ∧ v.state = stateWord b.free ∧ v.payloadSize = word b.size

theorem exists_shown {v : BlockView} (hv : v ∈ viewsOf previous bs) : ∃ b ∈ bs, Shows v b := by
  induction bs generalizing previous with
  | nil => simp [viewsOf] at hv
  | cons b bs ih =>
    rcases List.mem_cons.1 hv with rfl | hv
    · exact ⟨b, List.mem_cons_self, rfl, rfl, rfl⟩
    · obtain ⟨c, hc, hshows⟩ := ih hv
      exact ⟨c, List.mem_cons_of_mem _ hc, hshows⟩

theorem exists_showing (previous : ℕ) (hb : b ∈ bs) : ∃ v ∈ viewsOf previous bs, Shows v b := by
  induction bs generalizing previous with
  | nil => simp at hb
  | cons c bs ih =>
    rcases List.mem_cons.1 hb with rfl | hb
    · exact ⟨_, List.mem_cons_self, rfl, rfl, rfl⟩
    · obtain ⟨v, hv, hshows⟩ := ih c.addr hb
      exact ⟨v, List.mem_cons_of_mem _ hv, hshows⟩

/-- The block is free and has room for `n` bytes. -/
def BlockView.Fits (n : ℕ) (v : BlockView) : Prop := v.state = heapBlockFree ∧ n ≤ v.payloadSize.toNat

theorem Shows.fits_iff {v : BlockView} (hv : Shows v b) (hsize : b.size < 2 ^ 32) {n : ℕ} :
    v.Fits n ↔ b.free = true ∧ n ≤ b.size := by
  obtain ⟨-, hstate, hpayload⟩ := hv
  rw [BlockView.Fits, hstate, hpayload, stateWord_eq_free, toNat_word hsize]

/-! ## `kmalloc` -/

/-- The pointer is the payload of the lowest block that fits `n` bytes, of which the
heap `h'` has `n` bytes allocated, or all where fewer than 48 bytes would remain. -/
structure FirstFit (h h' : Heap) (n : ℕ) (pointer : U32) (v : BlockView) : Prop where
  listed : v ∈ blockList h
  fits : v.Fits n
  lowest : ∀ w ∈ blockList h, w.Fits n → v.address ≤ w.address
  payload : pointer = blockPayload v.address
  taken : ∃ w ∈ blockList h', w.address = v.address ∧ w.state = heapBlockAllocated ∧
    w.payloadSize.toNat = if v.payloadSize.toNat - n < 48 then v.payloadSize.toNat else n

/-- A request for `n` bytes that fits below the largest free block. -/
def Allocable (largest : U32) (n : ℕ) : Prop := 0 < n ∧ roundUp n ≤ largest.toNat

structure MallocExact (arena : Arena) (h : Heap) (largest size : U32) : Prop where
  succeeds : (kmalloc arena h size).1 ≠ 0 ↔ Allocable largest size.toNat
  first_fit : (kmalloc arena h size).1 ≠ 0 →
    ∃ v, FirstFit h (kmalloc arena h size).2 (roundUp size.toNat) (kmalloc arena h size).1 v
  unchanged : (kmalloc arena h size).1 = 0 → (kmalloc arena h size).2 = h

theorem HeapOK.largest_le (hok : HeapOK arena h bs) : largestFree bs ≤ 262112 := by
  have hpos := List.length_pos_of_ne_nil hok.ne_nil
  have hsum := hok.cut.tiles.sum
  have hsplit := free_add_allocated bs
  have hlarge := largestFree_le bs
  omega

theorem roundUp_pos {n : ℕ} (hn : 0 < n) : 0 < roundUp n := by
  rw [roundUp]
  omega

theorem MallocExact.of_null {largest size : U32} (hcall : kmalloc arena h size = (0, h))
    (hno : ¬Allocable largest size.toNat) : MallocExact arena h largest size :=
  ⟨iff_of_false (by simp [hcall]) hno, fun hne => absurd (by rw [hcall]) hne, fun _ => by rw [hcall]⟩

/-- A word pointer to the payload of a block on the list is not NULL. -/
theorem HeapOK.payload_ne_zero (hok : HeapOK arena h bs) (hb : b ∈ bs) : word (b.addr + 32) ≠ 0 := by
  have hbound := hok.placed.bounds hb
  rw [ne_eq, word_eq_zero (by omega)]
  omega

/-- **`kmalloc` succeeds exactly when it can**, at the first fit. -/
theorem kmalloc_exact (hok : HeapOK arena h bs) (size : U32) :
    MallocExact arena h (word (largestFree bs)) size := by
  have hlarge := hok.largest_le
  have hroom : ∀ n, Allocable (word (largestFree bs)) n ↔ 0 < n ∧ (alloc 32 16 (roundUp n) bs).isSome = true := by
    intro n
    rw [Allocable, toNat_word (by omega)]
    exact and_congr_right fun hn => (alloc_isSome (roundUp_pos hn)).symm
  by_cases hsize : size = 0
  · refine .of_null (kmalloc_none hok (.inl hsize)) ?_
    rw [hroom, hsize]
    simp
  cases halloc : alloc 32 16 (roundUp size.toNat) bs with
  | none =>
    refine .of_null (kmalloc_none hok (.inr halloc)) ?_
    rw [hroom, halloc]
    simp
  | some r =>
    obtain ⟨a, bs'⟩ := r
    obtain ⟨m', hcall, hok', -⟩ := kmalloc_some hok hsize halloc
    obtain ⟨b, hb, rfl, hfits, hlowest, hnew⟩ := alloc_lowest hok.cut.tiles halloc
    have hbound := hok.placed.bounds hb
    have hne := hok.payload_ne_zero hb
    have hpos : 0 < size.toNat := Nat.pos_of_ne_zero fun hz => hsize (BitVec.eq_of_toNat_eq hz)
    obtain ⟨v, hv, hshows⟩ := exists_showing 0 hb
    obtain ⟨w, hw, hwshows⟩ := exists_showing 0 hnew
    refine ⟨?_, fun _ => ⟨v, ?_⟩, ?_⟩
    · rw [hcall, hroom, halloc]
      exact iff_of_true hne ⟨hpos, rfl⟩
    · rw [hcall]
      refine ⟨by rwa [blockList_ok hok], (hshows.fits_iff (by omega)).2 hfits, fun u hu hufits => ?_,
        ?_, w, ?_, ?_⟩
      · rw [blockList_ok hok] at hu
        obtain ⟨c, hc, hcshows⟩ := exists_shown hu
        have hcbound := hok.placed.bounds hc
        have hle := hlowest c hc ((hcshows.fits_iff (by omega)).1 hufits)
        rw [hshows.1, hcshows.1, BitVec.le_def, toNat_word (by omega), toNat_word (by omega)]
        exact hle
      · rw [hshows.1, blockPayload_word]
      · rwa [blockList_ok hok']
      · have hpayload : v.payloadSize.toNat = b.size := by rw [hshows.2.2, toNat_word (by omega)]
        refine ⟨hwshows.1.trans hshows.1.symm, hwshows.2.1, ?_⟩
        rw [hwshows.2.2, hpayload]
        refine toNat_word ?_
        simp only
        split_ifs <;> omega
    · rw [hcall]
      exact fun hz => absurd hz hne

/-! ## `kcalloc` -/

structure CallocExact (arena : Arena) (h : Heap) (largest count size : U32) : Prop where
  succeeds : (kcalloc arena h count size).1 ≠ 0 ↔ Allocable largest (count.toNat * size.toNat)
  same_block : (kcalloc arena h count size).1 ≠ 0 →
    (count * size).toNat = count.toNat * size.toNat ∧
      (kcalloc arena h count size).1 = (kmalloc arena h (count * size)).1 ∧
      blockList (kcalloc arena h count size).2 = blockList (kmalloc arena h (count * size)).2
  cleared : (kcalloc arena h count size).1 ≠ 0 → ∀ i < count.toNat * size.toNat,
    (kcalloc arena h count size).2.mem ((kcalloc arena h count size).1.toNat + i) = 0
  unchanged : (kcalloc arena h count size).1 = 0 → (kcalloc arena h count size).2 = h

theorem CallocExact.of_null {largest count size : U32} (hcall : kcalloc arena h count size = (0, h))
    (hno : ¬Allocable largest (count.toNat * size.toNat)) : CallocExact arena h largest count size :=
  ⟨iff_of_false (by simp [hcall]) hno, fun hne => absurd (by rw [hcall]) hne,
    fun hne => absurd (by rw [hcall]) hne, fun _ => by rw [hcall]⟩

/-- **`kcalloc` is `kmalloc` of the product**, with the bytes cleared. -/
theorem kcalloc_exact (hok : HeapOK arena h bs) (count size : U32) :
    CallocExact arena h (word (largestFree bs)) count size := by
  have hlarge := hok.largest_le
  by_cases hargs : count = 0 ∨ size = 0 ∨ size > 0xFFFFFFFF / count
  · refine .of_null (if_pos hargs) ?_
    rw [calloc_refused_iff] at hargs
    rw [Allocable, toNat_word (by omega), roundUp]
    omega
  · have htotal := calloc_total hargs
    have hexact := kmalloc_exact hok (count * size)
    rcases kmalloc_cases hok (count * size) with hcall | ⟨b, bs', m', hcall, hout⟩
    · have hnull : kcalloc arena h count size = (0, h) := by simp [kcalloc, hcall]
      refine .of_null hnull ?_
      rw [← htotal, ← hexact.succeeds, hcall]
      simp
    · have hb : b ∈ bs' := (hout.mem b hout.allocated).2 (.inr rfl)
      have hbound := hout.heap.placed.bounds hb
      have hsize := hout.size
      have hne := hout.heap.payload_ne_zero hb
      have hp : (word (b.addr + 32)).toNat = b.addr + 32 := toNat_word (by omega)
      have hcleared : kcalloc arena h count size = (word (b.addr + 32),
          { h with mem := fill m' (b.addr + 32) (b.addr + 32 + (count * size).toNat) fun _ => 0 }) := by
        simp only [kcalloc, if_neg hargs, hcall, if_neg hne, hp]
      -- clearing the payload does not touch a header
      have hkept : ∀ x, x < b.addr + 32 ∨ b.addr + 32 + b.size ≤ x →
          fill m' (b.addr + 32) (b.addr + 32 + (count * size).toNat) (fun _ => 0) x = m' x :=
        fun x hx => fill_of_not_mem (by omega)
      refine ⟨?_, fun _ => ⟨htotal, ?_, ?_⟩, fun _ i hi => ?_, ?_⟩
      · rw [hcleared, ← htotal, ← hexact.succeeds, hcall]
      · rw [hcleared, hcall]
      · rw [hcleared, hcall, blockList_ok hout.heap]
        exact blockList_ok (hout.heap.write hb hkept)
      · have hzero :
            fill m' (b.addr + 32) (b.addr + 32 + (count * size).toNat) (fun _ => 0) (b.addr + 32 + i) = 0 :=
          fill_of_mem (by omega) (by omega)
        simpa only [hcleared, hp] using hzero
      · rw [hcleared]
        exact fun hz => absurd hz hne

/-- **Allocation succeeds exactly when it can, at the first fit**: in every reachable
state `kheap_get_stats` reports the largest block that `kmalloc` and `kcalloc` can give. -/
theorem allocation_exact (arena : Arena) (h₀ : Heap) (es : List HeapEvent) :
    let h := (exec (clientStep arena) (freshHeap arena h₀) es).heap
    ∃ stats, (∀ before, kheapGetStats arena h (some before) = (true, some stats)) ∧
      (∀ size, MallocExact arena h stats.largestFreeBlock size) ∧
      ∀ count size, CallocExact arena h stats.largestFreeBlock count size := by
  intro h
  obtain ⟨bs, hs⟩ := clientRun_ok arena h₀ es
  have hok : HeapOK arena h bs := hs.heap
  refine ⟨blockStats bs, fun before => ?_, kmalloc_exact hok, kcalloc_exact hok⟩
  simp only [kheapGetStats, inspectHeap_ok hok]

end TinyShell
