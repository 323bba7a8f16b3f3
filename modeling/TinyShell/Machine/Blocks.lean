import Mathlib

/-!
# Address-ordered block lists

A region of memory is cut into consecutive blocks, each a header of `hdr` bytes
and a payload that is a positive multiple of `unit` bytes. `alloc` takes the first
free block that is large enough and splits off a free remainder where it can hold
a header and a payload; `release` marks a block free and fuses adjacent free
blocks.

* `alloc_cut`, `release_cut`: both keep the region cut without gap or overlap.
* `alloc_coalesced`, `coalesce_coalesced`: no two adjacent blocks are free.
* `mem_alloc`, `mem_release`: which blocks are allocated afterwards.
* `alloc_isSome`: what can be allocated.
* `release_alloc`: releasing what was just allocated gives the old list back.
* `markAll_perm`, `coalesce_markAll`: the order of releases does not matter.
-/

namespace Machine

structure Block where
  addr : ℕ
  size : ℕ
  free : Bool
  deriving DecidableEq

/-- The first address after a block. -/
def Block.stop (hdr : ℕ) (b : Block) : ℕ := b.addr + hdr + b.size

/-- The blocks cover `[lo, hi)` in address order without gap or overlap. -/
def Tiles (hdr : ℕ) : ℕ → ℕ → List Block → Prop
  | lo, hi, [] => lo = hi
  | lo, hi, b :: bs => b.addr = lo ∧ Tiles hdr (b.stop hdr) hi bs

/-- A region cut into blocks whose payloads are positive multiples of the unit. -/
structure Cut (hdr unit lo hi : ℕ) (bs : List Block) : Prop where
  tiles : Tiles hdr lo hi bs
  units : ∀ b ∈ bs, 0 < b.size ∧ b.size % unit = 0

/-- No two adjacent blocks are both free. -/
def Coalesced (bs : List Block) : Prop := bs.IsChain fun b c => ¬(b.free = true ∧ c.free = true)

variable {hdr unit lo hi n : ℕ} {b c : Block} {bs xs ys : List Block}

/-! ## Tilings -/

theorem tiles_append : Tiles hdr lo hi (xs ++ ys) ↔ ∃ mid, Tiles hdr lo mid xs ∧ Tiles hdr mid hi ys := by
  induction xs generalizing lo with
  | nil => simp [Tiles]
  | cons b xs ih => simp only [List.cons_append, Tiles, ih, exists_and_left, and_assoc]

theorem Tiles.le (h : Tiles hdr lo hi bs) : lo ≤ hi := by
  induction bs generalizing lo with
  | nil => exact le_of_eq h
  | cons b bs ih =>
    have := ih h.2
    have := h.1
    simp only [Block.stop] at *
    omega

theorem Tiles.bounds (h : Tiles hdr lo hi bs) (hb : b ∈ bs) : lo ≤ b.addr ∧ b.stop hdr ≤ hi := by
  induction bs generalizing lo with
  | nil => simp at hb
  | cons c bs ih =>
    obtain ⟨rfl, htl⟩ := h
    rcases List.mem_cons.1 hb with rfl | hb
    · exact ⟨le_rfl, htl.le⟩
    · have := ih htl hb
      simp only [Block.stop] at *
      omega

/-- Two blocks of a tiling are the same or do not overlap. -/
theorem Tiles.apart (h : Tiles hdr lo hi bs) (hb : b ∈ bs) (hc : c ∈ bs) :
    b = c ∨ b.stop hdr ≤ c.addr ∨ c.stop hdr ≤ b.addr := by
  induction bs generalizing lo with
  | nil => simp at hb
  | cons d bs ih =>
    rcases List.mem_cons.1 hb with rfl | hb' <;> rcases List.mem_cons.1 hc with rfl | hc'
    · exact Or.inl rfl
    · exact Or.inr (Or.inl (h.2.bounds hc').1)
    · exact Or.inr (Or.inr (h.2.bounds hb').1)
    · exact ih h.2 hb' hc'

/-- The sizes of a tiling add up to the region. -/
theorem Tiles.sum (h : Tiles hdr lo hi bs) : lo + (bs.map Block.size).sum + hdr * bs.length = hi := by
  induction bs generalizing lo with
  | nil => simpa [Tiles] using h
  | cons b bs ih =>
    obtain ⟨rfl, htl⟩ := h
    have := ih htl
    simp only [Block.stop, List.map_cons, List.sum_cons, List.length_cons, Nat.mul_add, mul_one] at *
    omega

theorem Cut.length_le (h : Cut hdr unit lo hi bs) : (hdr + unit) * bs.length ≤ hi - lo := by
  have hsum := h.tiles.sum
  have hle : bs.length * unit ≤ (bs.map Block.size).sum := by
    have hsizes : ∀ s ∈ bs.map Block.size, unit ≤ s := by
      intro s hs
      obtain ⟨b, hb, rfl⟩ := List.mem_map.1 hs
      have := h.units b hb
      exact Nat.le_of_dvd this.1 (Nat.dvd_of_mod_eq_zero this.2)
    simpa using List.card_nsmul_le_sum _ unit hsizes
  rw [Nat.add_mul, Nat.mul_comm unit]
  omega

theorem cut_append : Cut hdr unit lo hi (xs ++ ys) ↔
    ∃ mid, Cut hdr unit lo mid xs ∧ Cut hdr unit mid hi ys := by
  constructor
  · rintro ⟨htiles, hunits⟩
    obtain ⟨mid, h1, h2⟩ := tiles_append.1 htiles
    exact ⟨mid, ⟨h1, fun b hb => hunits b (List.mem_append_left _ hb)⟩,
      ⟨h2, fun b hb => hunits b (List.mem_append_right _ hb)⟩⟩
  · rintro ⟨mid, h1, h2⟩
    refine ⟨tiles_append.2 ⟨mid, h1.tiles, h2.tiles⟩, fun b hb => ?_⟩
    rcases List.mem_append.1 hb with hb | hb
    · exact h1.units b hb
    · exact h2.units b hb

theorem cut_cons : Cut hdr unit lo hi (b :: bs) ↔
    b.addr = lo ∧ (0 < b.size ∧ b.size % unit = 0) ∧ Cut hdr unit (b.stop hdr) hi bs := by
  constructor
  · rintro ⟨⟨h1, h2⟩, hunits⟩
    exact ⟨h1, hunits b List.mem_cons_self, h2, fun c hc => hunits c (List.mem_cons_of_mem _ hc)⟩
  · rintro ⟨h1, h2, h3⟩
    refine ⟨⟨h1, h3.tiles⟩, fun c hc => ?_⟩
    rcases List.mem_cons.1 hc with rfl | hc
    · exact h2
    · exact h3.units c hc

/-- The addresses of a region cut from an aligned start are aligned. -/
theorem Cut.addr_mod (hunit : hdr % unit = 0) (hlo : lo % unit = 0) (h : Cut hdr unit lo hi bs) (hb : b ∈ bs) :
    b.addr % unit = 0 := by
  induction bs generalizing lo with
  | nil => simp at hb
  | cons c bs ih =>
    obtain ⟨rfl, hsize, htl⟩ := cut_cons.1 h
    rcases List.mem_cons.1 hb with rfl | hb
    · exact hlo
    · refine ih ?_ htl hb
      rw [Block.stop, Nat.add_mod, Nat.add_mod c.addr, hlo, hunit, hsize.2]
      simp

/-! ## Measures -/

/-- The payload bytes of the free blocks. -/
def freeBytes (bs : List Block) : ℕ := (bs.map fun b => if b.free = true then b.size else 0).sum

/-- The payload bytes of the allocated blocks. -/
def allocatedBytes (bs : List Block) : ℕ := (bs.map fun b => if b.free = true then 0 else b.size).sum

def largestFree (bs : List Block) : ℕ := (bs.map fun b => if b.free = true then b.size else 0).foldr max 0

def allocatedCount (bs : List Block) : ℕ := bs.countP fun b => !b.free

theorem free_add_allocated (bs : List Block) :
    freeBytes bs + allocatedBytes bs = (bs.map Block.size).sum := by
  induction bs with
  | nil => rfl
  | cons b bs ih =>
    simp only [freeBytes, allocatedBytes, List.map_cons, List.sum_cons] at ih ⊢
    split_ifs <;> omega

theorem largestFree_le (bs : List Block) : largestFree bs ≤ freeBytes bs := by
  induction bs with
  | nil => exact le_rfl
  | cons b bs ih =>
    simp only [freeBytes, largestFree, List.map_cons, List.sum_cons, List.foldr_cons] at ih ⊢
    omega

/-! ## Allocation -/

/-- A block with `n` bytes of payload handed out, and the free remainder where it can
hold a header and a unit of payload. -/
def carve (hdr unit n : ℕ) (b : Block) : List Block :=
  if hdr + unit ≤ b.size - n then [⟨b.addr, n, false⟩, ⟨b.addr + hdr + n, b.size - n - hdr, true⟩]
  else [⟨b.addr, b.size, false⟩]

/-- First fit: the address of the block handed out and the blocks after it. -/
def alloc (hdr unit n : ℕ) : List Block → Option (ℕ × List Block)
  | [] => none
  | b :: bs =>
    if b.free = true ∧ n ≤ b.size then some (b.addr, carve hdr unit n b ++ bs)
    else (alloc hdr unit n bs).map fun r => (r.1, b :: r.2)

theorem alloc_eq_none : alloc hdr unit n bs = none ↔ ∀ b ∈ bs, ¬(b.free = true ∧ n ≤ b.size) := by
  induction bs with
  | nil => simp [alloc]
  | cons b bs ih =>
    rw [alloc, List.forall_mem_cons]
    split_ifs with hb
    · simp [hb]
    · rw [Option.map_eq_none_iff, ih, and_iff_right hb]

theorem exists_first_fit {a : ℕ} {bs' : List Block} (h : alloc hdr unit n bs = some (a, bs')) :
    ∃ xs b ys, bs = xs ++ b :: ys ∧ (∀ c ∈ xs, ¬(c.free = true ∧ n ≤ c.size)) ∧
      (b.free = true ∧ n ≤ b.size) ∧ a = b.addr ∧ bs' = xs ++ (carve hdr unit n b ++ ys) := by
  induction bs generalizing a bs' with
  | nil => simp [alloc] at h
  | cons c bs ih =>
    rw [alloc] at h
    split_ifs at h with hc
    · obtain ⟨rfl, rfl⟩ := Prod.mk.inj (Option.some.inj h)
      exact ⟨[], c, bs, rfl, by simp, hc, rfl, rfl⟩
    · obtain ⟨⟨a', bs''⟩, hr, heq⟩ := Option.map_eq_some_iff.1 h
      obtain ⟨xs, b, ys, rfl, hxs, hb, rfl, rfl⟩ := ih hr
      obtain ⟨rfl, rfl⟩ := Prod.mk.inj heq
      exact ⟨c :: xs, b, ys, rfl, List.forall_mem_cons.2 ⟨hc, hxs⟩, hb, rfl, rfl⟩

theorem carve_cut (hunit : hdr % unit = 0) (hn : 0 < n) (hnu : n % unit = 0) (hnb : n ≤ b.size)
    (hb : 0 < b.size ∧ b.size % unit = 0) : Cut hdr unit b.addr (b.stop hdr) (carve hdr unit n b) := by
  unfold carve
  split_ifs with h
  · have hrest : (b.size - n - hdr) % unit = 0 := by
      have hdvd := Nat.dvd_sub (Nat.dvd_sub (Nat.dvd_of_mod_eq_zero hb.2) (Nat.dvd_of_mod_eq_zero hnu))
        (Nat.dvd_of_mod_eq_zero hunit)
      exact Nat.mod_eq_zero_of_dvd hdvd
    have hpos : 0 < b.size - n - hdr := by
      rcases Nat.eq_zero_or_pos unit with rfl | hu
      · simp only [Nat.mod_zero] at hnu; omega
      · omega
    refine cut_cons.2 ⟨rfl, ⟨hn, hnu⟩, cut_cons.2 ⟨rfl, ⟨hpos, hrest⟩, ⟨?_, by simp⟩⟩⟩
    simp only [Tiles, Block.stop]
    omega
  · exact cut_cons.2 ⟨rfl, hb, ⟨rfl, by simp⟩⟩

/-- First fit keeps the region cut. -/
theorem alloc_cut {a : ℕ} {bs' : List Block} (hunit : hdr % unit = 0) (hn : 0 < n) (hnu : n % unit = 0)
    (hcut : Cut hdr unit lo hi bs) (h : alloc hdr unit n bs = some (a, bs')) :
    Cut hdr unit lo hi bs' := by
  obtain ⟨xs, b, ys, rfl, -, hb, rfl, rfl⟩ := exists_first_fit h
  obtain ⟨mid, hxs, hbys⟩ := cut_append.1 hcut
  obtain ⟨rfl, hsize, hys⟩ := cut_cons.1 hbys
  exact cut_append.2 ⟨_, hxs, cut_append.2 ⟨_, carve_cut hunit hn hnu hb.2 hsize, hys⟩⟩

theorem Coalesced.tail (h : Coalesced (b :: bs)) : Coalesced bs := (List.isChain_cons.1 h).2

theorem coalesced_cons : Coalesced (b :: bs) ↔
    (∀ c ∈ bs.head?, ¬(b.free = true ∧ c.free = true)) ∧ Coalesced bs := List.isChain_cons

theorem coalesced_append : Coalesced (xs ++ ys) ↔ Coalesced xs ∧ Coalesced ys ∧
    ∀ b ∈ xs.getLast?, ∀ c ∈ ys.head?, ¬(b.free = true ∧ c.free = true) := List.isChain_append

/-- First fit leaves no two adjacent blocks free. -/
theorem alloc_coalesced {a : ℕ} {bs' : List Block} (hco : Coalesced bs)
    (h : alloc hdr unit n bs = some (a, bs')) : Coalesced bs' := by
  obtain ⟨xs, b, ys, rfl, -, hb, rfl, rfl⟩ := exists_first_fit h
  obtain ⟨hxs, hbys, -⟩ := coalesced_append.1 hco
  obtain ⟨hhead, hys⟩ := coalesced_cons.1 hbys
  -- the block after the one taken is not free, as that one was
  have hseam : ∀ c ∈ ys.head?, ¬c.free = true := fun c hc hfree => hhead c hc ⟨hb.1, hfree⟩
  refine coalesced_append.2 ⟨hxs, ?_, ?_⟩
  · unfold carve
    split_ifs with hsplit
    · refine coalesced_cons.2 ⟨by simp, coalesced_cons.2 ⟨?_, hys⟩⟩
      intro c hc hboth
      exact hseam c hc hboth.2
    · exact coalesced_cons.2 ⟨by simp, hys⟩
  · intro x _ c hc hboth
    unfold carve at hc
    split_ifs at hc with hsplit <;> simp at hc <;> subst hc <;> simp at hboth

/-- The blocks allocated after first fit: those before and the one handed out. -/
theorem mem_alloc {a : ℕ} {bs' : List Block} (h : alloc hdr unit n bs = some (a, bs')) :
    ∃ size, n ≤ size ∧ ∀ c : Block, c.free = false → (c ∈ bs' ↔ c ∈ bs ∨ c = ⟨a, size, false⟩) := by
  obtain ⟨xs, b, ys, rfl, -, hb, rfl, rfl⟩ := exists_first_fit h
  refine ⟨if hdr + unit ≤ b.size - n then n else b.size, by split_ifs <;> omega, fun c hc => ?_⟩
  have hcb : c ≠ b := by
    rintro rfl
    rw [hb.1] at hc
    simp at hc
  have hcarve : c ∈ carve hdr unit n b ↔
      c = ⟨b.addr, if hdr + unit ≤ b.size - n then n else b.size, false⟩ := by
    unfold carve
    split_ifs with hsplit
    · have hrest : c ≠ ⟨b.addr + hdr + n, b.size - n - hdr, true⟩ := by
        rintro rfl
        simp at hc
      simp [hrest]
    · simp
  simp only [List.mem_append, List.mem_cons, hcarve, hcb, false_or]
  tauto

/-- First fit takes the lowest block that fits: `n` bytes of it, or all where the rest
has no room for a header and a unit. -/
theorem alloc_lowest {a : ℕ} {bs' : List Block} (htiles : Tiles hdr lo hi bs)
    (h : alloc hdr unit n bs = some (a, bs')) :
    ∃ b ∈ bs, a = b.addr ∧ (b.free = true ∧ n ≤ b.size) ∧
      (∀ c ∈ bs, c.free = true ∧ n ≤ c.size → b.addr ≤ c.addr) ∧
      ⟨b.addr, if b.size - n < hdr + unit then b.size else n, false⟩ ∈ bs' := by
  obtain ⟨xs, b, ys, rfl, hxs, hb, rfl, rfl⟩ := exists_first_fit h
  refine ⟨b, by simp, rfl, hb, fun c hc hfits => ?_, ?_⟩
  · obtain ⟨mid, -, rfl, hys⟩ := tiles_append.1 htiles
    rcases List.mem_append.1 hc with hc | hc
    · exact absurd hfits (hxs c hc)
    · rcases List.mem_cons.1 hc with rfl | hc
      · exact le_rfl
      · have hle := (hys.bounds hc).1
        rw [Block.stop] at hle
        omega
  · unfold carve
    split_ifs with hrest hsplit
    · omega
    · simp
    · simp
    · omega

/-- A request fits exactly when it is at most the largest free block. -/
theorem le_largestFree (hn : 0 < n) : n ≤ largestFree bs ↔ ∃ b ∈ bs, b.free = true ∧ n ≤ b.size := by
  induction bs with
  | nil =>
    simp [largestFree]
    omega
  | cons b bs ih =>
    simp only [List.mem_cons, exists_eq_or_imp, ← ih]
    simp only [largestFree, List.map_cons, List.foldr_cons, le_max_iff]
    refine or_congr ?_ Iff.rfl
    split_ifs with hfree
    · simp [hfree]
    · simp [hfree]
      omega

theorem alloc_isSome (hn : 0 < n) : (alloc hdr unit n bs).isSome = true ↔ n ≤ largestFree bs := by
  rw [← not_iff_not, Bool.not_eq_true, Option.isSome_eq_false_iff, Option.isNone_iff_eq_none, alloc_eq_none,
    le_largestFree hn]
  push Not
  rfl

/-! ## Release -/

/-- Puts a block in front of a list, fused with the first block if both are free. -/
def fuse (hdr : ℕ) (b : Block) : List Block → List Block
  | [] => [b]
  | c :: cs =>
    if b.free = true ∧ c.free = true then ⟨b.addr, b.size + hdr + c.size, true⟩ :: cs else b :: c :: cs

/-- Fuses every run of adjacent free blocks. -/
def coalesce (hdr : ℕ) (bs : List Block) : List Block := bs.foldr (fuse hdr) []

def markFree (a : ℕ) (bs : List Block) : List Block :=
  bs.map fun b => if b.addr = a then { b with free := true } else b

/-- Releases the block at an address, if there is one and it is allocated. -/
def release (hdr a : ℕ) (bs : List Block) : Option (List Block) :=
  if ∃ b ∈ bs, b.addr = a ∧ b.free = false then some (coalesce hdr (markFree a bs)) else none

theorem coalesce_cons (hdr : ℕ) (b : Block) (bs : List Block) :
    coalesce hdr (b :: bs) = fuse hdr b (coalesce hdr bs) := rfl

theorem coalesce_append (hdr : ℕ) (xs ys : List Block) :
    coalesce hdr (xs ++ ys) = xs.foldr (fuse hdr) (coalesce hdr ys) := List.foldr_append

/-- Fusing a free block with a free block that has been fused. -/
theorem fuse_fuse (hb : b.free = true) (hc : c.free = true) (ys : List Block) :
    fuse hdr b (fuse hdr c ys) = fuse hdr ⟨b.addr, b.size + hdr + c.size, true⟩ ys := by
  cases ys with
  | nil => simp [fuse, hb, hc]
  | cons d ds =>
    by_cases hd : d.free = true
    · simp [fuse, hb, hc, hd]
      omega
    · simp [fuse, hb, hc, hd]

theorem fuse_cut (hunit : hdr % unit = 0) (h : Cut hdr unit lo hi (b :: bs)) :
    Cut hdr unit lo hi (fuse hdr b bs) := by
  cases bs with
  | nil => exact h
  | cons c cs =>
    rw [fuse]
    split_ifs with hfree
    · obtain ⟨hb, hbs, hc⟩ := cut_cons.1 h
      obtain ⟨hc, hcs, hrest⟩ := cut_cons.1 hc
      have hmod : (b.size + hdr + c.size) % unit = 0 := by
        rw [Nat.add_mod, Nat.add_mod b.size, hbs.2, hunit, hcs.2]
        simp
      refine cut_cons.2 ⟨hb, ⟨by simp only; omega, hmod⟩, ?_⟩
      have hstop : Block.stop hdr ⟨b.addr, b.size + hdr + c.size, true⟩ = c.stop hdr := by
        simp only [Block.stop] at *
        omega
      rwa [hstop]
    · exact h

/-- Fusing keeps the region cut. -/
theorem coalesce_cut (hunit : hdr % unit = 0) (h : Cut hdr unit lo hi bs) :
    Cut hdr unit lo hi (coalesce hdr bs) := by
  induction bs generalizing lo with
  | nil => exact h
  | cons b bs ih =>
    obtain ⟨h1, h2, h3⟩ := cut_cons.1 h
    exact fuse_cut hunit (cut_cons.2 ⟨h1, h2, ih h3⟩)

theorem fuse_coalesced (h : Coalesced bs) : Coalesced (fuse hdr b bs) := by
  cases bs with
  | nil => exact List.isChain_singleton _
  | cons c cs =>
    rw [fuse]
    obtain ⟨hc, hcs⟩ := coalesced_cons.1 h
    split_ifs with hfree
    · exact coalesced_cons.2 ⟨fun d hd hboth => hc d hd ⟨hfree.2, hboth.2⟩, hcs⟩
    · exact coalesced_cons.2 ⟨by simpa using hfree, h⟩

/-- After fusing no two adjacent blocks are free. -/
theorem coalesce_coalesced (hdr : ℕ) (bs : List Block) : Coalesced (coalesce hdr bs) := by
  induction bs with
  | nil => exact List.isChain_nil
  | cons b bs ih => exact fuse_coalesced ih

theorem fuse_of_not_free (h : ∀ c ∈ bs.head?, ¬(b.free = true ∧ c.free = true)) : fuse hdr b bs = b :: bs := by
  cases bs with
  | nil => rfl
  | cons c cs => rw [fuse, if_neg (h c rfl)]

/-- Fusing a coalesced list in front of a seam that is not free on both sides
changes nothing. -/
theorem foldr_fuse (hxs : Coalesced xs)
    (hseam : ∀ b ∈ xs.getLast?, ∀ c ∈ ys.head?, ¬(b.free = true ∧ c.free = true)) :
    xs.foldr (fuse hdr) ys = xs ++ ys := by
  induction xs with
  | nil => rfl
  | cons x xs ih =>
    obtain ⟨hx, hxs'⟩ := coalesced_cons.1 hxs
    have hrest : ∀ b ∈ xs.getLast?, ∀ c ∈ ys.head?, ¬(b.free = true ∧ c.free = true) := by
      intro b hb
      refine hseam b ?_
      cases xs with
      | nil => simp at hb
      | cons y ys => simpa using hb
    rw [List.foldr_cons, ih hxs' hrest, List.cons_append]
    refine fuse_of_not_free fun c hc => ?_
    cases xs with
    | nil => exact hseam x rfl c hc
    | cons y ys => exact hx c (by simpa using hc)

theorem coalesce_of_coalesced (h : Coalesced bs) : coalesce hdr bs = bs := by
  have hfold : bs.foldr (fuse hdr) [] = bs ++ [] := foldr_fuse h (by simp)
  rwa [List.append_nil] at hfold

theorem mem_fuse (hc : c.free = false) : c ∈ fuse hdr b bs ↔ c = b ∨ c ∈ bs := by
  cases bs with
  | nil => simp [fuse]
  | cons d ds =>
    rw [fuse]
    split_ifs with hfree
    · -- neither of the two fused blocks is allocated
      have h1 : c ≠ ⟨b.addr, b.size + hdr + d.size, true⟩ := by rintro rfl; simp at hc
      have h2 : c ≠ b := by rintro rfl; simp [hc] at hfree
      have h3 : c ≠ d := by rintro rfl; simp [hc] at hfree
      simp [h1, h2, h3]
    · simp

/-- Fusing keeps the allocated blocks. -/
theorem mem_coalesce (hc : c.free = false) : c ∈ coalesce hdr bs ↔ c ∈ bs := by
  induction bs with
  | nil => simp [coalesce]
  | cons b bs ih => exact (mem_fuse hc).trans (by rw [List.mem_cons, ← ih]; rfl)

theorem markFree_cut (a : ℕ) (h : Cut hdr unit lo hi bs) : Cut hdr unit lo hi (markFree a bs) := by
  induction bs generalizing lo with
  | nil => exact h
  | cons b bs ih =>
    obtain ⟨h1, h2, h3⟩ := cut_cons.1 h
    have hb : ∀ x : Block, x = (if b.addr = a then { b with free := true } else b) →
        x.addr = b.addr ∧ x.size = b.size := by
      rintro x rfl
      split_ifs <;> exact ⟨rfl, rfl⟩
    obtain ⟨ha, hs⟩ := hb _ rfl
    refine cut_cons.2 ⟨ha.trans h1, by rwa [hs], ?_⟩
    rw [Block.stop, ha, hs]
    exact ih h3

/-- Distinct blocks of a tiling have distinct addresses. -/
theorem Tiles.addr_inj (hpos : 0 < hdr) (h : Tiles hdr lo hi bs) (hb : b ∈ bs) (hc : c ∈ bs)
    (hbc : b.addr = c.addr) : b = c := by
  rcases h.apart hb hc with h | h | h
  · exact h
  all_goals
    simp only [Block.stop] at h
    omega

theorem markFree_append (hpos : 0 < hdr) (h : Tiles hdr lo hi (xs ++ b :: ys)) :
    markFree b.addr (xs ++ b :: ys) = xs ++ { b with free := true } :: ys := by
  -- an element on either side has another address
  have hother : ∀ zs : List Block, (∀ c ∈ zs, c.addr ≠ b.addr) → markFree b.addr zs = zs := by
    intro zs hzs
    exact (List.map_congr_left (g := id) fun c hc => if_neg (hzs c hc)).trans (List.map_id zs)
  obtain ⟨mid, hxs, rfl, hys⟩ := tiles_append.1 h
  have h1 := hother xs fun c hc heq => by
    have := (hxs.bounds hc).2
    simp only [Block.stop] at this
    omega
  have h2 := hother ys fun c hc heq => by
    have := (hys.bounds hc).1
    simp only [Block.stop] at this
    omega
  unfold markFree at *
  rw [List.map_append, List.map_cons, h1, h2, if_pos rfl]

/-- Fusing around a block that has just been marked free, where the block before it
is free too. -/
theorem coalesce_merge_left {p : Block} {zs : List Block} (hp : p.free = true)
    (hco : Coalesced (zs ++ [p])) (hys : Coalesced ys) :
    coalesce hdr (zs ++ [p] ++ { b with free := true } :: ys) =
      zs ++ fuse hdr ⟨p.addr, p.size + hdr + b.size, true⟩ ys := by
  obtain ⟨hzs, -, hseam⟩ := coalesced_append.1 hco
  rw [List.append_assoc, coalesce_append, List.singleton_append, coalesce_cons, coalesce_cons,
    coalesce_of_coalesced hys, fuse_fuse hp rfl]
  exact foldr_fuse hzs fun x hx c _ hboth => hseam x hx p rfl ⟨hboth.1, hp⟩

/-- The same where the block before it is not free. -/
theorem coalesce_merge_right (hxs : Coalesced xs) (hlast : ∀ p ∈ xs.getLast?, ¬p.free = true)
    (hys : Coalesced ys) :
    coalesce hdr (xs ++ { b with free := true } :: ys) = xs ++ fuse hdr { b with free := true } ys := by
  rw [coalesce_append, coalesce_cons, coalesce_of_coalesced hys]
  exact foldr_fuse hxs fun x hx c _ hboth => hlast x hx hboth.1

/-- Releasing keeps the region cut. -/
theorem release_cut {a : ℕ} {bs' : List Block} (hunit : hdr % unit = 0) (h : Cut hdr unit lo hi bs)
    (hr : release hdr a bs = some bs') : Cut hdr unit lo hi bs' := by
  unfold release at hr
  split_ifs at hr
  obtain rfl := Option.some.inj hr
  exact coalesce_cut hunit (markFree_cut a h)

theorem release_coalesced {a : ℕ} {bs' : List Block} (hr : release hdr a bs = some bs') :
    Coalesced bs' := by
  unfold release at hr
  split_ifs at hr
  obtain rfl := Option.some.inj hr
  exact coalesce_coalesced hdr _

/-- The blocks allocated after a release: all but the one released. -/
theorem mem_release {a : ℕ} {bs' : List Block} (hr : release hdr a bs = some bs') (hc : c.free = false) :
    c ∈ bs' ↔ c ∈ bs ∧ c.addr ≠ a := by
  unfold release at hr
  split_ifs at hr
  obtain rfl := Option.some.inj hr
  rw [mem_coalesce hc, markFree, List.mem_map]
  constructor
  · rintro ⟨b, hb, rfl⟩
    split_ifs at hc ⊢ with ha
    exact ⟨hb, ha⟩
  · rintro ⟨hmem, ha⟩
    exact ⟨c, hmem, if_neg ha⟩

/-! ## Allocating and releasing -/

/-- **Releasing what was just allocated** gives the old list back. -/
theorem release_alloc {a : ℕ} {bs' : List Block} (hpos : 0 < hdr) (hcut : Cut hdr unit lo hi bs)
    (hco : Coalesced bs) (hunit : hdr % unit = 0) (hn : 0 < n) (hnu : n % unit = 0)
    (h : alloc hdr unit n bs = some (a, bs')) : release hdr a bs' = some bs := by
  have hcut' := alloc_cut hunit hn hnu hcut h
  obtain ⟨xs, b, ys, rfl, -, hb, rfl, rfl⟩ := exists_first_fit h
  have hys : Coalesced ys := (coalesced_append.1 hco).2.1.tail
  unfold carve at hcut' ⊢
  split_ifs at hcut' ⊢ with hsplit
  · -- the block and its remainder are fused again
    have hsize : b.size = n + hdr + (b.size - n - hdr) := by omega
    have hfuse : fuse hdr ⟨b.addr, n, true⟩ (fuse hdr ⟨b.addr + hdr + n, b.size - n - hdr, true⟩ ys) =
        fuse hdr b ys := by
      rw [fuse_fuse rfl rfl]
      simp only
      rw [← hsize, ← hb.1]
    rw [List.cons_append, List.singleton_append] at hcut' ⊢
    rw [release, if_pos ⟨⟨b.addr, n, false⟩, by simp, rfl, rfl⟩, markFree_append hpos hcut'.tiles,
      coalesce_append, coalesce_cons, coalesce_cons, coalesce_of_coalesced hys, hfuse]
    have hwhole : coalesce hdr (xs ++ b :: ys) = xs ++ b :: ys := coalesce_of_coalesced hco
    rw [coalesce_append, coalesce_cons, coalesce_of_coalesced hys] at hwhole
    rw [hwhole]
  · rw [List.singleton_append] at hcut' ⊢
    rw [release, if_pos ⟨⟨b.addr, b.size, false⟩, by simp, rfl, rfl⟩, markFree_append hpos hcut'.tiles]
    have hback : ({ addr := b.addr, size := b.size, free := true } : Block) = b := by rw [← hb.1]
    simp only [hback]
    rw [coalesce_of_coalesced hco]

/-! ## The order of releases -/

/-- A change of the allocated blocks only, before or after fusing, comes to the same. -/
theorem coalesce_map {f : Block → Block} (hf : ∀ b, b.free = true → f b = b) (hdr : ℕ) (bs : List Block) :
    coalesce hdr ((coalesce hdr bs).map f) = coalesce hdr (bs.map f) := by
  induction bs with
  | nil => rfl
  | cons b bs ih =>
    rw [List.map_cons, coalesce_cons, coalesce_cons, ← ih]
    cases coalesce hdr bs with
    | nil => rfl
    | cons c cs =>
      rw [fuse]
      split_ifs with hfree
      · rw [List.map_cons, List.map_cons, coalesce_cons, coalesce_cons, hf _ rfl, hf b hfree.1, hf c hfree.2,
          fuse_fuse hfree.1 hfree.2]
      · rw [List.map_cons, coalesce_cons]

theorem coalesce_markFree (hdr a : ℕ) (bs : List Block) :
    coalesce hdr (markFree a (coalesce hdr bs)) = coalesce hdr (markFree a bs) := by
  refine coalesce_map (fun b hb => ?_) hdr bs
  split_ifs
  · rw [← hb]
  · rfl

/-- Marks the blocks at some addresses free. -/
def markAll (as : List ℕ) (bs : List Block) : List Block := as.foldl (fun bs a => markFree a bs) bs

theorem markFree_comm (a a' : ℕ) (bs : List Block) :
    markFree a (markFree a' bs) = markFree a' (markFree a bs) := by
  simp only [markFree, List.map_map]
  refine List.map_congr_left fun b _ => ?_
  simp only [Function.comp_apply]
  split_ifs <;> simp_all

/-- **The order does not matter.** -/
theorem markAll_perm {as as' : List ℕ} (h : as.Perm as') (bs : List Block) : markAll as bs = markAll as' bs :=
  haveI : RightCommutative fun bs a => markFree a bs := ⟨fun bs a a' => markFree_comm a' a bs⟩
  h.foldl_eq bs

theorem coalesce_markAll (hdr : ℕ) (as : List ℕ) (bs : List Block) :
    coalesce hdr (markAll as (coalesce hdr bs)) = coalesce hdr (markAll as bs) := by
  induction as generalizing bs with
  | nil => exact coalesce_of_coalesced (coalesce_coalesced hdr bs)
  | cons a as ih =>
    calc coalesce hdr (markAll as (markFree a (coalesce hdr bs)))
      _ = coalesce hdr (markAll as (coalesce hdr (markFree a (coalesce hdr bs)))) := (ih _).symm
      _ = coalesce hdr (markAll as (coalesce hdr (markFree a bs))) := by rw [coalesce_markFree]
      _ = coalesce hdr (markAll as (markFree a bs)) := ih _

theorem mem_markAll {as : List ℕ} (hc : c.free = false) : c ∈ markAll as bs ↔ c ∈ bs ∧ c.addr ∉ as := by
  induction as generalizing bs with
  | nil => simp [markAll]
  | cons a as ih =>
    rw [markAll, List.foldl_cons]
    refine ih.trans ?_
    rw [markFree, List.mem_map, List.mem_cons, not_or, ← and_assoc]
    refine and_congr_left fun _ => ?_
    constructor
    · rintro ⟨b, hb, rfl⟩
      split_ifs at hc ⊢ with ha
      exact ⟨hb, ha⟩
    · rintro ⟨hmem, ha⟩
      exact ⟨c, hmem, if_neg ha⟩

theorem markAll_cut (as : List ℕ) (h : Cut hdr unit lo hi bs) : Cut hdr unit lo hi (markAll as bs) := by
  induction as generalizing bs with
  | nil => exact h
  | cons a as ih => exact ih (markFree_cut a h)

/-- A region without an allocated block is one free block. -/
theorem coalesce_all_free (h : Tiles hdr lo hi bs) (hne : bs ≠ []) (hfree : ∀ b ∈ bs, b.free = true) :
    coalesce hdr bs = [⟨lo, hi - lo - hdr, true⟩] := by
  induction bs generalizing lo with
  | nil => exact absurd rfl hne
  | cons b bs ih =>
    obtain ⟨rfl, htail⟩ := h
    rw [List.forall_mem_cons] at hfree
    have hstop : b.stop hdr = b.addr + hdr + b.size := rfl
    cases bs with
    | nil =>
      have hhi : b.stop hdr = hi := htail
      have hsize : b.size = hi - b.addr - hdr := by omega
      rw [coalesce_cons, ← hsize, ← hfree.1]
      rfl
    | cons c cs =>
      have hle := (htail.bounds (b := c) List.mem_cons_self)
      have hc : c.addr = b.stop hdr := htail.1
      have hcstop : c.stop hdr = c.addr + hdr + c.size := rfl
      have hsize : b.size + hdr + (hi - b.stop hdr - hdr) = hi - b.addr - hdr := by omega
      rw [coalesce_cons, ih htail (by simp) hfree.2, fuse, if_pos ⟨hfree.1, rfl⟩, hsize]

end Machine
