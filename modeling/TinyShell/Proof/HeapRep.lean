import TinyShell.Machine.Blocks
import TinyShell.Spec.Heap

/-!
# The block list in memory

`Linked m previous next bs`: the headers of the blocks `bs` are in `m`, doubly
linked in order. The stores of `kmalloc` and `kfree` turn the headers of one list
into those of another and touch no byte outside headers and the free block taken
(`take_linked`, `merge_linked`, `setState_linked`).
-/

namespace TinyShell

open Machine

variable {m m' : Memory} {a x : ℕ} {f g : Field} {v : U32} {b c : Block} {bs xs ys : List Block}
  {previous next lo hi : ℕ}

/-! ## Header members -/

theorem Field.offset_le (f : Field) : f.offset ≤ 16 := by
  cases f <;> simp [Field.offset]

theorem setField_of_not_mem (ha : a < 2 ^ 32) (hx : x < a ∨ a + 32 ≤ x) :
    setField m (word a) f v x = m x := by
  have := f.offset_le
  refine store32_of_not_mem ?_
  rw [toNat_word ha]
  omega

theorem getField_congr (ha : a < 2 ^ 32) (h : ∀ x, a ≤ x → x < a + 32 → m' x = m x) :
    getField m' (word a) f = getField m (word a) f := by
  have := f.offset_le
  refine load32_congr fun i hi => h _ ?_ ?_ <;> rw [toNat_word ha] <;> omega

@[simp] theorem getField_setField (m : Memory) (block : U32) (f : Field) (v : U32) :
    getField (setField m block f v) block f = v :=
  load32_store32 _ _ _

theorem getField_setField_ne {block : U32} (hfg : f ≠ g) :
    getField (setField m block f v) block g = getField m block g := by
  refine load32_store32_of_disjoint ?_
  cases f <;> cases g <;> simp [Field.offset] at hfg ⊢

theorem getField_setField_apart (ha : a < 2 ^ 32) {c : ℕ} (hc : c < 2 ^ 32) (h : a + 32 ≤ c ∨ c + 32 ≤ a) :
    getField (setField m (word a) f v) (word c) g = getField m (word c) g :=
  getField_congr hc fun _ h1 h2 => setField_of_not_mem ha (by omega)

/-! ## Linked lists of headers -/

def stateWord (free : Bool) : U32 := if free then heapBlockFree else heapBlockAllocated

/-- The header of a block is in memory. -/
structure Header (m : Memory) (b : Block) (previous next : ℕ) : Prop where
  addr_lt : b.addr < 2 ^ 32
  magic : getField m (word b.addr) .magic = heapBlockMagic
  state : getField m (word b.addr) .state = stateWord b.free
  payloadSize : getField m (word b.addr) .payloadSize = word b.size
  previous : getField m (word b.addr) .previous = word previous
  next : getField m (word b.addr) .next = word next

def firstAddr (next : ℕ) : List Block → ℕ
  | [] => next
  | b :: _ => b.addr

def lastAddr (previous : ℕ) : List Block → ℕ
  | [] => previous
  | b :: bs => lastAddr b.addr bs

/-- The headers of a list of blocks, linked in both directions. -/
def Linked (m : Memory) : ℕ → ℕ → List Block → Prop
  | _, _, [] => True
  | previous, next, b :: bs => Header m b previous (firstAddr next bs) ∧ Linked m b.addr next bs

theorem firstAddr_append (next : ℕ) (xs ys : List Block) :
    firstAddr next (xs ++ ys) = firstAddr (firstAddr next ys) xs := by
  cases xs <;> rfl

theorem lastAddr_concat (previous : ℕ) (xs : List Block) (b : Block) :
    lastAddr previous (xs ++ [b]) = b.addr := by
  induction xs generalizing previous with
  | nil => rfl
  | cons c xs ih => exact ih c.addr

theorem linked_append : Linked m previous next (xs ++ ys) ↔
    Linked m previous (firstAddr next ys) xs ∧ Linked m (lastAddr previous xs) next ys := by
  induction xs generalizing previous with
  | nil => simp [Linked, lastAddr]
  | cons b xs ih => simp only [List.cons_append, Linked, lastAddr, ih, firstAddr_append, and_assoc]

theorem Header.frame (h : Header m b previous next)
    (hm : ∀ x, b.addr ≤ x → x < b.addr + 32 → m' x = m x) : Header m' b previous next := by
  have hg : ∀ f, getField m' (word b.addr) f = getField m (word b.addr) f :=
    fun f => getField_congr h.addr_lt hm
  exact ⟨h.addr_lt, (hg _).trans h.magic, (hg _).trans h.state, (hg _).trans h.payloadSize,
    (hg _).trans h.previous, (hg _).trans h.next⟩

/-- A list of headers is not disturbed by changes elsewhere. -/
theorem Linked.frame (h : Linked m previous next bs)
    (hm : ∀ b ∈ bs, ∀ x, b.addr ≤ x → x < b.addr + 32 → m' x = m x) : Linked m' previous next bs := by
  induction bs generalizing previous with
  | nil => trivial
  | cons b bs ih =>
    rw [List.forall_mem_cons] at hm
    exact ⟨h.1.frame hm.1, ih h.2 hm.2⟩

/-- A store to a header elsewhere. -/
theorem Linked.setField (h : Linked m previous next bs) (ha : a < 2 ^ 32)
    (hapart : ∀ b ∈ bs, a + 32 ≤ b.addr ∨ b.addr + 32 ≤ a) :
    Linked (setField m (word a) f v) previous next bs :=
  h.frame fun b hb x h1 h2 => setField_of_not_mem ha (by have := hapart b hb; omega)

theorem Linked.mem (h : Linked m previous next bs) (hb : b ∈ bs) : ∃ p n, Header m b p n := by
  induction bs generalizing previous with
  | nil => simp at hb
  | cons c bs ih =>
    rcases List.mem_cons.1 hb with rfl | hb
    · exact ⟨_, _, h.1⟩
    · exact ih h.2 hb

/-- A forward link leads to a block of the list or ends it. -/
theorem Linked.next_mem (h : Linked m previous 0 bs) (hb : b ∈ bs) :
    getField m (word b.addr) .next = 0 ∨ ∃ c ∈ bs, getField m (word b.addr) .next = word c.addr := by
  obtain ⟨xs, ys, rfl⟩ := List.append_of_mem hb
  obtain ⟨-, hh, -⟩ := linked_append.1 h
  rw [hh.next]
  cases ys with
  | nil => exact Or.inl rfl
  | cons c cs => exact Or.inr ⟨c, by simp, rfl⟩

/-- A byte outside every header of a list. -/
def OffHeaders (bs : List Block) (x : ℕ) : Prop := ∀ b ∈ bs, x < b.addr ∨ b.addr + 32 ≤ x

/-! ## Back links -/

/-- `if (after != NULL) after->previous = left`, for the list that starts at `after`. -/
def relink (m : Memory) (bs : List Block) (left : ℕ) : Memory :=
  if word (firstAddr 0 bs) ≠ 0 then setField m (word (firstAddr 0 bs)) .previous (word left) else m

theorem relink_of_not_mem (ht : Tiles 32 lo hi bs) (hhi : hi < 2 ^ 32)
    (hx : OffHeaders bs x) : relink m bs a x = m x := by
  unfold relink
  split_ifs with hz
  · cases bs with
    | nil => simp [firstAddr] at hz
    | cons b bs =>
      have := (ht.bounds (b := b) List.mem_cons_self).2
      simp only [Block.stop] at this
      rw [firstAddr]
      exact setField_of_not_mem (by omega) (hx b List.mem_cons_self)
  · rfl

theorem relink_linked (hpos : 0 < lo) (ht : Tiles 32 lo hi bs) (hhi : hi < 2 ^ 32)
    (h : Linked m previous 0 bs) (left : ℕ) : Linked (relink m bs left) left 0 bs := by
  cases bs with
  | nil => trivial
  | cons b bs =>
    have hb := ht.bounds (b := b) List.mem_cons_self
    simp only [Block.stop] at hb
    have hz : word (firstAddr 0 (b :: bs)) ≠ 0 := by
      rw [firstAddr, ne_eq, word_eq_zero (by omega)]
      omega
    rw [relink, if_pos hz, firstAddr]
    obtain ⟨hh, htl⟩ := h
    refine ⟨⟨hh.addr_lt, ?_, ?_, ?_, getField_setField _ _ _ _, ?_⟩, htl.setField hh.addr_lt ?_⟩
    · rw [getField_setField_ne (by simp), hh.magic]
    · rw [getField_setField_ne (by simp), hh.state]
    · rw [getField_setField_ne (by simp), hh.payloadSize]
    · rw [getField_setField_ne (by simp), hh.next]
    · intro c hc
      have := (ht.2.bounds hc).1
      simp only [Block.stop] at this
      omega

/-! ## The stores of `kmalloc` and `kfree` -/

/-- A list in a region of positive 32-bit addresses. -/
structure Placed (lo hi : ℕ) (bs : List Block) : Prop where
  cut : Cut 32 16 lo hi bs
  lo_pos : 0 < lo
  hi_lt : hi < 2 ^ 32

theorem Placed.bounds (h : Placed lo hi bs) (hb : b ∈ bs) :
    0 < b.addr ∧ b.addr + 32 + b.size < 2 ^ 32 := by
  have := h.cut.tiles.bounds hb
  have := h.lo_pos
  have := h.hi_lt
  simp only [Block.stop] at *
  omega

/-- Around one block of the list. -/
theorem Placed.around (h : Placed lo hi (xs ++ b :: ys)) :
    (∀ c ∈ xs, c.addr + 32 + c.size ≤ b.addr) ∧ (∀ c ∈ ys, b.addr + 32 + b.size ≤ c.addr) := by
  obtain ⟨mid, hxs, rfl, hys⟩ := tiles_append.1 h.cut.tiles
  exact ⟨fun c hc => (hxs.bounds hc).2, fun c hc => (hys.bounds hc).1⟩

/-- Setting the state of one block. -/
theorem setState_linked (hp : Placed lo hi (xs ++ b :: ys)) (h : Linked m 0 0 (xs ++ b :: ys)) (free : Bool) :
    Linked (setField m (word b.addr) .state (stateWord free)) 0 0 (xs ++ { b with free := free } :: ys) := by
  obtain ⟨hbefore, hafter⟩ := hp.around
  obtain ⟨hxs, hb, hys⟩ := linked_append.1 h
  have hbx : ∀ c ∈ xs, b.addr + 32 ≤ c.addr ∨ c.addr + 32 ≤ b.addr := by
    intro c hc
    have := hbefore c hc
    omega
  have hby : ∀ c ∈ ys, b.addr + 32 ≤ c.addr ∨ c.addr + 32 ≤ b.addr := by
    intro c hc
    have := hafter c hc
    omega
  refine linked_append.2 ⟨hxs.setField hb.addr_lt hbx, ⟨hb.addr_lt, ?_, ?_, ?_, ?_, ?_⟩,
    hys.setField hb.addr_lt hby⟩
  · rw [getField_setField_ne (by simp), hb.magic]
  · rw [getField_setField]
  · rw [getField_setField_ne (by simp), hb.payloadSize]
  · rw [getField_setField_ne (by simp), hb.previous]
  · rw [getField_setField_ne (by simp), hb.next]

theorem invalidateBlock_of_not_mem (ha : a < 2 ^ 32) (hx : x < a ∨ a + 32 ≤ x) :
    invalidateBlock m (word a) x = m x := by
  simp only [invalidateBlock, setField_of_not_mem ha hx]

theorem mergeWithNext_eq (hc : getField m (word b.addr) .next = word c.addr)
    (hn : getField m (word c.addr) .next = word (firstAddr 0 ys))
    (hb : getField m (word b.addr) .payloadSize = word b.size)
    (hcs : getField m (word c.addr) .payloadSize = word c.size) :
    mergeWithNext m (word b.addr) = invalidateBlock (relink (setField (setField m (word b.addr) .payloadSize
      (word (b.size + 32 + c.size))) (word b.addr) .next (word (firstAddr 0 ys))) ys b.addr) (word c.addr) := by
  have hsize : word b.size + (heapBlockSize + word c.size) = word (b.size + 32 + c.size) := by
    rw [heapBlockSize]
    bv_omega
  simp only [mergeWithNext, hc, hn, hb, hcs, hsize]
  rfl

/-- **`merge_with_next`** turns two adjacent blocks into one. -/
theorem merge_linked (hp : Placed lo hi (xs ++ b :: c :: ys)) (h : Linked m 0 0 (xs ++ b :: c :: ys)) :
    Linked (mergeWithNext m (word b.addr)) 0 0 (xs ++ ⟨b.addr, b.size + 32 + c.size, b.free⟩ :: ys) := by
  obtain ⟨hbefore, hafter⟩ := hp.around
  have hbc := hafter c List.mem_cons_self
  obtain ⟨mid, -, -, -, hys'⟩ := tiles_append.1 hp.cut.tiles
  obtain ⟨hxs, hb, hc, hys⟩ := linked_append.1 h
  have hblt := hb.addr_lt
  have hclt := hc.addr_lt
  have hclear : ∀ d ∈ ys, c.addr + 32 + c.size ≤ d.addr := fun d hd => (hys'.bounds hd).1
  rw [mergeWithNext_eq hb.next hc.next hb.payloadSize hc.payloadSize]
  set m₂ := setField (setField m (word b.addr) .payloadSize (word (b.size + 32 + c.size))) (word b.addr)
    .next (word (firstAddr 0 ys)) with hm₂
  -- the header of the left block changes first, then those after it
  have hleft : ∀ x, x < b.addr ∨ b.addr + 32 ≤ x → m₂ x = m x := by
    intro x hx
    rw [hm₂, setField_of_not_mem hblt hx, setField_of_not_mem hblt hx]
  have hright : ∀ x, x < c.addr → invalidateBlock (relink m₂ ys b.addr) (word c.addr) x = m₂ x := by
    intro x hx
    rw [invalidateBlock_of_not_mem hclt (Or.inl hx), relink_of_not_mem hys' hp.hi_lt]
    intro d hd
    have := hclear d hd
    omega
  refine linked_append.2 ⟨hxs.frame ?_, Header.frame (m := m₂) ⟨hblt, ?_, ?_, ?_, ?_, ?_⟩ ?_, ?_⟩
  · intro d hd x h1 h2
    have := hbefore d hd
    rw [hright x (by omega), hleft x (by omega)]
  · rw [hm₂, getField_setField_ne (by simp), getField_setField_ne (by simp), hb.magic]
  · rw [hm₂, getField_setField_ne (by simp), getField_setField_ne (by simp), hb.state]
  · rw [hm₂, getField_setField_ne (by simp), getField_setField]
  · rw [hm₂, getField_setField_ne (by simp), getField_setField_ne (by simp), hb.previous]
  · rw [hm₂, getField_setField]
  · intro x h1 h2
    exact hright x (by simp only at h2; omega)
  · -- the list after the two blocks gets its back link
    have hys₂ : Linked m₂ c.addr 0 ys := hys.frame fun d hd x h1 h2 => hleft x (by
      have := hclear d hd
      omega)
    have hys₃ := relink_linked (by simp only [Block.stop]; omega) hys' hp.hi_lt hys₂ b.addr
    refine hys₃.frame fun d hd x h1 h2 => invalidateBlock_of_not_mem hclt (Or.inr ?_)
    have := hclear d hd
    omega

theorem merge_of_not_mem (hp : Placed lo hi (xs ++ b :: c :: ys)) (h : Linked m 0 0 (xs ++ b :: c :: ys))
    (hx : OffHeaders (xs ++ b :: c :: ys) x) : mergeWithNext m (word b.addr) x = m x := by
  obtain ⟨mid, -, -, -, hys'⟩ := tiles_append.1 hp.cut.tiles
  obtain ⟨-, hb, hc, -⟩ := linked_append.1 h
  have hxb := hx b (by simp)
  have hxc := hx c (by simp)
  rw [mergeWithNext_eq hb.next hc.next hb.payloadSize hc.payloadSize,
    invalidateBlock_of_not_mem hc.addr_lt hxc, relink_of_not_mem hys' hp.hi_lt fun d hd => hx d (by simp [hd]),
    setField_of_not_mem hb.addr_lt hxb, setField_of_not_mem hb.addr_lt hxb]

/-- The header that a split writes for the remainder. -/
def splitHeader (m : Memory) (c : Block) (previous next : ℕ) : Memory :=
  setField (setField (setField (setField (setField m (word c.addr) .magic heapBlockMagic) (word c.addr)
    .state heapBlockFree) (word c.addr) .payloadSize (word c.size)) (word c.addr) .previous (word previous))
    (word c.addr) .next (word next)

theorem splitHeader_of_not_mem (ha : c.addr < 2 ^ 32) (hx : x < c.addr ∨ c.addr + 32 ≤ x) :
    splitHeader m c previous next x = m x := by
  simp only [splitHeader, setField_of_not_mem ha hx]

theorem splitHeader_header (ha : c.addr < 2 ^ 32) (hfree : c.free = true) :
    Header (splitHeader m c previous next) c previous next := by
  refine ⟨ha, ?_, ?_, ?_, ?_, ?_⟩ <;> unfold splitHeader
  · rw [getField_setField_ne (by simp), getField_setField_ne (by simp), getField_setField_ne (by simp),
      getField_setField_ne (by simp), getField_setField]
  · rw [getField_setField_ne (by simp), getField_setField_ne (by simp), getField_setField_ne (by simp),
      getField_setField, hfree, stateWord, if_pos rfl]
  · rw [getField_setField_ne (by simp), getField_setField_ne (by simp), getField_setField]
  · rw [getField_setField_ne (by simp), getField_setField]
  · rw [getField_setField]

section take

variable {n : ℕ}

/-- The block split off when `n` bytes of a block are taken. -/
def remainder (b : Block) (n : ℕ) : Block := ⟨b.addr + 32 + n, b.size - n - 32, true⟩

theorem takeBlock_split (hb : Header m b previous (firstAddr 0 ys)) (hlt : b.addr + 32 + b.size < 2 ^ 32)
    (hn : n ≤ b.size) (hsplit : 32 + 16 ≤ b.size - n) :
    takeBlock m (word b.addr) (word n) = setField (setField (setField
      (relink (splitHeader m (remainder b n) b.addr (firstAddr 0 ys)) ys (remainder b n).addr)
      (word b.addr) .payloadSize (word n)) (word b.addr) .next (word (remainder b n).addr))
      (word b.addr) .state heapBlockAllocated := by
  have hrem : word b.size - word n = word (b.size - n) := by bv_omega
  have hge : word (b.size - n) ≥ heapBlockSize + kheapAlignment := by
    rw [heapBlockSize, kheapAlignment]
    bv_omega
  have hsize : word (b.size - n) - heapBlockSize = word (remainder b n).size := by
    rw [heapBlockSize, remainder]
    bv_omega
  have haddr : blockPayload (word b.addr) + word n = word (remainder b n).addr := by
    rw [blockPayload, heapBlockSize, remainder]
    bv_omega
  have hnext : getField (setField (setField (setField (setField m (word (remainder b n).addr) .magic
      heapBlockMagic) (word (remainder b n).addr) .state heapBlockFree) (word (remainder b n).addr)
      .payloadSize (word (remainder b n).size)) (word (remainder b n).addr) .previous (word b.addr))
      (word b.addr) .next = word (firstAddr 0 ys) := by
    have hlt' : (remainder b n).addr < 2 ^ 32 := by simp only [remainder]; omega
    have hoff : ∀ {m : Memory} {f : Field} {v : U32},
        getField (setField m (word (remainder b n).addr) f v) (word b.addr) .next =
          getField m (word b.addr) .next := fun {m f v} =>
      getField_setField_apart hlt' hb.addr_lt (by simp only [remainder]; omega)
    rw [hoff, hoff, hoff, hoff, hb.next]
  simp only [takeBlock, hb.payloadSize, hrem, if_pos hge, hsize, haddr, hnext, getField_setField]
  rfl

theorem takeBlock_whole (hb : Header m b previous next) (hlt : b.addr + 32 + b.size < 2 ^ 32)
    (hn : n ≤ b.size) (hsplit : ¬32 + 16 ≤ b.size - n) :
    takeBlock m (word b.addr) (word n) = setField m (word b.addr) .state heapBlockAllocated := by
  have hrem : word b.size - word n = word (b.size - n) := by bv_omega
  have hge : ¬word (b.size - n) ≥ heapBlockSize + kheapAlignment := by
    rw [heapBlockSize, kheapAlignment]
    bv_omega
  simp only [takeBlock, hb.payloadSize, hrem, if_neg hge]

/-- Taking `n` bytes of a block with a split. -/
theorem split_linked (hp : Placed lo hi (xs ++ b :: ys)) (h : Linked m 0 0 (xs ++ b :: ys))
    (hn : n ≤ b.size) (hsplit : 32 + 16 ≤ b.size - n) :
    Linked (takeBlock m (word b.addr) (word n)) 0 0
      (xs ++ ⟨b.addr, n, false⟩ :: remainder b n :: ys) := by
  have hbound := hp.bounds (b := b) (by simp)
  obtain ⟨hbefore, hafter⟩ := hp.around
  obtain ⟨mid, -, -, hys'⟩ := tiles_append.1 hp.cut.tiles
  obtain ⟨hxs, hb, hys⟩ := linked_append.1 h
  have hblt := hb.addr_lt
  have hrlt : (remainder b n).addr < 2 ^ 32 := by simp only [remainder]; omega
  rw [takeBlock_split hb hbound.2 hn hsplit]
  set m₁ := splitHeader m (remainder b n) b.addr (firstAddr 0 ys) with hm₁
  set m₂ := relink m₁ ys (remainder b n).addr with hm₂
  set m₃ := setField (setField (setField m₂ (word b.addr) .payloadSize (word n)) (word b.addr) .next
    (word (remainder b n).addr)) (word b.addr) .state heapBlockAllocated with hm₃
  -- the remainder's header is written inside the block, then the back link after it
  have h₁ : ∀ x, x < b.addr + 32 ∨ b.addr + 32 + b.size ≤ x → m₁ x = m x := by
    intro x hx
    exact splitHeader_of_not_mem hrlt (by simp only [remainder]; omega)
  have h₂ : ∀ x, x < b.addr + 32 + b.size → m₂ x = m₁ x := by
    intro x hx
    refine relink_of_not_mem hys' hp.hi_lt fun d hd => ?_
    have := hafter d hd
    omega
  have h₃ : ∀ x, x < b.addr ∨ b.addr + 32 ≤ x → m₃ x = m₂ x := by
    intro x hx
    rw [hm₃, setField_of_not_mem hblt hx, setField_of_not_mem hblt hx, setField_of_not_mem hblt hx]
  have hfield : ∀ f, getField m₂ (word b.addr) f = getField m (word b.addr) f := by
    intro f
    refine getField_congr hblt fun x h1 h2 => ?_
    rw [h₂ x (by omega), h₁ x (by omega)]
  refine linked_append.2 ⟨hxs.frame ?_, ⟨hblt, ?_, ?_, ?_, ?_, ?_⟩, ?_, ?_⟩
  · intro d hd x h1 h2
    have := hbefore d hd
    rw [h₃ x (by omega), h₂ x (by omega), h₁ x (by omega)]
  · rw [hm₃, getField_setField_ne (by simp), getField_setField_ne (by simp), getField_setField_ne (by simp),
      hfield, hb.magic]
  · rw [hm₃, getField_setField]
    rfl
  · rw [hm₃, getField_setField_ne (by simp), getField_setField_ne (by simp), getField_setField]
  · rw [hm₃, getField_setField_ne (by simp), getField_setField_ne (by simp), getField_setField_ne (by simp),
      hfield, hb.previous]
  · rw [hm₃, getField_setField_ne (by simp), getField_setField]
    rfl
  · have hrem : Header m₁ (remainder b n) b.addr (firstAddr 0 ys) := splitHeader_header hrlt rfl
    refine hrem.frame fun x h1 h2 => ?_
    simp only [remainder] at h1 h2
    rw [h₃ x (by omega), h₂ x (by omega)]
  · have hys₁ : Linked m₁ b.addr 0 ys := hys.frame fun d hd x h1 h2 => h₁ x (by
      have := hafter d hd
      omega)
    have hys₂ := relink_linked (by simp only [Block.stop]; omega) hys' hp.hi_lt hys₁ (remainder b n).addr
    refine hys₂.frame fun d hd x h1 h2 => h₃ x ?_
    have := hafter d hd
    omega

/-- **The stores of `kmalloc`** turn the block it takes into the blocks carved from
it. -/
theorem take_linked (hp : Placed lo hi (xs ++ b :: ys)) (h : Linked m 0 0 (xs ++ b :: ys))
    (hn : n ≤ b.size) :
    Linked (takeBlock m (word b.addr) (word n)) 0 0 (xs ++ (carve 32 16 n b ++ ys)) := by
  unfold carve
  split_ifs with hsplit
  · exact split_linked hp h hn hsplit
  · have hbound := hp.bounds (b := b) (by simp)
    rw [takeBlock_whole (linked_append.1 h).2.1 hbound.2 hn hsplit]
    exact setState_linked hp h false

/-- They touch only headers and the block taken. -/
theorem take_of_not_mem (hp : Placed lo hi (xs ++ b :: ys)) (h : Linked m 0 0 (xs ++ b :: ys))
    (hn : n ≤ b.size) (hx : OffHeaders (xs ++ b :: ys) x)
    (hxb : x < b.addr + 32 ∨ b.addr + 32 + b.size ≤ x) :
    takeBlock m (word b.addr) (word n) x = m x := by
  have hbound := hp.bounds (b := b) (by simp)
  obtain ⟨mid, -, -, hys'⟩ := tiles_append.1 hp.cut.tiles
  obtain ⟨-, hb, -⟩ := linked_append.1 h
  have hxb' := hx b (by simp)
  by_cases hsplit : 32 + 16 ≤ b.size - n
  · rw [takeBlock_split hb hbound.2 hn hsplit, setField_of_not_mem hb.addr_lt hxb',
      setField_of_not_mem hb.addr_lt hxb', setField_of_not_mem hb.addr_lt hxb',
      relink_of_not_mem hys' hp.hi_lt fun d hd => hx d (by simp [hd])]
    exact splitHeader_of_not_mem (by simp only [remainder]; omega) (by simp only [remainder]; omega)
  · rw [takeBlock_whole hb hbound.2 hn hsplit, setField_of_not_mem hb.addr_lt hxb']

end take

end TinyShell
