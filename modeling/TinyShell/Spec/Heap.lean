import TinyShell.Machine.Bytes
import TinyShell.Machine.Loop

/-!
# The kernel heap (`kernel/mm/heap.c`)

Block headers live in the same byte memory as the payloads. A `struct heap_block`
is five 32-bit words, padded to 32 bytes by its 16-byte alignment; `NULL` is the
address zero.
-/

namespace TinyShell

open Machine

abbrev kheapArenaSize : U32 := 262144

abbrev kheapAlignment : U32 := 16

/-- `sizeof(struct heap_block)`. -/
abbrev heapBlockSize : U32 := 32

abbrev heapBlockFree : U32 := 1

abbrev heapBlockAllocated : U32 := 2

abbrev heapBlockMagic : U32 := 0x48454150

/-- Where the linker placed `heap_arena`: an aligned object of 256 KiB, whose end is
an address too. -/
structure Arena where
  begin : U32
  nonNull : 0 < begin.toNat
  aligned : begin.toNat % 16 = 0
  fits : begin.toNat + 262144 < 2 ^ 32

/-- `arena_end`. -/
def Arena.stop (arena : Arena) : U32 := arena.begin + kheapArenaSize

/-- The members of `struct heap_block`. -/
inductive Field
  | magic
  | state
  | payloadSize
  | previous
  | next
  deriving DecidableEq

def Field.offset : Field → ℕ
  | .magic => 0
  | .state => 4
  | .payloadSize => 8
  | .previous => 12
  | .next => 16

/-- Reads a member of the header at an address. -/
def getField (m : Memory) (block : U32) (f : Field) : U32 := load32 m (block.toNat + f.offset)

/-- Stores to a member of the header at an address. -/
def setField (m : Memory) (block : U32) (f : Field) (v : U32) : Memory :=
  store32 m (block.toNat + f.offset) v

structure Heap where
  mem : Memory
  firstBlock : U32
  heapInitialized : Bool

/-- A header with its address. -/
structure BlockView where
  address : U32
  magic : U32
  state : U32
  payloadSize : U32
  previous : U32
  next : U32
  deriving DecidableEq

/-- The header at an address. -/
def blockView (m : Memory) (block : U32) : BlockView :=
  ⟨block, getField m block .magic, getField m block .state, getField m block .payloadSize,
    getField m block .previous, getField m block .next⟩

structure HeapStats where
  totalBytes : U32
  freeBytes : U32
  largestFreeBlock : U32
  allocatedBlocks : U32
  deriving DecidableEq

def blockPayload (block : U32) : U32 := block + heapBlockSize

/-- `align_request`. -/
def alignRequest (size : U32) : Option U32 :=
  let mask := kheapAlignment - 1
  if size = 0 ∨ size > 0xFFFFFFFF - mask then none else some ((size + mask) &&& ~~~mask)

/-! ## Validation -/

/-- The locals of the loop of `inspect_heap`. -/
structure Inspection where
  measured : HeapStats
  previous : U32
  cursor : U32
  payloadBytes : U32
  blockCount : U32
  previousWasFree : Bool

abbrev totalCapacity : U32 := kheapArenaSize - heapBlockSize

abbrev maximumBlocks : U32 := kheapArenaSize / heapBlockSize

/-- The locals of `inspect_heap` before its loop. -/
def inspectStart (arena : Arena) : Inspection := ⟨⟨totalCapacity, 0, 0, 0⟩, 0, arena.begin, 0, 0, false⟩

/-- The statistics with one more block, unless a check on them fails. -/
def measureBlock (measured : HeapStats) (isFree previousWasFree : Bool) (payloadSize : U32) :
    Option HeapStats :=
  if isFree then
    if previousWasFree ∨ measured.freeBytes > 0xFFFFFFFF - payloadSize then none
    else
      some { measured with
        freeBytes := measured.freeBytes + payloadSize
        largestFreeBlock :=
          if payloadSize > measured.largestFreeBlock then payloadSize else measured.largestFreeBlock }
  else if measured.allocatedBlocks = 0xFFFFFFFF then none
  else some { measured with allocatedBlocks := measured.allocatedBlocks + 1 }

/-- An iteration of the loop of `inspect_heap` from the checks of the header at `cursor` on: `none`
where the source returns false, else whether it breaks, with the locals after it. -/
def inspectView (arena : Arena) (st : Inspection) (v : BlockView) : Option (Bool × Inspection) :=
  if v.magic ≠ heapBlockMagic ∨ (v.state ≠ heapBlockFree ∧ v.state ≠ heapBlockAllocated) ∨
      v.previous ≠ st.previous ∨ v.payloadSize < kheapAlignment ∨
      v.payloadSize &&& (kheapAlignment - 1) ≠ 0 then none
  else
    let payloadStart := st.cursor + heapBlockSize
    if v.payloadSize > arena.stop - payloadStart then none
    else
      let blockEnd := payloadStart + v.payloadSize
      if st.payloadBytes > 0xFFFFFFFF - v.payloadSize then none
      else
        let isFree := decide (v.state = heapBlockFree)
        match measureBlock st.measured isFree st.previousWasFree v.payloadSize with
        | none => none
        | some measured =>
          let st' : Inspection :=
            { measured := measured, previous := v.address, cursor := blockEnd,
              payloadBytes := st.payloadBytes + v.payloadSize, blockCount := st.blockCount + 1,
              previousWasFree := isFree }
          if v.next = 0 then if blockEnd ≠ arena.stop then none else some (true, st')
          else if blockEnd ≥ arena.stop ∨ v.next ≠ blockEnd then none
          else some (false, st')

/-- An iteration of the loop of `inspect_heap`. -/
def inspectBlock (arena : Arena) (m : Memory) (st : Inspection) : Option (Bool × Inspection) :=
  if st.blockCount ≥ maximumBlocks ∨ st.cursor &&& (kheapAlignment - 1) ≠ 0 ∨
      st.cursor > arena.stop - heapBlockSize then none
  else inspectView arena st (blockView m st.cursor)

/-- The loop of `inspect_heap`. Its own check of `block_count` ends it within
`maximum_blocks + 1` iterations. -/
def inspectLoop (arena : Arena) (m : Memory) : ℕ → Inspection → Option Inspection
  | 0, _ => none
  | fuel + 1, st =>
    match inspectBlock arena m st with
    | none => none
    | some (true, st') => some st'
    | some (false, st') => inspectLoop arena m fuel st'

/-- No loop over the blocks takes more iterations than this: a validated heap has at
most `maximum_blocks` blocks. -/
def blockFuel : ℕ := maximumBlocks.toNat + 1

/-- `inspect_heap`: the statistics it measures, or `none` for false. -/
def inspectHeap (arena : Arena) (h : Heap) : Option HeapStats :=
  if ¬h.heapInitialized ∨ h.firstBlock ≠ arena.begin ∨ arena.begin > 0xFFFFFFFF - kheapArenaSize then none
  else
    match inspectLoop arena h.mem blockFuel (inspectStart arena) with
    | none => none
    | some st =>
      if st.blockCount = 0 ∨ st.blockCount - 1 > 0xFFFFFFFF / heapBlockSize then none
      else
        let extraMetadata := (st.blockCount - 1) * heapBlockSize
        if st.payloadBytes > totalCapacity ∨ extraMetadata ≠ totalCapacity - st.payloadBytes ∨
            st.measured.freeBytes > totalCapacity ∨
            st.measured.largestFreeBlock > st.measured.freeBytes then none
        else some st.measured

/-! ## Blocks -/

/-- `invalidate_block`. -/
def invalidateBlock (m : Memory) (block : U32) : Memory :=
  let m := setField m block .magic 0
  let m := setField m block .state 0
  let m := setField m block .payloadSize 0
  let m := setField m block .previous 0
  setField m block .next 0

/-- `merge_with_next`; it returns `left`. -/
def mergeWithNext (m : Memory) (left : U32) : Memory :=
  let right := getField m left .next
  let after := getField m right .next
  let m := setField m left .payloadSize
    (getField m left .payloadSize + (heapBlockSize + getField m right .payloadSize))
  let m := setField m left .next after
  let m := if after ≠ 0 then setField m after .previous left else m
  invalidateBlock m right

/-- `for (block = first_block; block != NULL; block = block->next)` up to the first
block with a property; `some 0` where the list ends, `none` where more than
`fuel` blocks were seen. -/
def searchBlocks (m : Memory) (p : U32 → Bool) : ℕ → U32 → Option U32
  | 0, _ => none
  | fuel + 1, block =>
    if block = 0 then some 0
    else if p block then some block
    else searchBlocks m p fuel (getField m block .next)

/-- What `kmalloc` does to the block it has found. -/
def takeBlock (m : Memory) (block alignedSize : U32) : Memory :=
  let remaining := getField m block .payloadSize - alignedSize
  let m :=
    if remaining ≥ heapBlockSize + kheapAlignment then
      let split := blockPayload block + alignedSize
      let m := setField m split .magic heapBlockMagic
      let m := setField m split .state heapBlockFree
      let m := setField m split .payloadSize (remaining - heapBlockSize)
      let m := setField m split .previous block
      let m := setField m split .next (getField m block .next)
      let m :=
        if getField m split .next ≠ 0 then setField m (getField m split .next) .previous split else m
      let m := setField m block .payloadSize alignedSize
      setField m block .next split
    else m
  setField m block .state heapBlockAllocated

/-- What `kfree` does to the block it has found. -/
def freeBlock (m : Memory) (block : U32) : Memory :=
  let m := setField m block .state heapBlockFree
  let previous := getField m block .previous
  let (block, m) :=
    if previous ≠ 0 ∧ getField m previous .state = heapBlockFree then (previous, mergeWithNext m previous)
    else (block, m)
  let next := getField m block .next
  if next ≠ 0 ∧ getField m next .state = heapBlockFree then mergeWithNext m block else m

/-! ## The interface -/

/-- `kheap_init`. -/
def kheapInit (arena : Arena) (h : Heap) : Bool × Heap :=
  let m := fill h.mem arena.begin.toNat (arena.begin.toNat + kheapArenaSize.toNat) fun _ => 0
  let first := arena.begin
  let m := setField m first .magic heapBlockMagic
  let m := setField m first .state heapBlockFree
  let m := setField m first .payloadSize (kheapArenaSize - heapBlockSize)
  let m := setField m first .previous 0
  let m := setField m first .next 0
  let h : Heap := ⟨m, first, true⟩
  match inspectHeap arena h with
  | none => (false, { h with heapInitialized := false, firstBlock := 0 })
  | some _ => (true, h)

/-- `kmalloc`. -/
def kmalloc (arena : Arena) (h : Heap) (size : U32) : U32 × Heap :=
  match alignRequest size with
  | none => (0, h)
  | some alignedSize =>
    match inspectHeap arena h with
    | none => (0, h)
    | some _ =>
      let fits := fun block => getField h.mem block .state = heapBlockFree ∧
        getField h.mem block .payloadSize ≥ alignedSize
      match searchBlocks h.mem (fun block => decide (fits block)) blockFuel h.firstBlock with
      | none => (0, h)
      | some block =>
        if block = 0 then (0, h)
        else (blockPayload block, { h with mem := takeBlock h.mem block alignedSize })

/-- `kcalloc`. -/
def kcalloc (arena : Arena) (h : Heap) (count size : U32) : U32 × Heap :=
  if count = 0 ∨ size = 0 ∨ size > 0xFFFFFFFF / count then (0, h)
  else
    let total := count * size
    let (memory, h) := kmalloc arena h total
    if memory = 0 then (0, h)
    else (memory, { h with mem := fill h.mem memory.toNat (memory.toNat + total.toNat) fun _ => 0 })

/-- `kfree`. -/
def kfree (arena : Arena) (h : Heap) (pointer : U32) : Bool × Heap :=
  if pointer = 0 ∨ pointer < arena.begin + heapBlockSize ∨ pointer ≥ arena.stop ∨
      pointer &&& (kheapAlignment - 1) ≠ 0 then (false, h)
  else
    match inspectHeap arena h with
    | none => (false, h)
    | some _ =>
      match searchBlocks h.mem (fun block => decide (blockPayload block = pointer)) blockFuel h.firstBlock with
      | none => (false, h)
      | some block =>
        if block = 0 ∨ getField h.mem block .state ≠ heapBlockAllocated then (false, h)
        else (true, { h with mem := freeBlock h.mem block })

/-- `kheap_get_stats`. -/
def kheapGetStats (arena : Arena) (h : Heap) (stats : Option HeapStats) : Bool × Option HeapStats :=
  match stats with
  | none => (false, stats)
  | some _ =>
    match inspectHeap arena h with
    | none => (false, stats)
    | some measured => (true, some measured)

/-- `kheap_validate`. -/
def kheapValidate (arena : Arena) (h : Heap) : Bool := (inspectHeap arena h).isSome

/-- A block header on the list that starts at `first_block`. -/
inductive OnList (h : Heap) : U32 → Prop
  | first : h.firstBlock ≠ 0 → OnList h h.firstBlock
  | next {block : U32} : OnList h block → getField h.mem block .next ≠ 0 →
      OnList h (getField h.mem block .next)

/-- The list from a block on, as far as `fuel` headers. -/
def blocksFrom (m : Memory) : ℕ → U32 → List BlockView
  | 0, _ => []
  | fuel + 1, block =>
    if block = 0 then [] else blockView m block :: blocksFrom m fuel (getField m block .next)

/-- The block list: addresses, members and links. -/
def blockList (h : Heap) : List BlockView := blocksFrom h.mem blockFuel h.firstBlock

/-! ## Validation of a memory that cannot be read everywhere -/

def checkedField (m : ℕ → Option U8) (block : U32) (f : Field) : Option U32 :=
  checkedLoad32 m (block.toNat + f.offset)

/-- All members of a header, where the source may stop at one that is wrong. -/
def checkedView (m : ℕ → Option U8) (block : U32) : Option BlockView := do
  let magic ← checkedField m block .magic
  let state ← checkedField m block .state
  let payloadSize ← checkedField m block .payloadSize
  let previous ← checkedField m block .previous
  let next ← checkedField m block .next
  return ⟨block, magic, state, payloadSize, previous, next⟩

/-- An iteration of `inspect_heap` over a memory of which some bytes cannot be read:
`none` where it reads such a byte. -/
def inspectBlockChecked (arena : Arena) (m : ℕ → Option U8) (st : Inspection) :
    Option (Option (Bool × Inspection)) :=
  if st.blockCount ≥ maximumBlocks ∨ st.cursor &&& (kheapAlignment - 1) ≠ 0 ∨
      st.cursor > arena.stop - heapBlockSize then some none
  else (checkedView m st.cursor).map (inspectView arena st)

/-- The loop of `inspect_heap` over such a memory. -/
def inspectLoopChecked (arena : Arena) (m : ℕ → Option U8) : ℕ → Inspection → Option (Option Inspection)
  | 0, _ => some none
  | fuel + 1, st =>
    match inspectBlockChecked arena m st with
    | none => none
    | some none => some none
    | some (some (true, st')) => some (some st')
    | some (some (false, st')) => inspectLoopChecked arena m fuel st'

/-! ## Clients -/

inductive HeapCall
  | kmalloc (size : U32)
  | kcalloc (count size : U32)
  | kfree (pointer : U32)
  | getStats (stats : Option HeapStats)

inductive HeapResult
  | pointer (p : U32)
  | flag (ok : Bool)
  | stats (ok : Bool) (stats : Option HeapStats)

/-- One call of the heap interface. -/
def heapStep (arena : Arena) (h : Heap) : HeapCall → HeapResult × Heap
  | .kmalloc size => let (p, h) := kmalloc arena h size; (.pointer p, h)
  | .kcalloc count size => let (p, h) := kcalloc arena h count size; (.pointer p, h)
  | .kfree pointer => let (ok, h) := kfree arena h pointer; (.flag ok, h)
  | .getStats stats => let (ok, stats) := kheapGetStats arena h stats; (.stats ok stats, h)

/-- Bytes handed to a client: the pointer returned and the number of bytes asked for. -/
structure Allocation where
  pointer : U32
  size : ℕ

/-- A heap with the allocations its clients hold. -/
structure HeapClient where
  heap : Heap
  live : List Allocation

/-- What the clients hold after a call. -/
def liveAfter (live : List Allocation) : HeapCall → HeapResult → List Allocation
  | .kmalloc size, .pointer p => if p = 0 then live else ⟨p, size.toNat⟩ :: live
  | .kcalloc count size, .pointer p => if p = 0 then live else ⟨p, count.toNat * size.toNat⟩ :: live
  | .kfree pointer, .flag true => live.filter fun a => a.pointer ≠ pointer
  | _, _ => live

/-- A heap call, or a client's store to a byte of its payload. -/
inductive HeapEvent
  | call (c : HeapCall)
  | write (pointer offset : U32) (value : U8)

/-- A client may store anywhere in the payload of an allocation it holds; other stores
do not happen. -/
def clientMayWrite (s : HeapClient) (pointer offset : U32) : Bool :=
  s.live.any (fun a => a.pointer = pointer) &&
    decide (offset < getField s.heap.mem (pointer - heapBlockSize) .payloadSize)

def clientStep (arena : Arena) (s : HeapClient) : HeapEvent → Option HeapResult × HeapClient
  | .call c =>
    let (r, h) := heapStep arena s.heap c
    (some r, ⟨h, liveAfter s.live c r⟩)
  | .write pointer offset value =>
    if clientMayWrite s pointer offset then
      (none, { s with heap :=
        { s.heap with mem := Function.update s.heap.mem (pointer.toNat + offset.toNat) value } })
    else (none, s)

end TinyShell
