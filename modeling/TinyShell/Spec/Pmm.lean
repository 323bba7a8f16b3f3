import TinyShell.Machine.Loop

/-!
# The physical page allocator (`kernel/mm/pmm.c`)

Two bitmaps of one bit per 4 KiB page of the 32-bit physical space encode four
page states: unknown (neither bit), free (managed), allocated (both bits) and
reserved (allocated only). The arrays are functions of the word index.
-/

namespace TinyShell

open Machine

abbrev pmmPageShift : ℕ := 12

abbrev pmmPageCount : U32 := 1048576

/-- `PMM_PAGE_COUNT / 32`. -/
abbrev pmmBitmapWords : ℕ := 32768

abbrev pmmPageMask : U64 := 0xFFF

abbrev pmmPhysicalLimit : U64 := 0x100000000

/-- The allocator's static variables. -/
structure Pmm where
  managedPages : ℕ → U32
  allocatedPages : ℕ → U32
  totalPages : U32
  freePages : U32
  ownershipFrozen : Bool

def bitmapWord (page : U32) : U32 := page / 32

def bitmapMask (page : U32) : U32 := (1 : U32) <<< (page % 32)

def pageIsManaged (s : Pmm) (page : U32) : Bool :=
  s.managedPages (bitmapWord page).toNat &&& bitmapMask page != 0

def pageIsAllocated (s : Pmm) (page : U32) : Bool :=
  s.allocatedPages (bitmapWord page).toNat &&& bitmapMask page != 0

def pageIsReserved (s : Pmm) (page : U32) : Bool := !pageIsManaged s page && pageIsAllocated s page

/-- One bit of a bitmap set (`|= mask`) or cleared (`&= ~mask`). -/
def assignBit (bitmap : ℕ → U32) (page : U32) (value : Bool) : ℕ → U32 :=
  let word := (bitmapWord page).toNat
  let mask := bitmapMask page
  Function.update bitmap word (if value then bitmap word ||| mask else bitmap word &&& ~~~mask)

def setManaged (s : Pmm) (page : U32) (value : Bool) : Pmm :=
  { s with managedPages := assignBit s.managedPages page value }

def setAllocated (s : Pmm) (page : U32) (value : Bool) : Pmm :=
  { s with allocatedPages := assignBit s.allocatedPages page value }

/-! The functions that update the counters are written once, in the monad of the updates: for the
code, whose counters wrap, and for the checked functions, which then fail. -/

/-- Updates of the counters, and what `mark_page_reserved` does with a live allocation. -/
structure PmmUpdates (m : Type → Type) where
  add : U32 → U32 → m U32
  sub : U32 → U32 → m U32
  live : Pmm → m Pmm

section updates

variable {m : Type → Type} [Monad m] (updates : PmmUpdates m)

def markPageReservedM (s : Pmm) (page : U32) : m Pmm :=
  if pageIsReserved s page then pure s
  else if pageIsManaged s page then
    if pageIsAllocated s page then updates.live s
    else do
      let s := setManaged s page false
      let s := setAllocated s page true
      let totalPages ← updates.sub s.totalPages 1
      let freePages ← updates.sub s.freePages 1
      pure { s with totalPages, freePages }
  else pure (setAllocated s page true)

def markPageUsableM (s : Pmm) (page : U32) : m Pmm :=
  if page = 0 || pageIsReserved s page || pageIsManaged s page then pure s
  else do
    let s := setManaged s page true
    let s := setAllocated s page false
    let totalPages ← updates.add s.totalPages 1
    let freePages ← updates.add s.freePages 1
    pure { s with totalPages, freePages }

end updates

/-- The code's updates; a live allocation is not un-owned: the page stays allocated. -/
def pmmUpdates : PmmUpdates Id := ⟨fun x y => pure (x + y), fun x y => pure (x - y), pure⟩

/-- The updates fail where a counter would wrap, and at a live allocation. -/
def pmmUpdatesChecked : PmmUpdates Option := ⟨checkedAdd, checkedSub, fun _ => none⟩

def markPageReserved (s : Pmm) (page : U32) : Pmm := markPageReservedM pmmUpdates s page

def markPageUsable (s : Pmm) (page : U32) : Pmm := markPageUsableM pmmUpdates s page

def markPageReservedChecked (s : Pmm) (page : U32) : Option Pmm := markPageReservedM pmmUpdatesChecked s page

def markPageUsableChecked (s : Pmm) (page : U32) : Option Pmm := markPageUsableM pmmUpdatesChecked s page

/-- `clip_to_physical`: `none` when the range wraps past `UINT64_MAX`, else the
part of the range below 4 GiB as `(clipped_base, clipped_end)`. -/
def clipToPhysical (base length : U64) : Option (U64 × U64) :=
  if length = 0 then some (0, 0)
  else if base > 0xFFFFFFFFFFFFFFFF - length then none
  else if base ≥ pmmPhysicalLimit then some (0, 0)
  else some (base, if base + length > pmmPhysicalLimit then pmmPhysicalLimit else base + length)

/-- `inward_page_span`: the pages wholly inside the range, as `(first, last_excl)`. -/
def inwardPageSpan (base stop : U64) : U32 × U32 :=
  let alignedStart := (base + pmmPageMask) &&& ~~~pmmPageMask
  let alignedEnd := stop &&& ~~~pmmPageMask
  if alignedStart ≥ alignedEnd then (0, 0)
  else
    let startPage : U32 := (alignedStart >>> pmmPageShift).setWidth 32
    let endPage : U32 := (alignedEnd >>> pmmPageShift).setWidth 32
    let startPage := if startPage = 0 then 1 else startPage
    if startPage ≥ endPage then (0, 0) else (startPage, endPage)

/-- `outward_page_span`: the pages the range touches, as `(first, last_excl)`. -/
def outwardPageSpan (base stop : U64) : U32 × U32 :=
  let alignedStart := base &&& ~~~pmmPageMask
  if base ≥ stop then (0, 0)
  else
    let alignedEnd :=
      if stop &&& pmmPageMask ≠ 0 then (stop + pmmPageMask) &&& ~~~pmmPageMask else stop
    let startPage : U32 := (alignedStart >>> pmmPageShift).setWidth 32
    let endPage : U32 :=
      if alignedEnd ≥ pmmPhysicalLimit then pmmPageCount
      else (alignedEnd >>> pmmPageShift).setWidth 32
    if startPage ≥ endPage then (0, 0) else (startPage, endPage)

/-- `pmm_reset` before it reserves page 0. -/
def pmmCleared (s : Pmm) : Pmm where
  managedPages := fill s.managedPages 0 pmmBitmapWords fun _ => 0
  allocatedPages := fill s.allocatedPages 0 pmmBitmapWords fun _ => 0
  totalPages := 0
  freePages := 0
  ownershipFrozen := false

/-- `pmm_reset`. -/
def pmmReset (s : Pmm) : Pmm := markPageReserved (pmmCleared s) 0

def pmmResetChecked (s : Pmm) : Option Pmm := markPageReservedChecked (pmmCleared s) 0

/-- `pmm_add_usable_region` and `pmm_reserve_region`, which differ in the pages that they take from
a range and in how they mark them. -/
def markRegionM {m : Type → Type} [Monad m] (mark : Pmm → U32 → m Pmm)
    (pageSpan : U64 → U64 → U32 × U32) (s : Pmm) (base length : U64) : m (Bool × Pmm) :=
  if s.ownershipFrozen then pure (false, s)
  else
    match clipToPhysical base length with
    | none => pure (false, s)
    | some (clippedBase, clippedEnd) => do
      let (first, lastExcl) := pageSpan clippedBase clippedEnd
      let s ← forRangeM mark first lastExcl s
      pure (true, s)

/-- `pmm_add_usable_region`. -/
def pmmAddUsableRegion (s : Pmm) (base length : U64) : Bool × Pmm :=
  markRegionM (m := Id) markPageUsable inwardPageSpan s base length

/-- `pmm_reserve_region`. -/
def pmmReserveRegion (s : Pmm) (base length : U64) : Bool × Pmm :=
  markRegionM (m := Id) markPageReserved outwardPageSpan s base length

def pmmAddUsableRegionChecked (s : Pmm) (base length : U64) : Option (Bool × Pmm) :=
  markRegionM markPageUsableChecked inwardPageSpan s base length

def pmmReserveRegionChecked (s : Pmm) (base length : U64) : Option (Bool × Pmm) :=
  markRegionM markPageReservedChecked outwardPageSpan s base length

/-- The free pages of one bitmap word. -/
def freeMask (s : Pmm) (word : ℕ) : U32 := s.managedPages word &&& ~~~s.allocatedPages word

section updates

variable {m : Type → Type} [Monad m] (updates : PmmUpdates m)

/-- `pmm_alloc_page`: the first word with a free page, and its lowest bit
(`__builtin_ctz`). -/
def pmmAllocPageM (s : Pmm) : m (U32 × Pmm) :=
  let s := { s with ownershipFrozen := true }
  if s.freePages = 0 then pure (0, s)
  else
    match (List.range pmmBitmapWords).find? fun word => freeMask s word != 0 with
    | none => pure (0, s)
    | some word => do
      let bit := (freeMask s word).ctz
      let page := BitVec.ofNat 32 word * 32 + bit
      let s := setAllocated s page true
      let freePages ← updates.sub s.freePages 1
      pure (page <<< pmmPageShift, { s with freePages })

/-- `pmm_free_page`. -/
def pmmFreePageM (s : Pmm) (physicalAddress : U32) : m (Bool × Pmm) :=
  if physicalAddress = 0 then pure (false, s)
  else if physicalAddress &&& 0xFFF ≠ 0 then pure (false, s)
  else if physicalAddress > (pmmPageCount - 1) <<< pmmPageShift then pure (false, s)
  else
    let page := physicalAddress >>> pmmPageShift
    if !pageIsManaged s page || !pageIsAllocated s page then pure (false, s)
    else do
      let s := setAllocated s page false
      let freePages ← updates.add s.freePages 1
      pure (true, { s with freePages })

end updates

def pmmAllocPage (s : Pmm) : U32 × Pmm := pmmAllocPageM pmmUpdates s

def pmmFreePage (s : Pmm) (physicalAddress : U32) : Bool × Pmm := pmmFreePageM pmmUpdates s physicalAddress

def pmmAllocPageChecked (s : Pmm) : Option (U32 × Pmm) := pmmAllocPageM pmmUpdatesChecked s

def pmmFreePageChecked (s : Pmm) (physicalAddress : U32) : Option (Bool × Pmm) :=
  pmmFreePageM pmmUpdatesChecked s physicalAddress

def pmmFreePageCount (s : Pmm) : U32 := s.freePages

def pmmTotalPageCount (s : Pmm) : U32 := s.totalPages

/-- The calls that set up page ownership. -/
inductive RegionCall where
  | addUsable (base length : U64)
  | reserve (base length : U64)

/-- The calls that hand pages out and take them back. -/
inductive PageCall where
  | alloc
  | free (physicalAddress : U32)

/-- The allocator's interface after `pmm_reset`. -/
inductive PmmCall where
  | region (c : RegionCall)
  | page (c : PageCall)

/-- What a call returns: a flag, or a physical address. -/
inductive PmmResult where
  | flag (ok : Bool)
  | page (address : U32)

def regionStep (s : Pmm) : RegionCall → Bool × Pmm
  | .addUsable base length => pmmAddUsableRegion s base length
  | .reserve base length => pmmReserveRegion s base length

def pageStep (s : Pmm) : PageCall → PmmResult × Pmm
  | .alloc => (pmmAllocPage s).map .page id
  | .free physicalAddress => (pmmFreePage s physicalAddress).map .flag id

def pmmStep (s : Pmm) : PmmCall → PmmResult × Pmm
  | .region c => (regionStep s c).map .flag id
  | .page c => pageStep s c

/-- A step of the allocator's life: `pmm_reset` or one of the other calls. -/
inductive PmmEvent where
  | reset
  | call (c : PmmCall)

def pmmEventStep (s : Pmm) : PmmEvent → Option PmmResult × Pmm
  | .reset => (none, pmmReset s)
  | .call c => (pmmStep s c).map some id

/-- The same step with the updates checked. -/
def pmmEventChecked (s : Pmm) : PmmEvent → Option (Option PmmResult × Pmm)
  | .reset => (pmmResetChecked s).map fun s => (none, s)
  | .call (.region (.addUsable base length)) =>
    (pmmAddUsableRegionChecked s base length).map (Prod.map (fun ok => some (.flag ok)) id)
  | .call (.region (.reserve base length)) =>
    (pmmReserveRegionChecked s base length).map (Prod.map (fun ok => some (.flag ok)) id)
  | .call (.page .alloc) => (pmmAllocPageChecked s).map (Prod.map (fun address => some (.page address)) id)
  | .call (.page (.free physicalAddress)) =>
    (pmmFreePageChecked s physicalAddress).map (Prod.map (fun ok => some (.flag ok)) id)

end TinyShell
