import TinyShell.Spec.Vmm

/-!
# Paging store by store, with a TLB (`kernel/mm/vmm.c`, `paging_invalidate`)

The processor may read the page tables between any two stores of `vmm_map_page` and
`vmm_unmap_page`. Here a call is the list of its stores in the order of the source, made one at a time,
and the TLB may at any moment cache the translation of any page as the tables have it then.
`invlpg` is taken to drop what is cached for its page.
-/

namespace TinyShell

open Machine

/-- A store of `vmm.c`, or the `invlpg` of `paging_invalidate`. -/
inductive VmmStore
  | tableInUse (t : ℕ) (value : Bool)
  | entry (t e : ℕ) (value : U32)
  | tableIndex (d : ℕ) (value : U16)
  | directory (d : ℕ) (value : U32)
  | invalidate (virtualAddress : U32)

def applyStore (s : Vmm) : VmmStore → Vmm
  | .tableInUse t value => { s with tableInUse := Function.update s.tableInUse t value }
  | .entry t e value => { s with pageTables := setEntry s.pageTables t e value }
  | .tableIndex d value => { s with directoryTableIndices := Function.update s.directoryTableIndices d value }
  | .directory d value => { s with pageDirectory := Function.update s.pageDirectory d value }
  | .invalidate _ => s

def applyStores (s : Vmm) (stores : List VmmStore) : Vmm := stores.foldl applyStore s

/-! ## The stores of each call -/

/-- `clear_table`. -/
def clearTableStores (t : ℕ) : List VmmStore := (List.range pageTableEntries).map fun entry => .entry t entry 0

/-- `allocate_dynamic_table`. -/
def allocateDynamicTableStores (s : Vmm) : U16 × List VmmStore :=
  match (List.range' identityTableCount (pageTableCount - identityTableCount)).find?
      fun index => !s.tableInUse index with
  | none => (tableIndexNone, [])
  | some index => (BitVec.ofNat 16 index, .tableInUse index true :: clearTableStores index)

/-- The table of a directory slot, allocated and installed if it has none. -/
def openTableStores (layout : TableLayout) (s : Vmm) (d : ℕ) : Option (U16 × List VmmStore) :=
  if s.directoryTableIndices d = tableIndexNone then
    let (tableIndex, stores) := allocateDynamicTableStores s
    if tableIndex = tableIndexNone then none
    else
      some (tableIndex,
        stores ++ [.tableIndex d tableIndex, .directory d (tableEntry layout tableIndex.toNat)])
  else some (s.directoryTableIndices d, [])

def vmmMapPageStores (layout : TableLayout) (s : Vmm) (virtualAddress physicalAddress flags : U32) :
    Bool × List VmmStore :=
  let d := directoryIndex virtualAddress
  let e := entryIndex virtualAddress
  if !s.enabled || !dynamicAddressIsValid virtualAddress || physicalAddress &&& pageOffsetMask ≠ 0 ||
      flags &&& ~~~vmmAllowedFlags ≠ 0 then (false, [])
  else
    match openTableStores layout s d with
    | none => (false, [])
    | some (tableIndex, opening) =>
      let s := applyStores s opening
      if s.pageTables tableIndex.toNat e &&& pagePresent ≠ 0 then (false, opening)
      else
        let hardwareFlags := makePageFlags flags
        let raising : List VmmStore :=
          if hardwareFlags &&& pageUser ≠ 0 then [.directory d (s.pageDirectory d ||| pageUser)] else []
        (true,
          opening ++ raising ++
            [.entry tableIndex.toNat e (physicalAddress &&& pageAddressMask ||| hardwareFlags),
              .invalidate virtualAddress])

def vmmUnmapPageStores (s : Vmm) (virtualAddress : U32) (physicalAddress : Option U32) :
    Bool × Option U32 × List VmmStore :=
  let d := directoryIndex virtualAddress
  let e := entryIndex virtualAddress
  if !s.enabled || physicalAddress.isNone || !dynamicAddressIsValid virtualAddress then
    (false, physicalAddress, [])
  else
    let tableIndex := s.directoryTableIndices d
    if tableIndex = tableIndexNone then (false, physicalAddress, [])
    else
      let entry := s.pageTables tableIndex.toNat e
      if entry &&& pagePresent = 0 then (false, physicalAddress, [])
      else
        let unmappedAddress := entry &&& pageAddressMask
        let clearing : List VmmStore := [.entry tableIndex.toNat e 0, .invalidate virtualAddress]
        let s := applyStores s clearing
        let closing : List VmmStore :=
          if tableIndex.toNat ≥ identityTableCount && tableIsEmpty (s.pageTables tableIndex.toNat) then
            [.directory d 0, .tableIndex d tableIndexNone, .tableInUse tableIndex.toNat false]
          else []
        (true, some unmappedAddress, clearing ++ closing)

/-- The result of a call and its stores. -/
def callStores (layout : TableLayout) (s : Vmm) : VmmCall → VmmResult × List VmmStore
  | .map v p flags => let (ok, stores) := vmmMapPageStores layout s v p flags; (.mapped ok, stores)
  | .unmap v out => let (ok, out, stores) := vmmUnmapPageStores s v out; (.unmapped ok out, stores)

/-! ## The processor beside the calls -/

structure TlbSystem where
  vmm : Vmm
  /-- The cached translations, each with the address of its page. -/
  tlb : List (U32 × Translation)
  /-- The stores that the running call has not made yet; empty once it has returned. -/
  pending : List VmmStore
  /-- The last call, with its result. -/
  last : Option (VmmCall × VmmResult)

/-- `translate` and a second `vmm_init` make no store. A fill reads the tables, and whatever the
rest of the memory holds then. -/
inductive TlbEvent
  | call (c : VmmCall)
  | init
  | translate (virtualAddress : U32) (physicalAddress : Option U32)
  | advance
  | fill (virtualAddress : U32) (other : U32 → U32)

/-- What a store leaves in the TLB. -/
def tlbAfter (tlb : List (U32 × Translation)) : VmmStore → List (U32 × Translation)
  | .invalidate v => tlb.filter fun cached => cached.1 ≠ v &&& pageAddressMask
  | _ => tlb

/-- One step. There is one caller, so a call is made only when the one before has returned. -/
def tlbStep (layout : TableLayout) (sys : TlbSystem) : TlbEvent → TlbSystem
  | .call c =>
    match sys.pending with
    | [] =>
      let (result, stores) := callStores layout sys.vmm c
      { sys with pending := stores, last := some (c, result) }
    | _ => sys
  | .init =>
    match sys.pending with
    | [] => { sys with vmm := (vmmInit layout sys.vmm).2, last := none }
    | _ => sys
  | .translate _ _ => sys
  | .advance =>
    match sys.pending with
    | [] => sys
    | store :: rest =>
      { sys with vmm := applyStore sys.vmm store, tlb := tlbAfter sys.tlb store, pending := rest }
  | .fill v other =>
    let page := v &&& pageAddressMask
    match hardwareWalk layout other sys.vmm page with
    | some translation => { sys with tlb := (page, translation) :: sys.tlb }
    | none => sys

end TinyShell
