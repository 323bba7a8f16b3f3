import TinyShell.Machine.Loop

/-!
# Paging (`kernel/mm/vmm.c`)

A page directory, a pool of 64 page tables of which the first 32 map the first
128 MiB one to one, and two arrays that record which table each directory slot
uses and which tables are taken. Loading CR3, enabling paging and `invlpg` change
none of these.
-/

namespace TinyShell

open Machine

abbrev vmmPageSize : U32 := 4096

abbrev vmmDynamicStart : U32 := 0x40000000

abbrev vmmDynamicEnd : U32 := 0xF0000000

abbrev vmmWritable : U32 := 1

abbrev vmmUser : U32 := 2

abbrev pageDirectoryEntries : ℕ := 1024

abbrev pageTableEntries : ℕ := 1024

abbrev pageTableCount : ℕ := 64

abbrev identityTableCount : ℕ := 32

abbrev pagePresent : U32 := 1

abbrev pageWritable : U32 := 2

abbrev pageUser : U32 := 4

abbrev pageAddressMask : U32 := 0xFFFFF000

abbrev pageOffsetMask : U32 := vmmPageSize - 1

abbrev vmmAllowedFlags : U32 := vmmWritable ||| vmmUser

abbrev tableIndexNone : U16 := 0xFFFF

/-- Where the linker placed `page_tables`: distinct page-aligned addresses. -/
structure TableLayout where
  address : ℕ → U32
  aligned : ∀ t < 64, address t &&& pageAddressMask = address t
  distinct : ∀ t < 64, ∀ u < 64, address t = address u → t = u

structure Vmm where
  pageDirectory : ℕ → U32
  pageTables : ℕ → ℕ → U32
  directoryTableIndices : ℕ → U16
  tableInUse : ℕ → Bool
  enabled : Bool

/-- `clear_table`, on the entries of one table. -/
def clearTable (table : ℕ → U32) : ℕ → U32 := fill table 0 pageTableEntries fun _ => 0

def dynamicAddressIsValid (virtualAddress : U32) : Bool :=
  virtualAddress ≥ vmmDynamicStart && virtualAddress < vmmDynamicEnd &&
    virtualAddress &&& pageOffsetMask = 0

def makePageFlags (flags : U32) : U32 :=
  let hardwareFlags := pagePresent
  let hardwareFlags := if flags &&& vmmWritable ≠ 0 then hardwareFlags ||| pageWritable else hardwareFlags
  if flags &&& vmmUser ≠ 0 then hardwareFlags ||| pageUser else hardwareFlags

/-- `allocate_dynamic_table`. -/
def allocateDynamicTable (s : Vmm) : U16 × Vmm :=
  match (List.range' identityTableCount (pageTableCount - identityTableCount)).find?
      fun index => !s.tableInUse index with
  | none => (tableIndexNone, s)
  | some index =>
    (BitVec.ofNat 16 index,
      { s with
        tableInUse := Function.update s.tableInUse index true
        pageTables := Function.update s.pageTables index (clearTable (s.pageTables index)) })

/-- `table_is_empty`, on the entries of one table. -/
def tableIsEmpty (table : ℕ → U32) : Bool :=
  (List.range pageTableEntries).all fun entry => table entry &&& pagePresent = 0

/-- A directory entry for a page table. -/
def tableEntry (layout : TableLayout) (tableIndex : ℕ) : U32 :=
  layout.address tableIndex &&& pageAddressMask ||| pagePresent ||| pageWritable

/-- The entry that `vmm_init` leaves in an identity table; page zero stays unmapped. -/
def identityEntry (tableIndex entryIndex : ℕ) : U32 :=
  let physicalAddress := BitVec.ofNat 32 ((tableIndex * pageTableEntries + entryIndex) * 4096)
  if physicalAddress ≠ 0 then physicalAddress ||| pagePresent ||| pageWritable else 0

/-- `vmm_init`. -/
def vmmInit (layout : TableLayout) (s : Vmm) : Bool × Vmm :=
  if s.enabled then (true, s)
  else
    let pageDirectory := fill s.pageDirectory 0 pageDirectoryEntries fun _ => 0
    let indices := fill s.directoryTableIndices 0 pageDirectoryEntries fun _ => tableIndexNone
    let tableInUse := fill s.tableInUse 0 pageTableCount fun t => decide (t < identityTableCount)
    let pageTables := fill s.pageTables 0 pageTableCount fun t => clearTable (s.pageTables t)
    (true,
      { pageDirectory := fill pageDirectory 0 identityTableCount (tableEntry layout)
        pageTables := fill pageTables 0 identityTableCount fun t =>
          fill (pageTables t) 0 pageTableEntries (identityEntry t)
        directoryTableIndices := fill indices 0 identityTableCount fun t => BitVec.ofNat 16 t
        tableInUse := tableInUse
        enabled := true })

def vmmIsEnabled (s : Vmm) : Bool := s.enabled

def directoryIndex (virtualAddress : U32) : ℕ := (virtualAddress >>> 22).toNat

def entryIndex (virtualAddress : U32) : ℕ := ((virtualAddress >>> 12) &&& 0x3FF).toNat

/-- The table of a directory slot, allocated and installed if it has none. -/
def openTable (layout : TableLayout) (s : Vmm) (d : ℕ) : Option (U16 × Vmm) :=
  if s.directoryTableIndices d = tableIndexNone then
    let (tableIndex, s) := allocateDynamicTable s
    if tableIndex = tableIndexNone then none
    else
      some (tableIndex,
        { s with
          directoryTableIndices := Function.update s.directoryTableIndices d tableIndex
          pageDirectory := Function.update s.pageDirectory d (tableEntry layout tableIndex.toNat) })
  else some (s.directoryTableIndices d, s)

def setEntry (tables : ℕ → ℕ → U32) (t e : ℕ) (v : U32) : ℕ → ℕ → U32 :=
  Function.update tables t (Function.update (tables t) e v)

/-- `vmm_map_page`. -/
def vmmMapPage (layout : TableLayout) (s : Vmm) (virtualAddress physicalAddress flags : U32) :
    Bool × Vmm :=
  let d := directoryIndex virtualAddress
  let e := entryIndex virtualAddress
  if !s.enabled || !dynamicAddressIsValid virtualAddress || physicalAddress &&& pageOffsetMask ≠ 0 ||
      flags &&& ~~~vmmAllowedFlags ≠ 0 then (false, s)
  else
    match openTable layout s d with
    | none => (false, s)
    | some (tableIndex, s) =>
      if s.pageTables tableIndex.toNat e &&& pagePresent ≠ 0 then (false, s)
      else
        let hardwareFlags := makePageFlags flags
        let pageDirectory :=
          if hardwareFlags &&& pageUser ≠ 0 then
            Function.update s.pageDirectory d (s.pageDirectory d ||| pageUser)
          else s.pageDirectory
        (true,
          { s with
            pageDirectory := pageDirectory
            pageTables := setEntry s.pageTables tableIndex.toNat e
              (physicalAddress &&& pageAddressMask ||| hardwareFlags) })

/-- `vmm_unmap_page`: its result, the caller's output and the state. -/
def vmmUnmapPage (s : Vmm) (virtualAddress : U32) (physicalAddress : Option U32) :
    Bool × Option U32 × Vmm :=
  let d := directoryIndex virtualAddress
  let e := entryIndex virtualAddress
  if !s.enabled || physicalAddress.isNone || !dynamicAddressIsValid virtualAddress then
    (false, physicalAddress, s)
  else
    let tableIndex := s.directoryTableIndices d
    if tableIndex = tableIndexNone then (false, physicalAddress, s)
    else
      let entry := s.pageTables tableIndex.toNat e
      if entry &&& pagePresent = 0 then (false, physicalAddress, s)
      else
        let unmappedAddress := entry &&& pageAddressMask
        let s := { s with pageTables := setEntry s.pageTables tableIndex.toNat e 0 }
        let s :=
          if tableIndex.toNat ≥ identityTableCount && tableIsEmpty (s.pageTables tableIndex.toNat) then
            { s with
              pageDirectory := Function.update s.pageDirectory d 0
              directoryTableIndices := Function.update s.directoryTableIndices d tableIndexNone
              tableInUse := Function.update s.tableInUse tableIndex.toNat false }
          else s
        (true, some unmappedAddress, s)

/-- `vmm_translate`. -/
def vmmTranslate (s : Vmm) (virtualAddress : U32) (physicalAddress : Option U32) : Bool × Option U32 :=
  let d := directoryIndex virtualAddress
  let e := entryIndex virtualAddress
  let offset := virtualAddress &&& pageOffsetMask
  if !s.enabled || physicalAddress.isNone then (false, physicalAddress)
  else if s.pageDirectory d &&& pagePresent = 0 then (false, physicalAddress)
  else
    let tableIndex := s.directoryTableIndices d
    if tableIndex = tableIndexNone then (false, physicalAddress)
    else
      let entry := s.pageTables tableIndex.toNat e
      if entry &&& pagePresent = 0 then (false, physicalAddress)
      else (true, some ((entry &&& pageAddressMask) + offset))

/-! ## Calls -/

inductive VmmCall
  | map (virtualAddress physicalAddress flags : U32)
  | unmap (virtualAddress : U32) (physicalAddress : Option U32)

inductive VmmResult
  | mapped (ok : Bool)
  | unmapped (ok : Bool) (physicalAddress : Option U32)
  deriving DecidableEq

/-- One call after initialisation. -/
def vmmStep (layout : TableLayout) (s : Vmm) : VmmCall → VmmResult × Vmm
  | .map v p flags => let (ok, s) := vmmMapPage layout s v p flags; (.mapped ok, s)
  | .unmap v out => let (ok, out, s) := vmmUnmapPage s v out; (.unmapped ok out, s)

/-! ## The hardware walk -/

/-- What a physical word holds: an entry of the page tables, or whatever the rest of
the memory `other` holds there. -/
def physicalWord (layout : TableLayout) (other : U32 → U32) (s : Vmm) (address : U32) : U32 :=
  match (List.range pageTableCount).find? fun t => layout.address t = address &&& pageAddressMask with
  | none => other address
  | some t => s.pageTables t ((address &&& pageOffsetMask) >>> 2).toNat

/-- A translation with its effective permissions. -/
structure Translation where
  physicalAddress : U32
  writable : Bool
  user : Bool
  deriving DecidableEq

/-- The two-level walk of the processor from `page_directory`: an entry must be
present at both levels, and an access is a write or a user access only if both
entries allow it. -/
def hardwareWalk (layout : TableLayout) (other : U32 → U32) (s : Vmm) (virtualAddress : U32) :
    Option Translation :=
  let pde := s.pageDirectory (directoryIndex virtualAddress)
  if pde &&& pagePresent = 0 then none
  else
    let pte := physicalWord layout other s
      ((pde &&& pageAddressMask) + ((virtualAddress >>> 12) &&& 0x3FF) <<< 2)
    if pte &&& pagePresent = 0 then none
    else
      some
        { physicalAddress := pte &&& pageAddressMask ||| virtualAddress &&& pageOffsetMask
          writable := decide (pde &&& pageWritable ≠ 0) && decide (pte &&& pageWritable ≠ 0)
          user := decide (pde &&& pageUser ≠ 0) && decide (pte &&& pageUser ≠ 0) }

end TinyShell
