import TinyShell.Machine.Bytes

/-!
# The Multiboot memory map (`kernel/boot/multiboot.c`)

The information structure and the memory map are read out of a byte memory that
does not change while it is read. Pointers are 32-bit addresses; an output or
visitor pointer that may be `NULL` is an `Option`.
-/

namespace TinyShell

open Machine

abbrev multibootBootloaderMagic : U32 := 0x2BADB002

/-- `sizeof(struct multiboot_info)`. -/
abbrev multibootInfoSize : U32 := 52

/-! The fields of `struct multiboot_info` that the kernel reads. -/

def infoFlags (m : Memory) (info : U32) : U32 := load32 m info.toNat

def infoMemLower (m : Memory) (info : U32) : U32 := load32 m (info.toNat + 4)

def infoMemUpper (m : Memory) (info : U32) : U32 := load32 m (info.toNat + 8)

def infoMmapLength (m : Memory) (info : U32) : U32 := load32 m (info.toNat + 44)

def infoMmapAddr (m : Memory) (info : U32) : U32 := load32 m (info.toNat + 48)

/-- `struct boot_memory_region`. -/
structure BootMemoryRegion where
  base : U64
  length : U64
  type : U32
  deriving DecidableEq

/-- The region of the packed `struct multiboot_mmap_entry` at an address; its `size`
field comes first. -/
def entryRegion (m : Memory) (entry : ℕ) : BootMemoryRegion where
  base := load64 m (entry + 4)
  length := load64 m (entry + 12)
  type := load32 m (entry + 20)

structure BootMemorySummary where
  lowerKib : U32
  upperKib : U32
  mmapEntryCount : U32
  deriving DecidableEq

structure BootOwnedRanges where
  infoAddress : U32
  infoLength : U32
  mmapAddress : U32
  mmapLength : U32
  deriving DecidableEq

/-- `validate_multiboot_info`: the validated view, which is the info pointer. -/
def validateMultibootInfo (m : Memory) (magic infoAddress : U32) : Option U32 :=
  if magic ≠ multibootBootloaderMagic ∨ infoAddress = 0 ∨
      infoAddress > 0xFFFFFFFF - multibootInfoSize then none
  else
    let requiredFlags : U32 := 1 ||| 64
    if infoFlags m infoAddress &&& requiredFlags ≠ requiredFlags ∨ infoMmapAddr m infoAddress = 0 ∨
        infoMmapLength m infoAddress = 0 ∨
        infoMmapAddr m infoAddress > 0xFFFFFFFF - infoMmapLength m infoAddress then none
    else some infoAddress

variable {σ : Type*}

/-- A visitor of memory regions with its context. -/
abbrev RegionVisitor (σ : Type*) := σ → BootMemoryRegion → Bool × σ

/-- `visitor == NULL || visitor(&region, context)`. -/
def visitRegion (visitor : Option (RegionVisitor σ)) (context : σ) (region : BootMemoryRegion) :
    Bool × σ :=
  match visitor with
  | none => (true, context)
  | some visit => visit context region

/-- A record inside the buffer leaves less of it to walk. -/
theorem record_consumes {cursor mmapEnd size : U32} (h1 : ¬size < 20)
    (h2 : ¬size > 0xFFFFFFFF - 4) (hr : ¬size + 4 > mmapEnd - cursor) :
    (mmapEnd - (cursor + (size + 4))).toNat < (mmapEnd - cursor).toNat := by
  bv_omega

/-- The loop of `walk_memory_map`: the final count, or `none` where the source
returns false. -/
def walkLoop (m : Memory) (visitor : Option (RegionVisitor σ)) (mmapEnd cursor count : U32)
    (context : σ) : Option U32 × σ :=
  if cursor < mmapEnd then
    let remaining := mmapEnd - cursor
    if remaining < 4 then (none, context)
    else
      let payloadSize := load32 m cursor.toNat
      if hp : payloadSize < 20 ∨ payloadSize > 0xFFFFFFFF - 4 then (none, context)
      else
        let recordSize := payloadSize + 4
        let region := entryRegion m cursor.toNat
        if hr : recordSize > remaining ∨ region.length = 0 then (none, context)
        else if region.base > 0xFFFFFFFFFFFFFFFF - region.length ∨ count = 0xFFFFFFFF then (none, context)
        else
          let visited := visitRegion visitor context region
          if visited.1 then walkLoop m visitor mmapEnd (cursor + recordSize) (count + 1) visited.2
          else (none, visited.2)
  else (some count, context)
termination_by (mmapEnd - cursor).toNat
decreasing_by
  simp only [not_or] at hp hr
  exact record_consumes hp.1 hp.2 hr.1

/-- `walk_memory_map`. -/
def walkMemoryMap (m : Memory) (info : U32) (visitor : Option (RegionVisitor σ)) (context : σ) :
    Option U32 × σ :=
  let mmapAddress := infoMmapAddr m info
  let mmapEnd := mmapAddress + infoMmapLength m info
  match walkLoop m visitor mmapEnd mmapAddress 0 context with
  | (some count, context) => (if count = 0 then none else some count, context)
  | (none, context) => (none, context)

/-- The loop of `walk_memory_map` over a memory of which some bytes cannot be read,
with each field loaded where the source reads it: `none` where it loads such a byte. -/
def walkLoopChecked (m : ℕ → Option U8) (visitor : Option (RegionVisitor σ))
    (mmapEnd cursor count : U32) (context : σ) : Option (Option U32 × σ) :=
  if cursor < mmapEnd then
    let remaining := mmapEnd - cursor
    if remaining < 4 then some (none, context)
    else
      match checkedLoad32 m cursor.toNat with
      | none => none
      | some payloadSize =>
        if payloadSize < 20 ∨ payloadSize > 0xFFFFFFFF - 4 then some (none, context)
        else
          let recordSize := payloadSize + 4
          if recordSize > remaining then some (none, context)
          else
            match checkedLoad64 m (cursor.toNat + 12) with
            | none => none
            | some length =>
              if length = 0 then some (none, context)
              else
                match checkedLoad64 m (cursor.toNat + 4) with
                | none => none
                | some base =>
                  if base > 0xFFFFFFFFFFFFFFFF - length ∨ count = 0xFFFFFFFF then some (none, context)
                  else
                    match checkedLoad32 m (cursor.toNat + 20) with
                    | none => none
                    | some type =>
                      let visited := visitRegion visitor context ⟨base, length, type⟩
                      if visited.1 then
                        walkLoopChecked m visitor mmapEnd (cursor + recordSize) (count + 1) visited.2
                      else some (none, visited.2)
  else some (some count, context)
termination_by (mmapEnd - cursor).toNat
decreasing_by
  rename_i hp hr _ _ _
  exact record_consumes (not_or.1 hp).1 (not_or.1 hp).2 hr

/-- `walk_memory_map` over such a memory, for the buffer that the validated view
names. -/
def walkMemoryMapChecked (m : ℕ → Option U8) (mmapAddress mmapLength : U32)
    (visitor : Option (RegionVisitor σ)) (context : σ) : Option (Option U32 × σ) :=
  match walkLoopChecked m visitor (mmapAddress + mmapLength) mmapAddress 0 context with
  | none => none
  | some (some count, context) => some (if count = 0 then none else some count, context)
  | some (none, context) => some (none, context)

/-- `multiboot_parse`. -/
def multibootParse (m : Memory) (magic infoAddress : U32) (summary : Option BootMemorySummary) :
    Bool × Option BootMemorySummary :=
  match summary with
  | none => (false, summary)
  | some _ =>
    match validateMultibootInfo m magic infoAddress with
    | none => (false, summary)
    | some info =>
      match (walkMemoryMap m info (none : Option (RegionVisitor Unit)) ()).1 with
      | none => (false, summary)
      | some count => (true, some ⟨infoMemLower m info, infoMemUpper m info, count⟩)

/-- `multiboot_for_each_memory_region`: the whole buffer is validated before the
visitor is called. -/
def multibootForEachMemoryRegion (m : Memory) (magic infoAddress : U32)
    (visitor : Option (RegionVisitor σ)) (context : σ) : Bool × σ :=
  match visitor with
  | none => (false, context)
  | some visit =>
    match validateMultibootInfo m magic infoAddress with
    | none => (false, context)
    | some info =>
      match (walkMemoryMap m info (none : Option (RegionVisitor Unit)) ()).1 with
      | none => (false, context)
      | some _ =>
        let (count, context) := walkMemoryMap m info (some visit) context
        (count.isSome, context)

/-- `multiboot_get_owned_ranges`. -/
def multibootGetOwnedRanges (m : Memory) (magic infoAddress : U32)
    (ranges : Option BootOwnedRanges) : Bool × Option BootOwnedRanges :=
  match ranges with
  | none => (false, ranges)
  | some _ =>
    match validateMultibootInfo m magic infoAddress with
    | none => (false, ranges)
    | some info =>
      match (walkMemoryMap m info (none : Option (RegionVisitor Unit)) ()).1 with
      | none => (false, ranges)
      | some _ =>
        (true, some ⟨infoAddress, multibootInfoSize, infoMmapAddr m info, infoMmapLength m info⟩)

end TinyShell
