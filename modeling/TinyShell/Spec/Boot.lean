import TinyShell.Spec.Multiboot
import TinyShell.Spec.Pmm

/-!
# Page ownership at boot (`kernel/kernel.c`)

The part of `kernel_main` that hands the memory map to the page allocator and
reserves what the kernel itself occupies.
-/

namespace TinyShell

open Machine

abbrev lowMemoryLimit : U64 := 0x00100000

/-- `add_memory_region`: the visitor that imports one region. -/
def addMemoryRegion : RegionVisitor Pmm := fun s region =>
  if region.type = 1 then pmmAddUsableRegion s region.base region.length
  else pmmReserveRegion s region.base region.length

/-- What the calls of the ownership sequence returned. -/
structure OwnershipResults where
  mapWalk : Bool
  lowMemory : Bool
  kernelImage : Bool
  infoPrefix : Bool
  mapBuffer : Bool
  deriving DecidableEq

/-- `kernel_main`'s sequence from `pmm_reset` to the last `pmm_reserve_region`. -/
def setupOwnership (m : Memory) (magic infoAddress kernelStart kernelEnd : U32)
    (owned : BootOwnedRanges) (s : Pmm) : OwnershipResults × Pmm :=
  let s := pmmReset s
  let (mapWalk, s) := multibootForEachMemoryRegion m magic infoAddress (some addMemoryRegion) s
  let (lowMemory, s) := pmmReserveRegion s 0 lowMemoryLimit
  let (kernelImage, s) :=
    pmmReserveRegion s (kernelStart.setWidth 64) ((kernelEnd - kernelStart).setWidth 64)
  let (infoPrefix, s) := pmmReserveRegion s (owned.infoAddress.setWidth 64) (owned.infoLength.setWidth 64)
  let (mapBuffer, s) := pmmReserveRegion s (owned.mmapAddress.setWidth 64) (owned.mmapLength.setWidth 64)
  (⟨mapWalk, lowMemory, kernelImage, infoPrefix, mapBuffer⟩, s)

end TinyShell
