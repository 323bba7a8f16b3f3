import TinyShell.Spec.Boot
import TinyShell.Spec.Heap
import TinyShell.Spec.Interrupt
import TinyShell.Spec.Shell
import TinyShell.Spec.TaskFlow
import TinyShell.Spec.Vmm

/-!
# Boot (`kernel/kernel.c`)

`kernel_main` up to its `sti`: interrupts are off, so it is one sequential program over the
variables of all components, which ends early in `boot_fail` and where the processor stops
for an exception. The memory is that of the heap; page tables and the variables of the other
components are not in it. Local variables are zero before they are written; nothing of them
is read before.
-/

namespace TinyShell

open Machine

abbrev pmmPageSize : U64 := 4096

abbrev vmmIdentityLimit : U32 := 0x08000000

abbrev vmmTestAddress : U32 := 0xD0000000

abbrev vmmTestSentinel : U32 := 0xC0DEF00D

/-- Where the linker placed the kernel, and the address of `foreign` on the boot stack. -/
structure KernelImage where
  interrupts : InterruptImage
  layout : TableLayout
  arena : Arena
  foreign : U32
  kernelStart : U32
  kernelEnd : U32
  arenaInside : kernelStart.toNat ≤ arena.begin.toNat ∧ arena.begin.toNat + 262144 ≤ kernelEnd.toNat
  tablesInside : ∀ t < 64, kernelStart.toNat ≤ (layout.address t).toNat ∧
    (layout.address t).toNat + 4096 ≤ kernelEnd.toNat
  foreignOutside : foreign.toNat < arena.begin.toNat ∨ arena.begin.toNat + 262144 ≤ foreign.toNat

structure KernelState where
  gdt : ℕ → GdtEntry
  pmm : Pmm
  vmm : Vmm
  heap : Heap
  ipc : Ipc
  taskFlowEndpoint : U32
  drivers : Drivers
  shell : ShellRuntime

/-! ## Self tests -/

/-- A chain of checks, up to the first one that fails. -/
def runTests {σ : Type*} : List (σ → Bool × σ) → σ → Bool × σ
  | [], s => (true, s)
  | test :: rest, s =>
    let (passed, s) := test s
    if !passed then (false, s) else runTests rest s

def rangesOverlap (firstBase firstLength secondBase secondLength : U64) : Bool :=
  firstBase < secondBase + secondLength && secondBase < firstBase + firstLength

def allocationIsReserved (allocation : U32) (owned : BootOwnedRanges) (kernelStart kernelEnd : U32) : Bool :=
  let page : U64 := allocation.setWidth 64
  rangesOverlap page pmmPageSize 0 lowMemoryLimit ||
    rangesOverlap page pmmPageSize (kernelStart.setWidth 64) ((kernelEnd - kernelStart).setWidth 64) ||
    rangesOverlap page pmmPageSize (owned.infoAddress.setWidth 64) (owned.infoLength.setWidth 64) ||
    rangesOverlap page pmmPageSize (owned.mmapAddress.setWidth 64) (owned.mmapLength.setWidth 64)

/-- The test that `kernel_main` makes of the page allocator. -/
def pmmSelfTest (owned : BootOwnedRanges) (kernelStart kernelEnd : U32) (s : Pmm) : Bool × Pmm :=
  let freeBefore := pmmFreePageCount s
  let (allocatedPage, s) := pmmAllocPage s
  if allocatedPage = 0 || allocatedPage &&& 0xFFF ≠ 0 || pmmFreePageCount s ≠ freeBefore - 1 ||
      allocationIsReserved allocatedPage owned kernelStart kernelEnd then (false, s)
  else
  let (added, s) := pmmAddUsableRegion s 0 pmmPageSize
  if added then (false, s)
  else
  let (reserved, s) := pmmReserveRegion s (allocatedPage.setWidth 64) pmmPageSize
  if reserved then (false, s)
  else
  let (freed, s) := pmmFreePage s allocatedPage
  if !freed || pmmFreePageCount s ≠ freeBefore then (false, s)
  else
  let (freed, s) := pmmFreePage s allocatedPage
  (!freed, s)

def keyboardSelfTest (s : Keyboard) : Bool × Keyboard :=
  let s := keyboardInit s
  let (queued, s) := keyboardFeedScancode s 0x2A
  if queued then (false, s)
  else
  let (queued, s) := keyboardFeedScancode s 0x1E
  if !queued then (false, s)
  else
  let (queued, s) := keyboardFeedScancode s 0x9E
  if queued then (false, s)
  else
  let (queued, s) := keyboardFeedScancode s 0xAA
  if queued then (false, s)
  else
  let (popped, character, s) := keyboardPopChar s (some 0)
  if !popped || character ≠ some (ascii 'A') then (false, s)
  else
  let (popped, _, s) := keyboardPopChar s character
  if popped || keyboardDroppedCount s ≠ 0 then (false, s)
  else (true, s)

/-- A word of the memory, for the walk of the page tables. -/
def KernelState.word (s : KernelState) (address : U32) : U32 := load32 s.heap.mem address.toNat

/-- A load through the page tables; `none` for a page fault. -/
def KernelState.load (k : KernelImage) (s : KernelState) (address : U32) : Option U32 := do
  let t ← hardwareWalk k.layout s.word s.vmm address
  some (physicalWord k.layout s.word s.vmm t.physicalAddress)

/-- A store through the page tables, with `CR0.WP` set; `none` for a page fault, and also
where the store would change the kernel itself. -/
def KernelState.store (k : KernelImage) (s : KernelState) (address value : U32) : Option KernelState := do
  let t ← hardwareWalk k.layout s.word s.vmm address
  if !t.writable || k.kernelStart ≤ t.physicalAddress && t.physicalAddress < k.kernelEnd then none
  else some { s with heap := { s.heap with mem := store32 s.heap.mem t.physicalAddress.toNat value } }

/-- `vmm_self_test`; `none` where one of its two accesses fails. -/
def vmmSelfTest (k : KernelImage) (s : KernelState) : Option (Bool × KernelState) :=
  let freeBefore := pmmFreePageCount s.pmm
  let (initialised, vmm) := vmmInit k.layout s.vmm
  let s := { s with vmm }
  if !initialised || !vmmIsEnabled s.vmm then some (false, s)
  else
  let (physicalAddress, pmm) := pmmAllocPage s.pmm
  let s := { s with pmm }
  if physicalAddress = 0 || physicalAddress ≥ vmmIdentityLimit || pmmFreePageCount s.pmm ≠ freeBefore - 1 then
    some (false, s)
  else
  let (mapped, vmm) := vmmMapPage k.layout s.vmm vmmTestAddress physicalAddress vmmWritable
  let s := { s with vmm }
  if !mapped then some (false, s)
  else do
  let s ← s.store k vmmTestAddress vmmTestSentinel
  let stored ← s.load k physicalAddress
  if stored ≠ vmmTestSentinel then some (false, s)
  else
  let (translated, translatedAddress) := vmmTranslate s.vmm (vmmTestAddress + 3) (some 0xA5A5A5A5)
  if !translated || translatedAddress ≠ some (physicalAddress + 3) then some (false, s)
  else
  let (unmapped, unmappedAddress, vmm) := vmmUnmapPage s.vmm vmmTestAddress (some 0)
  let s := { s with vmm }
  if !unmapped || unmappedAddress ≠ some physicalAddress then some (false, s)
  else
  let (translated, translatedAddress) := vmmTranslate s.vmm vmmTestAddress (some 0xA5A5A5A5)
  if translated || translatedAddress ≠ some 0xA5A5A5A5 then some (false, s)
  else
  let (freed, pmm) := pmmFreePage s.pmm physicalAddress
  let s := { s with pmm }
  if !freed || pmmFreePageCount s.pmm ≠ freeBefore then some (false, s)
  else some (true, s)

def heapStatsMatch (left right : HeapStats) : Bool :=
  left.totalBytes = right.totalBytes && left.freeBytes = right.freeBytes &&
    left.largestFreeBlock = right.largestFreeBlock && left.allocatedBlocks = right.allocatedBlocks

/-! The checks of `heap_self_test` on one call. -/

def returnsNull (call : Heap → U32 × Heap) (h : Heap) : Bool × Heap :=
  let (pointer, h) := call h
  (pointer = 0, h)

def refusesFree (arena : Arena) (pointer : U32) (h : Heap) : Bool × Heap :=
  let (freed, h) := kfree arena h pointer
  (!freed, h)

def isValid (arena : Arena) (h : Heap) : Bool × Heap := (kheapValidate arena h, h)

def statsMatch (arena : Arena) (initial : HeapStats) (h : Heap) : Bool × Heap :=
  match kheapGetStats arena h (some ⟨0, 0, 0, 0⟩) with
  | (true, some final) => (heapStatsMatch initial final, h)
  | _ => (false, h)

/-- `heap_self_test` from its first allocation that has to succeed to the second `kheap_validate`. -/
def heapZeroTest (arena : Arena) (foreign : U32) (h : Heap) : Bool × Heap :=
  let (zeroed, h) := kcalloc arena h 17 3
  runTests
    [fun h => (zeroed ≠ 0 && zeroed &&& 0x0F = 0, h), refusesFree arena 0, refusesFree arena foreign,
      refusesFree arena (zeroed + 1),
      fun h => ((List.range 51).all fun index => h.mem (zeroed + word index).toNat = 0, h),
      (kfree arena · zeroed), refusesFree arena zeroed, isValid arena] h

/-- The rest of `heap_self_test`, with the statistics from its start. -/
def heapCoalesceTest (arena : Arena) (initial : HeapStats) (h : Heap) : Bool × Heap :=
  let (first, h) := kmalloc arena h 64
  let (middle, h) := kmalloc arena h 96
  let (last, h) := kmalloc arena h 128
  runTests
    [fun h =>
      (first ≠ 0 && middle ≠ 0 && last ≠ 0 && first &&& 0x0F = 0 && middle &&& 0x0F = 0 && last &&& 0x0F = 0, h),
      (kfree arena · middle), isValid arena, (kfree arena · first), isValid arena, (kfree arena · last),
      isValid arena, statsMatch arena initial] h

def heapSelfTest (arena : Arena) (foreign : U32) (h : Heap) : Bool × Heap :=
  let (initialised, h) := kheapInit arena h
  if !initialised || !kheapValidate arena h then (false, h)
  else
  match kheapGetStats arena h (some ⟨0, 0, 0, 0⟩) with
  | (true, some initial) =>
    if initial.totalBytes = 0 || initial.freeBytes ≠ initial.totalBytes ||
        initial.largestFreeBlock ≠ initial.totalBytes || initial.allocatedBlocks ≠ 0 then (false, h)
    else
      runTests
        [returnsNull (kmalloc arena · 0), returnsNull (kcalloc arena · 0 16),
          returnsNull (kcalloc arena · 0xFFFFFFFF 2),
          heapZeroTest arena foreign, heapCoalesceTest arena initial] h
  | _ => (false, h)

def prepareMessage (sender type length : U32) (seed : U8) : IpcMessage :=
  ⟨sender, type, length, fun index => seed + BitVec.ofNat 8 index⟩

/-- The first loop of `ipc_self_test`, for the endpoints that are left: all endpoints, or
`none` where it fails. -/
def createEndpoints : ℕ → List U32 → Ipc → Option (List U32) × Ipc
  | 0, endpoints, s => (some endpoints, s)
  | left + 1, endpoints, s =>
    let (endpoint, s) := ipcEndpointCreate s
    if endpoint = ipcInvalidEndpoint || endpoints.contains endpoint then (none, s)
    else createEndpoints left (endpoints ++ [endpoint]) s

/-- The loop that fills a queue, for the indices that are left. -/
def fillQueue (endpoint : U32) : List ℕ → Ipc → Bool × Ipc
  | [], s => (true, s)
  | index :: rest, s =>
    let (sent, s) := ipcSend s endpoint (some (prepareMessage 5 (word index) 1 (BitVec.ofNat 8 index)))
    if !sent then (false, s) else fillQueue endpoint rest s

/-- `payload[index]`, for an index inside the payload. -/
def IpcMessage.byteAt (m : IpcMessage) (index : ℕ) : U8 :=
  if h : index < ipcPayloadMax then m.payload ⟨index, h⟩ else 0

/-- `ipc_receive` into a message that is there. -/
def receiveInto (endpoint : U32) (message : IpcMessage) (s : Ipc) : Bool × IpcMessage × Ipc :=
  let (received, output, s) := ipcReceive s endpoint (some message)
  (received, output.getD message, s)

/-- The loop that empties it again. -/
def drainQueue (endpoint : U32) : List ℕ → Ipc → Bool × Ipc
  | [], s => (true, s)
  | index :: rest, s =>
    let (received, output, s) := receiveInto endpoint messageClear s
    if !received || output.sender ≠ 5 || output.type ≠ word index || output.length ≠ 1 ||
        output.byteAt 0 ≠ BitVec.ofNat 8 index || !payloadTailIsZero output 1 then (false, s)
    else drainQueue endpoint rest s

/-- The first messages of `ipc_self_test`: a short one, none, one that is too long and an empty one. -/
def messageTest (endpoint : U32) (s : Ipc) : Bool × Ipc :=
  let (sent, s) := ipcSend s endpoint (some (prepareMessage 7 9 3 0x20))
  if !sent then (false, s)
  else
  let (received, output, s) := receiveInto endpoint messageClear s
  if !received || output.sender ≠ 7 || output.type ≠ 9 || output.length ≠ 3 || output.byteAt 0 ≠ 0x20 ||
      output.byteAt 1 ≠ 0x21 || output.byteAt 2 ≠ 0x22 || !payloadTailIsZero output 3 then (false, s)
  else
  let (received, output, s) := receiveInto endpoint (prepareMessage 0x11 0x22 32 0x33) s
  if received || output.sender ≠ 0x11 || output.type ≠ 0x22 || output.length ≠ 32 || output.byteAt 0 ≠ 0x33 ||
      output.byteAt 31 ≠ 0x52 then (false, s)
  else
  let (sent, s) := ipcSend s endpoint (some (prepareMessage 1 2 33 0x40))
  if sent || ipcRejectedCount s endpoint ≠ 0 then (false, s)
  else
  let (sent, s) := ipcSend s endpoint (some (prepareMessage 3 4 0 0x70))
  if !sent then (false, s)
  else
  let (received, output, s) := receiveInto endpoint output s
  if !received || output.length ≠ 0 || !payloadTailIsZero output 0 then (false, s) else (true, s)

/-- A queue is filled, and refuses one message more. -/
def fillTest (first second : U32) (s : Ipc) : Bool × Ipc :=
  let (filled, s) := fillQueue first (List.range ipcQueueDepth) s
  if !filled || ipcPending s first ≠ word ipcQueueDepth then (false, s)
  else
  let (sent, s) := ipcSend s first (some (prepareMessage 5 7 1 7))
  (!sent && ipcRejectedCount s first = 1 && ipcPending s second = 0, s)

/-- A message of full length goes through a queue. -/
def lengthTest (endpoint : U32) (s : Ipc) : Bool × Ipc :=
  let (sent, s) := ipcSend s endpoint (some (prepareMessage 8 10 32 0x10))
  if !sent then (false, s)
  else
  match ipcReceive s endpoint (some messageClear) with
  | (true, some output, s) =>
    (output.length = 32 && (List.finRange ipcPayloadMax).all fun index =>
      output.payload index = 0x10 + BitVec.ofNat 8 index, s)
  | (_, _, s) => (false, s)

/-- All endpoints are taken, and nothing is waiting. -/
def exhaustedTest (endpoint : U32) (s : Ipc) : Bool × Ipc :=
  let (extra, s) := ipcEndpointCreate s
  (extra = ipcInvalidEndpoint && ipcPending s endpoint = 0, s)

/-- `ipc_self_test` after its first loop. -/
def endpointTests (flowEndpoint : Option U32) (first second : U32) (s : Ipc) : Bool × Option U32 × Ipc :=
  match runTests [exhaustedTest second, messageTest first, fillTest first second,
      drainQueue first (List.range ipcQueueDepth), lengthTest second] s with
  | (false, s) => (false, flowEndpoint, s)
  | (true, s) =>
    let (endpoint, s) := ipcEndpointCreate (ipcInit s)
    (endpoint ≠ ipcInvalidEndpoint && ipcPending s endpoint = 0 && ipcRejectedCount s endpoint = 0,
      some endpoint, s)

/-- `ipc_self_test`: its result, the caller's endpoint and the endpoints. -/
def ipcSelfTest (flowEndpoint : Option U32) (s : Ipc) : Bool × Option U32 × Ipc :=
  if flowEndpoint.isNone then (false, flowEndpoint, s)
  else
  match createEndpoints ipcMaxEndpoints [] (ipcInit s) with
  | (some (first :: second :: _), s) => endpointTests flowEndpoint first second s
  | (_, s) => (false, flowEndpoint, s)

/-! ## `kernel_main` -/

inductive BootStage
  | multiboot
  | kernelRange
  | pmmMap
  | pmmReserve
  | pmmSelfTest
  | picMaskInitial
  | pitConfigure
  | keyboardDecode
  | irqSetup
  | vmmSelfTest
  | heapSelfTest
  | ipcSelfTest
  | shellRuntime
  deriving DecidableEq

def BootStage.text : BootStage → String
  | .multiboot => "multiboot"
  | .kernelRange => "kernel-range"
  | .pmmMap => "pmm-map"
  | .pmmReserve => "pmm-reserve"
  | .pmmSelfTest => "pmm-self-test"
  | .picMaskInitial => "pic-mask-initial"
  | .pitConfigure => "pit-configure"
  | .keyboardDecode => "keyboard-decode"
  | .irqSetup => "irq-setup"
  | .vmmSelfTest => "vmm-self-test"
  | .heapSelfTest => "heap-self-test"
  | .ipcSelfTest => "ipc-self-test"
  | .shellRuntime => "shell-runtime"

/-- Why the processor stopped: `boot_fail`, or an exception. -/
inductive BootStop
  | failed (stage : BootStage)
  | exception
  deriving DecidableEq

abbrev KernelM := EStateM BootStop KernelState

variable {α : Type}

def printCalls (calls : List ConsoleCall) : KernelM Unit :=
  modify fun s => { s with shell := s.shell.print calls }

def writeText (text : String) : KernelM Unit := printCalls (consoleWrite (asciiText text))

def bootFail (stage : BootStage) : KernelM α := do
  writeText "BOOT_FAIL:"
  writeText stage.text
  printCalls [.putc 0x0A#8]
  throw (.failed stage)

/-- `if (condition) boot_fail(stage)`. -/
def failIf (stage : BootStage) (condition : Bool) : KernelM Unit := if condition then bootFail stage else pure ()

/-- `if (!condition) boot_fail(stage)`, where the condition is a call. -/
def require (stage : BootStage) (condition : KernelM Bool) : KernelM Unit := do
  failIf stage !(← condition)

def onPmm (f : Pmm → α × Pmm) : KernelM α := modifyGet fun s => ((f s.pmm).1, { s with pmm := (f s.pmm).2 })

def onHeap (f : Heap → α × Heap) : KernelM α := modifyGet fun s => ((f s.heap).1, { s with heap := (f s.heap).2 })

def onIrq (f : Irq → α × Irq) : KernelM α :=
  modifyGet fun s => ((f s.drivers.irq).1, { s with drivers := { s.drivers with irq := (f s.drivers.irq).2 } })

def onPit (f : Pit → α × Pit) : KernelM α :=
  modifyGet fun s => ((f s.drivers.pit).1, { s with drivers := { s.drivers with pit := (f s.drivers.pit).2 } })

def onKeyboard (f : Keyboard → α × Keyboard) : KernelM α :=
  modifyGet fun s =>
    ((f s.drivers.keyboard).1, { s with drivers := { s.drivers with keyboard := (f s.drivers.keyboard).2 } })

def onShell (f : ShellRuntime → α × ShellRuntime) : KernelM α :=
  modifyGet fun s => ((f s.shell).1, { s with shell := (f s.shell).2 })

/-- `ipc_self_test(&task_flow_endpoint)`. -/
def onIpc : KernelM Bool := modifyGet fun s =>
  let (passed, endpoint, ipc) := ipcSelfTest (some s.taskFlowEndpoint) s.ipc
  (passed, { s with taskFlowEndpoint := endpoint.getD s.taskFlowEndpoint, ipc })

/-- `console_init` to `idt_init`. -/
def bootTables (k : KernelImage) : KernelM Unit := do
  onShell fun s => ((), { s with console := consoleInit s.console })
  writeText "TinyShell OS booting...\n"
  writeText "Architecture: i386\n"
  writeText "CONSOLE_OK\n"
  modify fun s => { s with gdt := (gdtInit s.gdt).2 }
  writeText "GDT_OK\n"
  onIrq fun s => ((), { s with idt := idtInit k.interrupts.isrStubTable s.idt })
  writeText "IDT_OK\n"

/-- The reading of the boot information, up to `int3` and what it prints. The frame holds the other
registers at that instruction, which `interrupt_dispatch` does not look at. -/
def bootInformation (k : KernelImage) (magic infoAddress : U32) (frame : InterruptFrame) (input : HardwareInput) :
    KernelM BootOwnedRanges := do
  let m := (← get).heap.mem
  failIf .multiboot !(multibootParse m magic infoAddress (some ⟨0, 0, 0⟩)).1
  match multibootGetOwnedRanges m magic infoAddress (some ⟨0, 0, 0, 0⟩) with
  | (true, some owned) => do
    writeText "MULTIBOOT_OK\n"
    writeText "MEMORY_MAP_OK\n"
    let s ← get
    match interruptDispatch k.interrupts input s.drivers { frame with vector := 3, errorCode := 0 } with
    | ((.returned, printed), drivers) => do
      set { s with drivers }
      printCalls printed
      writeText "INT3_TEST_OK\n"
      pure owned
    | ((.stopped, printed), _) => do
      printCalls printed
      throw .exception
  | _ => bootFail .multiboot

/-- The page allocator, from `pmm_reset` to the last reservation. -/
def bootOwnership (k : KernelImage) (magic infoAddress : U32) (owned : BootOwnedRanges) : KernelM Unit := do
  failIf .kernelRange (k.kernelEnd ≤ k.kernelStart || k.kernelEnd > vmmIdentityLimit)
  onPmm fun s => ((), pmmReset s)
  let m := (← get).heap.mem
  require .pmmMap (onPmm (multibootForEachMemoryRegion m magic infoAddress (some addMemoryRegion)))
  require .pmmReserve (onPmm (pmmReserveRegion · 0 lowMemoryLimit))
  require .pmmReserve
    (onPmm (pmmReserveRegion · (k.kernelStart.setWidth 64) ((k.kernelEnd - k.kernelStart).setWidth 64)))
  require .pmmReserve (onPmm (pmmReserveRegion · (owned.infoAddress.setWidth 64) (owned.infoLength.setWidth 64)))
  require .pmmReserve (onPmm (pmmReserveRegion · (owned.mmapAddress.setWidth 64) (owned.mmapLength.setWidth 64)))
  let s := (← get).pmm
  failIf .pmmReserve (pmmTotalPageCount s = 0 || pmmFreePageCount s = 0)

def bootPages (k : KernelImage) (owned : BootOwnedRanges) : KernelM Unit := do
  require .pmmSelfTest (onPmm (pmmSelfTest owned k.kernelStart k.kernelEnd))
  writeText "PMM_OK\n"
  writeText "PMM_ALLOC_FREE_OK\n"
  writeText "PMM_FREE_PAGES="
  printCalls (consoleWriteU32Dec (pmmFreePageCount (← get).pmm))
  printCalls [.putc 0x0A#8]

def bootInterrupts (k : KernelImage) : KernelM Unit := do
  onIrq fun s => ((), irqInit k.interrupts.irqStubTable s)
  failIf .picMaskInitial (picGetMask (← get).drivers.irq.pic ≠ 0xFFFF)
  writeText "PIC_OK\n"
  require .pitConfigure (onPit (pitConfigure · 100))
  failIf .pitConfigure (pitFrequencyHz (← get).drivers.pit ≠ 100)
  writeText "PIT_OK\n"
  require .keyboardDecode (onKeyboard keyboardSelfTest)
  writeText "KEYBOARD_DECODE_OK\n"
  onKeyboard fun s => ((), keyboardInit s)
  require .irqSetup (onIrq (irqRegisterHandler · 0 k.interrupts.pitHandleIrq))
  require .irqSetup (onIrq (irqRegisterHandler · 1 k.interrupts.keyboardHandleIrq))
  require .irqSetup (onIrq (irqSetEnabled · 0 true))
  require .irqSetup (onIrq (irqSetEnabled · 1 true))
  failIf .irqSetup (picGetMask (← get).drivers.irq.pic ≠ 0xFFFC)
  writeText "IRQ_OK\n"
  writeText "KEYBOARD_READY\n"

def bootServices (k : KernelImage) : KernelM Unit := do
  match vmmSelfTest k (← get) with
  | none => throw .exception
  | some (passed, s) => do
    set s
    failIf .vmmSelfTest !passed
  writeText "PAGING_OK\n"
  writeText "VMM_MAP_OK\n"
  require .heapSelfTest (onHeap (heapSelfTest k.arena k.foreign))
  writeText "HEAP_OK\n"
  writeText "HEAP_COALESCE_OK\n"
  require .ipcSelfTest onIpc
  writeText "IPC_OK\n"
  require .shellRuntime (onShell shellRuntimeInit)
  writeText "RAMFS_OK\n"
  writeText "SHELL_INPUT_OK\n"
  writeText "SHELL_PARSE_OK\n"

/-- `kernel_main` up to `sti`. -/
def kernelSetup (k : KernelImage) (magic infoAddress : U32) (frame : InterruptFrame) (input : HardwareInput) :
    KernelM Unit := do
  bootTables k
  let owned ← bootInformation k magic infoAddress frame input
  bootOwnership k magic infoAddress owned
  bootPages k owned
  bootInterrupts k
  bootServices k

end TinyShell
