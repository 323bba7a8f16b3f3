import TinyShell.Machine.Segments
import TinyShell.Spec.Console
import TinyShell.Spec.Irq
import TinyShell.Spec.Keyboard

/-!
# Interrupt entry (`boot/isr_stubs.S`, `boot/irq_stubs.S`, `kernel/arch/x86/{gdt,idt,interrupt,paging,pit}.c`)

The way of an interrupt from the descriptor tables through the stubs and
`interrupt_common_entry` to `interrupt_dispatch`, which gives a line of the controllers to
`irq_dispatch`, and back. The stubs are code on a `Processor`. `interrupt_dispatch` is there
twice: as the function that the code calls, of which only the calling convention is known
and whether it returns, and as what it does to the variables of the drivers.
-/

namespace TinyShell

open Machine

/-! ## Descriptor tables -/

abbrev gdtEntryCount : ℕ := 5

abbrev gdtFlatLimit : U32 := 0x000FFFFF

abbrev gdtFlag32BitGranular4k : U8 := 0xC0

abbrev gdtAccessKernelCode : U8 := 0x9A

abbrev gdtAccessKernelData : U8 := 0x92

abbrev gdtAccessUserCode : U8 := 0xFA

abbrev gdtAccessUserData : U8 := 0xF2

structure GdtEntry where
  limitLow : U16
  baseLow : U16
  baseMiddle : U8
  access : U8
  granularity : U8
  baseHigh : U8

/-- The 8 bytes of the packed structure. -/
def GdtEntry.bits (e : GdtEntry) : U64 :=
  e.baseHigh ++ e.granularity ++ e.access ++ e.baseMiddle ++ e.baseLow ++ e.limitLow

def IdtEntry.bits (e : IdtEntry) : U64 :=
  e.offsetHigh ++ e.typeAttributes ++ e.reserved ++ e.selector ++ e.offsetLow

/-- What `gdt_set_entry` stores. -/
def gdtEntry (base limit : U32) (access flags : U8) : GdtEntry where
  limitLow := (limit &&& 0xFFFF).setWidth 16
  baseLow := (base &&& 0xFFFF).setWidth 16
  baseMiddle := ((base >>> 16) &&& 0xFF).setWidth 8
  access := access
  granularity := ((limit >>> 16) &&& 0x0F).setWidth 8 ||| flags &&& 0xF0
  baseHigh := ((base >>> 24) &&& 0xFF).setWidth 8

/-- `gdt_init`, with the register that it loads. -/
def gdtInit (gdt : ℕ → GdtEntry) : DescriptorTable × (ℕ → GdtEntry) :=
  let gdt := Function.update gdt 0 (gdtEntry 0 0 0 0)
  let gdt := Function.update gdt 1 (gdtEntry 0 gdtFlatLimit gdtAccessKernelCode gdtFlag32BitGranular4k)
  let gdt := Function.update gdt 2 (gdtEntry 0 gdtFlatLimit gdtAccessKernelData gdtFlag32BitGranular4k)
  let gdt := Function.update gdt 3 (gdtEntry 0 gdtFlatLimit gdtAccessUserCode gdtFlag32BitGranular4k)
  let gdt := Function.update gdt 4 (gdtEntry 0 gdtFlatLimit gdtAccessUserData gdtFlag32BitGranular4k)
  (⟨BitVec.ofNat 16 (8 * gdtEntryCount - 1), fun i => (gdt i).bits⟩, gdt)

abbrev idtEntryCount : ℕ := 256

abbrev cpuExceptionCount : ℕ := 32

/-- `idt_init`. -/
def idtInit (isrStubTable : Fin cpuExceptionCount → U32) (idt : ℕ → IdtEntry) : ℕ → IdtEntry :=
  let idt := (List.range idtEntryCount).foldl (fun idt vector => Function.update idt vector (idtGate 0 0 0)) idt
  (List.finRange cpuExceptionCount).foldl
    (fun idt vector =>
      Function.update idt vector.val (idtGate (isrStubTable vector) gdtKernelCodeSelector interruptGate)) idt

/-- The table that `idt_init` loads into the register, with what is in it now. -/
def idtTable (idt : ℕ → IdtEntry) : DescriptorTable :=
  ⟨BitVec.ofNat 16 (8 * idtEntryCount - 1), fun i => (idt i).bits⟩

/-! ## Stubs -/

/-- `ISR_NO_ERROR`, up to its jump. -/
def isrNoError (number : ℕ) : List Op := [.pushImm 0, .pushImm (word number)]

/-- `ISR_WITH_ERROR`. -/
def isrWithError (number : ℕ) : List Op := [.pushImm (word number)]

/-- `IRQ_STUB`. -/
def irqStub (number : ℕ) : List Op := [.pushImm 0, .pushImm (32 + word number)]

/-- The stubs in the order of `isr_stub_table` and `irq_stub_table`. -/
def stubs : List (List Op) :=
  [isrNoError 0, isrNoError 1, isrNoError 2, isrNoError 3, isrNoError 4, isrNoError 5, isrNoError 6,
    isrNoError 7, isrWithError 8, isrNoError 9, isrWithError 10, isrWithError 11, isrWithError 12,
    isrWithError 13, isrWithError 14, isrNoError 15, isrNoError 16, isrWithError 17, isrNoError 18,
    isrNoError 19, isrNoError 20, isrWithError 21, isrNoError 22, isrNoError 23, isrNoError 24,
    isrNoError 25, isrNoError 26, isrNoError 27, isrNoError 28, isrWithError 29, isrWithError 30,
    isrNoError 31,
    irqStub 0, irqStub 1, irqStub 2, irqStub 3, irqStub 4, irqStub 5, irqStub 6, irqStub 7, irqStub 8,
    irqStub 9, irqStub 10, irqStub 11, irqStub 12, irqStub 13, irqStub 14, irqStub 15]

abbrev stubCount : ℕ := cpuExceptionCount + irqCountMax

/-- Where the linker placed the stubs and the functions that are called by address. -/
structure InterruptImage where
  isrStubTable : Fin cpuExceptionCount → U32
  irqStubTable : Fin irqCountMax → U32
  /-- The address after the `call` in `interrupt_common_entry`. -/
  afterDispatch : U32
  pitHandleIrq : U32
  keyboardHandleIrq : U32
  distinct : Function.Injective (Fin.append isrStubTable irqStubTable)
  handlers : pitHandleIrq ≠ 0 ∧ keyboardHandleIrq ≠ 0 ∧ pitHandleIrq ≠ keyboardHandleIrq

/-- The stub at an address. -/
def InterruptImage.stubAt (image : InterruptImage) (eip : U32) : Option (List Op) :=
  ((List.finRange stubCount).find? fun v => Fin.append image.isrStubTable image.irqStubTable v = eip).bind
    fun v => stubs[v.val]?

/-- `interrupt_common_entry` before its call. -/
def interruptEnter : List Op := [.pushal, .cld, .mov .esp .ebx, .andImm (-16) .esp, .subImm 12 .esp, .push .ebx]

/-- `interrupt_common_entry` after its call. -/
def interruptLeave : List Op := [.mov .ebx .esp, .popal, .addImm 8 .esp, .iret]

def interruptCommonEntry (image : InterruptImage) : List Op :=
  interruptEnter ++ .call image.afterDispatch :: interruptLeave

/-- The processor where `interrupt_dispatch` begins. -/
def enterDispatch (image : InterruptImage) (env : Env) (gdt idt : DescriptorTable) (p : Processor) (vector : ℕ)
    (software : Bool) (error : Option U32) : Option Processor := do
  let p ← p.interrupt gdt idt vector software error
  let stub ← image.stubAt p.eip
  let p ← p.run env (stub ++ interruptEnter)
  some (p.pushAll [image.afterDispatch])

/-- An interrupt from the tables to `iret`; `none` if it does not get there. -/
def serveInterrupt (image : InterruptImage) (env : Env) (gdt idt : DescriptorTable) (p : Processor) (vector : ℕ)
    (software : Bool) (error : Option U32) : Option Processor := do
  let p ← p.interrupt gdt idt vector software error
  let stub ← image.stubAt p.eip
  p.run env (stub ++ interruptCommonEntry image)

/-! ## Timer -/

abbrev pitInputHz : U32 := 1193182

abbrev pitChannel0Port : U16 := 0x40

abbrev pitCommandPort : U16 := 0x43

abbrev pitChannel0LoHiMode3 : U8 := 0x36

abbrev pitMaxDivisor : U32 := 65535

/-- The variables of the driver, and the port writes so far. -/
structure Pit where
  tickCount : U32
  configuredFrequencyHz : U32
  writes : List (U16 × U8)

def pitConfigure (s : Pit) (requestedHz : U32) : Bool × Pit :=
  if requestedHz = 0 then (false, s)
  else
    let divisor := pitInputHz / requestedHz
    if divisor = 0 || divisor > pitMaxDivisor then (false, s)
    else
      let actualHz := pitInputHz / divisor
      (true,
        { tickCount := 0
          configuredFrequencyHz := actualHz
          writes := s.writes ++
            [(pitCommandPort, pitChannel0LoHiMode3), (pitChannel0Port, (divisor &&& 0xFF).setWidth 8),
              (pitChannel0Port, (divisor >>> 8 &&& 0xFF).setWidth 8)] })

def pitHandleIrq (s : Pit) : Pit := { s with tickCount := s.tickCount + 1 }

def pitTicks (s : Pit) : U32 := s.tickCount

def pitFrequencyHz (s : Pit) : U32 := s.configuredFrequencyHz

/-! ## Dispatch -/

structure InterruptFrame where
  edi : U32
  esi : U32
  ebp : U32
  savedEsp : U32
  ebx : U32
  edx : U32
  ecx : U32
  eax : U32
  vector : U32
  errorCode : U32
  eip : U32
  cs : U32
  eflags : U32
  deriving DecidableEq

/-- The frame at an address. -/
def interruptFrameAt (m : Memory) (a : ℕ) : InterruptFrame :=
  ⟨load32 m a, load32 m (a + 4), load32 m (a + 8), load32 m (a + 12), load32 m (a + 16), load32 m (a + 20),
    load32 m (a + 24), load32 m (a + 28), load32 m (a + 32), load32 m (a + 36), load32 m (a + 40),
    load32 m (a + 44), load32 m (a + 48)⟩

/-- The frame that `interrupt_dispatch` is called with. -/
def dispatchFrame (e : Processor) : InterruptFrame := interruptFrameAt e.mem (e.stackWord 4).toNat

/-- The variables of the drivers that run from interrupts. -/
structure Drivers where
  irq : Irq
  pit : Pit
  keyboard : Keyboard

/-- What the hardware gives to an interrupt handler that reads it: the ports 0x64 and 0x60 of the
keyboard, and `cr2`. -/
structure HardwareInput where
  keyboardStatus : U8
  keyboardData : U8
  faultAddress : U32

/-- A handler is called by its address. -/
def callHandler (image : InterruptImage) (input : HardwareInput) (handler : U32) (s : Drivers) : Drivers :=
  if handler = image.pitHandleIrq then { s with pit := pitHandleIrq s.pit }
  else if handler = image.keyboardHandleIrq then
    { s with keyboard := keyboardHandleIrq s.keyboard input.keyboardStatus input.keyboardData }
  else s

/-- `irq_dispatch` with what its handler does. The handlers touch nothing of `irq.c` and `pic.c`. -/
def irqDispatchHandled (image : InterruptImage) (input : HardwareInput) (s : Drivers) (irq : U8) : Drivers :=
  match irqDispatch s.irq irq with
  | (some handler, irq) => callHandler image input handler { s with irq }
  | (none, irq) => { s with irq }

/-- What `paging_handle_page_fault` prints before it stops. -/
def pagingHandlePageFault (frame : InterruptFrame) (faultAddress : U32) : List ConsoleCall :=
  let error := frame.errorCode
  consoleWrite (asciiText "PAGE_FAULT address=") ++ consoleWriteU32Hex faultAddress ++
  consoleWrite (asciiText " error=") ++ consoleWriteU32Hex error ++
  consoleWrite (asciiText " present=") ++ consoleWriteU32Dec (error &&& 1) ++
  consoleWrite (asciiText " write=") ++ consoleWriteU32Dec (error >>> 1 &&& 1) ++
  consoleWrite (asciiText " user=") ++ consoleWriteU32Dec (error >>> 2 &&& 1) ++ [.putc 0x0A#8]

/-- How `interrupt_dispatch` ends: it returns, or it stops the processor for good. -/
inductive Dispatched
  | returned
  | stopped
  deriving DecidableEq

/-- `interrupt_dispatch`, with what it prints. -/
def interruptDispatch (image : InterruptImage) (input : HardwareInput) (s : Drivers) (frame : InterruptFrame) :
    (Dispatched × List ConsoleCall) × Drivers :=
  if frame.vector ≥ 32 && frame.vector < 48 then
    ((.returned, []), irqDispatchHandled image input s ((frame.vector - 32).setWidth 8))
  else if frame.vector = 14 then ((.stopped, pagingHandlePageFault frame input.faultAddress), s)
  else
    let printed :=
      consoleWrite (asciiText "EXCEPTION vector=") ++ consoleWriteU32Dec frame.vector ++ [.putc 0x0A#8]
    (((if frame.vector = 3 then .returned else .stopped), printed), s)

/-! ## Interrupted code -/

/-- A line of the controllers that asks for an interrupt, with what its handler will read. -/
structure IrqRequest where
  line : Fin irqCountMax
  input : HardwareInput

structure InterruptedCode where
  cpu : Processor
  drivers : Drivers

/-- The processor takes an interrupt of the controllers, if it may; `none` where the hardware raises
another exception on its way or the code does not get back. -/
def takeIrq (image : InterruptImage) (env : Env) (gdt : DescriptorTable) (s : InterruptedCode)
    (request : IrqRequest) : Option InterruptedCode :=
  if !s.cpu.interruptsOn then some s
  else do
    let e ← enterDispatch image env gdt (idtTable s.drivers.irq.idt) s.cpu
      (irqVectorBase + request.line) false none
    match interruptDispatch image request.input s.drivers (dispatchFrame e) with
    | ((.returned, _), drivers) => do
      let p ← env.callee e
      let p ← p.run env interruptLeave
      some ⟨p, drivers⟩
    | ((.stopped, _), drivers) => some ⟨e, drivers⟩

/-- One event of code that runs with interrupts: an instruction, or an interrupt between two of them. -/
def interruptedStep {ε : Type*} (image : InterruptImage) (env : Env) (gdt : DescriptorTable)
    (code : Processor → ε → Processor) (s : InterruptedCode) : Interleaved ε IrqRequest → Option InterruptedCode
  | .own e => some { s with cpu := code s.cpu e }
  | .other request => takeIrq image env gdt s request

end TinyShell
