import TinyShell.Machine.Controller
import TinyShell.Machine.Run

/-!
# Interrupt lines (`kernel/arch/x86/pic.c`, `kernel/arch/x86/irq.c`)

The driver keeps a copy of the masks of the two 8259 chips and writes them out through
the data ports. The state holds all port writes so far; what the chips do with them is
not the driver's. A handler is the address of its function, 0 for none; what it does
when it is called is not part of the model. `IrqLines` is the driver with the chips that
its writes go to.
-/

namespace TinyShell

open Machine

abbrev picMasterCommand : U16 := 0x20

abbrev picMasterData : U16 := 0x21

abbrev picSlaveCommand : U16 := 0xA0

abbrev picSlaveData : U16 := 0xA1

abbrev picIcw1Init : U8 := 0x11

abbrev picIcw48086 : U8 := 0x01

abbrev picMasterVectorOffset : U8 := 0x20

abbrev picSlaveVectorOffset : U8 := 0x28

abbrev picMasterCascadeIrq : U8 := 0x04

abbrev picSlaveCascadeId : U8 := 0x02

abbrev picAllMasked : U8 := 0xFF

abbrev picSlaveIrqBase : U8 := 8

/-- The variables of the driver, and the port writes so far. -/
structure Pic where
  masterMask : U8
  slaveMask : U8
  writes : List (U16 × U8)

def outb (s : Pic) (port : U16) (value : U8) : Pic := { s with writes := s.writes ++ [(port, value)] }

def picWriteMasks (s : Pic) : Pic := outb (outb s picMasterData s.masterMask) picSlaveData s.slaveMask

def picInit (s : Pic) : Pic :=
  let s := outb s picMasterCommand picIcw1Init
  let s := outb s picSlaveCommand picIcw1Init
  let s := outb s picMasterData picMasterVectorOffset
  let s := outb s picSlaveData picSlaveVectorOffset
  let s := outb s picMasterData picMasterCascadeIrq
  let s := outb s picSlaveData picSlaveCascadeId
  let s := outb s picMasterData picIcw48086
  let s := outb s picSlaveData picIcw48086
  picWriteMasks { s with masterMask := picAllMasked, slaveMask := picAllMasked }

/-- The two assignments of `pic_set_mask` to `*mask`. -/
def maskedBit (mask : U8) (bit : U8) (masked : Bool) : U8 :=
  if masked then mask ||| (1 : U8) <<< bit.toNat else mask &&& ~~~((1 : U8) <<< bit.toNat)

def picSetMask (s : Pic) (irq : U8) (masked : Bool) : Bool × Pic :=
  if irq ≥ 16 then (false, s)
  else if irq < picSlaveIrqBase then
    let mask := maskedBit s.masterMask irq masked
    (true, outb { s with masterMask := mask } picMasterData mask)
  else
    let mask := maskedBit s.slaveMask (irq - picSlaveIrqBase) masked
    (true, outb { s with slaveMask := mask } picSlaveData mask)

def picGetMask (s : Pic) : U16 := s.masterMask.setWidth 16 ||| s.slaveMask.setWidth 16 <<< 8

def picSendEoi (s : Pic) (irq : U8) : Pic :=
  if irq ≥ 16 then s
  else
    let s := if irq ≥ picSlaveIrqBase then outb s picSlaveCommand 0x20 else s
    outb s picMasterCommand 0x20

/-! ## Handlers -/

abbrev irqCountMax : ℕ := 16

abbrev irqVectorBase : ℕ := 32

abbrev interruptGate : U8 := 0x8E

abbrev gdtKernelCodeSelector : U16 := 0x08

structure IdtEntry where
  offsetLow : U16
  selector : U16
  reserved : U8
  typeAttributes : U8
  offsetHigh : U16

/-- What `idt_set_gate` stores. -/
def idtGate (handler : U32) (selector : U16) (typeAttributes : U8) : IdtEntry :=
  ⟨(handler &&& 0xFFFF).setWidth 16, selector, 0, typeAttributes, ((handler >>> 16) &&& 0xFFFF).setWidth 16⟩

structure Irq where
  pic : Pic
  handlers : Fin irqCountMax → U32
  counts : Fin irqCountMax → U32
  idt : ℕ → IdtEntry

/-- An iteration of the loop of `irq_init`. -/
def irqInitLine (irqStubTable : Fin irqCountMax → U32) (s : Irq) (irq : Fin irqCountMax) : Irq :=
  { s with
    handlers := Function.update s.handlers irq 0
    counts := Function.update s.counts irq 0
    idt := Function.update s.idt (irqVectorBase + irq)
      (idtGate (irqStubTable irq) gdtKernelCodeSelector interruptGate) }

def irqInit (irqStubTable : Fin irqCountMax → U32) (s : Irq) : Irq :=
  (List.finRange irqCountMax).foldl (irqInitLine irqStubTable) { s with pic := picInit s.pic }

def irqRegisterHandler (s : Irq) (irq : U8) (handler : U32) : Bool × Irq :=
  if h : irq.toNat < irqCountMax then
    if handler = 0 || s.handlers ⟨irq.toNat, h⟩ ≠ 0 then (false, s)
    else (true, { s with handlers := Function.update s.handlers ⟨irq.toNat, h⟩ handler })
  else (false, s)

def irqUnregisterHandler (s : Irq) (irq : U8) : Bool × Irq :=
  if h : irq.toNat < irqCountMax then
    if s.handlers ⟨irq.toNat, h⟩ = 0 then (false, s)
    else (true, { s with handlers := Function.update s.handlers ⟨irq.toNat, h⟩ 0 })
  else (false, s)

def irqSetEnabled (s : Irq) (irq : U8) (enabled : Bool) : Bool × Irq :=
  let (ok, pic) := picSetMask s.pic irq (!enabled)
  (ok, { s with pic })

/-- `irq_dispatch`, with the handler that it calls. -/
def irqDispatch (s : Irq) (irq : U8) : Option U32 × Irq :=
  if h : irq.toNat < irqCountMax then
    let line : Fin irqCountMax := ⟨irq.toNat, h⟩
    let s := { s with counts := Function.update s.counts line (s.counts line + 1) }
    let called := if s.handlers line ≠ 0 then some (s.handlers line) else none
    (called, { s with pic := picSendEoi s.pic irq })
  else (none, s)

/-! ## Calls -/

inductive IrqCall
  | setEnabled (irq : U8) (enabled : Bool)
  | registerHandler (irq : U8) (handler : U32)
  | unregisterHandler (irq : U8)
  | dispatch (irq : U8)

inductive IrqResult
  | flag (ok : Bool)
  | called (handler : Option U32)

def irqStep (s : Irq) : IrqCall → IrqResult × Irq
  | .setEnabled irq enabled => (irqSetEnabled s irq enabled).map .flag id
  | .registerHandler irq handler => (irqRegisterHandler s irq handler).map .flag id
  | .unregisterHandler irq => (irqUnregisterHandler s irq).map .flag id
  | .dispatch irq => (irqDispatch s irq).map .called id

/-! ## With the chips -/

structure IrqLines where
  irq : Irq
  chips : ChipPair

/-- The driver has gone on, and the chips get what it has written. -/
def IrqLines.advance (s : IrqLines) (irq : Irq) : IrqLines :=
  ⟨irq, (irq.pic.writes.drop s.irq.pic.writes.length).foldl ChipPair.write s.chips⟩

def irqLinesInit (irqStubTable : Fin irqCountMax → U32) (s : IrqLines) : IrqLines :=
  s.advance (irqInit irqStubTable s.irq)

/-- A device changes its line, the kernel calls the driver, or the processor takes an interrupt. -/
inductive LineEvent
  | setLine (line : Fin irqCountMax) (level : Bool)
  | call (call : IrqCall)
  | interrupt (gone : Bool)

/-- One event, with the line that `interrupt_dispatch` gives to `irq_dispatch`. -/
def lineStep (s : IrqLines) : LineEvent → Option U8 × IrqLines
  | .setLine line level => (none, { s with chips := s.chips.setLine line level })
  | .call call => (none, s.advance (irqStep s.irq call).2)
  | .interrupt gone =>
    let (vector, chips) := s.chips.acknowledge gone
    let s := { s with chips }
    if vector ≥ 32 && vector < 48 then
      (some (vector - 32), s.advance (irqDispatch s.irq (vector - 32)).2)
    else (none, s)

end TinyShell
