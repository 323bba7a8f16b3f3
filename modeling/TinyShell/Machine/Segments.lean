import TinyShell.Machine.Processor

/-!
# Descriptor tables of a processor

The 8 bytes of a segment descriptor and of a gate as the i386 reads them, and the way of an
interrupt through them (`interrupt`). Where the hardware raises another exception instead,
or changes the privilege level and with it the stack, the result is `none`.
-/

namespace Machine

structure Segment where
  base : U32
  limit : BitVec 20
  access : U8
  flags : BitVec 4
  deriving DecidableEq

namespace Segment

def ofBits (d : U64) : Segment where
  base := d.extractLsb' 56 8 ++ d.extractLsb' 16 24
  limit := d.extractLsb' 48 4 ++ d.extractLsb' 0 16
  access := d.extractLsb' 40 8
  flags := d.extractLsb' 52 4

def present (s : Segment) : Bool := s.access.getLsbD 7

def privilege (s : Segment) : BitVec 2 := s.access.extractLsb' 5 2

def isCode (s : Segment) : Bool := s.access.getLsbD 4 && s.access.getLsbD 3

/-- Code that may be entered from a lower privilege level without a change of level. -/
def conforming (s : Segment) : Bool := s.access.getLsbD 2

/-- The last offset in the segment. -/
def lastOffset (s : Segment) : ℕ := if s.flags.getLsbD 3 then s.limit.toNat * 4096 + 4095 else s.limit.toNat

end Segment

structure Gate where
  offset : U32
  selector : U16
  kind : BitVec 5
  privilege : BitVec 2
  present : Bool
  deriving DecidableEq

def Gate.ofBits (d : U64) : Gate where
  offset := d.extractLsb' 48 16 ++ d.extractLsb' 0 16
  selector := d.extractLsb' 16 16
  kind := d.extractLsb' 40 5
  privilege := d.extractLsb' 45 2
  present := d.getLsbD 47

/-- The kind of a 32-bit interrupt gate. -/
abbrev interruptGateKind : BitVec 5 := 0b01110

/-- A table as its register describes it. -/
structure DescriptorTable where
  limit : U16
  entries : ℕ → U64

/-- The entry of an index that is within the limit. -/
def DescriptorTable.entry (t : DescriptorTable) (index : ℕ) : Option U64 :=
  if 8 * index + 7 ≤ t.limit.toNat then some (t.entries index) else none

/-- The exceptions for which the hardware pushes an error code. -/
def pushesErrorCode (vector : ℕ) : Bool := vector ∈ [8, 10, 11, 12, 13, 14, 17, 21, 29, 30]

/-- The segment of a selector. Its low three bits are the table and the privilege asked for. -/
def segmentOf (gdt : DescriptorTable) (selector : U16) : Option Segment :=
  if selector.toNat < 8 || selector.getLsbD 2 then none
  else (gdt.entry (selector.toNat / 8)).map .ofBits

/-- The way of an interrupt through the tables. `software` for an `int` instruction, which needs
the privilege of the gate. -/
def Processor.interrupt (gdt idt : DescriptorTable) (p : Processor) (vector : ℕ) (software : Bool)
    (error : Option U32) : Option Processor := do
  let gate ← (idt.entry vector).map Gate.ofBits
  let segment ← segmentOf gdt gate.selector
  let level := p.cs.extractLsb' 0 2
  if gate.present && gate.kind = interruptGateKind && (!software || level ≤ gate.privilege) && segment.present &&
      segment.isCode && !segment.conforming && segment.privilege = level &&
        gate.offset.toNat ≤ segment.lastOffset then
    some (p.deliver (gate.selector.extractLsb' 2 14 ++ level) gate.offset error)
  else none

end Machine
