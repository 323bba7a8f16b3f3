import TinyShell.Machine.Run
import TinyShell.Machine.Stack

/-!
# Interrupts of a processor

`Cpu` with the rest of what the i386 saves when it is interrupted. `deliver` is what the
hardware does on its way through an interrupt gate without a change of privilege, `Op` the
instructions that interrupt entries are made of. A `call` runs a function that is given
from outside and may not return; `CallReturns` is what its caller may count on after it.

* `run_append`: code is run piece by piece.
* `foldlM_sim`: a machine that may fail does not where a machine that cannot simulates it.
* `foldl_quietly_fst`: events that only touch the other half of a machine can be left out.
-/

namespace Machine

structure Processor extends Cpu where
  ecx : U32
  edx : U32
  cs : U16

/-- `TF`, `IF`, `NT`, `RF` and `VM`, which the hardware clears on its way through an interrupt gate. -/
abbrev gateFlags : U32 := 0x00034300

abbrev directionFlag : U32 := 0x00000400

/-- `CF`, `PF`, `AF`, `ZF`, `SF` and `OF`. -/
abbrev statusFlags : U32 := 0x000008D5

namespace Processor

/-- Pushes of words in order. -/
def pushAll (p : Processor) (ws : List U32) : Processor := { p with toCpu := p.toCpu.pushAll ws }

/-- The word at an offset from the stack pointer. -/
def stackWord (p : Processor) (offset : ℕ) : U32 := load32 p.mem (p.esp + word offset).toNat

def interruptsOn (p : Processor) : Bool := p.eflags.getLsbD 9

/-- The hardware goes through an interrupt gate, with an error code for some exceptions. -/
def deliver (p : Processor) (selector : U16) (offset : U32) (error : Option U32) : Processor :=
  let q := p.pushAll ([p.eflags, p.cs.setWidth 32, p.eip] ++ error.toList)
  { q with cs := selector, eip := offset, eflags := p.eflags &&& ~~~gateFlags }

end Processor

inductive Op
  | pushImm (v : U32)
  | push (r : Reg)
  | mov (src dst : Reg)
  | andImm (v : U32) (r : Reg)
  | addImm (v : U32) (r : Reg)
  | subImm (v : U32) (r : Reg)
  | cld
  | pushal
  | popal
  | call (returnAddress : U32)
  | iret
  deriving DecidableEq

/-- What the code depends on: the function that it calls, with its `ret` if it comes to that,
and the status flags that an arithmetic instruction leaves. -/
structure Env where
  callee : Processor → Option Processor
  status : Processor → U32

/-- An arithmetic instruction sets a register and the status flags. -/
def Processor.arith (env : Env) (p : Processor) (v : U32) (r : Reg) : Processor :=
  { p with
    toCpu := { p.toCpu.set v r with eflags := p.eflags &&& ~~~statusFlags ||| env.status p &&& statusFlags } }

/-- An instruction; `none` for a call that does not return. -/
def Op.exec (env : Env) (p : Processor) : Op → Option Processor
  | .pushImm v => some (p.pushAll [v])
  | .push r => some (p.pushAll [p.get r])
  | .mov src dst => some { p with toCpu := p.toCpu.set (p.get src) dst }
  | .andImm v r => some (p.arith env (p.get r &&& v) r)
  | .addImm v r => some (p.arith env (p.get r + v) r)
  | .subImm v r => some (p.arith env (p.get r - v) r)
  | .cld => some { p with eflags := p.eflags &&& ~~~directionFlag }
  | .pushal => some (p.pushAll [p.eax, p.ecx, p.edx, p.ebx, p.esp, p.ebp, p.esi, p.edi])
  | .popal =>
    some { p with
      edi := p.stackWord 0
      esi := p.stackWord 4
      ebp := p.stackWord 8
      ebx := p.stackWord 16
      edx := p.stackWord 20
      ecx := p.stackWord 24
      eax := p.stackWord 28
      esp := p.esp + word 32 }
  | .call returnAddress => env.callee (p.pushAll [returnAddress])
  | .iret =>
    some { p with
      eip := p.stackWord 0
      cs := (p.stackWord 4).setWidth 16
      eflags := p.stackWord 8
      esp := p.esp + word 12 }

def Processor.run (env : Env) (p : Processor) (code : List Op) : Option Processor := code.foldlM (Op.exec env) p

variable {env : Env} {p q : Processor} {ws : List U32} {a : ℕ}

theorem run_append (env : Env) (p : Processor) (code code' : List Op) :
    p.run env (code ++ code') = (p.run env code).bind (·.run env code') :=
  List.foldlM_append

theorem run_cons (env : Env) (p : Processor) (op : Op) (code : List Op) :
    p.run env (op :: code) = (op.exec env p).bind (·.run env code) :=
  rfl

/-- Pushes that end at address `a`. -/
theorem processor_pushAll_eq (h : p.esp.toNat = a + 4 * ws.length) :
    p.pushAll ws = { p with esp := word a, mem := storeWords p.mem a ws.reverse } := by
  have ha : p.esp.toNat - 4 * ws.length = a := by omega
  rw [Processor.pushAll, pushAll_eq (by omega), ha]

/-! ## Calls -/

/-- `r` is where a function of the C calling convention has returned to that was entered in
`e`. Besides its own stack, from `low` up to its arguments, it writes to `owned` only. -/
structure CallReturns (owned : ℕ → Prop) (low : ℕ) (e r : Processor) : Prop where
  esp : r.esp = e.esp + 4
  eip : r.eip = e.top
  ebx : r.ebx = e.ebx
  esi : r.esi = e.esi
  edi : r.edi = e.edi
  ebp : r.ebp = e.ebp
  cs : r.cs = e.cs
  mem : ∀ x, ¬owned x → ¬(low ≤ x ∧ x < e.esp.toNat + 8) → r.mem x = e.mem x

/-! ## Runs with interruptions -/

section interleaved

variable {σ τ ε κ π δ : Type*}

/-- An event of a machine that other events interrupt. -/
inductive Interleaved (ε κ : Type*)
  | own (e : ε)
  | other (k : κ)

/-- The machine's own events. -/
def ownEvents : List (Interleaved ε κ) → List ε
  | [] => []
  | .own e :: l => e :: ownEvents l
  | .other _ :: l => ownEvents l

/-- A machine of two parts. Its own events change the first part, the others only the second. -/
def quietly (own : π → ε → π) (other : π → δ → κ → δ) (s : π × δ) : Interleaved ε κ → π × δ
  | .own e => (own s.1 e, s.2)
  | .other k => (s.1, other s.1 s.2 k)

theorem foldl_quietly_fst (own : π → ε → π) (other : π → δ → κ → δ) (l : List (Interleaved ε κ)) (s : π × δ) :
    (l.foldl (quietly own other) s).1 = (ownEvents l).foldl own s.1 := by
  induction l generalizing s with
  | nil => rfl
  | cons i l ih =>
    cases i with
    | own e => exact ih _
    | other k => exact ih _

/-- **Simulation of a machine that may fail.** -/
theorem foldlM_sim {R : σ → τ → Prop} (step : σ → ε → Option σ) (step' : τ → ε → τ)
    (hsim : ∀ s t e, R s t → ∃ s', step s e = some s' ∧ R s' (step' t e)) {s : σ} {t : τ} (h0 : R s t)
    (l : List ε) : ∃ s', l.foldlM step s = some s' ∧ R s' (l.foldl step' t) := by
  induction l generalizing s t with
  | nil => exact ⟨s, rfl, h0⟩
  | cons e l ih =>
    obtain ⟨s₁, hs₁, hR⟩ := hsim s t e h0
    obtain ⟨s', hs', hR'⟩ := ih hR
    refine ⟨s', ?_, hR'⟩
    rw [List.foldlM_cons, hs₁]
    exact hs'

end interleaved

end Machine
