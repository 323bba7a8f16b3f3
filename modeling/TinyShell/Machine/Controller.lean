import TinyShell.Machine.Word

/-!
# A pair of interrupt controllers

Two 8259A chips as a PC wires them: the slave's output is line 2 of the master. A chip
latches the edges of its request lines. When the processor acknowledges an interrupt, the
request of the highest priority that is not masked becomes in service, and until the chip is
told that the interrupt has ended, it holds back all requests of the same or a lower
priority. Requests are served in the order of `pending` (`acknowledge_cons`).

Rotating priorities, the special modes and polling are not part of the model.
-/

namespace Machine

/-- The word that a chip takes next on its data port. -/
inductive Awaited
  | icw2
  | icw3
  | icw4
  | operation
  deriving DecidableEq

structure Chip where
  requests : Fin 8 → Bool
  inService : Fin 8 → Bool
  mask : U8
  base : U8
  cascade : U8
  mode : U8
  single : Bool
  wantsIcw4 : Bool
  awaited : Awaited

namespace Chip

def masked (c : Chip) (i : Fin 8) : Bool := c.mask.getLsbD i

/-- Interrupts end by themselves. -/
def autoEnd (c : Chip) : Bool := c.mode.getLsbD 1

/-- The requests that are not masked, the highest priority first. -/
def openRequests (c : Chip) : List (Fin 8) := (List.finRange 8).filter fun i => c.requests i && !c.masked i

/-- The line in service with the highest priority. -/
def serving (c : Chip) : Option (Fin 8) := (List.finRange 8).find? c.inService

/-- A write to the command port: the first initialization word, or an end of interrupt for the line
in service or for a given line. -/
def writeCommand (c : Chip) (v : U8) : Chip :=
  if v.getLsbD 4 then
    { c with
      requests := fun _ => false
      inService := fun _ => false
      mask := 0
      mode := 0
      single := v.getLsbD 1
      wantsIcw4 := v.getLsbD 0
      awaited := .icw2 }
  else if v = 0x20 then
    match c.serving with
    | some i => { c with inService := Function.update c.inService i false }
    | none => c
  else if v &&& 0xF8 = 0x60 then
    { c with inService := Function.update c.inService (v.extractLsb' 0 3).toFin false }
  else c

/-- A write to the data port: the other initialization words, or the mask. -/
def writeData (c : Chip) (v : U8) : Chip :=
  let afterIcw3 : Awaited := if c.wantsIcw4 then .icw4 else .operation
  match c.awaited with
  | .icw2 => { c with base := v &&& 0xF8, awaited := if c.single then afterIcw3 else .icw3 }
  | .icw3 => { c with cascade := v, awaited := afterIcw3 }
  | .icw4 => { c with mode := v, awaited := .operation }
  | .operation => { c with mask := v }

/-- The request that the chip passes on, from the states of its lines. -/
def next (c : Chip) (requests : Fin 8 → Bool) : Option (Fin 8) :=
  ((List.finRange 8).find? fun i => c.inService i || requests i && !c.masked i).filter fun i => !c.inService i

/-- Line `i` is in service, unless interrupts end by themselves. -/
def hold (c : Chip) (i : Fin 8) : Chip :=
  if c.autoEnd then c else { c with inService := Function.update c.inService i true }

/-- The latch of line `i` is cleared. -/
def clear (c : Chip) (i : Fin 8) : Chip := { c with requests := Function.update c.requests i false }

def vector (c : Chip) (i : Fin 8) : U8 := c.base + BitVec.ofNat 8 i

end Chip

structure ChipPair where
  master : Chip
  slave : Chip

namespace ChipPair

/-- A write to a port. -/
def write (p : ChipPair) (w : U16 × U8) : ChipPair :=
  if w.1 = 0x20 then { p with master := p.master.writeCommand w.2 }
  else if w.1 = 0x21 then { p with master := p.master.writeData w.2 }
  else if w.1 = 0xA0 then { p with slave := p.slave.writeCommand w.2 }
  else if w.1 = 0xA1 then { p with slave := p.slave.writeData w.2 }
  else p

/-- A device gives one of the sixteen lines a level; a rising edge is latched, and taken back if the
line falls before it is served. -/
def setLine (p : ChipPair) (line : Fin 16) (level : Bool) : ChipPair :=
  if h : line.val < 8 then
    { p with master := { p.master with requests := Function.update p.master.requests ⟨line, h⟩ level } }
  else
    { p with slave := { p.slave with requests := Function.update p.slave.requests ⟨line - 8, by omega⟩ level } }

def slaveNext (p : ChipPair) : Option (Fin 8) := p.slave.next p.slave.requests

/-- The request that the pair passes on to the processor. -/
def masterNext (p : ChipPair) : Option (Fin 8) :=
  p.master.next fun i => if i = 2 then p.slaveNext.isSome else p.master.requests i

/-- The slave puts its vector on the bus: of its next request, or of line 7 if that is gone. -/
def slaveVector (p : ChipPair) : U8 × ChipPair :=
  match p.slaveNext with
  | some j => (p.slave.vector j, { p with slave := (p.slave.clear j).hold j })
  | none => (p.slave.vector 7, p)

/-- The processor acknowledges an interrupt and gets a vector, that of line 7 if the request is gone.
`gone`: the slave's request goes between the two cycles of the acknowledgement. -/
def acknowledge (p : ChipPair) (gone : Bool) : U8 × ChipPair :=
  match p.masterNext with
  | none => (p.master.vector 7, p)
  | some i =>
    if i = 2 && p.master.cascade.getLsbD 2 && p.slave.cascade &&& 7 = 2 then
      let p := { p with master := p.master.hold i }
      if gone then (p.slave.vector 7, p) else p.slaveVector
    else (p.master.vector i, { p with master := (p.master.clear i).hold i })

/-- The driver tells the pair that the interrupt of a line has ended. -/
def endOfInterrupt (p : ChipPair) (line : ℕ) : ChipPair :=
  if line < 8 then p.write (0x20, 0x20) else (p.write (0xA0, 0x20)).write (0x20, 0x20)

/-- The lines that wait on line `i` of the master, in the order in which they will be served. -/
def pendingOn (p : ChipPair) (i : Fin 8) : List ℕ :=
  if p.master.masked i then []
  else if i = 2 then p.slave.openRequests.map fun j => 8 + j.val
  else if p.master.requests i then [i.val]
  else []

/-- The lines that wait to be served. -/
def pending (p : ChipPair) : List ℕ := (List.finRange 8).flatMap p.pendingOn

/-- No interrupt is in service. -/
def Quiet (p : ChipPair) : Prop := (∀ i, p.master.inService i = false) ∧ ∀ i, p.slave.inService i = false

/-- The pair is initialized: vectors from `base` on, the slave on line 2, no automatic end of interrupt. -/
structure Ready (p : ChipPair) (base : U8) : Prop where
  masterAwaited : p.master.awaited = .operation
  slaveAwaited : p.slave.awaited = .operation
  masterBase : p.master.base = base
  slaveBase : p.slave.base = base + 8
  masterCascade : p.master.cascade.getLsbD 2 = true
  slaveCascade : p.slave.cascade &&& 7 = 2
  masterMode : p.master.autoEnd = false
  slaveMode : p.slave.autoEnd = false

end ChipPair

/-! ## Which request is next -/

variable {α β : Type*}

/-- The first piece of a list of lists that is not empty. -/
theorem flatMap_eq_cons {f : α → List β} {l : List α} {x : β} {rest : List β} (h : l.flatMap f = x :: rest) :
    ∃ before i after tail, l = before ++ i :: after ∧ (∀ j ∈ before, f j = []) ∧ f i = x :: tail ∧
      rest = tail ++ after.flatMap f := by
  induction l with
  | nil => simp at h
  | cons i l ih =>
    rw [List.flatMap_cons] at h
    rcases hi : f i with _ | ⟨y, tail⟩
    · rw [hi, List.nil_append] at h
      obtain ⟨before, j, after, tail, rfl, hbefore, hj, hrest⟩ := ih h
      refine ⟨i :: before, j, after, tail, rfl, ?_, hj, hrest⟩
      intro k hk
      rcases List.mem_cons.1 hk with rfl | hk
      · exact hi
      · exact hbefore k hk
    · rw [hi, List.cons_append] at h
      obtain ⟨rfl, rfl⟩ := List.cons.inj h
      exact ⟨[], i, l, tail, rfl, by simp, hi, rfl⟩

theorem find?_split {q : α → Bool} {before after : List α} {i : α} (hbefore : ∀ j ∈ before, q j = false)
    (hi : q i = true) : (before ++ i :: after).find? q = some i := by
  rw [List.find?_append, List.find?_eq_none.2 fun j hj => by simp [hbefore j hj], List.find?_cons_of_pos hi]
  rfl

/-- What is left of it when that piece becomes its tail. -/
theorem flatMap_of_split {f g : α → List β} {before after : List α} {i : α} {tail : List β}
    (hnodup : (before ++ i :: after).Nodup) (hbefore : ∀ j ∈ before, f j = []) (hi : g i = tail)
    (hother : ∀ j, j ≠ i → g j = f j) : (before ++ i :: after).flatMap g = tail ++ after.flatMap f := by
  obtain ⟨-, hcons, hdisjoint⟩ := List.nodup_append.1 hnodup
  have hg_before : before.flatMap g = [] := by
    rw [List.flatMap_eq_nil_iff]
    intro j hj
    rw [hother j (hdisjoint j hj i List.mem_cons_self), hbefore j hj]
  have hg_after : after.flatMap g = after.flatMap f := by
    apply List.flatMap_congr
    intro j hj
    apply hother
    rintro rfl
    exact (List.nodup_cons.1 hcons).1 hj
  rw [List.flatMap_append, List.flatMap_cons, hg_before, hg_after, hi, List.nil_append]

namespace Chip

variable {c : Chip}

/-- Without an interrupt in service the chip passes on its first open request. -/
theorem next_of_quiet (h : ∀ i, c.inService i = false) (requests : Fin 8 → Bool) :
    c.next requests = (List.finRange 8).find? fun i => requests i && !c.masked i := by
  unfold next
  simp only [h, Bool.false_or, Bool.not_false]
  cases (List.finRange 8).find? fun i => requests i && !c.masked i <;> rfl

/-- **End of interrupt.** The line that was held is no longer in service. -/
theorem eoi_hold (hquiet : ∀ i, c.inService i = false) (i : Fin 8) : (c.hold i).writeCommand 0x20 = c := by
  have hfind : ∀ i : Fin 8, (List.finRange 8).find? (fun j => decide (j = i)) = some i := by decide
  cases hmode : c.autoEnd with
  | true =>
    have hserving : c.serving = none := List.find?_eq_none.2 fun i _ => by simp [hquiet i]
    rw [hold, if_pos hmode, writeCommand, if_neg (by decide), if_pos rfl, hserving]
  | false =>
    have hservice : Function.update c.inService i true = fun j => decide (j = i) := by
      funext j
      by_cases hj : j = i
      · rw [hj, Function.update_self, decide_eq_true rfl]
      · rw [Function.update_of_ne hj, hquiet, decide_eq_false hj]
    have hhold : c.hold i = { c with inService := Function.update c.inService i true } := if_neg (by simp [hmode])
    have hserving : (c.hold i).serving = some i := by
      rw [serving, hhold, hservice]
      exact hfind i
    rw [writeCommand, if_neg (by decide), if_pos rfl, hserving, hhold]
    dsimp only
    rw [Function.update_idem, ← hquiet i, Function.update_eq_self]

/-- An end of interrupt with nothing in service does nothing. -/
theorem eoi_quiet (hquiet : ∀ i, c.inService i = false) : c.writeCommand 0x20 = c := by
  have hserving : c.serving = none := List.find?_eq_none.2 fun i _ => by simp [hquiet i]
  rw [writeCommand, if_neg (by decide), if_pos rfl, hserving]

/-- An initialized chip takes its mask. -/
theorem writeData_mask (h : c.awaited = .operation) (v : U8) : c.writeData v = { c with mask := v } := by
  simp only [writeData, h]

/-- Without its first request a chip has the others. -/
theorem openRequests_clear {i : Fin 8} {rest : List (Fin 8)} (h : c.openRequests = i :: rest) :
    (c.clear i).openRequests = rest := by
  have hfilter : (c.clear i).openRequests = c.openRequests.filter fun j => decide (j ≠ i) := by
    unfold openRequests
    rw [List.filter_filter]
    apply List.filter_congr
    intro j _
    show (Function.update c.requests i false j && !c.masked j) = _
    by_cases hj : j = i
    · rw [hj, Function.update_self]
      simp
    · rw [Function.update_of_ne hj]
      simp [hj]
  have hnodup : (i :: rest).Nodup := h ▸ (List.nodup_finRange 8).filter _
  rw [hfilter, h, List.filter_cons_of_neg (by simp)]
  apply List.filter_eq_self.2
  intro j hj
  apply decide_eq_true
  rintro rfl
  exact (List.nodup_cons.1 hnodup).1 hj

end Chip

namespace ChipPair

variable {p : ChipPair} {base : U8}

theorem Ready.cascaded (h : p.Ready base) :
    (decide ((2 : Fin 8) = 2) && p.master.cascade.getLsbD 2 && decide (p.slave.cascade &&& 7 = 2)) = true := by
  rw [h.masterCascade, decide_eq_true h.slaveCascade]
  rfl

/-- The slave's next request is the first of its open ones. -/
theorem slaveNext_eq (h : p.Quiet) : p.slaveNext = p.slave.openRequests.head? := by
  rw [slaveNext, Chip.next_of_quiet h.2, Chip.openRequests, List.head?_filter]

/-- The master passes on the first line that something waits on. -/
theorem masterNext_eq (h : p.Quiet) :
    p.masterNext = (List.finRange 8).find? fun i => !(p.pendingOn i).isEmpty := by
  rw [masterNext, Chip.next_of_quiet h.1, slaveNext_eq h]
  congr 1
  funext i
  unfold pendingOn
  cases hmask : p.master.masked i with
  | true => simp
  | false =>
    by_cases hi : i = 2
    · cases hopen : p.slave.openRequests <;> simp [hi]
    · cases hrequest : p.master.requests i <;> simp [hi]

/-- **Service of the first pending line.** It is acknowledged with its own vector, and after the end
of the interrupt its request is gone and nothing else has changed. -/
theorem acknowledge_cons (hready : p.Ready base) (hquiet : p.Quiet) {line : ℕ} {rest : List ℕ}
    (h : p.pending = line :: rest) :
    ∃ hline : line < 16,
      (p.acknowledge false).1 = base + BitVec.ofNat 8 line ∧
      (p.acknowledge false).2.endOfInterrupt line = p.setLine ⟨line, hline⟩ false ∧
      (p.setLine ⟨line, hline⟩ false).pending = rest := by
  obtain ⟨before, i, after, tail, hsplit, hbefore, hi, hrest⟩ := flatMap_eq_cons h
  have hnext : p.masterNext = some i := by
    rw [masterNext_eq hquiet, hsplit]
    exact find?_split (fun j hj => by rw [hbefore j hj]; rfl) (by rw [hi]; rfl)
  have hnodup : (before ++ i :: after).Nodup := hsplit ▸ List.nodup_finRange 8
  have hmask : p.master.masked i = false := by
    by_contra hmask
    rw [pendingOn, if_pos (by simpa using hmask)] at hi
    simp at hi
  rw [pendingOn, if_neg (by simp [hmask])] at hi
  unfold pending
  rw [hsplit, hrest]
  by_cases htwo : i = 2
  · -- a line of the slave
    rw [if_pos htwo] at hi
    obtain ⟨j, others, hopen, rfl, rfl⟩ := List.map_eq_cons_iff.1 hi
    have hj : 8 + j.val < 16 := by omega
    have hslave : ∀ c : Chip, ({ p with master := c } : ChipPair).slaveNext = some j := fun c =>
      (slaveNext_eq hquiet).trans (by rw [hopen]; rfl)
    have hset : p.setLine ⟨8 + j.val, hj⟩ false = { p with slave := p.slave.clear j } := by
      have hindex : (⟨8 + j.val - 8, by omega⟩ : Fin 8) = j := Fin.ext (Nat.add_sub_cancel_left 8 j.val)
      rw [setLine, dif_neg (by simp)]
      dsimp only
      rw [hindex]
      rfl
    have hack : p.acknowledge false =
        (p.slave.vector j, { p with master := p.master.hold 2, slave := (p.slave.clear j).hold j }) := by
      rw [acknowledge, hnext, htwo]
      dsimp only
      rw [if_pos hready.cascaded, if_neg (by simp), slaveVector, hslave]
    refine ⟨hj, ?_, ?_, ?_⟩
    · rw [hack]
      show p.slave.base + BitVec.ofNat 8 j = base + BitVec.ofNat 8 (8 + j)
      rw [hready.slaveBase, BitVec.add_assoc, BitVec.ofNat_add]
      rfl
    · rw [hack, hset, endOfInterrupt, if_neg (by omega)]
      show ChipPair.mk ((p.master.hold 2).writeCommand 0x20) (((p.slave.clear j).hold j).writeCommand 0x20) = _
      rw [Chip.eoi_hold hquiet.1, Chip.eoi_hold (c := p.slave.clear j) hquiet.2]
    · rw [hset]
      apply flatMap_of_split hnodup hbefore
      · rw [pendingOn, if_neg (by simp [hmask]), if_pos htwo, Chip.openRequests_clear hopen]
      · intro k hk
        unfold pendingOn
        rw [if_neg (show ¬k = 2 from fun he => hk (he.trans htwo.symm)),
          if_neg (show ¬k = 2 from fun he => hk (he.trans htwo.symm))]
  · rw [if_neg htwo] at hi
    have hrequest : p.master.requests i = true := by
      by_contra hrequest
      rw [if_neg hrequest] at hi
      simp at hi
    rw [if_pos hrequest] at hi
    obtain ⟨rfl, rfl⟩ := List.cons.inj hi
    have hset : p.setLine ⟨i.val, by omega⟩ false = { p with master := p.master.clear i } := by
      rw [setLine, dif_pos i.isLt]
      rfl
    have hack : p.acknowledge false = (p.master.vector i, { p with master := (p.master.clear i).hold i }) := by
      rw [acknowledge, hnext]
      dsimp only
      rw [if_neg (by simp [htwo])]
    refine ⟨by omega, ?_, ?_, ?_⟩
    · rw [hack]
      show p.master.base + BitVec.ofNat 8 i = base + BitVec.ofNat 8 i
      rw [hready.masterBase]
    · rw [hack, hset, endOfInterrupt, if_pos i.isLt]
      show ChipPair.mk (((p.master.clear i).hold i).writeCommand 0x20) p.slave = _
      rw [Chip.eoi_hold (c := p.master.clear i) hquiet.1]
    · rw [hset]
      apply flatMap_of_split hnodup hbefore
      · have hcleared : Function.update p.master.requests i false i = false := Function.update_self ..
        show (if p.master.masked i = true then [] else if i = 2 then _ else
          if Function.update p.master.requests i false i = true then [i.val] else []) = _
        rw [if_neg (by simp [hmask]), if_neg htwo, hcleared, if_neg Bool.false_ne_true]
      · intro k hk
        unfold pendingOn
        show (if p.master.masked k = true then [] else if k = 2 then _ else
          if Function.update p.master.requests i false k = true then [k.val] else []) = _
        rw [Function.update_of_ne hk]

/-- A processor that asks with nothing pending gets the vector of line 7, and the end of that
interrupt changes nothing. -/
theorem acknowledge_nil (hready : p.Ready base) (hquiet : p.Quiet) (h : p.pending = []) (gone : Bool) :
    p.acknowledge gone = (base + 7, p) ∧ p.endOfInterrupt 7 = p := by
  have hnext : p.masterNext = none := by
    rw [masterNext_eq hquiet, List.find?_eq_none]
    intro i hi
    rw [List.flatMap_eq_nil_iff.1 h i hi]
    simp
  constructor
  · rw [acknowledge, hnext]
    show (p.master.base + 7, p) = _
    rw [hready.masterBase]
  · show ChipPair.mk (p.master.writeCommand 0x20) p.slave = p
    rw [Chip.eoi_quiet hquiet.1]

/-- Where the slave's request goes away during the acknowledgement, its line 7 is answered for it,
and the end of that interrupt leaves everything as it was. -/
theorem acknowledge_gone (hready : p.Ready base) (hquiet : p.Quiet) (hnext : p.masterNext = some 2) :
    (p.acknowledge true).1 = base + 15 ∧ (p.acknowledge true).2.endOfInterrupt 15 = p := by
  have hack : p.acknowledge true = (p.slave.vector 7, { p with master := p.master.hold 2 }) := by
    rw [acknowledge, hnext]
    dsimp only
    rw [if_pos hready.cascaded, if_pos rfl]
  rw [hack]
  constructor
  · show p.slave.base + 7 = base + 15
    rw [hready.slaveBase, BitVec.add_assoc]
    rfl
  · show ChipPair.mk ((p.master.hold 2).writeCommand 0x20) (p.slave.writeCommand 0x20) = p
    rw [Chip.eoi_hold hquiet.1, Chip.eoi_quiet hquiet.2]

end ChipPair

end Machine
