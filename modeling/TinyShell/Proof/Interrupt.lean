import TinyShell.Proof.Irq
import TinyShell.Spec.Interrupt

/-!
# Interrupts return to where they came from

The hardware reads back what `gdt_set_entry` and `idt_set_gate` have packed
(`segment_gdtEntry`, `gate_idtGate`), so that each of the first 48 vectors gets to its own
stub (`interrupt_routed`). Every stub leaves the same frame, whether the hardware has pushed
an error code or not (`stub_frame`), `interrupt_dispatch` is called with that frame
(`enterDispatch_eq`), and the way back restores the interrupted processor from it
(`leave_eq`).
-/

namespace TinyShell

open Machine

/-! ## Descriptors -/

/-- A segment is read back from its entry. -/
theorem segment_gdtEntry (base limit : U32) (access flags : U8) :
    Segment.ofBits (gdtEntry base limit access flags).bits =
      ⟨base, limit.setWidth 20, access, flags.extractLsb' 4 4⟩ := by
  unfold Segment.ofBits GdtEntry.bits gdtEntry
  rw [Segment.mk.injEq]
  refine ⟨?_, ?_, ?_, ?_⟩
  all_goals
    apply BitVec.eq_of_getLsbD_eq
    intro i hi
    simp only [BitVec.getLsbD_append, BitVec.getLsbD_extractLsb', BitVec.getLsbD_setWidth, BitVec.getLsbD_and,
      BitVec.getLsbD_or, BitVec.getLsbD_ushiftRight]
    interval_cases i <;> simp

/-- A gate is read back from its entry. -/
theorem gate_idtGate (handler : U32) (selector : U16) (attributes : U8) :
    Gate.ofBits (idtGate handler selector attributes).bits =
      ⟨handler, selector, attributes.extractLsb' 0 5, attributes.extractLsb' 5 2, attributes.getLsbD 7⟩ := by
  unfold Gate.ofBits IdtEntry.bits idtGate
  rw [Gate.mk.injEq]
  refine ⟨?_, ?_, ?_, ?_, ?_⟩
  case refine_5 => simp only [BitVec.getLsbD_append]; simp
  all_goals
    apply BitVec.eq_of_getLsbD_eq
    intro i hi
    simp only [BitVec.getLsbD_append, BitVec.getLsbD_extractLsb', BitVec.getLsbD_setWidth, BitVec.getLsbD_and,
      BitVec.getLsbD_ushiftRight]
    interval_cases i <;> simp

/-! ## Tables -/

/-- What `idt_init` leaves in the table. -/
theorem idtInit_apply (isrStubTable : Fin cpuExceptionCount → U32) (idt : ℕ → IdtEntry) {v : ℕ}
    (hv : v < idtEntryCount) :
    idtInit isrStubTable idt v =
      if h : v < cpuExceptionCount then idtGate (isrStubTable ⟨v, h⟩) gdtKernelCodeSelector interruptGate
      else idtGate 0 0 0 := by
  unfold idtInit
  obtain ⟨hset, hkeep⟩ := foldl_update_apply (fun vector : Fin cpuExceptionCount => vector.val)
    (fun vector => idtGate (isrStubTable vector) gdtKernelCodeSelector interruptGate) Fin.val_injective
    (List.finRange cpuExceptionCount)
    ((List.range idtEntryCount).foldl (fun idt vector => Function.update idt vector (idtGate 0 0 0)) idt) v
  split_ifs with h
  · exact hset ⟨v, h⟩ (List.mem_finRange _) rfl
  · rw [hkeep fun b _ hb => h (hb ▸ b.isLt)]
    exact (foldl_update_apply (fun vector : ℕ => vector) (fun _ => idtGate 0 0 0) Function.injective_id
      (List.range idtEntryCount) idt v).1 v (List.mem_range.2 hv) rfl

/-- The calls of the interrupt lines leave the gates alone. -/
theorem irqStep_idt (s : Irq) (call : IrqCall) : (irqStep s call).2.idt = s.idt := by
  cases call with
  | setEnabled irq enabled => rfl
  | registerHandler irq handler =>
    show (irqRegisterHandler s irq handler).2.idt = s.idt
    unfold irqRegisterHandler
    split_ifs <;> rfl
  | unregisterHandler irq =>
    show (irqUnregisterHandler s irq).2.idt = s.idt
    unfold irqUnregisterHandler
    split_ifs <;> rfl
  | dispatch irq =>
    show (irqDispatch s irq).2.idt = s.idt
    unfold irqDispatch
    split_ifs <;> rfl

/-! ## The way to a stub -/

variable {image : InterruptImage} {env : Env}

/-- The address of the stub of a vector. -/
def InterruptImage.entry (image : InterruptImage) (v : Fin stubCount) : U32 :=
  Fin.append image.isrStubTable image.irqStubTable v

/-- The tables send the first 48 vectors to the stubs, and no other vector anywhere. -/
structure GatesOK (image : InterruptImage) (gdt idt : DescriptorTable) : Prop where
  gdt_limit : gdt.limit = 39#16
  idt_limit : idt.limit = 2047#16
  kernelCode : Segment.ofBits (gdt.entries 1) = ⟨0, 0xFFFFF, 0x9A, 0xC⟩
  gate : ∀ v : Fin stubCount, Gate.ofBits (idt.entries v) = ⟨image.entry v, 0x08, interruptGateKind, 0, true⟩
  absent : ∀ v, stubCount ≤ v → v < 256 → (Gate.ofBits (idt.entries v)).present = false

/-- **The tables after boot**: `gdt_init`, `idt_init`, `irq_init` and any calls of the interrupt lines. -/
theorem gatesOK_boot (image : InterruptImage) (gdt : ℕ → GdtEntry) (idt : ℕ → IdtEntry) (s : Irq)
    (calls : List IrqCall) :
    GatesOK image (gdtInit gdt).1
      (idtTable
        (exec irqStep (irqInit image.irqStubTable { s with idt := idtInit image.isrStubTable idt })
          calls).idt) := by
  have hcalls : ∀ s₀ : Irq, (exec irqStep s₀ calls).idt = s₀.idt := fun s₀ =>
    exec_inv (I := fun s => s.idt = s₀.idt) (fun s call h => (irqStep_idt s call).trans h) rfl calls
  refine ⟨rfl, rfl, ?_, ?_, ?_⟩
  · show Segment.ofBits (gdtEntry 0 gdtFlatLimit gdtAccessKernelCode gdtFlag32BitGranular4k).bits = _
    rw [segment_gdtEntry]
    rfl
  · intro v
    show Gate.ofBits (IdtEntry.bits _) = _
    rw [hcalls, irqInit_eq]
    dsimp only
    refine Fin.addCases (fun i => ?_) (fun i => ?_) v
    · have hi : i.val < 32 := i.isLt
      rw [dif_neg (by simp only [Fin.val_castAdd, irqVectorBase]; omega)]
      show Gate.ofBits (idtInit image.isrStubTable idt i.val).bits = _
      rw [idtInit_apply _ _ (show i.val < 256 by omega), dif_pos i.isLt, gate_idtGate, InterruptImage.entry,
        Fin.append_left]
      rfl
    · have hi : (Fin.natAdd cpuExceptionCount i).val - 32 = i.val := by simp
      rw [dif_pos ⟨by simp, by rw [hi]; exact i.isLt⟩, gate_idtGate, InterruptImage.entry, Fin.append_right]
      simp only [hi]
      rfl
  · intro v (h48 : 48 ≤ v) h256
    show (Gate.ofBits (IdtEntry.bits _)).present = false
    rw [hcalls, irqInit_eq]
    dsimp only
    rw [dif_neg (show ¬(32 ≤ v ∧ v - 32 < 16) by omega)]
    show (Gate.ofBits (idtInit image.isrStubTable idt v).bits).present = false
    rw [idtInit_apply _ _ h256, dif_neg (show ¬v < 32 by omega), gate_idtGate]
    rfl

/-- **Routing.** In the kernel a vector gets to its own stub. -/
theorem interrupt_routed {gdt idt : DescriptorTable} (h : GatesOK image gdt idt) {p : Processor}
    (hcs : p.cs.extractLsb' 0 2 = 0) (v : Fin stubCount) (software : Bool) (error : Option U32) :
    p.interrupt gdt idt v software error = some (p.deliver 0x08 (image.entry v) error) := by
  have hv : v.val < 48 := v.isLt
  have hgate : (idt.entry v).map Gate.ofBits = some ⟨image.entry v, 0x08, interruptGateKind, 0, true⟩ := by
    rw [DescriptorTable.entry, h.idt_limit, if_pos (by simp; omega), Option.map_some, h.gate v]
  have hsegment : segmentOf gdt 0x08 = some ⟨0, 0xFFFFF, 0x9A, 0xC⟩ := by
    rw [segmentOf, if_neg (by decide), DescriptorTable.entry, h.gdt_limit, if_pos (by decide), Option.map_some]
    exact congrArg some h.kernelCode
  -- the segment is flat, so that every offset is in it
  have hlimit : (image.entry v).toNat ≤ Segment.lastOffset ⟨0, 0xFFFFF, 0x9A, 0xC⟩ := by
    have hlast : Segment.lastOffset ⟨0, 0xFFFFF, 0x9A, 0xC⟩ = 2 ^ 32 - 1 := by decide
    have := (image.entry v).isLt
    omega
  unfold Processor.interrupt
  rw [hgate]
  show ((segmentOf gdt 0x08).bind _) = _
  rw [hsegment, Option.bind_some, if_pos]
  · have hselector : (BitVec.extractLsb' 2 14 (0x08 : U16) ++ (0 : BitVec 2) : U16) = 0x08 := by decide
    rw [hcs]
    exact congrArg (fun selector => some (p.deliver selector (image.entry v) error)) hselector
  · rw [hcs, decide_eq_true hlimit]
    cases software <;> rfl

theorem stubAt_entry (image : InterruptImage) (v : Fin stubCount) :
    image.stubAt (image.entry v) = stubs[v.val]? := by
  have hfind : (List.finRange stubCount).find? (fun w => image.entry w = image.entry v) = some v := by
    cases hw : (List.finRange stubCount).find? (fun w => image.entry w = image.entry v) with
    | none => exact absurd (List.find?_eq_none.1 hw v (List.mem_finRange v)) (by simp)
    | some w =>
      have hentry : image.entry w = image.entry v := by simpa using List.find?_some hw
      exact congrArg some (image.distinct hentry)
  show ((List.finRange stubCount).find? _).bind _ = _
  exact congrArg (Option.bind · fun w => stubs[w.val]?) hfind

/-! ## The frame -/

/-- A stub makes up for the error code where the hardware does not push one. -/
theorem stub_cases (v : Fin stubCount) :
    pushesErrorCode v = false ∧ stubs[v.val]? = some [.pushImm 0, .pushImm (word v)] ∨
      pushesErrorCode v = true ∧ stubs[v.val]? = some [.pushImm (word v)] := by
  revert v
  decide

/-- What lies on the stack for `interrupt_dispatch`, from the stack pointer on. -/
def frameWords (p : Processor) (a : ℕ) (vector error : U32) : List U32 :=
  [p.edi, p.esi, p.ebp, word (a + 32), p.ebx, p.edx, p.ecx, p.eax, vector, error, p.eip,
    p.cs.setWidth 32, p.eflags]

variable {p : Processor} {a : ℕ}

/-- **One frame for all vectors.** After the hardware and the stub the stack is the same with and
without an error code from the hardware. -/
theorem stub_frame (env : Env) (hesp : p.esp.toNat = a + 52) {v : Fin stubCount} {error : Option U32}
    (herror : error.isSome = pushesErrorCode v) (selector : U16) (offset : U32) :
    ∃ stub, stubs[v.val]? = some stub ∧
      (p.deliver selector offset error).run env stub =
        some { p with
          esp := word (a + 32)
          mem := storeWords p.mem (a + 32) [word v, error.getD 0, p.eip, p.cs.setWidth 32, p.eflags]
          cs := selector
          eip := offset
          eflags := p.eflags &&& ~~~gateFlags } := by
  have hlt := p.esp.isLt
  rcases stub_cases v with ⟨hv, hstub⟩ | ⟨hv, hstub⟩
  · obtain rfl : error = none := by simpa [hv] using herror
    refine ⟨_, hstub, ?_⟩
    have hpush : p.pushAll [p.eflags, p.cs.setWidth 32, p.eip] =
        { p with esp := word (a + 40), mem := storeWords p.mem (a + 40) [p.eip, p.cs.setWidth 32, p.eflags] } :=
      processor_pushAll_eq (by simp [hesp])
    have hnat : (word (a + 40)).toNat = a + 40 := toNat_word (by omega)
    have hcode : ∀ q : Processor, q.run env [.pushImm 0, .pushImm (word v)] = some (q.pushAll [0, word v]) :=
      fun _ => rfl
    rw [hcode, Processor.deliver, Option.toList_none, List.append_nil, hpush,
      processor_pushAll_eq (a := a + 32) (by simp [hnat])]
    rfl
  · obtain ⟨code, rfl⟩ : ∃ code, error = some code := Option.isSome_iff_exists.1 (herror.trans hv)
    refine ⟨_, hstub, ?_⟩
    have hpush : p.pushAll [p.eflags, p.cs.setWidth 32, p.eip, code] =
        { p with
          esp := word (a + 36)
          mem := storeWords p.mem (a + 36) [code, p.eip, p.cs.setWidth 32, p.eflags] } :=
      processor_pushAll_eq (by simp [hesp])
    have hnat : (word (a + 36)).toNat = a + 36 := toNat_word (by omega)
    have hcode : ∀ q : Processor, q.run env [.pushImm (word v)] = some (q.pushAll [word v]) := fun _ => rfl
    rw [hcode, Processor.deliver]
    show some (Processor.pushAll { p.pushAll [p.eflags, p.cs.setWidth 32, p.eip, code] with
      cs := selector, eip := offset, eflags := p.eflags &&& ~~~gateFlags } [word v]) = _
    rw [hpush, processor_pushAll_eq (a := a + 32) (by simp [hnat])]
    rfl

/-- The word below the frame's 16-byte boundary where `interrupt_common_entry` puts its argument. -/
def argumentSlot (a : ℕ) : ℕ := a / 16 * 16 - 16

theorem word_and_align {a : ℕ} (ha : a < 2 ^ 32) : word a &&& (-16 : U32) = word (a / 16 * 16) := by
  apply BitVec.eq_of_toNat_eq
  have hmask : (-16 : U32) = ~~~BitVec.ofNat 32 (2 ^ 4 - 1) := by decide
  have hle : a / 16 * 16 ≤ a := Nat.div_mul_le_self a 16
  rw [hmask, toNat_and_high, toNat_word ha, toNat_word (by omega)]
  rfl

/-- The flags of the interrupted code are off in the handler, whatever the status flags are. -/
theorem handlerFlags (f s s' : U32) {i : ℕ} (hi : i = 8 ∨ i = 9 ∨ i = 10) :
    ((((f &&& ~~~gateFlags) &&& ~~~directionFlag) &&& ~~~statusFlags ||| s &&& statusFlags) &&& ~~~statusFlags |||
      s' &&& statusFlags).getLsbD i = false := by
  rcases hi with rfl | rfl | rfl <;> simp

/-- **`interrupt_common_entry` up to its call.** The registers are on the stack, the frame's
address is the argument, and the stack pointer is on a 16-byte boundary at the call. -/
theorem enter_eq (env : Env) (hesp : p.esp = word (a + 32)) (hlow : 48 ≤ a) (hlt : a + 32 < 2 ^ 32) (ret : U32) :
    ∃ s s' : U32, (p.run env interruptEnter).map (·.pushAll [ret]) =
      some { p with
        ebx := word a
        esp := word (argumentSlot a - 4)
        mem := storeWords (storeWords p.mem a [p.edi, p.esi, p.ebp, word (a + 32), p.ebx, p.edx, p.ecx, p.eax])
          (argumentSlot a - 4) [ret, word a]
        eflags := ((p.eflags &&& ~~~directionFlag) &&& ~~~statusFlags ||| s &&& statusFlags) &&&
          ~~~statusFlags |||
          s' &&& statusFlags } := by
  have hpushal : p.pushAll [p.eax, p.ecx, p.edx, p.ebx, p.esp, p.ebp, p.esi, p.edi] =
      { p with
        esp := word a
        mem := storeWords p.mem a [p.edi, p.esi, p.ebp, p.esp, p.ebx, p.edx, p.ecx, p.eax] } :=
    processor_pushAll_eq (by rw [hesp, toNat_word hlt]; rfl)
  set m := storeWords p.mem a [p.edi, p.esi, p.ebp, p.esp, p.ebx, p.edx, p.ecx, p.eax]
  -- the stack pointer after `andl` and `subl`
  have halign : word a &&& (-16 : U32) = word (a / 16 * 16) := word_and_align (by omega)
  have hsub : word (a / 16 * 16) - 12 = word (argumentSlot a + 4) := by
    unfold argumentSlot
    bv_omega
  have hslot : argumentSlot a + 16 ≤ a ∧ 16 ≤ argumentSlot a := by
    unfold argumentSlot
    omega
  have hnat : (word (argumentSlot a + 4)).toNat = argumentSlot a - 4 + 4 * 2 := by
    rw [toNat_word (by omega)]
    omega
  let p₁ : Processor := { p with esp := word a, mem := m, eflags := p.eflags &&& ~~~directionFlag }
  let p₂ : Processor := { p₁ with ebx := word a }
  let p₃ : Processor := p₂.arith env (word (a / 16 * 16)) .esp
  refine ⟨env.status p₂, env.status p₃, ?_⟩
  have hrun :
      p.run env interruptEnter = some ((p₃.arith env (word (argumentSlot a + 4)) .esp).pushAll [word a]) := by
    have hstart : p.run env interruptEnter =
        p₁.run env [.mov .esp .ebx, .andImm (-16) .esp, .subImm 12 .esp, .push .ebx] := by
      have h : Op.exec env p .pushal = some { p with esp := word a, mem := m } := congrArg some hpushal
      rw [interruptEnter, run_cons, h]
      rfl
    have hand : Op.exec env p₂ (.andImm (-16) .esp) = some p₃ :=
      congrArg (fun v => some (p₂.arith env v .esp)) halign
    have hsub' : Op.exec env p₃ (.subImm 12 .esp) = some (p₃.arith env (word (argumentSlot a + 4)) .esp) :=
      congrArg (fun v => some (p₃.arith env v .esp)) hsub
    have hmov : Op.exec env p₁ (.mov .esp .ebx) = some p₂ := rfl
    rw [hstart, run_cons, hmov, Option.bind_some, run_cons, hand, Option.bind_some, run_cons, hsub']
    rfl
  have hjoin : ∀ q : Processor, (q.pushAll [word a]).pushAll [ret] = q.pushAll [word a, ret] := fun _ => rfl
  rw [hrun, Option.map_some, hjoin, processor_pushAll_eq hnat, ← hesp]
  rfl

/-- **`interrupt_common_entry` after its call** takes everything from the frame. -/
theorem leave_eq {q : Processor} {vector error : U32} (hebx : q.ebx = word a) (hlt : a + 52 < 2 ^ 32)
    (hesp : p.esp = word (a + 52)) (h : WordsAt q.mem a (frameWords p a vector error)) :
    q.run env interruptLeave = some { p with mem := q.mem } := by
  obtain ⟨hedi, hesi, hebp, -, hbx, hedx, hecx, heax, -, -, heip, hcs, hflags, -⟩ := h
  have hmov : Op.exec env q (.mov .ebx .esp) = some { q with esp := q.ebx } := rfl
  have hpopal : Op.exec env { q with esp := q.ebx } .popal =
      some { q with
        edi := p.edi, esi := p.esi, ebp := p.ebp, ebx := p.ebx
        edx := p.edx, ecx := p.ecx, eax := p.eax, esp := word (a + 32) } := by
    simp (disch := omega) only [Op.exec, Processor.stackWord, hebx, word_add, toNat_word, Nat.add_zero,
      hedi, hesi, hebp, hbx, hedx, hecx, heax]
  have hwords : (word (a + 32) + 8 : U32) = word (a + 40) := by bv_omega
  rw [interruptLeave, run_cons, hmov, Option.bind_some, run_cons, hpopal, Option.bind_some, run_cons]
  simp (disch := omega) only [Processor.run, List.foldlM, Option.bind_eq_bind, Option.bind_some, Op.exec,
    Processor.arith, Cpu.get, Cpu.set, Processor.stackWord, hwords, word_add, toNat_word,
    Nat.add_zero, Nat.add_assoc, Nat.reduceAdd, heip, hcs, hflags, hesp]
  simp

/-! ## The whole way -/

/-- Where `interrupt_dispatch` begins for an interrupt of `p` whose frame is at `a`. -/
def dispatchEntry (image : InterruptImage) (p : Processor) (a : ℕ) (v : Fin stubCount)
    (error f : U32) : Processor :=
  { p with
    ebx := word a
    esp := word (argumentSlot a - 4)
    mem := storeWords (storeWords p.mem a (frameWords p a (word v) error)) (argumentSlot a - 4)
      [image.afterDispatch, word a]
    cs := 0x08
    eip := image.entry v
    eflags := f }

theorem enterDispatch_eq (env : Env) {gdt idt : DescriptorTable} (h : GatesOK image gdt idt)
    (hcs : p.cs.extractLsb' 0 2 = 0) (hesp : p.esp.toNat = a + 52) (hlow : 48 ≤ a) {v : Fin stubCount}
    {error : Option U32} (herror : error.isSome = pushesErrorCode v) (software : Bool) :
    ∃ f : U32, (∀ i, i = 8 ∨ i = 9 ∨ i = 10 → f.getLsbD i = false) ∧
      enterDispatch image env gdt idt p v software error = some (dispatchEntry image p a v (error.getD 0) f) := by
  have hlt := p.esp.isLt
  obtain ⟨stub, hstub, hframe⟩ := stub_frame env hesp herror 0x08 (image.entry v)
  obtain ⟨s, s', henter⟩ := enter_eq env
    (p := { p with
      esp := word (a + 32)
      mem := storeWords p.mem (a + 32) [word v, error.getD 0, p.eip, p.cs.setWidth 32, p.eflags]
      cs := 0x08
      eip := image.entry v
      eflags := p.eflags &&& ~~~gateFlags }) rfl hlow (by omega) image.afterDispatch
  refine ⟨_, fun i hi => handlerFlags p.eflags s s' hi, ?_⟩
  have hat : image.stubAt (p.deliver 0x08 (image.entry v) error).eip = some stub :=
    (stubAt_entry image v).trans hstub
  unfold enterDispatch
  rw [interrupt_routed h hcs]
  show ((image.stubAt (p.deliver 0x08 (image.entry v) error).eip).bind _) = _
  rw [hat, Option.bind_some, run_append, hframe, Option.bind_some]
  exact Option.map_eq_bind.symm.trans henter

/-- `serveInterrupt` is the way in, the call, and the way back. -/
theorem serveInterrupt_eq (gdt idt : DescriptorTable) (p : Processor) (vector : ℕ) (software : Bool)
    (error : Option U32) :
    serveInterrupt image env gdt idt p vector software error =
      (enterDispatch image env gdt idt p vector software error).bind fun e =>
        (env.callee e).bind (·.run env interruptLeave) := by
  unfold serveInterrupt enterDispatch
  simp only [Option.bind_eq_bind, Option.bind_assoc, Option.bind_some]
  refine congrArg _ (funext fun p' => congrArg _ (funext fun stub => ?_))
  rw [interruptCommonEntry, ← List.append_assoc, run_append]
  rfl

/-! ## The function that is called -/

/-- The frames with which `interrupt_dispatch` returns. -/
def DispatchReturns (frame : InterruptFrame) : Prop := frame.vector = 3 ∨ 32 ≤ frame.vector ∧ frame.vector < 48

theorem interruptDispatch_returned (image : InterruptImage) (input : HardwareInput) (d : Drivers)
    (frame : InterruptFrame) :
    (interruptDispatch image input d frame).1.1 = .returned ↔ DispatchReturns frame := by
  unfold interruptDispatch DispatchReturns
  split_ifs with hirq hpage hbreak
  · simp only [Bool.and_eq_true, decide_eq_true_eq] at hirq
    exact iff_of_true rfl (.inr hirq)
  · rw [hpage]
    decide
  · exact iff_of_true rfl (.inl hbreak)
  · simp only [Bool.and_eq_true, decide_eq_true_eq] at hirq
    exact iff_of_false (by decide) (not_or.2 ⟨hbreak, hirq⟩)

/-- What `interrupt_dispatch` finds where it begins: kernel code with interrupts, traps and string
direction off, its argument above it on an aligned stack, and room below. -/
structure DispatchCall (low depth : ℕ) (e : Processor) : Prop where
  level : e.cs = 0x08
  room : low + depth ≤ e.esp.toNat
  aligned : (e.esp.toNat + 4) % 16 = 0
  flags : ∀ i, i = 8 ∨ i = 9 ∨ i = 10 → e.eflags.getLsbD i = false
  frame : e.esp.toNat + 8 ≤ (e.stackWord 4).toNat

/-- `interrupt_dispatch` and what it calls are C functions: on the frames in `served` they return.
They write to `owned` and to their own part of the stack, which is from `low` on and at most `depth`
bytes, and they rely on `sound`, which is about what they own. -/
structure KeepsConvention (env : Env) (served : InterruptFrame → Prop) (owned : ℕ → Prop)
    (sound : Memory → Prop) (low depth : ℕ) : Prop where
  reads : ∀ m m' : Memory, (∀ x, owned x → m' x = m x) → sound m → sound m'
  returns : ∀ e, DispatchCall low depth e → sound e.mem → served (dispatchFrame e) →
    ∃ r, env.callee e = some r ∧ CallReturns owned low e r ∧ sound r.mem

variable {served : InterruptFrame → Prop} {owned : ℕ → Prop} {sound : Memory → Prop} {low depth : ℕ}

section dispatchEntry

variable {v : Fin stubCount} {error f : U32}

theorem argumentSlot_bounds (hlow : 48 ≤ a) :
    argumentSlot a + 16 ≤ a ∧ a ≤ argumentSlot a + 31 ∧ argumentSlot a % 16 = 0 := by
  unfold argumentSlot
  omega

theorem frame_dispatchEntry (image : InterruptImage) (p : Processor) (v : Fin stubCount) (error f : U32)
    (hlow : 48 ≤ a) :
    WordsAt (dispatchEntry image p a v error f).mem a (frameWords p a (word v) error) := by
  have hslot := argumentSlot_bounds hlow
  refine (wordsAt_storeWords p.mem a _).frame fun x h1 _ => storeWords_of_not_mem ?_
  simp only [List.length_cons, List.length_nil]
  omega

/-- The argument of `interrupt_dispatch` is the frame. -/
theorem argument_dispatchEntry (hlow : 48 ≤ a) (hlt : a + 52 < 2 ^ 32) :
    ((dispatchEntry image p a v error f).stackWord 4).toNat = a := by
  have hslot := argumentSlot_bounds hlow
  have hwords :
      WordsAt (dispatchEntry image p a v error f).mem (argumentSlot a - 4) [image.afterDispatch, word a] :=
    wordsAt_storeWords _ _ _
  have haddr : ((dispatchEntry image p a v error f).esp + word 4).toNat = argumentSlot a - 4 + 4 := by
    show (word (argumentSlot a - 4) + word 4).toNat = _
    rw [word_add, toNat_word (by omega)]
  rw [Processor.stackWord, haddr, hwords.2.1, toNat_word (by omega)]

/-- Entering writes below the interrupted stack pointer only. -/
theorem mem_dispatchEntry (hlow : 48 ≤ a) {x : ℕ} (hx : ¬(argumentSlot a - 4 ≤ x ∧ x < a + 52)) :
    (dispatchEntry image p a v error f).mem x = p.mem x := by
  have hslot := argumentSlot_bounds hlow
  show storeWords (storeWords p.mem a _) _ _ x = _
  rw [storeWords_of_not_mem (by simp only [List.length_cons, List.length_nil]; omega),
    storeWords_of_not_mem (by simp only [frameWords, List.length_cons, List.length_nil]; omega)]

/-- What `interrupt_dispatch` is called with for an interrupt of `p`. -/
structure EntersDispatch (p : Processor) (v : Fin stubCount) (error : U32) (e : Processor) : Prop where
  frame : dispatchFrame e =
    ⟨p.edi, p.esi, p.ebp, p.esp - 20, p.ebx, p.edx, p.ecx, p.eax, word v, error, p.eip,
      p.cs.setWidth 32, p.eflags⟩
  call : ∀ low depth, low + depth + 100 ≤ p.esp.toNat → DispatchCall low depth e
  mem : ∀ x, ¬(p.esp.toNat - 100 ≤ x ∧ x < p.esp.toNat) → e.mem x = p.mem x

theorem enters_dispatchEntry (image : InterruptImage) (v : Fin stubCount) (error : U32)
    (hf : ∀ i, i = 8 ∨ i = 9 ∨ i = 10 → f.getLsbD i = false) (hesp : p.esp.toNat = a + 52) (hlow : 48 ≤ a) :
    EntersDispatch p v error (dispatchEntry image p a v error f) := by
  have hlt := p.esp.isLt
  have hslot := argumentSlot_bounds hlow
  have hentry : (dispatchEntry image p a v error f).esp.toNat = argumentSlot a - 4 := toNat_word (by omega)
  have hargument : ((dispatchEntry image p a v error f).stackWord 4).toNat = a :=
    argument_dispatchEntry hlow (by omega)
  refine ⟨?_, fun low depth hroom => ⟨rfl, by omega, by omega, hf, by omega⟩,
    fun x hx => mem_dispatchEntry hlow (by omega)⟩
  have hsaved : p.esp - 20 = word (a + 32) := by bv_omega
  obtain ⟨h0, h1, h2, h3, h4, h5, h6, h7, h8, h9, h10, h11, h12, -⟩ :=
    frame_dispatchEntry image p v error f hlow
  rw [dispatchFrame, hargument, interruptFrameAt, hsaved, h0, h1, h2, h3, h4, h5, h6, h7, h8, h9, h10, h11, h12]

/-- **The way back.** Where `interrupt_dispatch` returns, the interrupted processor is restored. -/
theorem leave_dispatchEntry (image : InterruptImage) (v : Fin stubCount) (error : U32)
    (hf : ∀ i, i = 8 ∨ i = 9 ∨ i = 10 → f.getLsbD i = false)
    (henv : KeepsConvention env served owned sound low depth) (hesp : p.esp.toNat = a + 52)
    (hroom : low + depth + 100 ≤ p.esp.toNat) (howned : ∀ x, low ≤ x → x < p.esp.toNat → ¬owned x)
    (hsound : sound p.mem) (hserved : served (dispatchFrame (dispatchEntry image p a v error f))) :
    ∃ m, ((env.callee (dispatchEntry image p a v error f)).bind (·.run env interruptLeave)) =
        some { p with mem := m } ∧
      sound m ∧ ∀ x, ¬owned x → ¬(low ≤ x ∧ x < p.esp.toNat) → m x = p.mem x := by
  have hlt := p.esp.isLt
  have hlow : 48 ≤ a := by omega
  have hslot := argumentSlot_bounds hlow
  have henters := enters_dispatchEntry image v error hf hesp hlow
  set e := dispatchEntry image p a v error f
  have hentry : e.esp.toNat = argumentSlot a - 4 := toNat_word (by omega)
  -- the entry writes to the stack, which the handlers do not own
  have hentered : sound e.mem :=
    henv.reads p.mem e.mem (fun x hx => henters.mem x fun h => howned x (by omega) h.2 hx) hsound
  obtain ⟨r, hcallee, hret, hsound'⟩ := henv.returns e (henters.call low depth hroom) hentered hserved
  have hframe : WordsAt r.mem a (frameWords p a (word v) error) := by
    refine (frame_dispatchEntry image p v error f hlow).frame fun x h1 h2 => hret.mem x ?_ ?_
    · exact howned x (by omega) (by simp only [frameWords, List.length_cons, List.length_nil] at h2; omega)
    · omega
  have hback : p.esp = word (a + 52) := by
    rw [← hesp]
    simp
  refine ⟨r.mem, ?_, hsound', fun x hx hstack => ?_⟩
  · rw [hcallee, Option.bind_some, leave_eq hret.ebx (by omega) hback hframe]
  · rw [hret.mem x hx (by omega)]
    exact mem_dispatchEntry hlow (by omega)

end dispatchEntry

theorem dispatchReturns_vector {frame : InterruptFrame} {v : Fin stubCount} (h : frame.vector = word v) :
    DispatchReturns frame ↔ v.val = 3 ∨ 32 ≤ v.val := by
  have hv : v.val < 48 := v.isLt
  have hnat : frame.vector.toNat = v.val := by
    rw [h]
    exact toNat_word (by omega)
  unfold DispatchReturns
  constructor
  · rintro (hbreak | ⟨hlow, -⟩)
    · exact .inl (by rw [← hnat, hbreak]; rfl)
    · exact .inr (by rw [← hnat]; exact hlow)
  · rintro (hbreak | hirq)
    · exact .inl (BitVec.eq_of_toNat_eq (hnat.trans hbreak))
    · exact .inr ⟨by bv_omega, by bv_omega⟩

/-- **An interrupt returns to where it came from.** After `gdt_init`, `idt_init`, `irq_init` and any
calls of the interrupt lines, in kernel code with room on its stack, each of the first 48 vectors
enters `interrupt_dispatch` with the frame of the interrupted registers, the vector and the error
code, with the stack aligned and interrupts, traps and string direction off. `int n` pushes no error
code and so only keeps to that for the vectors that have none. `interrupt_dispatch` returns from a
breakpoint and from the lines of the controllers only; where its code keeps to the C calling
convention there, the processor is after it as it was, and so is all memory but what the handlers own
and the free part of the stack. Where its code does not return, neither does the interrupt. -/
theorem interrupt_transparent (image : InterruptImage) (env : Env) (gdt : ℕ → GdtEntry) (idt : ℕ → IdtEntry)
    (s : Irq) (calls : List IrqCall) {p : Processor} (hcs : p.cs.extractLsb' 0 2 = 0)
    (hroom : 100 ≤ p.esp.toNat) (v : Fin stubCount) (software : Bool) (error : Option U32)
    (herror : error.isSome = (!software && pushesErrorCode v))
    (hsoftware : software = true → pushesErrorCode v = false) :
    let booted := exec irqStep (irqInit image.irqStubTable { s with idt := idtInit image.isrStubTable idt }) calls
    ∃ e, enterDispatch image env (gdtInit gdt).1 (idtTable booted.idt) p v software error = some e ∧
      EntersDispatch p v (error.getD 0) e ∧
      (∀ input d, (interruptDispatch image input d (dispatchFrame e)).1.1 = .returned ↔ v.val = 3 ∨ 32 ≤ v.val) ∧
      (env.callee e = none →
        serveInterrupt image env (gdtInit gdt).1 (idtTable booted.idt) p v software error = none) ∧
      ∀ owned sound low depth, KeepsConvention env DispatchReturns owned sound low depth →
        low + depth + 100 ≤ p.esp.toNat → (∀ x, low ≤ x → x < p.esp.toNat → ¬owned x) → sound p.mem →
        v.val = 3 ∨ 32 ≤ v.val →
        ∃ m, serveInterrupt image env (gdtInit gdt).1 (idtTable booted.idt) p v software error =
            some { p with mem := m } ∧
          sound m ∧ ∀ x, ¬owned x → ¬(low ≤ x ∧ x < p.esp.toNat) → m x = p.mem x := by
  intro booted
  obtain ⟨a, hesp⟩ : ∃ a, p.esp.toNat = a + 52 := ⟨p.esp.toNat - 52, by omega⟩
  have hlow : 48 ≤ a := by omega
  have hpushed : error.isSome = pushesErrorCode v := by
    rw [herror]
    cases software with
    | false => rfl
    | true => exact (hsoftware rfl).symm
  obtain ⟨f, hf, henter⟩ :=
    enterDispatch_eq env (gatesOK_boot image gdt idt s calls) hcs hesp hlow hpushed software
  have henters := enters_dispatchEntry image v (error.getD 0) hf hesp hlow
  have hreturns := dispatchReturns_vector (congrArg InterruptFrame.vector henters.frame)
  refine ⟨_, henter, henters, ?_, ?_, ?_⟩
  · intro input d
    exact (interruptDispatch_returned image input d _).trans hreturns
  · intro hnone
    rw [serveInterrupt_eq, henter, Option.bind_some, hnone]
    rfl
  · intro owned sound low depth henv hdepth howned hsound hv
    rw [serveInterrupt_eq, henter, Option.bind_some]
    exact leave_dispatchEntry image v (error.getD 0) hf henv hesp hdepth howned hsound (hreturns.2 hv)

/-! A kernel at 1 MiB whose handlers own 256 bytes at 2 MiB, with a stack at 3 MiB. -/

def sampleStubs : InterruptImage where
  isrStubTable i := word (0x00100000 + 16 * i)
  irqStubTable i := word (0x00101000 + 16 * i)
  afterDispatch := 0x00102000
  pitHandleIrq := 0x00103000
  keyboardHandleIrq := 0x00104000
  distinct := by decide +kernel
  handlers := by decide

/-- A function that keeps a word of the frame in the memory of the handlers, and stops where
`interrupt_dispatch` does. -/
def sampleEnv : Env where
  callee e :=
    let vector := (dispatchFrame e).vector
    if vector = 3 || (32 ≤ vector && vector < 48) then
      some { e with eax := 1, esp := e.esp + 4, eip := e.top, mem := store32 e.mem 0x00200000 e.ebx }
    else none
  status p := p.esp

def sampleOwned (x : ℕ) : Prop := 0x00200000 ≤ x ∧ x < 0x00200100

/-- The handlers rely on a byte that they own. -/
def sampleSound (m : Memory) : Prop := m 0x00200010 = 0

theorem sampleEnv_convention (served : InterruptFrame → Prop)
    (h : ∀ frame, served frame → DispatchReturns frame) :
    KeepsConvention sampleEnv served sampleOwned sampleSound 0x00300000 1024 := by
  constructor
  · intro m m' hm hsound
    exact (hm _ ⟨by omega, by omega⟩).trans hsound
  · intro e _ hsound hserved
    have hreturns : DispatchReturns (dispatchFrame e) := h _ hserved
    refine ⟨{ e with eax := 1, esp := e.esp + 4, eip := e.top, mem := store32 e.mem 0x00200000 e.ebx }, ?_,
      ?_, ?_⟩
    · refine if_pos ?_
      rw [Bool.or_eq_true, Bool.and_eq_true, decide_eq_true_iff, decide_eq_true_iff, decide_eq_true_iff]
      exact hreturns
    · refine ⟨rfl, rfl, rfl, rfl, rfl, rfl, rfl, fun x hx _ => store32_of_not_mem ?_⟩
      intro h
      exact hx ⟨h.1, by omega⟩
    · show store32 e.mem 0x00200000 e.ebx 0x00200010 = 0
      rw [store32_of_not_mem (by omega)]
      exact hsound

def sampleProcessor : Processor where
  eax := 1
  ebx := 2
  esi := 3
  edi := 4
  ebp := 5
  esp := 0x00304000
  eflags := 0x202
  eip := 0x00105000
  mem := fun _ => 0
  ecx := 6
  edx := 7
  cs := 0x08

def sampleIrq : Irq := ⟨⟨0, 0, []⟩, fun _ => 0, fun _ => 0, fun _ => idtGate 0 0 0⟩

def sampleBooted : Irq :=
  irqInit sampleStubs.irqStubTable { sampleIrq with idt := idtInit sampleStubs.isrStubTable sampleIrq.idt }

def sampleGdt : ℕ → GdtEntry := fun _ => gdtEntry 0 0 0 0

/-- An interrupt of the sample, at the entry of `interrupt_dispatch` and at its end. -/
def sampleInterrupt (vector : ℕ) (software : Bool) (error : Option U32) : Option Processor × Option Processor :=
  (enterDispatch sampleStubs sampleEnv (gdtInit sampleGdt).1 (idtTable sampleBooted.idt) sampleProcessor vector
      software error,
    serveInterrupt sampleStubs sampleEnv (gdtInit sampleGdt).1 (idtTable sampleBooted.idt) sampleProcessor vector
      software error)

/-- `int3` and a keyboard interrupt return, and a page fault comes to `interrupt_dispatch` with its
error code and does not. -/
theorem interrupt_transparent_sample :
    (∃ e m, sampleInterrupt 3 true none = (some e, some { sampleProcessor with mem := m }) ∧
        (dispatchFrame e).vector = 3) ∧
      (∃ e m, sampleInterrupt 33 false none = (some e, some { sampleProcessor with mem := m }) ∧
        (dispatchFrame e).vector = 33) ∧
      ∃ e, sampleInterrupt 14 false (some 2) = (some e, none) ∧ (dispatchFrame e).errorCode = 2 := by
  have howned : ∀ x, 0x00300000 ≤ x → x < sampleProcessor.esp.toNat → ¬sampleOwned x := by
    rintro x h1 - ⟨-, h2⟩
    omega
  have hconvention := sampleEnv_convention DispatchReturns fun _ h => h
  have hsample := fun v software error => interrupt_transparent sampleStubs sampleEnv sampleGdt sampleIrq.idt
    sampleIrq [] (p := sampleProcessor) (by decide) (by decide) v software error
  refine ⟨?_, ?_, ?_⟩
  · obtain ⟨e, henter, hentered, -, -, hserve⟩ := hsample 3 true none (by decide) (by decide)
    obtain ⟨m, hm, -⟩ := hserve _ _ _ _ hconvention (by decide) howned rfl (by decide)
    exact ⟨e, m, Prod.ext henter hm, by rw [hentered.frame]; rfl⟩
  · obtain ⟨e, henter, hentered, -, -, hserve⟩ := hsample 33 false none (by decide) (by decide)
    obtain ⟨m, hm, -⟩ := hserve _ _ _ _ hconvention (by decide) howned rfl (by decide)
    exact ⟨e, m, Prod.ext henter hm, by rw [hentered.frame]; rfl⟩
  · obtain ⟨e, henter, hentered, -, hstops, -⟩ := hsample 14 false (some 2) (by decide) (by decide)
    refine ⟨e, Prod.ext henter (hstops (if_neg ?_)), by rw [hentered.frame]; rfl⟩
    rw [hentered.frame]
    decide

/-! ## Interrupted code -/

/-- `p` is `q` but for what the handlers own and the free part of the stack. -/
def Agree (owned : ℕ → Prop) (low : ℕ) (p q : Processor) : Prop :=
  ∃ m, p = { q with mem := m } ∧ ∀ x, ¬owned x → ¬(low ≤ x ∧ x < q.esp.toNat) → m x = q.mem x

/-- Kernel code on a stack from `low` to `high`, with room for an interrupt. -/
structure OnStack (low high depth : ℕ) (p : Processor) : Prop where
  level : p.cs.extractLsb' 0 2 = 0
  room : low + depth + 100 ≤ p.esp.toNat
  top : p.esp.toNat ≤ high

/-- Code that minds its own memory: what the handlers write and the free part of the stack make no
difference to it, and it leaves the handlers what they rely on. -/
structure Undisturbed {ε : Type*} (owned : ℕ → Prop) (sound : Memory → Prop) (low high depth : ℕ)
    (code : Processor → ε → Processor) : Prop where
  stays : ∀ p e, OnStack low high depth p → OnStack low high depth (code p e)
  keeps : ∀ p e, OnStack low high depth p → sound p.mem → sound (code p e).mem
  agrees : ∀ p q e, OnStack low high depth q → Agree owned low p q → Agree owned low (code p e) (code q e)

theorem Agree.refl (p : Processor) : Agree owned low p p := ⟨p.mem, rfl, fun _ _ _ => rfl⟩

theorem Agree.trans {p q r : Processor} (hpq : Agree owned low p q) (hqr : Agree owned low q r) :
    Agree owned low p r := by
  obtain ⟨m, rfl, hm⟩ := hpq
  obtain ⟨m', rfl, hm'⟩ := hqr
  exact ⟨m, rfl, fun x hx hstack => (hm x hx hstack).trans (hm' x hx hstack)⟩

/-- `irq_dispatch` leaves the gates alone. -/
theorem irqDispatchHandled_idt (image : InterruptImage) (input : HardwareInput) (d : Drivers) (irq : U8) :
    (irqDispatchHandled image input d irq).irq.idt = d.irq.idt := by
  have hidt := irqStep_idt d.irq (.dispatch irq)
  unfold irqDispatchHandled
  split
  · next handler irq' hdispatch =>
    have hirq : ∀ d' : Drivers, (callHandler image input handler d').irq = d'.irq := by
      intro d'
      unfold callHandler
      split_ifs <;> rfl
    rw [hirq]
    rw [show (irqStep d.irq (.dispatch irq)).2 = (irqDispatch d.irq irq).2 from rfl, hdispatch] at hidt
    exact hidt
  · next irq' hdispatch =>
    rw [show (irqStep d.irq (.dispatch irq)).2 = (irqDispatch d.irq irq).2 from rfl, hdispatch] at hidt
    exact hidt

/-- What the drivers do in an interrupt, if the processor takes it. -/
def serveDrivers (image : InterruptImage) (p : Processor) (d : Drivers) (request : IrqRequest) : Drivers :=
  if p.interruptsOn then irqDispatchHandled image request.input d (BitVec.ofNat 8 request.line) else d

theorem serveDrivers_idt (image : InterruptImage) (p : Processor) (d : Drivers) (request : IrqRequest) :
    (serveDrivers image p d request).irq.idt = d.irq.idt := by
  unfold serveDrivers
  split_ifs
  · exact irqDispatchHandled_idt image _ d _
  · rfl

/-- A frame of the controllers' vectors goes to `irq_dispatch`. -/
theorem interruptDispatch_irq (image : InterruptImage) (input : HardwareInput) (d : Drivers)
    (frame : InterruptFrame) (line : Fin irqCountMax) (hvector : frame.vector = word (irqVectorBase + line)) :
    interruptDispatch image input d frame =
      ((.returned, []), irqDispatchHandled image input d (BitVec.ofNat 8 line)) := by
  have hline : line.val < 16 := line.isLt
  have hnat : frame.vector.toNat = 32 + line.val := by
    rw [hvector]
    exact toNat_word (show 32 + line.val < 2 ^ 32 by omega)
  have hrange : (frame.vector ≥ 32 && frame.vector < 48) = true := by
    rw [Bool.and_eq_true, decide_eq_true_iff, decide_eq_true_iff]
    constructor <;> bv_omega
  have hirq : (frame.vector - 32).setWidth 8 = BitVec.ofNat 8 line := by
    apply BitVec.eq_of_toNat_eq
    rw [BitVec.toNat_setWidth, BitVec.toNat_ofNat]
    bv_omega
  rw [interruptDispatch, if_pos hrange, hirq]

variable {high : ℕ}

/-- The frames of the controllers' vectors. -/
def FromController (frame : InterruptFrame) : Prop := 32 ≤ frame.vector ∧ frame.vector < 48

/-- **One interrupt** leaves the interrupted code as it was and runs `irq_dispatch` once. -/
theorem takeIrq_eq (henv : KeepsConvention env FromController owned sound low depth)
    (hstack : ∀ x, low ≤ x → x < high → ¬owned x) {gdt : DescriptorTable} {s : InterruptedCode}
    (hgates : GatesOK image gdt (idtTable s.drivers.irq.idt)) (hcpu : OnStack low high depth s.cpu)
    (hsound : sound s.cpu.mem) (request : IrqRequest) :
    ∃ p, takeIrq image env gdt s request = some ⟨p, serveDrivers image s.cpu s.drivers request⟩ ∧
      Agree owned low p s.cpu ∧ sound p.mem := by
  by_cases hon : s.cpu.interruptsOn
  · have hroom := hcpu.room
    obtain ⟨a, hesp⟩ : ∃ a, s.cpu.esp.toNat = a + 52 := ⟨s.cpu.esp.toNat - 52, by omega⟩
    have hlow : 48 ≤ a := by omega
    let v : Fin stubCount := Fin.natAdd cpuExceptionCount request.line
    have herror : (none : Option U32).isSome = pushesErrorCode v := by
      have hno : ∀ line : Fin irqCountMax, pushesErrorCode (Fin.natAdd cpuExceptionCount line).val = false := by
        decide
      exact (hno request.line).symm
    obtain ⟨f, hf, henter⟩ := enterDispatch_eq env hgates hcpu.level hesp hlow herror false
    have hvector :
        (dispatchFrame (dispatchEntry image s.cpu a v 0 f)).vector = word (irqVectorBase + request.line) := by
      rw [(enters_dispatchEntry image v 0 hf hesp hlow).frame]
      rfl
    have hserved : FromController (dispatchFrame (dispatchEntry image s.cpu a v 0 f)) := by
      have hline : request.line.val < 16 := request.line.isLt
      have hnat := congrArg BitVec.toNat hvector
      rw [toNat_word (show 32 + request.line.val < 2 ^ 32 by omega)] at hnat
      exact ⟨by bv_omega, by bv_omega⟩
    obtain ⟨m, hleave, hkept, hmem⟩ := leave_dispatchEntry image v 0 hf henv hesp hroom
      (fun x h1 h2 => hstack x h1 (lt_of_lt_of_le h2 hcpu.top)) hsound hserved
    have hdispatch := interruptDispatch_irq image request.input s.drivers _ request.line hvector
    refine ⟨_, ?_, ⟨m, rfl, hmem⟩, hkept⟩
    have hv : irqVectorBase + request.line.val = v.val := rfl
    rw [takeIrq, if_neg (by simp [hon]), hv, henter]
    simp only [Option.bind_eq_bind, Option.bind_some, Option.getD_none]
    rw [hdispatch, serveDrivers, if_pos hon]
    simp only [← Option.bind_assoc, hleave, Option.bind_some]
  · refine ⟨s.cpu, ?_, Agree.refl _, hsound⟩
    rw [takeIrq, if_pos (by simp [hon]), serveDrivers, if_neg hon]

/-- **Interrupts are invisible to the code that they interrupt.** Whatever interrupts come between
the instructions of code that does not look at the handlers' memory, the code gets to where it gets
without them, and the drivers have served, in order, exactly the requests that came while the code
had interrupts on. What the handlers rely on holds at the end, too. -/
theorem interrupts_invisible {ε : Type*} (image : InterruptImage) {env : Env}
    (henv : KeepsConvention env FromController owned sound low depth)
    (hstack : ∀ x, low ≤ x → x < high → ¬owned x) (gdt : ℕ → GdtEntry) (idt : ℕ → IdtEntry) (s : Irq)
    (calls : List IrqCall) {code : Processor → ε → Processor}
    (hcode : Undisturbed owned sound low high depth code)
    {p : Processor} (hp : OnStack low high depth p) (hsound : sound p.mem) {d : Drivers}
    (hd : d.irq =
      exec irqStep (irqInit image.irqStubTable { s with idt := idtInit image.isrStubTable idt }) calls)
    (l : List (Interleaved ε IrqRequest)) :
    ∃ q, l.foldlM (interruptedStep image env (gdtInit gdt).1 code) ⟨p, d⟩ =
        some ⟨q, (l.foldl (quietly code (serveDrivers image)) (p, d)).2⟩ ∧
      Agree owned low q ((ownEvents l).foldl code p) ∧ sound q.mem := by
  have hsim := foldlM_sim (interruptedStep image env (gdtInit gdt).1 code) (quietly code (serveDrivers image))
    (R := fun (s : InterruptedCode) (t : Processor × Drivers) => s.drivers = t.2 ∧ Agree owned low s.cpu t.1 ∧
      sound s.cpu.mem ∧ OnStack low high depth t.1 ∧ GatesOK image (gdtInit gdt).1 (idtTable t.2.irq.idt)) ?_
    (s := ⟨p, d⟩) (t := (p, d)) ⟨rfl, .refl p, hsound, hp, hd ▸ gatesOK_boot image gdt idt s calls⟩ l
  · obtain ⟨⟨q, d'⟩, hrun, hdrivers, hagree, hkept, -, -⟩ := hsim
    obtain rfl := hdrivers
    refine ⟨q, hrun, ?_, hkept⟩
    rw [← foldl_quietly_fst code (serveDrivers image) l (p, d)]
    exact hagree
  · rintro ⟨q, d⟩ ⟨r, d'⟩ i ⟨hdrivers, hagree, hkept, hstackr, hgates⟩
    obtain rfl : d = d' := hdrivers
    -- the interrupted processor differs from the other one in its memory only
    obtain ⟨m, hqm, hm⟩ := hagree
    obtain rfl : q = { r with mem := m } := hqm
    have hstackq : OnStack low high depth { r with mem := m } := ⟨hstackr.level, hstackr.room, hstackr.top⟩
    cases i with
    | own e =>
      exact ⟨_, rfl, rfl, hcode.agrees _ _ e hstackr ⟨m, rfl, hm⟩, hcode.keeps _ e hstackq hkept,
        hcode.stays _ e hstackr, hgates⟩
    | other request =>
      obtain ⟨q', htake, hq', hkept'⟩ :=
        takeIrq_eq henv hstack (s := ⟨{ r with mem := m }, d⟩) hgates hstackq hkept
        request
      refine ⟨_, htake, rfl, hq'.trans ⟨m, rfl, hm⟩, hkept', hstackr, ?_⟩
      show GatesOK image (gdtInit gdt).1 (idtTable (serveDrivers image r d request).irq.idt)
      rw [serveDrivers_idt]
      exact hgates

/-- Code that counts in `eax` and keeps the last value at 4 MiB. -/
def sampleCode (p : Processor) (_ : Unit) : Processor :=
  { p with eax := p.eax + 1, mem := store32 p.mem 0x00400000 p.eax }

theorem sampleCode_undisturbed : Undisturbed sampleOwned sampleSound 0x00300000 0x00304000 1024 sampleCode := by
  refine ⟨?_, ?_, ?_⟩
  · intro p e h
    exact ⟨h.level, h.room, h.top⟩
  · intro p e _ hsound
    show store32 p.mem 0x00400000 p.eax 0x00200010 = 0
    rw [store32_of_not_mem (by omega)]
    exact hsound
  · rintro p q e - ⟨m, rfl, hm⟩
    refine ⟨store32 m 0x00400000 q.eax, rfl, fun x hx hstack => ?_⟩
    show store32 m 0x00400000 q.eax x = store32 q.mem 0x00400000 q.eax x
    unfold store32
    split_ifs
    · rfl
    · exact hm x hx hstack

/-- Two instructions with a timer interrupt between them. -/
theorem interrupts_invisible_sample :
    ∃ q d, [Interleaved.own (), .other ⟨0, ⟨0, 0, 0⟩⟩, .own ()].foldlM
        (interruptedStep sampleStubs sampleEnv (gdtInit sampleGdt).1 sampleCode)
        ⟨sampleProcessor, ⟨sampleBooted, ⟨0, 0, []⟩,
          ⟨fun _ => 0, 0, 0, 0, false, false, false, false⟩⟩⟩ = some ⟨q, d⟩ ∧
      q.eax = 3 ∧ q.eip = 0x00105000 := by
  have howned : ∀ x, 0x00300000 ≤ x → x < 0x00304000 → ¬sampleOwned x := by
    rintro x h1 - ⟨-, h2⟩
    omega
  obtain ⟨q, hrun, ⟨m, hq, -⟩, -⟩ := interrupts_invisible sampleStubs
    (sampleEnv_convention FromController fun _ => .inr) howned sampleGdt sampleIrq.idt sampleIrq []
    sampleCode_undisturbed (p := sampleProcessor) ⟨by decide, by decide, by decide⟩ rfl
    (d := ⟨sampleBooted, ⟨0, 0, []⟩, ⟨fun _ => 0, 0, 0, 0, false, false, false, false⟩⟩) rfl
    [.own (), .other ⟨0, ⟨0, 0, 0⟩⟩, .own ()]
  exact ⟨q, _, hrun, by rw [hq]; rfl, by rw [hq]; rfl⟩

end TinyShell
