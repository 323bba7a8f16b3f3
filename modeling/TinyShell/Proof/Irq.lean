import TinyShell.Machine.Loop
import TinyShell.Spec.Irq

/-!
# Which interrupt lines reach the CPU

The masks in the chips are what was last written to the data ports, and they follow the
calls of `irq_set_enabled` line by line (`irqStep_ok`). A line of the slave also needs the
master's line 2, to which the slave is wired, and `irq_set_enabled` does not touch it: so a
line of the slave that was enabled is delivered exactly when line 2 was enabled too
(`irq_delivered`).
-/

namespace TinyShell

open Machine

/-! ## The chips -/

/-- The value last written to a port. -/
def lastWritten (s : Pic) (port : U16) : Option U8 :=
  ((s.writes.filter fun write => write.1 = port).getLast?).map Prod.snd

/-- The chip behind a data port has a mask, and the bit is clear in it. -/
def lineOpen (s : Pic) (port : U16) (bit : ℕ) : Bool := (lastWritten s port).any fun mask => !mask.getLsbD bit

/-- The cascade of the 8259s as `pic_init` programs it: the slave hangs on the master's line 2. -/
def deliverable (s : Pic) (irq : U8) : Bool :=
  if irq < 8 then lineOpen s picMasterData irq.toNat
  else lineOpen s picSlaveData (irq.toNat - 8) && lineOpen s picMasterData 2

/-- The last call of `irq_set_enabled` for a line. -/
def lastCall (calls : List IrqCall) (irq : U8) : Option Bool :=
  (calls.filterMap fun
    | .setEnabled line enabled => if line = irq then some enabled else none
    | _ => none).getLast?

/-- That call enabled the line. -/
def Enabled (calls : List IrqCall) (irq : U8) : Prop := lastCall calls irq = some true

instance (calls : List IrqCall) (irq : U8) : Decidable (Enabled calls irq) := inferInstanceAs (Decidable (_ = _))

/-- `pic_get_mask` gives what the data ports were last given. -/
def MasksWritten (s : Pic) : Prop :=
  ∃ master slave, lastWritten s picMasterData = some master ∧ lastWritten s picSlaveData = some slave ∧
    picGetMask s = master.setWidth 16 ||| slave.setWidth 16 <<< 8

theorem lastWritten_outb (s : Pic) (port port' : U16) (value : U8) :
    lastWritten (outb s port value) port' = if port = port' then some value else lastWritten s port' := by
  unfold lastWritten outb
  dsimp only
  rw [List.filter_append]
  split_ifs with h
  · simp [h]
  · simp [h]

theorem enabled_concat (calls : List IrqCall) (line irq : U8) (enabled : Bool) :
    Enabled (calls ++ [.setEnabled line enabled]) irq ↔
      if irq = line then enabled = true else Enabled calls irq := by
  unfold Enabled lastCall
  rw [List.filterMap_append]
  split_ifs with h
  · simp [h]
  · simp [Ne.symm h]

/-! ## The driver's masks -/

/-- The bit of a line in the driver's copy of the masks. -/
def maskBit (s : Pic) (irq : U8) : Bool :=
  if irq < 8 then s.masterMask.getLsbD irq.toNat else s.slaveMask.getLsbD (irq.toNat - 8)

theorem getLsbD_maskedBit (mask : U8) {bit : U8} (hbit : bit < 8) (masked : Bool) (i : ℕ) :
    (maskedBit mask bit masked).getLsbD i = if i = bit.toNat then masked else mask.getLsbD i := by
  have hlt : bit.toNat < 8 := hbit
  unfold maskedBit
  cases masked with
  | true =>
    rw [if_pos rfl, getLsbD_or_bit _ hlt]
    by_cases h : i = bit.toNat <;> simp [h]
  | false =>
    rw [if_neg Bool.false_ne_true, getLsbD_and_not_bit]
    by_cases h : i = bit.toNat <;> simp [h]

/-- **`pic_set_mask`** changes the bit of its line and no other. -/
theorem maskBit_setMask (s : Pic) {line irq : U8} (hline : line < 16) (hirq : irq < 16) (masked : Bool) :
    maskBit (picSetMask s line masked).2 irq = if irq = line then masked else maskBit s irq := by
  unfold picSetMask
  rw [if_neg (BitVec.not_le.2 hline)]
  by_cases hmaster : line < picSlaveIrqBase
  · rw [if_pos hmaster]
    unfold maskBit
    dsimp only [outb]
    rw [getLsbD_maskedBit _ hmaster]
    -- a line of the slave is not in the master's word
    by_cases hlow : irq < 8
    · rw [if_pos hlow, if_pos hlow]
      simp only [BitVec.toNat_inj]
    · rw [if_neg hlow, if_neg hlow, if_neg]
      rintro rfl
      exact hlow hmaster
  · rw [if_neg hmaster]
    have hbit : line - picSlaveIrqBase < 8 := by bv_omega
    have hindex : (line - picSlaveIrqBase).toNat = line.toNat - 8 := by bv_omega
    unfold maskBit
    dsimp only [outb]
    rw [getLsbD_maskedBit _ hbit, hindex]
    by_cases hlow : irq < 8
    · rw [if_pos hlow, if_pos hlow, if_neg]
      rintro rfl
      exact hmaster hlow
    · rw [if_neg hlow, if_neg hlow]
      congr 1
      apply propext
      constructor
      · intro heq
        bv_omega
      · rintro rfl
        rfl

/-- The driver's copy is what the chips were given, and a line is unmasked in it exactly when it was
enabled last. -/
structure IrqOK (calls : List IrqCall) (s : Pic) : Prop where
  master : lastWritten s picMasterData = some s.masterMask
  slave : lastWritten s picSlaveData = some s.slaveMask
  bits : ∀ irq : U8, irq < 16 → (maskBit s irq = false ↔ Enabled calls irq)

variable {calls : List IrqCall} {s : Pic}

theorem picInit_ok (s : Pic) : IrqOK [] (picInit s) := by
  refine ⟨?_, ?_, ?_⟩
  · simp [picInit, picWriteMasks, outb, lastWritten]
  · simp [picInit, picWriteMasks, outb, lastWritten]
  · -- every line is masked, and none has been enabled
    intro irq hirq
    change (if irq < 8 then picAllMasked.getLsbD irq.toNat else picAllMasked.getLsbD (irq.toNat - 8)) = false ↔ _
    revert irq
    decide

theorem setMask_written (h : IrqOK calls s) (line : U8) (masked : Bool) :
    lastWritten (picSetMask s line masked).2 picMasterData = some (picSetMask s line masked).2.masterMask ∧
      lastWritten (picSetMask s line masked).2 picSlaveData = some (picSetMask s line masked).2.slaveMask := by
  have hother : picMasterData ≠ picSlaveData := by decide
  unfold picSetMask
  split_ifs
  · exact ⟨h.master, h.slave⟩
  · dsimp only
    rw [lastWritten_outb, lastWritten_outb, if_pos rfl, if_neg hother]
    exact ⟨rfl, h.slave⟩
  · dsimp only
    rw [lastWritten_outb, lastWritten_outb, if_neg hother.symm, if_pos rfl]
    exact ⟨h.master, rfl⟩

theorem setEnabled_ok (h : IrqOK calls s) (line : U8) (enabled : Bool) :
    IrqOK (calls ++ [.setEnabled line enabled]) (picSetMask s line (!enabled)).2 := by
  obtain ⟨hmaster, hslave⟩ := setMask_written h line (!enabled)
  refine ⟨hmaster, hslave, ?_⟩
  intro irq hirq
  rw [enabled_concat]
  by_cases hline : line < 16
  · rw [maskBit_setMask s hline hirq]
    split_ifs
    · simp
    · exact h.bits irq hirq
  · -- a call for a line that does not exist is refused
    have hsame : (picSetMask s line (!enabled)).2 = s := by
      unfold picSetMask
      rw [if_pos (BitVec.not_lt.1 hline)]
    have hne : irq ≠ line := by
      rintro rfl
      exact hline hirq
    rw [hsame, if_neg hne]
    exact h.bits irq hirq

/-- The end of an interrupt goes to the command ports. -/
theorem sendEoi_ok (h : IrqOK calls s) (irq : U8) : IrqOK calls (picSendEoi s irq) := by
  have hkeep : ∀ {s : Pic} {port : U16}, IrqOK calls s → port ≠ picMasterData → port ≠ picSlaveData → ∀ value,
      IrqOK calls (outb s port value) := by
    intro s port hs hm hsl value
    refine ⟨?_, ?_, hs.bits⟩
    · rw [lastWritten_outb, if_neg hm]
      exact hs.master
    · rw [lastWritten_outb, if_neg hsl]
      exact hs.slave
  unfold picSendEoi
  split_ifs
  · exact h
  · exact hkeep (hkeep h (by decide) (by decide) _) (by decide) (by decide) _
  · exact hkeep h (by decide) (by decide) _

theorem IrqOK.other (h : IrqOK calls s) {call : IrqCall}
    (hcall : ∀ line enabled, call ≠ .setEnabled line enabled) : IrqOK (calls ++ [call]) s := by
  refine ⟨h.master, h.slave, ?_⟩
  intro irq hirq
  rw [h.bits irq hirq]
  unfold Enabled lastCall
  rw [List.filterMap_append]
  cases call with
  | setEnabled line enabled => exact absurd rfl (hcall line enabled)
  | _ => simp

/-- **Step lemma.** -/
theorem irqStep_ok {s : Irq} (h : IrqOK calls s.pic) (call : IrqCall) :
    IrqOK (calls ++ [call]) (irqStep s call).2.pic := by
  cases call with
  | setEnabled line enabled => exact setEnabled_ok h line enabled
  | registerHandler irq handler =>
    have hsame : (irqStep s (.registerHandler irq handler)).2.pic = s.pic := by
      simp only [irqStep, irqRegisterHandler]
      split_ifs <;> rfl
    rw [hsame]
    exact h.other (by simp)
  | unregisterHandler irq =>
    have hsame : (irqStep s (.unregisterHandler irq)).2.pic = s.pic := by
      simp only [irqStep, irqUnregisterHandler]
      split_ifs <;> rfl
    rw [hsame]
    exact h.other (by simp)
  | dispatch irq =>
    have hother := h.other (show ∀ line enabled, IrqCall.dispatch irq ≠ .setEnabled line enabled by simp)
    change IrqOK _ (irqDispatch s irq).2.pic
    unfold irqDispatch
    -- whether or not the line has a handler, the interrupt is acknowledged
    by_cases hline : irq.toNat < irqCountMax
    · rw [dif_pos hline]
      exact sendEoi_ok hother irq
    · rw [dif_neg hline]
      exact hother

/-- What `irq_init` leaves. -/
theorem irqInit_eq (stubs : Fin irqCountMax → U32) (s : Irq) :
    irqInit stubs s =
      { pic := picInit s.pic
        handlers := fun _ => 0
        counts := fun _ => 0
        idt := fun v =>
          if h : irqVectorBase ≤ v ∧ v - irqVectorBase < irqCountMax then
            idtGate (stubs ⟨v - irqVectorBase, h.2⟩) gdtKernelCodeSelector interruptGate
          else s.idt v } := by
  -- the loop sets each of the three arrays apart from the others
  have hloop : ∀ (l : List (Fin irqCountMax)) (s : Irq), l.foldl (irqInitLine stubs) s =
      ⟨s.pic, l.foldl (fun f irq => Function.update f (id irq) 0) s.handlers,
        l.foldl (fun f irq => Function.update f (id irq) 0) s.counts,
        l.foldl (fun f irq => Function.update f (irqVectorBase + irq.val)
          (idtGate (stubs irq) gdtKernelCodeSelector interruptGate)) s.idt⟩ := by
    intro l
    induction l with
    | nil => intro s; rfl
    | cons irq l ih => intro s; exact ih _
  have hcleared : ∀ (f : Fin irqCountMax → U32) (line : Fin irqCountMax),
      (List.finRange irqCountMax).foldl (fun f irq => Function.update f (id irq) 0) f line = 0 := by
    intro f line
    exact (foldl_update_apply id (fun _ => 0) Function.injective_id _ f line).1 line (List.mem_finRange _) rfl
  rw [irqInit, hloop, Irq.mk.injEq]
  refine ⟨rfl, funext (hcleared _), funext (hcleared _), funext fun v => ?_⟩
  have hkey : Function.Injective fun irq : Fin irqCountMax => irqVectorBase + irq.val := by
    intro i j h
    exact Fin.val_injective (Nat.add_left_cancel h)
  obtain ⟨hset, hkeep⟩ := foldl_update_apply _
    (fun irq => idtGate (stubs irq) gdtKernelCodeSelector interruptGate) hkey (List.finRange irqCountMax) s.idt v
  split_ifs with h
  · exact hset ⟨v - irqVectorBase, h.2⟩ (List.mem_finRange _) (Nat.add_sub_cancel' h.1)
  · apply hkeep
    rintro irq - rfl
    exact h ⟨Nat.le_add_right _ _, by simp⟩

theorem irqInit_pic (stubs : Fin irqCountMax → U32) (s : Irq) : (irqInit stubs s).pic = picInit s.pic := by
  rw [irqInit_eq]

/-- **Run lemma.** -/
theorem irqRun_ok (stubs : Fin irqCountMax → U32) (s : Irq) (calls : List IrqCall) :
    IrqOK calls (exec irqStep (irqInit stubs s) calls).pic := by
  have hinit : IrqOK [] (irqInit stubs s).pic := irqInit_pic stubs s ▸ picInit_ok s.pic
  have hstep : ∀ (tr : List (IrqCall × IrqResult)) (s : Irq) (call : IrqCall), IrqOK (tr.map Prod.fst) s.pic →
      IrqOK ((tr ++ [(call, (irqStep s call).1)]).map Prod.fst) (irqStep s call).2.pic := by
    intro tr s call h
    rw [List.map_append]
    exact irqStep_ok h call
  have hrun := hist_inv (I := fun tr (s : Irq) => IrqOK (tr.map Prod.fst) s.pic) hinit hstep calls
  rwa [trace_fst] at hrun

/-! ## Delivery -/

theorem IrqOK.masksWritten (h : IrqOK calls s) : MasksWritten s := ⟨_, _, h.master, h.slave, rfl⟩

/-- What the chips let through, in terms of the calls. -/
theorem IrqOK.deliverable_iff (h : IrqOK calls s) {irq : U8} (hirq : irq < 16) :
    deliverable s irq = true ↔ Enabled calls irq ∧ (irq < 8 ∨ Enabled calls 2) := by
  have hbit := h.bits irq hirq
  have hcascade := h.bits 2 (by decide)
  unfold maskBit at hbit hcascade
  rw [if_pos (by decide)] at hcascade
  unfold deliverable lineOpen
  rw [h.master, h.slave]
  simp only [Option.any_some]
  by_cases hlow : irq < 8
  · rw [if_pos hlow] at hbit ⊢
    simp only [Bool.not_eq_true', hbit, hlow, true_or, and_true]
  · rw [if_neg hlow] at hbit ⊢
    simp only [Bool.and_eq_true, Bool.not_eq_true', hbit, hlow, false_or]
    exact and_congr_right fun _ => hcascade

/-- The driver's static variables at boot. -/
def bootIrq : Irq := ⟨⟨0xFF, 0xFF, []⟩, fun _ => 0, fun _ => 0, fun _ => ⟨0, 0, 0, 0, 0⟩⟩

/-- **When an enabled line reaches the CPU.** After any calls since `irq_init`, the data ports were last
given what `pic_get_mask` returns; and a line is delivered exactly when it was enabled last if it is
a line of the master, if it is not enabled, or if line 2 is. -/
theorem irq_delivered (stubs : Fin irqCountMax → U32) (s₀ : Irq) (calls : List IrqCall) (irq : U8)
    (hirq : irq < 16) :
    let s := (exec irqStep (irqInit stubs s₀) calls).pic
    MasksWritten s ∧
      ((deliverable s irq = true ↔ Enabled calls irq) ↔ irq < 8 ∨ ¬Enabled calls irq ∨ Enabled calls 2) := by
  have hok := irqRun_ok stubs s₀ calls
  refine ⟨hok.masksWritten, ?_⟩
  rw [hok.deliverable_iff hirq]
  tauto

/-- Line 8 with the cascade enabled. -/
theorem irq_delivered_with_cascade :
    let calls : List IrqCall := [.setEnabled 8 true, .setEnabled 2 true]
    Enabled calls 8 ∧
      (deliverable (exec irqStep (irqInit (fun _ => 0) bootIrq) calls).pic 8 = true ↔ Enabled calls 8) :=
  ⟨by decide, (irq_delivered (fun _ => 0) bootIrq [.setEnabled 8 true, .setEnabled 2 true] 8 (by decide)).2.2
    (by decide)⟩

/-- `irq_set_enabled(8, true)` alone returns true and leaves the line blocked at the master. -/
theorem irq_blocked_by_cascade :
    let calls : List IrqCall := [.setEnabled 8 true]
    let s := irqInit (fun _ => 0) bootIrq
    (irqSetEnabled s 8 true).1 = true ∧ Enabled calls 8 ∧ deliverable (exec irqStep s calls).pic 8 = false := by
  decide

end TinyShell
