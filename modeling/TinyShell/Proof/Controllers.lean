import TinyShell.Proof.Irq

/-!
# No interrupt line gets stuck

`pic_init` programs the chips for the vectors of the interrupt stubs, the driver's masks are
the masks of the chips, and `irq_dispatch` ends each interrupt that the chips have begun, also
one whose request has gone in the meantime: between two interrupts nothing is in service
(`lineStep_ok`). So the processor gets every open request, one with each interrupt and in the
order of the priorities (`irq_lines_served`).
-/

namespace TinyShell

open Machine

/-- The chips as the driver has them in mind. -/
structure LinesOK (s : IrqLines) : Prop where
  ready : s.chips.Ready 0x20
  quiet : s.chips.Quiet
  master : s.chips.master.mask = s.irq.pic.masterMask
  slave : s.chips.slave.mask = s.irq.pic.slaveMask

variable {s : IrqLines} {irq : Irq}

/-- What the chips see of a driver that has written `ws`. -/
theorem advance_writes (ws : List (U16 × U8)) (h : irq.pic.writes = s.irq.pic.writes ++ ws) :
    s.advance irq = ⟨irq, ws.foldl ChipPair.write s.chips⟩ := by
  rw [IrqLines.advance, h, List.drop_left]

/-- A driver that has written nothing. -/
theorem advance_silent (h : irq.pic.writes = s.irq.pic.writes) : s.advance irq = ⟨irq, s.chips⟩ :=
  advance_writes [] (by rw [h, List.append_nil])

/-- **`irq_init`** programs the chips, whatever state they are in. -/
theorem linesOK_init (irqStubTable : Fin irqCountMax → U32) (s : IrqLines) :
    LinesOK (irqLinesInit irqStubTable s) := by
  have hwrites : (irqInit irqStubTable s.irq).pic.writes = s.irq.pic.writes ++
      [(picMasterCommand, picIcw1Init), (picSlaveCommand, picIcw1Init), (picMasterData, picMasterVectorOffset),
        (picSlaveData, picSlaveVectorOffset), (picMasterData, picMasterCascadeIrq),
        (picSlaveData, picSlaveCascadeId), (picMasterData, picIcw48086), (picSlaveData, picIcw48086),
        (picMasterData, picAllMasked), (picSlaveData, picAllMasked)] := by
    rw [irqInit_pic]
    simp [picInit, picWriteMasks, outb]
  have hchips : IrqLines.advance s (irqInit irqStubTable s.irq) =
      ⟨irqInit irqStubTable s.irq,
        ⟨fun _ => false, fun _ => false, 0xFF, 0x20, 0x04, 0x01, false, true, .operation⟩,
        ⟨fun _ => false, fun _ => false, 0xFF, 0x28, 0x02, 0x01, false, true, .operation⟩⟩ := by
    rw [advance_writes _ hwrites]
    rfl
  rw [irqLinesInit, hchips]
  refine ⟨⟨rfl, rfl, rfl, rfl, ?_, ?_, ?_, ?_⟩, ⟨fun _ => rfl, fun _ => rfl⟩, ?_, ?_⟩
  · simp
  · simp
  · simp [Chip.autoEnd]
  · simp [Chip.autoEnd]
  · rw [irqInit_pic]
    rfl
  · rw [irqInit_pic]
    rfl

theorem LinesOK.setLine (h : LinesOK s) (line : Fin irqCountMax) (level : Bool) :
    LinesOK { s with chips := s.chips.setLine line level } := by
  obtain ⟨⟨h1, h2, h3, h4, h5, h6, h7, h8⟩, ⟨hm, hs⟩, hmaster, hslave⟩ := h
  by_cases hline : line.val < 8
  · have hset : s.chips.setLine line level = { s.chips with
        master := { s.chips.master with
          requests := Function.update s.chips.master.requests ⟨line, hline⟩ level } } :=
      dif_pos hline
    rw [hset]
    exact ⟨⟨h1, h2, h3, h4, h5, h6, h7, h8⟩, ⟨hm, hs⟩, hmaster, hslave⟩
  · have hset : s.chips.setLine line level = { s.chips with
        slave := { s.chips.slave with
          requests := Function.update s.chips.slave.requests
            ⟨line - 8, by have : line.val < 16 := line.isLt; omega⟩ level } } :=
      dif_neg hline
    rw [hset]
    exact ⟨⟨h1, h2, h3, h4, h5, h6, h7, h8⟩, ⟨hm, hs⟩, hmaster, hslave⟩

/-- What `pic_send_eoi` tells the chips. -/
theorem advance_sendEoi (irq : Irq) (chips : ChipPair) (counts : Fin irqCountMax → U32) {line : ℕ}
    (hline : line < 16) :
    IrqLines.advance ⟨irq, chips⟩ { irq with pic := picSendEoi irq.pic (BitVec.ofNat 8 line), counts } =
      ⟨{ irq with pic := picSendEoi irq.pic (BitVec.ofNat 8 line), counts }, chips.endOfInterrupt line⟩ := by
  have hnat : (BitVec.ofNat 8 line).toNat = line := Nat.mod_eq_of_lt (by omega)
  by_cases hlow : line < 8
  · have heoi : picSendEoi irq.pic (BitVec.ofNat 8 line) = outb irq.pic picMasterCommand 0x20 := by
      unfold picSendEoi
      rw [if_neg (by bv_omega), if_neg (by bv_omega)]
    rw [heoi, advance_writes [(picMasterCommand, 0x20)] rfl, ChipPair.endOfInterrupt, if_pos hlow]
    rfl
  · have heoi : picSendEoi irq.pic (BitVec.ofNat 8 line) =
        outb (outb irq.pic picSlaveCommand 0x20) picMasterCommand 0x20 := by
      unfold picSendEoi
      rw [if_neg (by bv_omega), if_pos (by bv_omega)]
    rw [heoi, advance_writes [(picSlaveCommand, 0x20), (picMasterCommand, 0x20)] (by simp [outb]),
      ChipPair.endOfInterrupt, if_neg hlow]
    rfl

/-- `irq_dispatch` of a line counts it and ends its interrupt. -/
theorem advance_dispatch (irq : Irq) (chips : ChipPair) {line : ℕ} (hline : line < 16) :
    ∃ irq', IrqLines.advance ⟨irq, chips⟩ (irqDispatch irq (BitVec.ofNat 8 line)).2 =
      ⟨irq', chips.endOfInterrupt line⟩ ∧
      irq'.pic.masterMask = irq.pic.masterMask ∧ irq'.pic.slaveMask = irq.pic.slaveMask ∧
      irq'.counts = Function.update irq.counts ⟨line, hline⟩ (irq.counts ⟨line, hline⟩ + 1) := by
  have hnat : (BitVec.ofNat 8 line).toNat = line := Nat.mod_eq_of_lt (by omega)
  have hmasks : ∀ pic : Pic, (picSendEoi pic (BitVec.ofNat 8 line)).masterMask = pic.masterMask ∧
      (picSendEoi pic (BitVec.ofNat 8 line)).slaveMask = pic.slaveMask := by
    intro pic
    unfold picSendEoi
    split_ifs <;> exact ⟨rfl, rfl⟩
  have hdispatch : (irqDispatch irq (BitVec.ofNat 8 line)).2 = { irq with
      pic := picSendEoi irq.pic (BitVec.ofNat 8 line)
      counts := Function.update irq.counts ⟨line, hline⟩ (irq.counts ⟨line, hline⟩ + 1) } := by
    unfold irqDispatch
    rw [dif_pos (show (BitVec.ofNat 8 line).toNat < 16 by omega)]
    simp only [hnat]
  rw [hdispatch]
  exact ⟨_, advance_sendEoi irq chips _ hline, (hmasks irq.pic).1, (hmasks irq.pic).2, rfl⟩

/-- An end of interrupt that the chips do not wait for is ignored. -/
theorem endOfInterrupt_quiet {p : ChipPair} (h : p.Quiet) (line : ℕ) : p.endOfInterrupt line = p := by
  unfold ChipPair.endOfInterrupt
  split_ifs
  · show ChipPair.mk (p.master.writeCommand 0x20) p.slave = p
    rw [Chip.eoi_quiet h.1]
  · show ChipPair.mk (p.master.writeCommand 0x20) (p.slave.writeCommand 0x20) = p
    rw [Chip.eoi_quiet h.1, Chip.eoi_quiet h.2]

/-- **A call of the driver** keeps the chips in step. -/
theorem LinesOK.call (h : LinesOK s) (call : IrqCall) : LinesOK (s.advance (irqStep s.irq call).2) := by
  obtain ⟨hready, hquiet, hmaster, hslave⟩ := h
  cases call with
  | setEnabled irq enabled =>
    show LinesOK (s.advance { s.irq with pic := (picSetMask s.irq.pic irq !enabled).2 })
    unfold picSetMask
    split_ifs with hrange hlow
    · rw [advance_silent rfl]
      exact ⟨hready, hquiet, hmaster, hslave⟩
    · -- the master takes the mask, since it awaits no word of the initialization
      rw [advance_writes [(picMasterData, maskedBit s.irq.pic.masterMask irq !enabled)] rfl]
      have hchips : s.chips.write (picMasterData, maskedBit s.irq.pic.masterMask irq !enabled) =
          { s.chips with
            master := { s.chips.master with mask := maskedBit s.irq.pic.masterMask irq !enabled } } := by
        show ChipPair.mk (s.chips.master.writeData _) s.chips.slave = _
        rw [Chip.writeData_mask hready.masterAwaited]
      rw [List.foldl_cons, List.foldl_nil, hchips]
      exact ⟨⟨hready.masterAwaited, hready.slaveAwaited, hready.masterBase, hready.slaveBase,
        hready.masterCascade, hready.slaveCascade, hready.masterMode, hready.slaveMode⟩, hquiet, rfl, hslave⟩
    · rw [advance_writes [(picSlaveData, maskedBit s.irq.pic.slaveMask (irq - picSlaveIrqBase) !enabled)] rfl]
      have hchips : s.chips.write (picSlaveData, maskedBit s.irq.pic.slaveMask (irq - picSlaveIrqBase) !enabled) =
          { s.chips with
            slave := { s.chips.slave with
              mask := maskedBit s.irq.pic.slaveMask (irq - picSlaveIrqBase) !enabled } } := by
        show ChipPair.mk s.chips.master (s.chips.slave.writeData _) = _
        rw [Chip.writeData_mask hready.slaveAwaited]
      rw [List.foldl_cons, List.foldl_nil, hchips]
      exact ⟨⟨hready.masterAwaited, hready.slaveAwaited, hready.masterBase, hready.slaveBase,
        hready.masterCascade, hready.slaveCascade, hready.masterMode, hready.slaveMode⟩, hquiet, hmaster, rfl⟩
  | registerHandler irq handler =>
    have hpic : (irqRegisterHandler s.irq irq handler).2.pic = s.irq.pic := by
      unfold irqRegisterHandler
      split_ifs <;> rfl
    show LinesOK (s.advance (irqRegisterHandler s.irq irq handler).2)
    rw [advance_silent (by rw [hpic])]
    exact ⟨hready, hquiet, by rw [hpic]; exact hmaster, by rw [hpic]; exact hslave⟩
  | unregisterHandler irq =>
    have hpic : (irqUnregisterHandler s.irq irq).2.pic = s.irq.pic := by
      unfold irqUnregisterHandler
      split_ifs <;> rfl
    show LinesOK (s.advance (irqUnregisterHandler s.irq irq).2)
    rw [advance_silent (by rw [hpic])]
    exact ⟨hready, hquiet, by rw [hpic]; exact hmaster, by rw [hpic]; exact hslave⟩
  | dispatch irq =>
    show LinesOK (s.advance (irqDispatch s.irq irq).2)
    by_cases hline : irq.toNat < 16
    · obtain ⟨irq', hadvance, hm, hs, -⟩ := advance_dispatch s.irq s.chips hline
      rw [BitVec.ofNat_toNat, BitVec.setWidth_eq] at hadvance
      rw [hadvance, endOfInterrupt_quiet hquiet]
      exact ⟨hready, hquiet, hm ▸ hmaster, hs ▸ hslave⟩
    · have hnone : (irqDispatch s.irq irq).2 = s.irq := by
        unfold irqDispatch
        rw [dif_neg hline]
      rw [hnone, advance_silent rfl]
      exact ⟨hready, hquiet, hmaster, hslave⟩

/-- What an interrupt with this vector does. -/
theorem lineStep_interrupt (gone : Bool) {line : ℕ} (hline : line < 16)
    (hvector : (s.chips.acknowledge gone).1 = 0x20 + BitVec.ofNat 8 line) :
    ∃ irq', lineStep s (.interrupt gone) =
        (some (BitVec.ofNat 8 line), ⟨irq', (s.chips.acknowledge gone).2.endOfInterrupt line⟩) ∧
      irq'.pic.masterMask = s.irq.pic.masterMask ∧ irq'.pic.slaveMask = s.irq.pic.slaveMask ∧
      irq'.counts = Function.update s.irq.counts ⟨line, hline⟩ (s.irq.counts ⟨line, hline⟩ + 1) := by
  have hnat : (BitVec.ofNat 8 line).toNat = line := Nat.mod_eq_of_lt (by omega)
  have hrange : ((s.chips.acknowledge gone).1 ≥ 32 && (s.chips.acknowledge gone).1 < 48) = true := by
    rw [hvector, Bool.and_eq_true, decide_eq_true_iff, decide_eq_true_iff]
    constructor <;> bv_omega
  have hsub : (s.chips.acknowledge gone).1 - 32 = BitVec.ofNat 8 line := by
    rw [hvector]
    bv_omega
  obtain ⟨irq', hadvance, hirq⟩ := advance_dispatch s.irq (s.chips.acknowledge gone).2 hline
  refine ⟨irq', ?_, hirq⟩
  show (if ((s.chips.acknowledge gone).1 ≥ 32 && (s.chips.acknowledge gone).1 < 48) = true then
    (some ((s.chips.acknowledge gone).1 - 32),
      IrqLines.advance ⟨s.irq, (s.chips.acknowledge gone).2⟩
        (irqDispatch s.irq ((s.chips.acknowledge gone).1 - 32)).2)
    else (none, ⟨s.irq, (s.chips.acknowledge gone).2⟩)) = _
  rw [if_pos hrange, hsub, hadvance]

/-- **An interrupt with something pending** gives the first line to `irq_dispatch`; its request is gone
afterwards, and the chips wait for nothing. -/
theorem LinesOK.serve (h : LinesOK s) {line : ℕ} {rest : List ℕ} (hpending : s.chips.pending = line :: rest) :
    ∃ (hline : line < 16) (irq' : Irq), lineStep s (.interrupt false) =
        (some (BitVec.ofNat 8 line), ⟨irq', s.chips.setLine ⟨line, hline⟩ false⟩) ∧
      (s.chips.setLine ⟨line, hline⟩ false).pending = rest ∧
      LinesOK ⟨irq', s.chips.setLine ⟨line, hline⟩ false⟩ ∧
      irq'.counts = Function.update s.irq.counts ⟨line, hline⟩ (s.irq.counts ⟨line, hline⟩ + 1) := by
  obtain ⟨hline, hvector, heoi, hrest⟩ := ChipPair.acknowledge_cons h.ready h.quiet hpending
  obtain ⟨irq', hstep, hm, hs, hcounts⟩ := lineStep_interrupt _ hline hvector
  rw [heoi] at hstep
  obtain ⟨hready, hquiet, hmaster, hslave⟩ := h.setLine ⟨line, hline⟩ false
  exact ⟨hline, irq', hstep, hrest, ⟨hready, hquiet, hmaster.trans hm.symm, hslave.trans hs.symm⟩, hcounts⟩

/-- **Every interrupt**, whether something is pending, was, or never has been, leaves the chips in step
and with nothing in service. -/
theorem LinesOK.interrupt (h : LinesOK s) (gone : Bool) : LinesOK (lineStep s (.interrupt gone)).2 := by
  rcases hpending : s.chips.pending with _ | ⟨line, rest⟩
  · -- nothing asks: the chips answer for line 7
    obtain ⟨hack, heoi⟩ := ChipPair.acknowledge_nil h.ready h.quiet hpending gone
    obtain ⟨irq', hstep, hm, hs, -⟩ := lineStep_interrupt gone (show 7 < 16 by omega) (by rw [hack]; rfl)
    rw [hstep, hack, heoi]
    exact ⟨h.ready, h.quiet, h.master.trans hm.symm, h.slave.trans hs.symm⟩
  · cases gone with
    | false =>
      obtain ⟨hline, irq', hstep, -, hok, -⟩ := h.serve hpending
      rw [hstep]
      exact hok
    | true =>
      by_cases htwo : s.chips.masterNext = some 2
      · obtain ⟨hvector, heoi⟩ := ChipPair.acknowledge_gone h.ready h.quiet htwo
        obtain ⟨irq', hstep, hm, hs, -⟩ := lineStep_interrupt true (show 15 < 16 by omega) hvector
        rw [hstep, heoi]
        exact ⟨h.ready, h.quiet, h.master.trans hm.symm, h.slave.trans hs.symm⟩
      · -- a request of the master's own lines is not affected
        have hsame : s.chips.acknowledge true = s.chips.acknowledge false := by
          unfold ChipPair.acknowledge
          split
          · rfl
          · next i hi =>
            rw [if_neg, if_neg]
            all_goals
              intro hcond
              have hi2 : i = 2 := by simpa using (Bool.and_eq_true_iff.1 (Bool.and_eq_true_iff.1 hcond).1).1
              exact htwo (hi2 ▸ hi)
        obtain ⟨hline, irq', hstep, -, hok, -⟩ := h.serve hpending
        have hlines : lineStep s (.interrupt true) = lineStep s (.interrupt false) := by
          simp only [lineStep, hsame]
        rw [hlines, hstep]
        exact hok

theorem lineStep_ok (s : IrqLines) (e : LineEvent) (h : LinesOK s) : LinesOK (lineStep s e).2 := by
  cases e with
  | setLine line level => exact h.setLine line level
  | call call => exact h.call call
  | interrupt gone => exact h.interrupt gone

/-! ## Runs -/

/-- The request of a line is latched. -/
def latched (p : ChipPair) (line : Fin irqCountMax) : Bool :=
  if h : line.val < 8 then p.master.requests ⟨line, h⟩
  else p.slave.requests ⟨line - 8, by have : line.val < 16 := line.isLt; omega⟩

theorem latched_setLine (p : ChipPair) (line line' : Fin irqCountMax) (level : Bool) :
    latched (p.setLine line level) line' = if line' = line then level else latched p line' := by
  have hlt : line.val < 16 := line.isLt
  have hlt' : line'.val < 16 := line'.isLt
  unfold latched ChipPair.setLine
  by_cases h : line.val < 8 <;> by_cases h' : line'.val < 8
  · rw [dif_pos h, dif_pos h', dif_pos h']
    simp only [Function.update_apply, Fin.ext_iff]
  · rw [dif_pos h, dif_neg h', dif_neg h', if_neg (by rintro rfl; exact h' h)]
  · rw [dif_neg h, dif_pos h', dif_pos h', if_neg (by rintro rfl; exact h h')]
  · rw [dif_neg h, dif_neg h', dif_neg h']
    simp only [Function.update_apply, Fin.ext_iff]
    congr 1
    apply propext
    omega

theorem pendingOn_nodup (p : ChipPair) (i : Fin 8) : (p.pendingOn i).Nodup := by
  unfold ChipPair.pendingOn
  split_ifs
  · exact List.nodup_nil
  · refine ((List.nodup_finRange 8).filter _).map ?_
    intro j k h
    exact Fin.ext (Nat.add_left_cancel h)
  · exact List.nodup_singleton _
  · exact List.nodup_nil

theorem mem_pendingOn {p : ChipPair} {i : Fin 8} {line : ℕ} (h : line ∈ p.pendingOn i) :
    i.val = if line < 8 then line else 2 := by
  unfold ChipPair.pendingOn at h
  split_ifs at h with hmask htwo hrequest
  · simp at h
  · obtain ⟨j, -, rfl⟩ := List.mem_map.1 h
    rw [if_neg (by omega), htwo]
    rfl
  · rw [List.mem_singleton] at h
    rw [h, if_pos i.isLt]
  · simp at h

/-- A line is pending once. -/
theorem pending_nodup (p : ChipPair) : p.pending.Nodup := by
  refine List.nodup_flatMap.2 ⟨fun i _ => pendingOn_nodup p i, ?_⟩
  refine (List.nodup_finRange 8).pairwise_of_forall_ne ?_
  intro i _ k _ hne line hi hk
  exact hne (Fin.ext ((mem_pendingOn hi).trans (mem_pendingOn hk).symm))

/-- **Draining the lines.** As many interrupts as there are pending lines serve them all, in order. -/
theorem drain_lines (h : LinesOK s) {lines : List ℕ} (hpending : s.chips.pending = lines) :
    (trace lineStep s (List.replicate lines.length (.interrupt false))).map Prod.snd =
        lines.map (fun line => some (BitVec.ofNat 8 line)) ∧
      (exec lineStep s (List.replicate lines.length (.interrupt false))).chips.pending = [] ∧
      ∀ line : Fin irqCountMax,
        (exec lineStep s (List.replicate lines.length (.interrupt false))).irq.counts line =
          s.irq.counts line + (if line.val ∈ lines then 1 else 0) ∧
        latched (exec lineStep s (List.replicate lines.length (.interrupt false))).chips line =
          (latched s.chips line && decide (line.val ∉ lines)) := by
  have hnodup : lines.Nodup := hpending ▸ pending_nodup s.chips
  induction lines generalizing s with
  | nil => exact ⟨rfl, hpending, fun line => by simp [exec]⟩
  | cons line lines ih =>
    obtain ⟨hline, irq', hstep, hrest, hok, hcounts⟩ := h.serve hpending
    obtain ⟨hout, hnone, hlines⟩ := ih (s := ⟨irq', s.chips.setLine ⟨line, hline⟩ false⟩) hok hrest
      (List.nodup_cons.1 hnodup).2
    rw [List.length_cons, List.replicate_succ]
    simp only [trace, exec, hstep]
    refine ⟨by rw [List.map_cons, List.map_cons, hout], hnone, fun other => ?_⟩
    obtain ⟨hcount, hlatched⟩ := hlines other
    rw [hcount, hlatched, hcounts, latched_setLine]
    have hnot := (List.nodup_cons.1 hnodup).1
    by_cases hother : other = ⟨line, hline⟩
    · subst hother
      rw [Function.update_self, if_neg hnot, if_pos rfl]
      simp
    · have hval : other.val ≠ line := fun he => hother (Fin.ext he)
      rw [Function.update_of_ne hother, if_neg hother]
      simp [hval]

/-- **No interrupt line gets stuck.** After `irq_init`, whatever the devices do to their lines, the
kernel calls and the processor acknowledges, with requests that go away before they are served
among them: nothing is left in service, the chips have the driver's masks, and the next interrupts
give every open line once to `irq_dispatch`, in the order of the priorities, and leave the requests
of the closed ones for later. -/
theorem irq_lines_served (irqStubTable : Fin irqCountMax → U32) (s₀ : IrqLines) (events : List LineEvent) :
    let s := exec lineStep (irqLinesInit irqStubTable s₀) events
    let next := List.replicate s.chips.pending.length (LineEvent.interrupt false)
    s.chips.Quiet ∧ s.chips.master.mask = s.irq.pic.masterMask ∧ s.chips.slave.mask = s.irq.pic.slaveMask ∧
      (trace lineStep s next).map Prod.snd = s.chips.pending.map (fun line => some (BitVec.ofNat 8 line)) ∧
      (exec lineStep s next).chips.pending = [] ∧
      ∀ line : Fin irqCountMax,
        (exec lineStep s next).irq.counts line =
          s.irq.counts line + (if line.val ∈ s.chips.pending then 1 else 0) ∧
        latched (exec lineStep s next).chips line =
          (latched s.chips line && decide (line.val ∉ s.chips.pending)) := by
  intro s next
  have hok : LinesOK s := exec_inv lineStep_ok (linesOK_init irqStubTable s₀) events
  exact ⟨hok.quiet, hok.master, hok.slave, drain_lines hok rfl⟩

end TinyShell
