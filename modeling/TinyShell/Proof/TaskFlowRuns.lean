import TinyShell.Proof.TaskFlow

/-!
# What `run_task_flow` returns

The flow has `14 + k` switches when the observer had `k` slices, and the last check asks
for 17. Whether the observer has its third slice depends on when the timer interrupts
come.

* `event_good`: the observer has three slices exactly while no three ticks come too early.
* `run_rest`: once `task_run` has returned true, three steps are left.
* `run_history`: the messages that a run shows.
* `run_ticks`: the counters show the ticks since the observer's loads.
* `task_flow_timing`: the result of `run_task_flow`.
-/

namespace TinyShell

open Machine

variable {c : Course} {f : Flow} {e : FlowEvent}

/-! ## The course and the timer -/

/-- The observer has loaded its first `pit_ticks()`. -/
def ObserverPc.hasTickStart : ObserverPc → Bool
  | .startTicks => false
  | _ => true

/-- The observer has loaded its first `irq_count(0)`. -/
def ObserverPc.hasIrqStart : ObserverPc → Bool
  | .startTicks => false
  | .startIrqs => false
  | _ => true

namespace Course

/-- Only the observer waits for an interrupt. -/
def Awake (c : Course) : Prop := c.halted = true → c.stage = .observe .woken

theorem event_awake (h : c.Awake) (e : FlowEvent) : (c.event e).Awake := by
  cases e with
  | tick => exact nofun
  | step =>
    unfold event
    split_ifs with hhalted
    · exact h
    · have hawake : c.halted = false := by simpa using hhalted
      unfold Awake step
      cases hstage : c.stage with
      | observe pc =>
        cases pc with
        | woken =>
          simp only [observe]
          split_ifs <;> simp [hawake]
        | _ => simp [observe, hawake]
      | consume receiving =>
        cases receiving with
        | false =>
          simp only [passOn]
          split_ifs <;> simp [hawake]
        | true =>
          simp only [passOn]
          split_ifs <;> simp [hawake]
      | produce sending => cases sending <;> simp [hawake]
      | _ => simp [hawake]

/-- The observer has had its three slices, or has not left yet. -/
def Good (c : Course) : Prop :=
  match c.stage with
  | .observe .leave => 3 ≤ c.slices
  | .ran true => 3 ≤ c.slices
  | .checkTicks => 3 ≤ c.slices
  | .checkIrqs => 3 ≤ c.slices
  | .returned true result => 3 ≤ c.slices ∧ result = true
  | _ => c.left = true → 3 ≤ c.slices

/-- A step of the course does not load a timer counter too early, and not too late. -/
def Timely (c : Course) (e : FlowEvent) : Prop :=
  e = .step →
    match c.stage with
    | .observe .testIrqs => c.slices ≤ 2 → (c.irqCount - c.irqStart).toNat < pitTestTicks
    | .checkTicks => pitTestTicks ≤ (c.pitTicks - c.tickStart).toNat
    | .checkIrqs => pitTestTicks ≤ (c.irqCount - c.irqStart).toNat
    | _ => True

theorem passOn_good : c.passOn.Good ↔ (c.left = true → 3 ≤ c.slices) := by
  unfold passOn
  cases hleft : c.left with
  | true => by_cases h7 : c.round = 7 <;> simp [Good, h7]
  | false => by_cases h0 : c.slices = 0 <;> simp [Good, resumePc, h0]

theorem observe_good {pc : ObserverPc} (hstage : c.stage = .observe pc) (hleft : c.left = false) :
    (c.observe pc).Good ↔ c.Good ∧ c.Timely .step := by
  cases pc with
  | woken =>
    simp only [observe, Good, Timely, hstage, hleft]
    split_ifs <;> simp
  | testTicks =>
    simp only [observe, Good, Timely, hstage, hleft]
    split_ifs <;> simp
  | testIrqs =>
    simp only [observe, Good, Timely, hstage, hleft]
    split_ifs with htest
    · simp [htest, -BitVec.toNat_sub]
    · simp [htest, -BitVec.toNat_sub]
      omega
  | leave =>
    by_cases h7 : c.round = 7 <;> simp [observe, Good, Timely, hstage, h7]
  | _ => simp [observe, Good, Timely, hstage, hleft]

theorem step_good (hok : c.OK) : c.step.Good ↔ c.Good ∧ c.Timely .step := by
  unfold step
  cases hstage : c.stage with
  | observe pc =>
    simp only [OK, hstage] at hok
    exact observe_good hstage hok.1
  | consume receiving =>
    cases receiving with
    | false =>
      simp only
      split_ifs
      · simp [Good, Timely, hstage]
      · rw [passOn_good]
        simp [Good, Timely, hstage]
    | true =>
      rw [passOn_good]
      simp [Good, Timely, hstage]
  | produce sending =>
    cases sending with
    | false => by_cases h6 : c.round < 6 <;> simp [Good, Timely, hstage, h6]
    | true => simp [Good, Timely, hstage]
  | ran complete =>
    cases complete with
    | false => simp [Good, Timely, hstage]
    | true =>
      have hthree : taskFlowMinSwitches ≤ 14 + c.slices ↔ 3 ≤ c.slices := by
        change 17 ≤ 14 + c.slices ↔ 3 ≤ c.slices
        omega
      by_cases hmin : 3 ≤ c.slices <;> simp [Good, Timely, hstage, hthree, hmin]
  | checkTicks =>
    simp only [Good, Timely, hstage]
    split_ifs with htest
    · exact ⟨fun hslices => ⟨hslices, fun _ => htest⟩, And.left⟩
    · exact ⟨fun h => absurd h.2 Bool.false_ne_true, fun h => absurd (h.2 trivial) htest⟩
  | checkIrqs => simp [Good, Timely, hstage, -BitVec.toNat_sub]
  | returned complete result => simp [Good, Timely, hstage]
  | start => simp [Good, Timely, hstage]
  | run => simp [Good, Timely, hstage]

/-- **Step lemma**: the observer gets its three slices exactly while the course is timely. -/
theorem event_good (hok : c.OK) (hawake : c.Awake) (e : FlowEvent) : (c.event e).Good ↔ c.Good ∧ c.Timely e := by
  cases e with
  | tick => simp [event, Good, Timely]
  | step =>
    unfold event
    split_ifs with hhalted
    · simp [Timely, hawake hhalted]
    · exact step_good hok

/-- The steps to the end, once `task_run` has returned true. -/
def rest (c : Course) : Option ℕ :=
  match c.stage with
  | .ran true => some 3
  | .checkTicks => some 2
  | .checkIrqs => some 1
  | .returned true _ => some 0
  | _ => none

/-- **Step lemma**: every step comes closer to the end. -/
theorem event_rest {n : ℕ} (hawake : c.Awake) (h : c.rest = some n) (e : FlowEvent) :
    ∃ m, (c.event e).rest = some m ∧ m ≤ n - if e = .step then 1 else 0 := by
  cases e with
  | tick => exact ⟨n, h, by simp⟩
  | step =>
    have hhalted : ¬c.halted = true := by
      intro hhalted
      simp [rest, hawake hhalted] at h
    rw [event, if_neg hhalted, step]
    unfold rest at h ⊢
    split at h <;> simp at h <;> subst h <;> rename_i hstage <;> simp only [hstage]
    · split_ifs
      · exact ⟨2, rfl, by simp⟩
      · exact ⟨0, rfl, by simp⟩
    · split_ifs
      · exact ⟨1, rfl, by simp⟩
      · exact ⟨0, rfl, by simp⟩
    · exact ⟨0, rfl, by simp⟩
    · exact ⟨0, rfl, by simp⟩

/-- **Run lemma**: enough steps get there. -/
theorem run_rest {n : ℕ} (es : List FlowEvent) (hawake : c.Awake) (h : c.rest = some n) :
    ∃ m, (exec courseStep c es).rest = some m ∧ m ≤ n - es.count .step := by
  induction es generalizing c n with
  | nil => exact ⟨n, h, by simp⟩
  | cons e es ih =>
    obtain ⟨m, hm, hle⟩ := event_rest hawake h e
    obtain ⟨k, hk, hle'⟩ := ih (c := c.event e) (event_awake hawake e) hm
    refine ⟨k, hk, ?_⟩
    cases e <;> simp at hle ⊢ <;> omega

/-- The end of a course whose `task_run` has returned true. -/
theorem rest_eq_zero (h : c.rest = some 0) : ∃ result, c.stage = .returned true result := by
  unfold rest at h
  split at h <;> simp at h
  exact ⟨_, ‹_›⟩

/-! ## What a run shows -/

/-- The message that the producer sends as number `i`. -/
def message (i : ℕ) : IpcMessage := flowMessage 0 (word i)

theorem passOn_counts : c.passOn.produced = min 6 c.round ∧ c.passOn.consumed = min 6 c.round := by
  unfold passOn
  split_ifs <;> simp [produced, consumed, consuming]

theorem observe_counts {pc : ObserverPc} :
    (c.observe pc).produced = min 6 c.round ∧ (c.observe pc).consumed = min 6 c.round := by
  cases pc with
  | woken =>
    simp only [observe]
    split_ifs <;> simp [produced, consumed, consuming]
  | leave =>
    by_cases h7 : c.round = 7 <;> simp [observe, produced, consumed, consuming, h7]
  | _ => simp [observe, produced, consumed, consuming]

/-- Only a send and a receipt move the counters. -/
theorem step_counts (hok : c.OK) :
    c.step.produced = c.produced + (if c.stage = .produce true then 1 else 0) ∧
      c.step.consumed = c.consumed + (if c.stage = .consume true then 1 else 0) := by
  unfold step
  cases hstage : c.stage with
  | produce sending =>
    simp only [OK, hstage] at hok
    cases sending with
    | false =>
      by_cases h6 : c.round < 6
      · simp [produced, consumed, consuming, hstage, h6]
      · simp [produced, consumed, consuming, hstage, h6]
        omega
    | true =>
      have := hok.2.1 rfl
      simp [produced, consumed, consuming, hstage]
      omega
  | consume receiving =>
    simp only [OK, hstage] at hok
    cases receiving with
    | false =>
      by_cases h6 : c.round < 6
      · simp [h6, produced, consumed, consuming, hstage]
      · simp only [if_neg h6]
        rw [passOn_counts.1, passOn_counts.2]
        simp [produced, consumed, consuming, hstage]
        omega
    | true =>
      have := hok.2.1 rfl
      simp only
      rw [passOn_counts.1, passOn_counts.2]
      simp [produced, consumed, consuming, hstage]
      omega
  | observe pc =>
    simp only
    rw [observe_counts.1, observe_counts.2]
    simp [produced, consumed, consuming, hstage]
  | ran complete =>
    by_cases hmin : taskFlowMinSwitches ≤ 14 + c.slices <;> cases complete <;>
      simp [produced, consumed, consuming, hstage, hmin]
  | checkTicks =>
    by_cases htest : (c.pitTicks - c.tickStart).toNat ≥ pitTestTicks <;>
      simp only [htest, if_true, if_false] <;> simp [produced, consumed, consuming, hstage]
  | _ => simp [produced, consumed, consuming, hstage]

/-- Messages are counted as they are shown. -/
theorem event_messages (hok : c.OK) (e : FlowEvent) :
    (List.range (c.event e).produced).map message =
        (List.range c.produced).map message ++ (courseStep c e).1.sent.toList ∧
      (List.range (c.event e).consumed).map (fun i => delivered (message i)) =
        (List.range c.consumed).map (fun i => delivered (message i)) ++ (courseStep c e).1.received.toList := by
  cases e with
  | tick => exact ⟨(List.append_nil _).symm, (List.append_nil _).symm⟩
  | step =>
    cases hhalted : c.halted with
    | true => simp [courseStep, FlowOutput.quiet, event, hhalted]
    | false =>
      obtain ⟨hproduced, hconsumed⟩ := step_counts hok
      have hevent : c.event .step = c.step := by simp [event, hhalted]
      have hshown : (courseStep c .step).1 = c.output := by simp [courseStep, hhalted]
      rw [hevent, hshown, hproduced, hconsumed]
      constructor
      · by_cases hsend : c.stage = .produce true
        · have hround : c.produced = c.round := by
            simp only [OK, hsend] at hok
            simp only [produced, consuming, hsend, Bool.false_eq_true, if_false]
            omega
          simp [output, hsend, List.range_succ, hround, message]
        · simp [output, hsend]
      · by_cases hreceive : c.stage = .consume true
        · have hround : c.consumed = c.round := by
            simp only [OK, hreceive] at hok
            simp only [consumed]
            omega
          simp [output, hreceive, List.range_succ, hround, message]
        · simp [output, hreceive]

/-! ## The ticks since the observer's loads -/

/-- A counter has gone on by `n` since its value `start` was loaded. -/
def Elapsed (loaded : Bool) (now start : U32) (n : ℕ) : Prop :=
  if loaded then now - start = word n else n = 0

variable {n k : ℕ}

theorem Elapsed.tick {loaded : Bool} {now start : U32} (h : Elapsed loaded now start n) :
    Elapsed loaded (now + 1) start (n + if loaded then 1 else 0) := by
  cases loaded with
  | false => exact h
  | true =>
    have hdiff : now - start = word n := h
    show now + 1 - start = word (n + 1)
    rw [word_succ, ← hdiff]
    ring

/-- A step that may be the load. -/
theorem Elapsed.load {loaded loads loaded' : Bool} {now start start' : U32} (h : Elapsed loaded now start n)
    (hfirst : loads = true → loaded = false) (hloaded : loaded' = (loaded || loads))
    (hstart : start' = if loads then now else start) : Elapsed loaded' now start' n := by
  cases loads with
  | false =>
    rw [hloaded, Bool.or_false, hstart]
    exact h
  | true =>
    -- nothing was counted before the load, and the difference starts at zero
    rw [hfirst rfl] at h hloaded
    rw [hloaded, hstart, show n = 0 from h]
    exact sub_self now

theorem passOn_timer (c : Course) :
    c.passOn.pitTicks = c.pitTicks ∧ c.passOn.irqCount = c.irqCount ∧ c.passOn.tickStart = c.tickStart ∧
      c.passOn.irqStart = c.irqStart ∧ c.passOn.observerPc = resumePc c.left c.slices := by
  unfold passOn
  cases hleft : c.left with
  | true => by_cases h7 : c.round = 7 <;> simp [observerPc, h7]
  | false => simp [observerPc]

section timer

attribute [local simp] ObserverPc.hasTickStart ObserverPc.hasIrqStart observerPc

/-- A step leaves the counters, and loads each of their start values once. -/
theorem step_timer (hok : c.OK) :
    c.step.pitTicks = c.pitTicks ∧ c.step.irqCount = c.irqCount ∧
      c.step.tickStart = (if c.stage = .observe .startTicks then c.pitTicks else c.tickStart) ∧
      c.step.irqStart = (if c.stage = .observe .startIrqs then c.irqCount else c.irqStart) ∧
      c.step.observerPc.hasTickStart = (c.observerPc.hasTickStart || decide (c.stage = .observe .startTicks)) ∧
      c.step.observerPc.hasIrqStart = (c.observerPc.hasIrqStart || decide (c.stage = .observe .startIrqs)) := by
  have hwaits : (∃ receiving, c.stage = .consume receiving) → c.observerPc = resumePc c.left c.slices := by
    rintro ⟨receiving, hstage⟩
    simp [hstage]
  unfold step
  cases hstage : c.stage with
  | observe pc =>
    simp only [OK, hstage] at hok
    obtain ⟨hleft, hpos, -⟩ := hok
    have hslices : c.slices ≠ 0 := by omega
    cases pc with
    | woken =>
      by_cases h7 : c.round < 7 <;> by_cases hbudget : 14 + c.slices < 256 <;>
        simp [observe, hstage, resumePc, hleft, hslices, h7, hbudget]
    | testTicks =>
      by_cases htest : (c.pitTicks - c.tickStart).toNat < pitTestTicks <;>
        simp only [observe, htest, if_true, if_false] <;> simp [hstage]
    | testIrqs =>
      by_cases htest : (c.irqCount - c.irqStart).toNat < pitTestTicks <;>
        simp only [observe, htest, if_true, if_false] <;> simp [hstage]
    | leave =>
      by_cases h7 : c.round = 7 <;> simp [observe, hstage, resumePc, h7]
    | _ => simp [observe, hstage]
  | consume receiving =>
    cases receiving with
    | false =>
      by_cases h6 : c.round < 6
      · simp [hstage, h6]
      · -- the consumer ends its slice, and the observer goes on where it waits
        obtain ⟨h1, h2, h3, h4, h5⟩ := passOn_timer { c with stage := .consume false, round := 7 }
        simp only [if_neg h6, h1, h2, h3, h4, h5, hwaits ⟨_, hstage⟩]
        simp
    | true =>
      obtain ⟨h1, h2, h3, h4, h5⟩ := passOn_timer { c with stage := .consume true, round := c.round + 1 }
      simp only [h1, h2, h3, h4, h5, hwaits ⟨_, hstage⟩]
      simp
  | produce sending =>
    cases sending with
    | false =>
      by_cases h6 : c.round < 6 <;> simp [hstage, h6]
    | true => simp [hstage]
  | ran complete =>
    by_cases hmin : taskFlowMinSwitches ≤ 14 + c.slices <;> cases complete <;>
      simp [hstage, hmin]
  | checkTicks =>
    by_cases htest : (c.pitTicks - c.tickStart).toNat ≥ pitTestTicks <;>
      simp only [htest, if_true, if_false] <;> simp [hstage]
  | _ => simp [hstage]

/-- The observer is past its test of `pit_ticks()`. -/
def SeenTicks (c : Course) : Prop := c.left = true ∨ c.stage = .observe .testIrqs ∨ c.stage = .observe .leave

theorem passOn_seen (h : c.passOn.SeenTicks) : c.left = true := by
  unfold passOn at h
  cases hleft : c.left with
  | true => rfl
  | false => by_cases h0 : c.slices = 0 <;> simp [SeenTicks, hleft, resumePc, h0] at h

theorem step_seen (hok : c.OK) (h : c.step.SeenTicks) :
    c.SeenTicks ∨ c.stage = .observe .testTicks ∧ pitTestTicks ≤ (c.pitTicks - c.tickStart).toNat := by
  unfold step at h
  cases hstage : c.stage with
  | observe pc =>
    simp only [OK, hstage] at hok
    simp only [hstage] at h
    cases pc with
    | testTicks =>
      by_cases htest : (c.pitTicks - c.tickStart).toNat < pitTestTicks
      · simp only [SeenTicks, observe, htest, if_true, hok.1] at h
        simp at h
      · exact .inr ⟨rfl, Nat.le_of_not_lt htest⟩
    | testIrqs => exact .inl (.inr (.inl hstage))
    | leave => exact .inl (.inr (.inr hstage))
    | woken =>
      simp only [observe] at h
      split_ifs at h <;> simp [SeenTicks, hok.1] at h
    | _ => simp [SeenTicks, observe, hok.1] at h
  | consume receiving =>
    simp only [hstage] at h
    cases receiving with
    | false =>
      simp only at h
      split_ifs at h
      · exact .inl (.inl (by simpa [SeenTicks] using h))
      · exact .inl (.inl (passOn_seen (c := { c with stage := .consume false, round := 7 }) h))
    | true => exact .inl (.inl (passOn_seen (c := { c with stage := .consume true, round := c.round + 1 }) h))
  | produce sending =>
    simp only [hstage] at h
    cases sending with
    | false =>
      by_cases h6 : c.round < 6 <;> exact .inl (.inl (by simpa [SeenTicks, h6] using h))
    | true => exact .inl (.inl (by simpa [SeenTicks] using h))
  | ran complete =>
    simp only [hstage] at h
    refine .inl (.inl ?_)
    split_ifs at h <;> simpa [SeenTicks] using h
  | checkTicks =>
    simp only [hstage] at h
    refine .inl (.inl ?_)
    split_ifs at h <;> simpa [SeenTicks] using h
  | _ => exact .inl (.inl (by simpa [SeenTicks, hstage] using h))

/-- `n` ticks have come since the observer loaded `pit_ticks()`, `k` since it loaded `irq_count(0)`. -/
structure TickCount (c : Course) (n k : ℕ) : Prop where
  ticks : Elapsed c.observerPc.hasTickStart c.pitTicks c.tickStart n
  irqs : Elapsed c.observerPc.hasIrqStart c.irqCount c.irqStart k
  seen : c.SeenTicks → pitTestTicks ≤ n

/-- **Step lemma.** -/
theorem TickCount.event (h : c.TickCount n k) (hok : c.OK) (e : FlowEvent) :
    (c.event e).TickCount (n + if decide (e = .tick) && c.observerPc.hasTickStart then 1 else 0)
      (k + if decide (e = .tick) && c.observerPc.hasIrqStart then 1 else 0) := by
  cases e with
  | tick =>
    refine ⟨h.ticks.tick, h.irqs.tick, fun hseen => ?_⟩
    exact (h.seen hseen).trans (Nat.le_add_right _ _)
  | step =>
    simp only [reduceCtorEq, decide_false, Bool.false_and, Bool.false_eq_true, if_false, Nat.add_zero,
      Course.event]
    split_ifs with hhalted
    · exact h
    · obtain ⟨hnow, hnow', hstart, hstart', hloaded, hloaded'⟩ := step_timer hok
      refine ⟨?_, ?_, fun hseen => ?_⟩
      · rw [hnow]
        refine h.ticks.load (fun hloads => ?_) hloaded (by simpa using hstart)
        simp [of_decide_eq_true hloads]
      · rw [hnow']
        refine h.irqs.load (fun hloads => ?_) hloaded' (by simpa using hstart')
        simp [of_decide_eq_true hloads]
      · obtain hbefore | ⟨hstage, htest⟩ := step_seen hok hseen
        · exact h.seen hbefore
        · have helapsed := h.ticks
          rw [show c.observerPc.hasTickStart = true by simp [hstage]] at helapsed
          rw [show c.pitTicks - c.tickStart = word n from helapsed] at htest
          exact htest.trans (Nat.mod_le _ _)

end timer

/-- What a history and the point it has led to have to do with each other. -/
structure History (c : Course) (tr : List (FlowEvent × FlowOutput)) : Prop where
  ok : c.OK
  awake : c.Awake
  sent : (tr.filterMap fun call => call.2.sent) = (List.range c.produced).map message
  received :
    (tr.filterMap fun call => call.2.received) = (List.range c.consumed).map fun i => delivered (message i)

/-- **Run lemma.** -/
theorem run_history (pitTicks irqCount : U32) (es : List FlowEvent) :
    History (exec courseStep (initial pitTicks irqCount) es)
      (trace courseStep (initial pitTicks irqCount) es) := by
  refine hist_inv (I := fun tr c => History c tr) ?_ ?_ es
  · exact ⟨⟨rfl, rfl, rfl⟩, nofun, rfl, rfl⟩
  · intro tr c e h
    obtain ⟨hsent, hreceived⟩ := event_messages h.ok e
    refine ⟨event_ok h.ok e, event_awake h.awake e, ?_, ?_⟩
    · refine Eq.trans ?_ hsent.symm
      rw [List.filterMap_append, h.sent]
      rfl
    · refine Eq.trans ?_ hreceived.symm
      rw [List.filterMap_append, h.received]
      rfl

/-- The ticks of a run that come once the observer has loaded a counter. -/
def ticksSince (loaded : ObserverPc → Bool) (c : Course) (es : List FlowEvent) : ℕ :=
  countAlong courseStep (fun c e => decide (e = .tick) && loaded c.observerPc) c es

/-- **Run lemma.** -/
theorem run_ticks (pitTicks irqCount : U32) (es : List FlowEvent) :
    (exec courseStep (initial pitTicks irqCount) es).TickCount
      (ticksSince ObserverPc.hasTickStart (initial pitTicks irqCount) es)
      (ticksSince ObserverPc.hasIrqStart (initial pitTicks irqCount) es) := by
  induction es using List.reverseRecOn with
  | nil => exact ⟨rfl, rfl, by simp [SeenTicks, exec, initial]⟩
  | append_singleton es e ih =>
    rw [exec_append, ticksSince, ticksSince, countAlong_concat, countAlong_concat]
    exact ih.event (run_history pitTicks irqCount es).ok e

/-- A course that is past the observer's test has seen three ticks. -/
theorem ticks_seen (pitTicks irqCount : U32) (es : List FlowEvent)
    (h : (exec courseStep (initial pitTicks irqCount) es).SeenTicks) :
    pitTestTicks ≤ (trace courseStep (initial pitTicks irqCount) es).countP fun call => call.1 = .tick := by
  have hle :
      ticksSince ObserverPc.hasTickStart (initial pitTicks irqCount) es ≤ es.countP fun e => e = .tick := by
    refine countAlong_le ?_ _ es
    intro c e he
    exact (Bool.and_eq_true_iff.1 he).1
  have hcount : ((trace courseStep (initial pitTicks irqCount) es).countP fun call => call.1 = .tick) =
      es.countP fun e => e = .tick := by
    have hmap := List.countP_map (p := fun e => decide (e = FlowEvent.tick)) (f := Prod.fst)
      (l := trace courseStep (initial pitTicks irqCount) es)
    rw [trace_fst] at hmap
    exact hmap.symm
  rw [hcount]
  exact ((run_ticks pitTicks irqCount es).seen h).trans hle

end Course

/-! ## The result -/

/-- The ticks of a run that come once the observer has loaded a counter. -/
def ticksSince (loaded : ObserverPc → Bool) (s : Flow) (es : List FlowEvent) : ℕ :=
  countAlong flowStep (fun s e => decide (e = .tick) && loaded s.observer) s es

/-- A step from `s` loads a timer counter in time, `ticks` ticks after the observer's first load of
`pit_ticks()` and `irqs` after that of `irq_count(0)`: when the observer looks at `irq_count` in one of
its first two slices, three have not come; when `run_task_flow` looks at the counters at the end, three
have. The counters show the ticks modulo `2 ^ 32`. -/
structure TimelyStep (s : Flow) (ticks irqs : ℕ) : Prop where
  observer : s.observer = .testIrqs → (taskSwitchCount s.system.scheduler).toNat ≤ 6 →
    irqs % 2 ^ 32 < pitTestTicks
  finalTicks : s.main = .checkTicks → pitTestTicks ≤ ticks % 2 ^ 32
  finalIrqs : s.main = .checkIrqs → pitTestTicks ≤ irqs % 2 ^ 32

/-- The ticks of a run come in time for every step. -/
def Timely (s : Flow) (es : List FlowEvent) : Prop :=
  ∀ before after, es = before ++ .step :: after →
    TimelyStep (exec flowStep s before) (ticksSince ObserverPc.hasTickStart s before)
      (ticksSince ObserverPc.hasIrqStart s before)

theorem Course.observerPc_testIrqs : c.observerPc = .testIrqs ↔ c.stage = .observe .testIrqs := by
  have hresume : Course.resumePc c.left c.slices ≠ .testIrqs := by
    unfold Course.resumePc
    split_ifs <;> simp
  cases hstage : c.stage <;> simp [Course.observerPc, hstage, hresume]

theorem Course.main_checkTicks : c.main = .checkTicks ↔ c.stage = .checkTicks := by
  cases hstage : c.stage <;> simp [Course.main, hstage]

theorem Course.main_checkIrqs : c.main = .checkIrqs ↔ c.stage = .checkIrqs := by
  cases hstage : c.stage <;> simp [Course.main, hstage]

/-- At the end the observer has left. -/
theorem Course.observerPc_checks (hok : c.OK) (hstage : c.stage = .checkTicks ∨ c.stage = .checkIrqs) :
    c.observerPc = .leave := by
  obtain hstage | hstage := hstage
  all_goals
    simp only [Course.OK, hstage] at hok
    simp [Course.observerPc, hstage, Course.resumePc, hok.2.1]

/-- The observer's first two slices are those with at most six switches. -/
theorem Course.dispatches_le_six (hok : c.OK) (hstage : c.stage = .observe .testIrqs) :
    (word c.dispatches).toNat ≤ 6 ↔ c.slices ≤ 2 := by
  simp only [Course.OK, hstage] at hok
  rw [toNat_word (by simp only [Course.dispatches, hstage]; omega)]
  simp only [Course.dispatches, hstage]
  omega

theorem FlowSim.main (h : FlowSim f c) : f.main = c.main := by
  cases h <;> rfl

theorem FlowSim.observer (h : FlowSim f c) : f.observer = c.observerPc := by
  cases h <;> rfl

theorem FlowSim.switches (h : FlowSim f c) (hstage : c.stage ≠ .start) :
    taskSwitchCount f.system.scheduler = word c.dispatches := by
  cases h with
  | start endpoints pitTicks irqCount => exact absurd rfl hstage
  | going _ h =>
    obtain ⟨cursor, htasks, -, -⟩ := h.tasks
    exact htasks.represents.switches

theorem ticksSince_course (endpoints : Ipc) (pitTicks irqCount : U32) (loaded : ObserverPc → Bool)
    (es : List FlowEvent) :
    ticksSince loaded (initialFlow endpoints pitTicks irqCount) es =
      Course.ticksSince loaded (Course.initial pitTicks irqCount) es := by
  refine countAlong_sim (R := fun f c => FlowSim f c ∧ c.OK) ?_ ?_
    ⟨.start endpoints pitTicks irqCount, rfl, rfl, rfl⟩ es
  · intro f c e h
    exact ⟨(flowStep_sim h.1 h.2 e).2, Course.event_ok h.2 e⟩
  · intro f c e h
    rw [h.1.observer]

/-- A step of the code is in time exactly when the step of the course is. -/
theorem FlowSim.timely {n k : ℕ} (h : FlowSim f c) (hok : c.OK) (hcount : c.TickCount n k) :
    TimelyStep f n k ↔ c.Timely .step := by
  have hticks : c.observerPc.hasTickStart = true → (c.pitTicks - c.tickStart).toNat = n % 2 ^ 32 := by
    intro hloaded
    have helapsed := hcount.ticks
    rw [hloaded] at helapsed
    exact (congrArg BitVec.toNat helapsed).trans (BitVec.toNat_ofNat ..)
  have hirqs : c.observerPc.hasIrqStart = true → (c.irqCount - c.irqStart).toNat = k % 2 ^ 32 := by
    intro hloaded
    have helapsed := hcount.irqs
    rw [hloaded] at helapsed
    exact (congrArg BitVec.toNat helapsed).trans (BitVec.toNat_ofNat ..)
  constructor
  · intro ht _
    split
    · next hstage =>
      have hobserver := ht.observer (h.observer.trans (Course.observerPc_testIrqs.2 hstage))
      rw [h.switches (by simp [hstage]), Course.dispatches_le_six hok hstage] at hobserver
      rw [hirqs (by rw [Course.observerPc_testIrqs.2 hstage]; rfl)]
      exact hobserver
    · next hstage =>
      rw [hticks (by rw [Course.observerPc_checks hok (.inl hstage)]; rfl)]
      exact ht.finalTicks (h.main.trans (Course.main_checkTicks.2 hstage))
    · next hstage =>
      rw [hirqs (by rw [Course.observerPc_checks hok (.inr hstage)]; rfl)]
      exact ht.finalIrqs (h.main.trans (Course.main_checkIrqs.2 hstage))
    · trivial
  · intro ht
    have hstep := ht rfl
    refine ⟨fun hpc hfew => ?_, fun hpc => ?_, fun hpc => ?_⟩
    · have hstage := Course.observerPc_testIrqs.1 (h.observer.symm.trans hpc)
      rw [h.switches (by simp [hstage]), Course.dispatches_le_six hok hstage] at hfew
      rw [← hirqs (by rw [Course.observerPc_testIrqs.2 hstage]; rfl)]
      simp only [hstage] at hstep
      exact hstep hfew
    · have hstage := Course.main_checkTicks.1 (h.main.symm.trans hpc)
      rw [← hticks (by rw [Course.observerPc_checks hok (.inl hstage)]; rfl)]
      simp only [hstage] at hstep
      exact hstep
    · have hstage := Course.main_checkIrqs.1 (h.main.symm.trans hpc)
      rw [← hirqs (by rw [Course.observerPc_checks hok (.inr hstage)]; rfl)]
      simp only [hstage] at hstep
      exact hstep

/-- What the flow has done when `task_run` has returned true, whatever the timer did. -/
structure FlowOutcome (tr : List (FlowEvent × FlowOutput)) (s : Flow) : Prop where
  matched : s.taskFlowFailed = false
  sent : (tr.filterMap fun call => call.2.sent) =
    (List.range taskFlowMessages).map fun i => flowMessage (word s.producerTaskId) (word i)
  received : (tr.filterMap fun call => call.2.received) =
    (List.range taskFlowMessages).map fun i => delivered (flowMessage (word s.producerTaskId) (word i))
  produced : s.producedMessages = word taskFlowMessages
  consumed : s.consumedMessages = word taskFlowMessages
  pending : ipcPending s.ipc s.taskFlowEndpoint = 0
  rejected : ipcRejectedCount s.ipc s.taskFlowEndpoint = 0
  finished : taskFinishedCount s.system.scheduler = 3
  ticks : pitTestTicks ≤ tr.countP fun call => call.1 = .tick
  switches : 2 * (taskFlowMessages + 1) < (taskSwitchCount s.system.scheduler).toNat ∧
    (taskSwitchCount s.system.scheduler).toNat ≤ taskFlowBudget.toNat

/-- What `run_task_flow` is to find. -/
structure FlowCorrect (tr : List (FlowEvent × FlowOutput)) (s : Flow) : Prop extends FlowOutcome tr s where
  returned : s.main = .returned true
  minSwitches : taskFlowMinSwitches ≤ (taskSwitchCount s.system.scheduler).toNat

/-- The state when `run_task_flow` returns after a complete run. -/
theorem Backed.outcome {result : Bool} {system : TaskSystem} {ipc : Ipc} {tr : List (FlowEvent × FlowOutput)}
    (h : Backed c system ipc) (hstage : c.stage = .returned true result) (hist : c.History tr)
    (hticks : c.SeenTicks → pitTestTicks ≤ tr.countP fun call => call.1 = .tick) :
    FlowOutcome tr (c.flow system ipc) ∧ (taskSwitchCount system.scheduler).toNat = 14 + c.slices := by
  have hok := hist.ok
  simp only [Course.OK, hstage] at hok
  obtain ⟨hround, hleft, hpos, hbudget⟩ := hok trivial
  have hturn : c.turn = none := by simp [Course.turn, hstage]
  have hdispatches : c.dispatches = 14 + c.slices := by simp [Course.dispatches, hstage, hround]
  have hdone := h.completed hturn hround hleft hdispatches hbudget
  have hproduced : c.produced = 6 := by simp [Course.produced, Course.consuming, hstage, hround]
  have hconsumed : c.consumed = 6 := by simp [Course.consumed, hround]
  have hsent := hist.sent
  have hreceived := hist.received
  rw [hproduced] at hsent
  rw [hconsumed] at hreceived
  refine ⟨⟨rfl, hsent, hreceived, ?_, ?_, hdone.pending, hdone.rejected, hdone.finished, ?_, ?_⟩, hdone.switches⟩
  · simp only [Course.flow, hproduced]
  · simp only [Course.flow, hconsumed]
  · exact hticks (.inl hleft)
  · have hswitches : (taskSwitchCount (c.flow system ipc).system.scheduler).toNat = 14 + c.slices :=
      hdone.switches
    rw [hswitches]
    change 14 < 14 + c.slices ∧ 14 + c.slices ≤ 256
    omega

theorem Course.main_ran {complete : Bool} (h : c.main = .ran complete) : c.stage = .ran complete := by
  cases hstage : c.stage <;> simp [Course.main, hstage] at h
  rw [h]

/-- After three steps `run_task_flow` has returned. -/
theorem course_returned (pitTicks irqCount : U32) (es₁ es₂ : List FlowEvent)
    (hran : (exec courseStep (Course.initial pitTicks irqCount) es₁).stage = .ran true)
    (hsteps : 3 ≤ es₂.count .step) :
    ∃ result,
      (exec courseStep (Course.initial pitTicks irqCount) (es₁ ++ es₂)).stage = .returned true result := by
  have hawake := (Course.run_history pitTicks irqCount es₁).awake
  obtain ⟨m, hm, hle⟩ := Course.run_rest (n := 3) es₂ hawake (by simp only [Course.rest, hran])
  obtain rfl : m = 0 := by omega
  rw [exec_append]
  exact Course.rest_eq_zero hm

/-- The observer has its three slices, and the result is true, exactly in timely runs. -/
theorem course_timely (endpoints : Ipc) (pitTicks irqCount : U32) (es : List FlowEvent) :
    (exec courseStep (Course.initial pitTicks irqCount) es).Good ↔
      Timely (initialFlow endpoints pitTicks irqCount) es := by
  have hstep : ∀ before, TimelyStep (exec flowStep (initialFlow endpoints pitTicks irqCount) before)
      (ticksSince ObserverPc.hasTickStart (initialFlow endpoints pitTicks irqCount) before)
      (ticksSince ObserverPc.hasIrqStart (initialFlow endpoints pitTicks irqCount) before) ↔
      (exec courseStep (Course.initial pitTicks irqCount) before).Timely .step := by
    intro before
    obtain ⟨-, hsim, hok⟩ := flowRun_sim endpoints pitTicks irqCount before
    rw [ticksSince_course, ticksSince_course]
    exact hsim.timely hok (Course.run_ticks pitTicks irqCount before)
  have hgood : (exec courseStep (Course.initial pitTicks irqCount) es).Good ↔ ∀ before e after,
      es = before ++ e :: after → (exec courseStep (Course.initial pitTicks irqCount) before).Timely e :=
    exec_iff (I := fun c => c.OK ∧ c.Awake) (G := Course.Good) (P := Course.Timely)
      (fun c e h => ⟨Course.event_ok h.1 e, Course.event_awake h.2 e⟩)
      (fun c e h => Course.event_good h.1 h.2 e)
      (s := Course.initial pitTicks irqCount) ⟨⟨rfl, rfl, rfl⟩, nofun⟩ nofun es
  rw [hgood]
  constructor
  · intro h before after hes
    exact (hstep before).2 (h before .step after hes)
  · -- `Course.Timely` asks nothing of a tick
    intro h before e after hes he
    subst he
    exact (hstep before).1 (h before after hes) rfl

/-- **The task flow and the timer**: when `task_run` has returned true, `run_task_flow` returns
after three more steps. Whatever the timer does, all messages went through, in order; but
the result is true exactly when the ticks were timely. -/
theorem task_flow_timing (endpoints : Ipc) (pitTicks irqCount : U32) (es₁ es₂ : List FlowEvent)
    (hran : (exec flowStep (initialFlow endpoints pitTicks irqCount) es₁).main = .ran true)
    (hsteps : 3 ≤ es₂.count .step) :
    (∃ result, (exec flowStep (initialFlow endpoints pitTicks irqCount) (es₁ ++ es₂)).main = .returned result) ∧
      FlowOutcome (trace flowStep (initialFlow endpoints pitTicks irqCount) (es₁ ++ es₂))
        (exec flowStep (initialFlow endpoints pitTicks irqCount) (es₁ ++ es₂)) ∧
      (FlowCorrect (trace flowStep (initialFlow endpoints pitTicks irqCount) (es₁ ++ es₂))
          (exec flowStep (initialFlow endpoints pitTicks irqCount) (es₁ ++ es₂)) ↔
        Timely (initialFlow endpoints pitTicks irqCount) (es₁ ++ es₂)) := by
  have hstage₁ := Course.main_ran ((flowRun_sim endpoints pitTicks irqCount es₁).2.1.main.symm.trans hran)
  obtain ⟨result, hstage⟩ := course_returned pitTicks irqCount es₁ es₂ hstage₁ hsteps
  obtain ⟨htrace, hsim, -⟩ := flowRun_sim endpoints pitTicks irqCount (es₁ ++ es₂)
  have hist := Course.run_history pitTicks irqCount (es₁ ++ es₂)
  have hticks := Course.ticks_seen pitTicks irqCount (es₁ ++ es₂)
  rw [← course_timely, htrace]
  generalize exec courseStep (Course.initial pitTicks irqCount) (es₁ ++ es₂) = c at *
  generalize exec flowStep (initialFlow endpoints pitTicks irqCount) (es₁ ++ es₂) = f at *
  have hmain : f.main = .returned result := by rw [hsim.main, Course.main, hstage]
  cases hsim with
  | start => simp [Course.initial] at hstage
  | going _ h =>
    obtain ⟨houtcome, hswitches⟩ := h.outcome hstage hist hticks
    have hgood : c.Good ↔ 3 ≤ c.slices ∧ result = true := by simp only [Course.Good, hstage]
    refine ⟨⟨result, hmain⟩, houtcome, ?_⟩
    rw [hgood]
    constructor
    · intro hcorrect
      have hmin : 17 ≤ 14 + c.slices := hcorrect.minSwitches.trans_eq hswitches
      exact ⟨by omega, FlowPc.returned.inj (hmain.symm.trans hcorrect.returned)⟩
    · rintro ⟨hslices, rfl⟩
      have hmin : 17 ≤ 14 + c.slices := by omega
      exact ⟨houtcome, hmain, hmin.trans_eq hswitches.symm⟩

/-! ### Two runs -/

/-- The endpoints as the loader leaves them. -/
def loadedEndpoints : Ipc := fun _ => ⟨false, 0, 0, 0, fun _ => messageClear⟩

/-- The observer has to wait for each tick. -/
def steadyTicks : List FlowEvent :=
  List.replicate 10 FlowEvent.step ++ [FlowEvent.tick] ++ List.replicate 7 FlowEvent.step ++ [FlowEvent.tick] ++
    List.replicate 7 FlowEvent.step ++ [FlowEvent.tick] ++ List.replicate 18 FlowEvent.step

/-- Three ticks come between the observer's first look at the counters and its first test. -/
def earlyTicks : List FlowEvent := .replicate 8 .step ++ .replicate 3 .tick ++ .replicate 25 .step

/-- A state of the code is evaluated on the course. -/
theorem main_of_course {es : List FlowEvent} {main : FlowPc}
    (h : (exec courseStep (Course.initial 0 0) es).main = main) :
    (exec flowStep (initialFlow loadedEndpoints 0 0) es).main = main :=
  (flowRun_sim loadedEndpoints 0 0 es).2.1.main.trans h

theorem task_flow_timing_steady :
    (exec flowStep (initialFlow loadedEndpoints 0 0) steadyTicks).main = .ran true ∧
      FlowCorrect (trace flowStep (initialFlow loadedEndpoints 0 0) (steadyTicks ++ .replicate 3 .step))
        (exec flowStep (initialFlow loadedEndpoints 0 0) (steadyTicks ++ .replicate 3 .step)) := by
  have hran : (exec flowStep (initialFlow loadedEndpoints 0 0) steadyTicks).main = .ran true :=
    main_of_course (by decide +kernel)
  have hend : exec courseStep (Course.initial 0 0) (steadyTicks ++ .replicate 3 .step) =
      ⟨.returned true true, 7, 4, true, 0, 0, 3, 3, false⟩ := by decide +kernel
  refine ⟨hran, (task_flow_timing loadedEndpoints 0 0 steadyTicks (.replicate 3 .step) hran (by decide)).2.2.2 ?_⟩
  rw [← course_timely, hend]
  exact ⟨by decide, rfl⟩

theorem task_flow_early_ticks :
    (exec flowStep (initialFlow loadedEndpoints 0 0) earlyTicks).main = .ran true ∧
      (exec flowStep (initialFlow loadedEndpoints 0 0) (earlyTicks ++ .replicate 3 .step)).main =
        .returned false ∧
      ¬FlowCorrect (trace flowStep (initialFlow loadedEndpoints 0 0) (earlyTicks ++ .replicate 3 .step))
        (exec flowStep (initialFlow loadedEndpoints 0 0) (earlyTicks ++ .replicate 3 .step)) := by
  have hfalse : (exec flowStep (initialFlow loadedEndpoints 0 0) (earlyTicks ++ .replicate 3 .step)).main =
      .returned false := main_of_course (by decide +kernel)
  refine ⟨main_of_course (by decide +kernel), hfalse, ?_⟩
  intro hcorrect
  rw [hcorrect.returned] at hfalse
  exact absurd (FlowPc.returned.inj hfalse) (by decide)

end TinyShell
