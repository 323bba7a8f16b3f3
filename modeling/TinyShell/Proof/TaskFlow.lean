import TinyShell.Proof.Budget
import TinyShell.Proof.Ipc
import TinyShell.Spec.TaskFlow

/-!
# The course of the boot task flow

Whatever the timer does, the producer and the consumer take turns and every message
goes through at once; only how long the observer stays is open. The abstract model is
that course: whose turn it is, how many messages went through, how many slices the
observer had.

* `step_ok`: the numbers of a course fit together.
* `flowStep_sim`, `flowRun_sim`: the code follows the course, step by step and in whole runs.
-/

namespace TinyShell

open Machine

/-! ## Entries -/

variable {s : Scheduler} {sys : TaskSystem}

@[simp] theorem setState_entry (id i : ℕ) (state : TaskState) :
    ((setState s id state).tasks i).entry = (s.tasks i).entry := by
  by_cases hi : i = id
  · subst hi
    simp [setState]
  · simp [setState, Function.update_of_ne hi]

@[simp] theorem saveContext_entry (id i : ℕ) (context : Context) :
    ((saveContext s id context).tasks i).entry = (s.tasks i).entry := by
  by_cases hi : i = id
  · subst hi
    simp [saveContext]
  · simp [saveContext, Function.update_of_ne hi]

@[simp] theorem activateTask_entry (id i : ℕ) :
    ((activateTask s id).2.tasks i).entry = (s.tasks i).entry := by
  unfold activateTask
  split_ifs
  · rfl
  · exact setState_entry id i .running

@[simp] theorem switchToBootstrap_entry (previous i : ℕ) (context : Context) :
    ((switchToBootstrap s previous context).2.scheduler.tasks i).entry = (s.tasks i).entry := by
  simp [switchToBootstrap]

/-- A dispatch changes no entry. -/
theorem leave_entry (previous i : ℕ) (context : Context) :
    ((leave s previous context).2.scheduler.tasks i).entry = (s.tasks i).entry := by
  unfold leave
  simp only
  split_ifs
  · have hactivate := activateTask_entry (s := s) (findNextReady s previous) i
    generalize activateTask s (findNextReady s previous) = step at *
    obtain ⟨_ | _, s'⟩ := step <;> simpa using hactivate
  · simp

theorem taskExit_entry (i : ℕ) : ((taskExit sys).2.scheduler.tasks i).entry = (sys.scheduler.tasks i).entry := by
  rw [taskExit_eq]
  split_ifs
  · rfl
  · rw [leave_entry]
    exact setState_entry _ i .finished

theorem taskYield_entry (i : ℕ) :
    ((taskYield sys).2.scheduler.tasks i).entry = (sys.scheduler.tasks i).entry := by
  have hactivate := activateTask_entry (s := setState sys.scheduler sys.scheduler.currentTaskId .ready)
    (findNextReady (setState sys.scheduler sys.scheduler.currentTaskId .ready) sys.scheduler.currentTaskId) i
  rw [setState_entry] at hactivate
  unfold taskYield
  simp only
  generalize activateTask (setState sys.scheduler sys.scheduler.currentTaskId .ready) _ = step at *
  obtain ⟨ok, s'⟩ := step
  simp only at hactivate
  cases ok <;> split_ifs <;> simp [hactivate]

theorem taskRun_entry (budget : U32) (i : ℕ) :
    ((taskRun sys budget).2.scheduler.tasks i).entry = (sys.scheduler.tasks i).entry := by
  unfold taskRun
  simp only
  split_ifs
  · rfl
  · rfl
  · rfl
  · have hactivate := activateTask_entry
      (s := { sys.scheduler with remainingDispatches := budget, schedulerRunning := true })
      (findNextReady sys.scheduler sys.scheduler.roundRobinCursor) i
    generalize
      activateTask { sys.scheduler with remainingDispatches := budget, schedulerRunning := true } _ = step at *
    obtain ⟨_ | _, s'⟩ := step <;> simpa using hactivate

/-! ## The course -/

/-- Whose turn it is, and where its code is. -/
inductive Stage
  | start
  | run
  | produce (sending : Bool)
  | consume (receiving : Bool)
  | observe (pc : ObserverPc)
  | ran (complete : Bool)
  | checkTicks
  | checkIrqs
  | returned (complete result : Bool)
  deriving DecidableEq

structure Course where
  stage : Stage
  /-- The messages that went through; 7 when the producer and the consumer have finished. -/
  round : ℕ
  /-- The slices that the observer had. -/
  slices : ℕ
  /-- The observer has left its loop. -/
  left : Bool
  tickStart : U32
  irqStart : U32
  pitTicks : U32
  irqCount : U32
  halted : Bool
  deriving DecidableEq

namespace Course

def initial (pitTicks irqCount : U32) : Course := ⟨.start, 0, 0, false, 0, 0, pitTicks, irqCount, false⟩

/-- Where the observer goes on in its next slice. -/
def resumePc (left : Bool) (slices : ℕ) : ObserverPc :=
  if left then .leave else if slices = 0 then .startTicks else .testTicks

/-- The consumer is through: the observer's turn, if it is still there. -/
def passOn (c : Course) : Course :=
  if c.left then { c with stage := if c.round = 7 then .ran true else .produce false }
  else
    { c with
      stage := .observe (resumePc false c.slices)
      slices := c.slices + 1 }

def observe (c : Course) : ObserverPc → Course
  | .startTicks => { c with tickStart := c.pitTicks, stage := .observe .startIrqs }
  | .startIrqs => { c with irqStart := c.irqCount, stage := .observe .testTicks }
  | .testTicks =>
    { c with stage := .observe (if (c.pitTicks - c.tickStart).toNat < pitTestTicks then .halt else .testIrqs) }
  | .testIrqs =>
    { c with stage := .observe (if (c.irqCount - c.irqStart).toNat < pitTestTicks then .halt else .leave) }
  | .halt => { c with halted := true, stage := .observe .woken }
  | .woken =>
    if c.round < 7 then { c with stage := .produce false }
    else if 14 + c.slices < 256 then { c with stage := .observe .testTicks, slices := c.slices + 1 }
    else { c with stage := .ran false }
  | .leave => { c with left := true, stage := if c.round = 7 then .ran true else .produce false }

def step (c : Course) : Course :=
  match c.stage with
  | .start => { c with stage := .run }
  | .run => { c with stage := .produce false }
  | .produce false => { c with stage := if c.round < 6 then .produce true else .consume false }
  | .produce true => { c with stage := .consume false }
  | .consume false =>
    if c.round < 6 then { c with stage := .consume true } else passOn { c with round := 7 }
  | .consume true => passOn { c with round := c.round + 1 }
  | .observe pc => c.observe pc
  | .ran complete =>
    { c with
      stage := if complete && decide (taskFlowMinSwitches ≤ 14 + c.slices) then .checkTicks
        else .returned complete false }
  | .checkTicks =>
    { c with
      stage := if (c.pitTicks - c.tickStart).toNat ≥ pitTestTicks then .checkIrqs else .returned true false }
  | .checkIrqs => { c with stage := .returned true ((c.irqCount - c.irqStart).toNat ≥ pitTestTicks) }
  | .returned _ _ => c

/-- The course at some stage, with the processor awake. -/
def point (c : Course) (stage : Stage) : Course := { c with stage := stage, halted := false }

/-- One event of the abstract model. -/
def event (c : Course) : FlowEvent → Course
  | .tick => { c with pitTicks := c.pitTicks + 1, irqCount := c.irqCount + 1, halted := false }
  | .step => if c.halted then c else c.step

/-! What the variables of the code are at a point of the course. -/

def turn (c : Course) : Option ℕ :=
  match c.stage with
  | .produce _ => some 0
  | .consume _ => some 1
  | .observe _ => some 2
  | _ => none

def consuming (c : Course) : Bool :=
  match c.stage with
  | .consume _ => true
  | _ => false

def dispatches (c : Course) : ℕ :=
  match c.stage with
  | .start => 0
  | .run => 0
  | .produce _ => 2 * c.round + 1 + c.slices
  | .consume _ => 2 * c.round + 2 + c.slices
  | _ => 2 * c.round + c.slices

def produced (c : Course) : ℕ := min 6 (if c.consuming then c.round + 1 else c.round)

def consumed (c : Course) : ℕ := min 6 c.round

def producerDone (c : Course) : Bool := c.round = 7 || (c.consuming && c.round = 6)

def consumerDone (c : Course) : Bool := c.round = 7

def slotOf : Bool → Slot
  | true => .done
  | false => .live

def slots (c : Course) : ℕ → Slot
  | 0 => slotOf c.producerDone
  | 1 => slotOf c.consumerDone
  | 2 => slotOf c.left
  | _ => .free

def queue (c : Course) : List IpcMessage :=
  if c.consuming && c.round < 6 then [delivered (flowMessage 0 (word c.round))] else []

def producerPc (c : Course) : ProducerPc :=
  if c.stage = .produce true then .send (word c.round) (flowMessage 0 (word c.round)) else .next (word c.produced)

def consumerPc (c : Course) : ConsumerPc :=
  if c.stage = .consume true then .receive (word c.round) else .next (word c.consumed)

def observerPc (c : Course) : ObserverPc :=
  match c.stage with
  | .observe pc => pc
  | _ => resumePc c.left c.slices

def main (c : Course) : FlowPc :=
  match c.stage with
  | .start => .start
  | .run => .run
  | .ran complete => .ran complete
  | .checkTicks => .checkTicks
  | .checkIrqs => .checkIrqs
  | .returned _ result => .returned result
  | _ => .running

/-- What the next step shows. -/
def output (c : Course) : FlowOutput where
  sent := if c.stage = .produce true then some (flowMessage 0 (word c.round)) else none
  received := if c.stage = .consume true then some (delivered (flowMessage 0 (word c.round))) else none
  returned :=
    match c.step.stage with
    | .ran complete => some (.ran complete)
    | _ => none

/-- The rota at a point of the course, when task `cursor` had the last turn. -/
def rota (c : Course) (cursor : Option ℕ) : Rota :=
  ⟨c.slots, cursor, c.turn.map fun _ => word (256 - c.dispatches), word c.dispatches⟩

/-- How the observer keeps pace while the messages go through. -/
def Pace (c : Course) : Prop := if c.left then 1 ≤ c.slices ∧ c.slices ≤ c.round else c.slices = c.round

/-- The numbers of the course fit together. -/
def OK (c : Course) : Prop :=
  match c.stage with
  | .start => c.round = 0 ∧ c.slices = 0 ∧ c.left = false
  | .run => c.round = 0 ∧ c.slices = 0 ∧ c.left = false
  | .produce sending => c.round ≤ 6 ∧ (sending = true → c.round < 6) ∧ c.Pace
  | .consume receiving => c.round ≤ 6 ∧ (receiving = true → c.round < 6) ∧ c.Pace
  | .observe _ => c.left = false ∧ 1 ≤ c.slices ∧
      (c.round < 7 ∧ c.slices = c.round ∨ c.round = 7 ∧ 7 ≤ c.slices ∧ 14 + c.slices ≤ 256)
  | .ran complete => complete = true → c.round = 7 ∧ c.left = true ∧ 1 ≤ c.slices ∧ 14 + c.slices ≤ 256
  | .checkTicks => c.round = 7 ∧ c.left = true ∧ 1 ≤ c.slices ∧ 14 + c.slices ≤ 256
  | .checkIrqs => c.round = 7 ∧ c.left = true ∧ 1 ≤ c.slices ∧ 14 + c.slices ≤ 256
  | .returned complete _ => complete = true → c.round = 7 ∧ c.left = true ∧ 1 ≤ c.slices ∧ 14 + c.slices ≤ 256

variable {c : Course}

theorem passOn_ok (hround : c.round ≤ 7) (hleft : c.left = true → 1 ≤ c.slices ∧ c.slices ≤ c.round)
    (hstays : c.left = false → c.slices + 1 = c.round) : c.passOn.OK := by
  unfold passOn
  cases hl : c.left with
  | true =>
    obtain ⟨hpos, hle⟩ := hleft hl
    by_cases h7 : c.round = 7
    · simp only [h7, if_true, OK]
      exact fun _ => ⟨trivial, trivial, by omega, by omega⟩
    · simp only [h7, if_true, if_false, OK, Pace]
      exact ⟨by omega, by simp, hpos, hle⟩
  | false =>
    have := hstays hl
    simp only [Bool.false_eq_true, if_false, OK]
    exact ⟨trivial, by omega, by omega⟩

theorem observe_ok {pc : ObserverPc} (hstage : c.stage = .observe pc) (h : c.OK) : (c.observe pc).OK := by
  simp only [OK, hstage] at h
  obtain ⟨hl, hpos, hpace⟩ := h
  cases pc with
  | startTicks => exact ⟨hl, hpos, hpace⟩
  | startIrqs => exact ⟨hl, hpos, hpace⟩
  | testTicks => exact ⟨hl, hpos, hpace⟩
  | testIrqs => exact ⟨hl, hpos, hpace⟩
  | halt => exact ⟨hl, hpos, hpace⟩
  | woken =>
    simp only [observe]
    split_ifs with h7 hbudget
    · have hsame : c.slices = c.round := by omega
      have hle : c.round ≤ 6 := by omega
      exact ⟨hle, by simp, by simpa [Pace, hl] using hsame⟩
    · exact ⟨hl, by simp, .inr (by simp only; omega)⟩
    · simp [OK]
  | leave =>
    by_cases h7 : c.round = 7
    · simp only [observe, h7, if_true, OK]
      exact fun _ => ⟨trivial, trivial, by omega, by omega⟩
    · simp only [observe, h7, if_false, OK, Pace, if_true]
      exact ⟨by omega, by simp, by omega, by omega⟩

theorem step_ok (h : c.OK) : c.step.OK := by
  unfold step
  cases hstage : c.stage with
  | start => simpa [OK, hstage] using h
  | run =>
    simp only [OK, hstage] at h
    simp [OK, Pace, h]
  | produce sending =>
    simp only [OK, hstage] at h
    cases sending with
    | false =>
      by_cases h6 : c.round < 6
      · simpa [OK, h6, Pace] using h
      · simpa [OK, h6, Pace] using h
    | true => exact ⟨h.1, by simp, h.2.2⟩
  | consume receiving =>
    simp only [OK, hstage] at h
    obtain ⟨hround, hreceiving, hpace⟩ := h
    have hleft : c.left = true → 1 ≤ c.slices ∧ c.slices ≤ c.round := fun hl => by simpa [Pace, hl] using hpace
    have hstays : c.left = false → c.slices = c.round := fun hl => by simpa [Pace, hl] using hpace
    cases receiving with
    | false =>
      simp only
      split_ifs with h6
      · exact ⟨hround, fun _ => h6, hpace⟩
      · refine passOn_ok (by simp) ?_ ?_
        · intro hl
          have := hleft hl
          simp only
          omega
        · intro hl
          have := hstays hl
          simp only
          omega
    | true =>
      have := hreceiving rfl
      refine passOn_ok (by simp only; omega) ?_ ?_
      · intro hl
        have := hleft hl
        simp only
        omega
      · intro hl
        have := hstays hl
        simp only
        omega
  | observe pc => exact observe_ok hstage h
  | ran complete =>
    simp only [OK, hstage] at h
    cases complete with
    | false => simp [OK]
    | true =>
      by_cases hmin : taskFlowMinSwitches ≤ 14 + c.slices
      · simpa [OK, hmin] using h
      · simpa [OK, hmin] using h
  | checkTicks =>
    simp only [OK, hstage] at h
    simp only
    split_ifs
    · simpa [OK] using h
    · simpa [OK] using h
  | checkIrqs =>
    simp only [OK, hstage] at h
    simpa [OK] using h
  | returned complete result => exact h

theorem event_ok (h : c.OK) (e : FlowEvent) : (c.event e).OK := by
  cases e with
  | tick => exact h
  | step =>
    unfold event
    split_ifs
    · exact h
    · exact step_ok h

end Course

/-! ## Turns of the three tasks -/

variable {r q : Rota} {f : Flow} {budget : U32} {j : ℕ}

/-- The search among three tasks. -/
theorem cyclicFind_three (p : ℕ → Bool) (h : ∀ i, 3 ≤ i → p i = false) :
    cyclicFind 8 0 p = [0, 1, 2].find? p ∧ cyclicFind 8 1 p = [1, 2, 0].find? p ∧
      cyclicFind 8 2 p = [2, 0, 1].find? p ∧ cyclicFind 8 3 p = [0, 1, 2].find? p := by
  have hrange : List.range 8 = [0, 1, 2, 3, 4, 5, 6, 7] := rfl
  cases h0 : p 0 <;> cases h1 : p 1 <;> cases h2 : p 2 <;>
    simp [cyclicFind, hrange, h0, h1, h2, h]

/-- What a yield or an exit of the running task leaves to the dispatcher. -/
inductive GivesUp (r : Rota) : TaskCall → Rota → Prop
  | yield : GivesUp r .yield r
  | exit : GivesUp r .exit r.finish

theorem giveUp_sim (h : TaskOK sys r) (hb : r.budget = some budget) {call : TaskCall} (hcall : GivesUp r call q) :
    (taskStep sys (.task call)).1 = (q.dispatch budget).1 ∧
      TaskOK (taskStep sys (.task call)).2 (q.dispatch budget).2 ∧
      ∀ i, ((taskStep sys (.task call)).2.scheduler.tasks i).entry = (sys.scheduler.tasks i).entry := by
  obtain ⟨i, -, hturn, -, -⟩ := h.inTurn hb
  rw [taskStep_task hturn.control]
  cases hcall with
  | yield =>
    obtain ⟨hout, hok⟩ := taskYield_sim h hb
    exact ⟨hout, hok, taskYield_entry⟩
  | exit =>
    obtain ⟨hout, hok⟩ := taskExit_sim h hb
    exact ⟨hout, hok, taskExit_entry⟩

/-- The switch to the next task of the flow. -/
theorem schedulerCall_turn (h : TaskOK f.system r) (hb : r.budget = some budget) {call : TaskCall}
    (hcall : GivesUp r call q) (hn : q.next = some j) (hbudget : budget ≠ 0) :
    ∃ sys, schedulerCall f call = (none, { f with system := sys }) ∧
      TaskOK sys { q with cursor := some j, budget := some (budget - 1), switches := q.switches + 1 } ∧
      ∀ i, (sys.scheduler.tasks i).entry = (f.system.scheduler.tasks i).entry := by
  obtain ⟨hout, hok, hentry⟩ := giveUp_sim h hb hcall
  rw [Rota.dispatch_some hn hbudget] at hout hok
  refine ⟨(taskStep f.system (.task call)).2, ?_, hok, hentry⟩
  simp only [schedulerCall, hout]

/-- The end of the run. -/
theorem schedulerCall_end (h : TaskOK f.system r) (hb : r.budget = some budget) {call : TaskCall}
    (hcall : GivesUp r call q) (hend : q.next = none ∨ budget = 0) :
    ∃ sys, schedulerCall f call =
        (some (.ran q.next.isNone), { f with system := sys, main := .ran q.next.isNone }) ∧
      TaskOK sys { q with budget := none } ∧
      ∀ i, (sys.scheduler.tasks i).entry = (f.system.scheduler.tasks i).entry := by
  obtain ⟨hout, hok, hentry⟩ := giveUp_sim h hb hcall
  rw [Rota.dispatch_end hend] at hout hok
  refine ⟨(taskStep f.system (.task call)).2, ?_, hok, hentry⟩
  simp only [schedulerCall, hout]

/-! ## The code follows the course -/

structure Entries (sys : TaskSystem) : Prop where
  producer : (sys.scheduler.tasks 0).entry = producerTask
  consumer : (sys.scheduler.tasks 1).entry = consumerTask
  observer : (sys.scheduler.tasks 2).entry = timerObserverTask

theorem Entries.of_entry_eq {sys' : TaskSystem} (h : Entries sys)
    (hentry : ∀ i, (sys'.scheduler.tasks i).entry = (sys.scheduler.tasks i).entry) : Entries sys' :=
  ⟨(hentry 0).trans h.producer, (hentry 1).trans h.consumer, (hentry 2).trans h.observer⟩

/-- The bank of queues while the flow runs. -/
def flowBank (queue : List IpcMessage) : FifoBank := Function.update emptyBank 0 (some ⟨queue, 0⟩)

/-- The variables of the flow at a point of the course. -/
def Course.flow (c : Course) (system : TaskSystem) (ipc : Ipc) : Flow where
  system := system
  ipc := ipc
  taskFlowEndpoint := 0
  producerTaskId := 0
  taskFlowTickStart := c.tickStart
  taskFlowIrqStart := c.irqStart
  producedMessages := word c.produced
  consumedMessages := word c.consumed
  producerFinished := c.producerDone
  consumerFinished := c.consumerDone
  timerObserverFinished := c.left
  taskFlowFailed := false
  pitTicks := c.pitTicks
  irqCount := c.irqCount
  halted := c.halted
  producer := c.producerPc
  consumer := c.consumerPc
  observer := c.observerPc
  main := c.main

/-- The scheduler and the endpoint at a point of the course. -/
structure Backed (c : Course) (system : TaskSystem) (ipc : Ipc) : Prop where
  entries : Entries system
  ipc : IpcOK ipc (flowBank c.queue)
  tasks : ∃ cursor, TaskOK system (c.rota cursor) ∧ (∀ i, c.turn = some i → cursor = some i) ∧
    (c.stage = .run → cursor = none)

/-- The code is at a point of the course. -/
inductive FlowSim : Flow → Course → Prop
  | start (endpoints : Ipc) (pitTicks irqCount : U32) :
    FlowSim (initialFlow endpoints pitTicks irqCount) (Course.initial pitTicks irqCount)
  | going {c : Course} {system : TaskSystem} {ipc : Ipc} (hstage : c.stage ≠ .start) (h : Backed c system ipc) :
    FlowSim (c.flow system ipc) c

variable {c : Course} {system : TaskSystem} {ipc : Ipc}

/-- The task that has its turn. -/
theorem Backed.inTurn {i : ℕ} (h : Backed c system ipc) (hi : c.turn = some i) :
    TaskOK system (c.rota (some i)) ∧ (c.rota (some i)).budget = some (word (256 - c.dispatches)) ∧
      system.control = .task i ∧ taskCurrentId system.scheduler = i := by
  obtain ⟨cursor, htasks, hcursor, -⟩ := h.tasks
  obtain rfl := hcursor i hi
  have hb : (c.rota (some i)).budget = some (word (256 - c.dispatches)) := by simp [Course.rota, hi]
  obtain ⟨j, hj, hturn, -, -⟩ := htasks.inTurn hb
  obtain rfl : i = j := Option.some.inj hj
  refine ⟨htasks, hb, hturn.control, ?_⟩
  have := hturn.lt
  simp only [taskCurrentId, hturn.running, hturn.current]
  rw [if_neg (by simp; omega)]

/-- The code of the task that has its turn. -/
theorem flowStep_turn {i : ℕ} (h : Backed c system ipc) (hi : c.turn = some i) (hawake : c.halted = false) :
    flowStep (c.flow system ipc) .step =
      if i = 0 then producerTaskStep (c.flow system ipc)
      else if i = 1 then consumerTaskStep (c.flow system ipc)
      else timerObserverTaskStep (c.flow system ipc) := by
  obtain ⟨-, -, hcontrol, -⟩ := h.inTurn hi
  have hi3 : i = 0 ∨ i = 1 ∨ i = 2 := by
    unfold Course.turn at hi
    split at hi <;> simp at hi <;> omega
  have hcontrol' : (c.flow system ipc).system.control = .task i := hcontrol
  unfold flowStep
  rw [if_neg (by simp [Course.flow, hawake])]
  simp only [hcontrol']
  rcases hi3 with rfl | rfl | rfl
  · simp [Course.flow, h.entries.producer]
  · simp [Course.flow, h.entries.consumer]
  · simp [Course.flow, h.entries.observer]

/-- The simulation of one step. -/
def StepSim (f : Flow) (c : Course) : Prop :=
  (flowStep f .step).1 = c.output ∧ FlowSim (flowStep f .step).2 c.step

/-- A step that does not call the scheduler. -/
theorem StepSim.local {c' : Course} (h : Backed c system ipc) (hcourse : c.step = c')
    (hstep : flowStep (c.flow system ipc) .step = (c.output, c'.flow system ipc))
    (hturn : c'.turn = c.turn) (hstage : c'.stage ≠ .start ∧ c'.stage ≠ .run) (hslots : c'.slots = c.slots)
    (hdispatches : c'.dispatches = c.dispatches) (hqueue : c'.queue = c.queue) :
    StepSim (c.flow system ipc) c := by
  obtain ⟨cursor, htasks, hcursor, -⟩ := h.tasks
  have hrota : c'.rota cursor = c.rota cursor := by
    simp only [Course.rota, hslots, hdispatches, hturn]
  rw [StepSim, hstep, hcourse]
  refine ⟨rfl, .going hstage.1 ⟨h.entries, by rw [hqueue]; exact h.ipc, cursor, ?_, ?_, ?_⟩⟩
  · rwa [hrota]
  · rwa [hturn]
  · exact fun hrun => absurd hrun hstage.2

/-! ### Messages -/

theorem flow_send (h : IpcOK ipc (flowBank [])) {m : IpcMessage} (hm : m.length.toNat ≤ 32) :
    ∃ ipc', ipcSend ipc 0 (some m) = (true, ipc') ∧ IpcOK ipc' (flowBank [delivered m]) := by
  have hfifo : fifoStep (flowBank []) (.send 0 (some m)) = (.sent true, flowBank [delivered m]) := by
    simp [fifoStep, flowBank, show ¬ 32 < m.length.toNat by omega]
  obtain ⟨hresult, hok⟩ := ipcStep_sim h (.send 0 (some m))
  rw [hfifo] at hresult hok
  refine ⟨(ipcSend ipc 0 (some m)).2, ?_, hok⟩
  have hsent : (ipcSend ipc 0 (some m)).1 = true := IpcResult.sent.inj hresult
  exact Prod.ext hsent rfl

theorem flow_receive {m : IpcMessage} (h : IpcOK ipc (flowBank [m])) (out : IpcMessage) :
    ∃ ipc', ipcReceive ipc 0 (some out) = (true, some m, ipc') ∧ IpcOK ipc' (flowBank []) := by
  have hfifo : fifoStep (flowBank [m]) (.receive 0 (some out)) = (.received true (some m), flowBank []) := by
    simp [fifoStep, flowBank]
  obtain ⟨hresult, hok⟩ := ipcStep_sim h (.receive 0 (some out))
  rw [hfifo] at hresult hok
  refine ⟨(ipcReceive ipc 0 (some out)).2.2, ?_, hok⟩
  have hreceived : (ipcReceive ipc 0 (some out)).1 = true ∧ (ipcReceive ipc 0 (some out)).2.1 = some m :=
    IpcResult.received.inj hresult
  exact Prod.ext hreceived.1 (Prod.ext hreceived.2 rfl)

/-- The consumer accepts what the producer sent. -/
theorem messageMatches_delivered (sequence : U32) :
    messageMatches 0 sequence (delivered (flowMessage 0 sequence)) = true := by
  have htail : payloadTailIsZero (delivered (flowMessage 0 sequence)) 4 = true := by
    rw [payloadTailIsZero, List.all_eq_true]
    intro index _
    by_cases hindex : index.val < 4
    · simp [hindex]
    · simp [delivered, flowMessage, hindex]
  have h0 : (delivered (flowMessage 0 sequence)).payload 0 = sequence.setWidth 8 := rfl
  have h1 : (delivered (flowMessage 0 sequence)).payload 1 = 0xA5 := rfl
  have h2 : (delivered (flowMessage 0 sequence)).payload 2 = 0x5A := rfl
  have h3 : (delivered (flowMessage 0 sequence)).payload 3 = (sequence ^^^ 0xFF).setWidth 8 := rfl
  rw [messageMatches, htail, h0, h1, h2, h3]
  simp [delivered, flowMessage]

/-! ### Turns -/

theorem Course.slots_free (c : Course) {i : ℕ} (hi : 3 ≤ i) : c.slots i = .free := by
  obtain ⟨k, rfl⟩ := Nat.exists_eq_add_of_le' hi
  rfl

/-- The task that follows in the flow. -/
theorem GivesUp.next {i : ℕ} {call : TaskCall} (hcall : GivesUp (c.rota (some i)) call q) (hi : i < 3) :
    q.next = (match i with
      | 0 => [1, 2, 0]
      | 1 => [2, 0, 1]
      | _ => [0, 1, 2]).find? fun j : ℕ => decide (q.slots j = Slot.live) := by
  have hcursor : q.start = i + 1 := by
    cases hcall <;> rfl
  have hfree : ∀ j, 3 ≤ j → decide (q.slots j = .live) = false := by
    intro j hj
    cases hcall with
    | yield => simp [Course.rota, c.slots_free hj]
    | exit => simp [Course.rota, Rota.finish, Function.update_of_ne (show j ≠ i by omega), c.slots_free hj]
  obtain ⟨-, h1, h2, h3⟩ := cyclicFind_three (fun j => decide (q.slots j = .live)) hfree
  rw [Rota.next, hcursor]
  rcases i with _ | _ | _ | i
  · exact h1
  · exact h2
  · exact h3
  · omega

theorem word_pred {n : ℕ} (hn : n < 256) : word (256 - n) ≠ 0 ∧ word (256 - n) - 1 = word (256 - (n + 1)) := by
  constructor
  · rw [ne_eq, word_eq_zero (by omega)]
    omega
  · have hsucc : 256 - n = 256 - (n + 1) + 1 := by omega
    rw [hsucc, word_succ]
    ring

variable {c' : Course} {i : ℕ} {call : TaskCall}

/-- The running task gives up its turn to task `j`. -/
theorem turnOver (h : Backed c system ipc) (hi : c.turn = some i) (hcall : GivesUp (c.rota (some i)) call q)
    (hnext : q.next = some j) (hslots : c'.slots = q.slots) (hj : c'.turn = some j)
    (hn : c'.dispatches = c.dispatches + 1) (hlt : c.dispatches < 256) (hf : f.system = system) :
    ∃ sys, schedulerCall f call = (none, { f with system := sys }) ∧ Entries sys ∧
      TaskOK sys (c'.rota (some j)) := by
  subst hf
  obtain ⟨htasks, hb, -, -⟩ := h.inTurn hi
  obtain ⟨hne, hpred⟩ := word_pred hlt
  obtain ⟨sys, hstep, hok, hentry⟩ := schedulerCall_turn htasks hb hcall hnext hne
  refine ⟨sys, hstep, h.entries.of_entry_eq hentry, ?_⟩
  have hswitches : q.switches = word c.dispatches := by cases hcall <;> rfl
  have hrota : c'.rota (some j) =
      { q with
        cursor := some j, budget := some (word (256 - c.dispatches) - 1), switches := q.switches + 1 } := by
    simp only [Course.rota, hslots, hj, Option.map_some, hn, hpred, hswitches, word_succ]
  rwa [hrota]

/-- The running task was the last, or the budget is used up. -/
theorem runOver (h : Backed c system ipc) (hi : c.turn = some i) (hcall : GivesUp (c.rota (some i)) call q)
    (hend : q.next = none ∨ c.dispatches = 256) (hslots : c'.slots = q.slots) (hj : c'.turn = none)
    (hn : c'.dispatches = c.dispatches) (hf : f.system = system) :
    ∃ sys, schedulerCall f call =
        (some (.ran q.next.isNone), { f with system := sys, main := .ran q.next.isNone }) ∧
      Entries sys ∧ TaskOK sys (c'.rota q.cursor) := by
  subst hf
  obtain ⟨htasks, hb, -, -⟩ := h.inTurn hi
  have hend' : q.next = none ∨ word (256 - c.dispatches) = 0 := by
    refine hend.imp_right ?_
    intro hall
    rw [hall]
    rfl
  obtain ⟨sys, hstep, hok, hentry⟩ := schedulerCall_end htasks hb hcall hend'
  refine ⟨sys, hstep, h.entries.of_entry_eq hentry, ?_⟩
  have hswitches : q.switches = word c.dispatches := by cases hcall <;> rfl
  have hrota : c'.rota q.cursor = { q with budget := none } := by
    simp only [Course.rota, hslots, hj, Option.map_none, hn, hswitches]
  rwa [hrota]

/-- A step that ends in a switch to task `j`. -/
theorem StepSim.switch (ipc' : Ipc) (sent received : Option IpcMessage) (h : Backed c system ipc)
    (hi : c.turn = some i) (hcall : GivesUp (c.rota (some i)) call q) (hnext : q.next = some j)
    (hslots : c.step.slots = q.slots) (hj : c.step.turn = some j) (hn : c.step.dispatches = c.dispatches + 1)
    (hlt : c.dispatches < 256) (hipc : IpcOK ipc' (flowBank c.step.queue))
    (hout : c.output = ⟨sent, received, none⟩) (hstep : flowStep (c.flow system ipc) .step =
      (⟨sent, received, (schedulerCall (c.step.flow system ipc') call).1⟩,
        (schedulerCall (c.step.flow system ipc') call).2)) : StepSim (c.flow system ipc) c := by
  obtain ⟨sys, hcalled, hentries, htasks⟩ :=
    turnOver (f := c.step.flow system ipc') h hi hcall hnext hslots hj hn hlt rfl
  have hstage : c.step.stage ≠ .start ∧ c.step.stage ≠ .run := by
    constructor <;> intro hstart <;> simp [Course.turn, hstart] at hj
  rw [StepSim, hstep, hcalled, hout]
  refine ⟨rfl, .going hstage.1 ⟨hentries, hipc, some j, htasks, ?_, fun hrun => absurd hrun hstage.2⟩⟩
  intro i hi
  rw [← hi, hj]

/-- A step that ends the run. -/
theorem StepSim.over (complete : Bool) (h : Backed c system ipc) (hi : c.turn = some i)
    (hcall : GivesUp (c.rota (some i)) call q) (hend : q.next = none ∨ c.dispatches = 256)
    (hcomplete : q.next.isNone = complete) (hslots : c.step.slots = q.slots)
    (hstage : c.step.stage = .ran complete)
    (hn : c.step.dispatches = c.dispatches) (hipc : IpcOK ipc (flowBank c.step.queue))
    (hout : c.output = ⟨none, none, some (.ran complete)⟩)
    (hstep : flowStep (c.flow system ipc) .step =
      (⟨none, none, (schedulerCall { c.step.flow system ipc with main := .running } call).1⟩,
        (schedulerCall { c.step.flow system ipc with main := .running } call).2)) :
    StepSim (c.flow system ipc) c := by
  subst hcomplete
  have hturn : c.step.turn = none := by simp [Course.turn, hstage]
  have hmain : c.step.main = .ran q.next.isNone := by simp [Course.main, hstage]
  obtain ⟨sys, hcalled, hentries, htasks⟩ :=
    runOver (f := { c.step.flow system ipc with main := .running }) h hi hcall hend hslots hturn hn rfl
  have hflow :
      { c.step.flow system ipc with system := sys, main := .ran q.next.isNone } = c.step.flow sys ipc := by
    rw [← hmain]
    rfl
  rw [StepSim, hstep, hcalled, hout]
  refine ⟨rfl, ?_⟩
  change FlowSim { c.step.flow system ipc with system := sys, main := .ran q.next.isNone } c.step
  rw [hflow]
  refine .going (by simp [hstage]) ⟨hentries, hipc, q.cursor, htasks, ?_, by simp [hstage]⟩
  intro i hi
  simp [hturn] at hi

/-! ### The producer -/

attribute [local simp] Course.point Course.turn Course.consuming Course.dispatches Course.produced Course.consumed
  Course.producerDone Course.consumerDone Course.slotOf Course.slots Course.queue Course.producerPc
    Course.consumerPc
  Course.observerPc Course.main Course.rota Course.passOn Course.observe Course.flow Course.step

theorem producerTaskStep_send {sequence : U32} {m : IpcMessage} {ipc' : Ipc} {f' : Flow}
    (hpc : f.producer = .send sequence m) (hsend : ipcSend f.ipc f.taskFlowEndpoint (some m) = (true, ipc'))
    (hf' : { f with
      ipc := ipc', producedMessages := f.producedMessages + 1, producer := .next (sequence + 1) } = f') :
    producerTaskStep f = (⟨some m, none, (schedulerCall f' .yield).1⟩, (schedulerCall f' .yield).2) := by
  subst hf'
  simp only [producerTaskStep, hpc, hsend]

theorem producerTaskStep_exit (sequence : U32) {f' : Flow} (hpc : f.producer = .next sequence)
    (hsequence : ¬sequence.toNat < taskFlowMessages) (hf' : { f with producerFinished := true } = f') :
    producerTaskStep f = (⟨none, none, (schedulerCall f' .exit).1⟩, (schedulerCall f' .exit).2) := by
  subst hf'
  simp only [producerTaskStep, hpc, if_neg hsequence]

theorem produce_prepare (h : Backed (c.point (.produce false)) system ipc) (hround : c.round < 6) :
    StepSim ((c.point (.produce false)).flow system ipc) (c.point (.produce false)) := by
  obtain ⟨-, -, -, hcurrent⟩ := h.inTurn rfl
  have hcourse : (c.point (.produce false)).step = c.point (.produce true) := by simp [hround]
  have hpc : (c.point (.produce false)).producerPc = .next (word c.round) := by simp [Nat.min_eq_right hround.le]
  have hlt : (word c.round).toNat < taskFlowMessages := by rwa [toNat_word (by omega)]
  refine StepSim.local h hcourse ?_ rfl ⟨nofun, nofun⟩ rfl rfl rfl
  rw [flowStep_turn h rfl rfl, if_pos rfl, Course.output, hcourse]
  simp only [producerTaskStep, Course.flow, hpc, hcurrent, if_pos hlt]
  rfl

theorem produce_send (h : Backed (c.point (.produce true)) system ipc) (hround : c.round < 6)
    (hslices : c.slices ≤ 6) :
    StepSim ((c.point (.produce true)).flow system ipc) (c.point (.produce true)) := by
  have h67 : c.round ≠ 6 ∧ c.round ≠ 7 := by omega
  have hmin : min 6 c.round = c.round ∧ min 6 (c.round + 1) = c.round + 1 := by omega
  have hword : BitVec.ofNat 32 c.round + 1#32 = BitVec.ofNat 32 (c.round + 1) := (word_succ c.round).symm
  obtain ⟨ipc', hsend, hipc⟩ := flow_send (m := flowMessage 0 (word c.round)) h.ipc (by simp [flowMessage])
  refine StepSim.switch (j := 1) ipc' _ _ h rfl .yield ?_ ?_ rfl ?_ ?_ ?_ rfl ?_
  · rw [GivesUp.yield.next (by decide)]
    simp [h67]
  · funext i
    rcases i with _ | _ | _ | i <;> simp [h67]
  · simp
    omega
  · simp
    omega
  · simpa [hround] using hipc
  · rw [flowStep_turn h rfl rfl, if_pos rfl]
    refine producerTaskStep_send rfl hsend ?_
    simp [h67, hmin, hword]

theorem produce_exit (h : Backed (c.point (.produce false)) system ipc) (hround : c.round = 6)
    (hslices : c.slices ≤ 6) :
    StepSim ((c.point (.produce false)).flow system ipc) (c.point (.produce false)) := by
  refine StepSim.switch (j := 1) ipc none none h rfl .exit ?_ ?_ ?_ ?_ ?_ ?_ ?_ ?_
  · rw [GivesUp.exit.next (by decide)]
    simp [Rota.finish, hround]
  · funext i
    rcases i with _ | _ | _ | i <;> simp [Rota.finish, hround]
  · simp [hround]
  · simp [hround]
    omega
  · simp
    omega
  · simpa [hround] using h.ipc
  · simp [Course.output, hround]
  · rw [flowStep_turn h rfl rfl, if_pos rfl]
    refine producerTaskStep_exit (word 6) ?_ (by decide) ?_
    · simp [hround]
    · simp [hround]

/-! ### The consumer -/

theorem consumerTaskStep_receive {sequence : U32} {m : IpcMessage} {ipc' : Ipc} {f' : Flow}
    (hpc : f.consumer = .receive sequence)
    (hreceive : ipcReceive f.ipc f.taskFlowEndpoint (some messageClear) = (true, some m, ipc'))
    (hmatches : messageMatches f.producerTaskId sequence m = true)
    (hf' : { f with
      ipc := ipc', consumedMessages := f.consumedMessages + 1, consumer := .next (sequence + 1) } = f') :
    consumerTaskStep f = (⟨none, some m, (schedulerCall f' .yield).1⟩, (schedulerCall f' .yield).2) := by
  subst hf'
  simp only [consumerTaskStep, hpc, hreceive, hmatches, if_true]

theorem consumerTaskStep_exit (sequence : U32) {f' : Flow} (hpc : f.consumer = .next sequence)
    (hsequence : ¬sequence.toNat < taskFlowMessages) (hf' : { f with consumerFinished := true } = f') :
    consumerTaskStep f = (⟨none, none, (schedulerCall f' .exit).1⟩, (schedulerCall f' .exit).2) := by
  subst hf'
  simp only [consumerTaskStep, hpc, if_neg hsequence]

theorem consume_prepare (h : Backed (c.point (.consume false)) system ipc) (hround : c.round < 6) :
    StepSim ((c.point (.consume false)).flow system ipc) (c.point (.consume false)) := by
  have hcourse : (c.point (.consume false)).step = c.point (.consume true) := by simp [hround]
  have hpc : (c.point (.consume false)).consumerPc = .next (word c.round) := by simp [Nat.min_eq_right hround.le]
  have hlt : (word c.round).toNat < taskFlowMessages := by rwa [toNat_word (by omega)]
  refine StepSim.local h hcourse ?_ rfl ⟨nofun, nofun⟩ rfl rfl rfl
  rw [flowStep_turn h rfl rfl, if_neg (by decide), if_pos rfl, Course.output, hcourse]
  simp only [consumerTaskStep, Course.flow, hpc, if_pos hlt]
  rfl

theorem consume_receive (h : Backed (c.point (.consume true)) system ipc) (hround : c.round < 6)
    (hslices : c.slices ≤ 6) :
    StepSim ((c.point (.consume true)).flow system ipc) (c.point (.consume true)) := by
  have h67 : c.round ≠ 6 ∧ c.round ≠ 7 := by omega
  have hmin : min 6 c.round = c.round ∧ min 6 (c.round + 1) = c.round + 1 := by omega
  have hword : BitVec.ofNat 32 c.round + 1#32 = BitVec.ofNat 32 (c.round + 1) := (word_succ c.round).symm
  have hqueue : (c.point (.consume true)).queue = [delivered (flowMessage 0 (word c.round))] := by simp [hround]
  obtain ⟨ipc', hreceive, hipc⟩ := flow_receive (by rw [← hqueue]; exact h.ipc) messageClear
  have hcode : ∀ f', { (c.point (.consume true)).flow system ipc with
      ipc := ipc', consumedMessages := word c.round + 1, consumer := .next (word c.round + 1) } = f' →
      flowStep ((c.point (.consume true)).flow system ipc) .step =
        (⟨none, some (delivered (flowMessage 0 (word c.round))), (schedulerCall f' .yield).1⟩,
          (schedulerCall f' .yield).2) := by
    intro f' hf'
    rw [flowStep_turn h rfl rfl, if_neg (by decide), if_pos rfl]
    refine consumerTaskStep_receive rfl hreceive (messageMatches_delivered _) ?_
    rw [← hf']
    simp [hmin]
  -- once the observer has left, the producer is next
  refine StepSim.switch (j := if c.left then 0 else 2) ipc' none _ h rfl .yield ?_ ?_ ?_ ?_ ?_ ?_ ?_ (hcode _ ?_)
  · rw [GivesUp.yield.next (by decide)]
    cases hleft : c.left <;> simp [h67, hleft]
  · funext i
    cases hleft : c.left <;> rcases i with _ | _ | _ | i <;> simp [h67, hleft]
  · cases hleft : c.left <;> simp [h67, hleft]
  · cases hleft : c.left <;> simp [h67, hleft] <;> omega
  · simp
    omega
  · cases hleft : c.left <;> simpa [h67, hleft] using hipc
  · cases hleft : c.left <;> simp [Course.output, h67, hleft]
  · cases hleft : c.left <;> simp [h67, hleft, hmin, hword]

theorem consume_exit (h : Backed (c.point (.consume false)) system ipc) (hround : c.round = 6)
    (hslices : c.slices ≤ 6) :
    StepSim ((c.point (.consume false)).flow system ipc) (c.point (.consume false)) := by
  have hcode : ∀ f', { (c.point (.consume false)).flow system ipc with consumerFinished := true } = f' →
      flowStep ((c.point (.consume false)).flow system ipc) .step =
        (⟨none, none, (schedulerCall f' .exit).1⟩, (schedulerCall f' .exit).2) := by
    intro f' hf'
    rw [flowStep_turn h rfl rfl, if_neg (by decide), if_pos rfl]
    exact consumerTaskStep_exit (word 6) (by simp [hround]) (by decide) hf'
  have hipc := h.ipc
  simp only [Course.queue, Course.point, Course.consuming, hround] at hipc
  cases hleft : c.left with
  | true =>
    -- the last of the three
    have hnext : ((c.point (.consume false)).rota (some 1)).finish.next = none := by
      rw [GivesUp.exit.next (by decide)]
      simp [Rota.finish, hround, hleft]
    refine StepSim.over true h rfl .exit (.inl hnext) (by rw [hnext]; rfl) ?_ ?_ ?_ ?_ ?_ (hcode _ ?_)
    · funext i
      rcases i with _ | _ | _ | i <;> simp [Rota.finish, hround, hleft]
    · simp [hround, hleft]
    · simp [hround, hleft]
    · simpa [hround, hleft] using hipc
    · simp [Course.output, hround, hleft]
    · simp [hround, hleft]
  | false =>
    refine StepSim.switch (j := 2) ipc none none h rfl .exit
      ?_ ?_ ?_ ?_ ?_ ?_ ?_ (hcode _ ?_)
    · rw [GivesUp.exit.next (by decide)]
      simp [Rota.finish, hround, hleft]
    · funext i
      rcases i with _ | _ | _ | i <;> simp [Rota.finish, hround, hleft]
    · simp [hround, hleft]
    · simp [hround, hleft]
      omega
    · simp
      omega
    · simpa [hround, hleft] using hipc
    · simp [Course.output, hround, hleft]
    · simp [hround, hleft]

/-! ### The observer -/

/-- A step of the observer that only moves it on. -/
theorem observe_moves {pc pc' : ObserverPc} (h : Backed (c.point (.observe pc)) system ipc)
    (hcourse : (c.point (.observe pc)).step = c.point (.observe pc'))
    (hobserver : timerObserverTaskStep ((c.point (.observe pc)).flow system ipc) =
      (.quiet, (c.point (.observe pc')).flow system ipc)) :
    StepSim ((c.point (.observe pc)).flow system ipc) (c.point (.observe pc)) := by
  have hcode := flowStep_turn h rfl rfl
  rw [if_neg (by decide), if_neg (by decide)] at hcode
  refine StepSim.local h hcourse ?_ rfl ⟨nofun, nofun⟩ rfl rfl rfl
  rw [hcode, Course.output, hcourse]
  exact hobserver

/-- The steps of the observer up to its next call. -/
theorem observe_local {pc : ObserverPc} (h : Backed (c.point (.observe pc)) system ipc)
    (hwoken : pc ≠ .woken) (hleave : pc ≠ .leave) :
    StepSim ((c.point (.observe pc)).flow system ipc) (c.point (.observe pc)) := by
  have hcode := flowStep_turn h rfl rfl
  rw [if_neg (by decide), if_neg (by decide)] at hcode
  cases pc with
  | startTicks => exact StepSim.local h rfl hcode rfl ⟨nofun, nofun⟩ rfl rfl rfl
  | startIrqs => exact StepSim.local h rfl hcode rfl ⟨nofun, nofun⟩ rfl rfl rfl
  | testTicks =>
    by_cases htest : (c.pitTicks - c.tickStart).toNat < pitTestTicks
    · exact observe_moves h (congrArg (fun pc => c.point (.observe pc)) (if_pos htest)) (if_pos htest)
    · exact observe_moves h (congrArg (fun pc => c.point (.observe pc)) (if_neg htest)) (if_neg htest)
  | testIrqs =>
    by_cases htest : (c.irqCount - c.irqStart).toNat < pitTestTicks
    · exact observe_moves h (congrArg (fun pc => c.point (.observe pc)) (if_pos htest)) (if_pos htest)
    · exact observe_moves h (congrArg (fun pc => c.point (.observe pc)) (if_neg htest)) (if_neg htest)
  | halt => exact StepSim.local h rfl hcode rfl ⟨nofun, nofun⟩ rfl rfl rfl
  | woken => exact absurd rfl hwoken
  | leave => exact absurd rfl hleave

theorem observerStep_woken {f' : Flow} (hpc : f.observer = .woken)
    (hf' : { f with observer := .testTicks } = f') :
    timerObserverTaskStep f = (⟨none, none, (schedulerCall f' .yield).1⟩, (schedulerCall f' .yield).2) := by
  subst hf'
  simp only [timerObserverTaskStep, hpc]

theorem observerStep_leave {f' : Flow} (hpc : f.observer = .leave)
    (hf' : { f with timerObserverFinished := true } = f') :
    timerObserverTaskStep f = (⟨none, none, (schedulerCall f' .exit).1⟩, (schedulerCall f' .exit).2) := by
  subst hf'
  simp only [timerObserverTaskStep, hpc]

theorem observe_woken (h : Backed (c.point (.observe .woken)) system ipc) (hleft : c.left = false)
    (hpace : c.round < 7 ∧ c.slices = c.round ∧ 1 ≤ c.slices ∨ c.round = 7 ∧ 7 ≤ c.slices ∧ 14 + c.slices ≤ 256) :
    StepSim ((c.point (.observe .woken)).flow system ipc) (c.point (.observe .woken)) := by
  have hcode : ∀ f', { (c.point (.observe .woken)).flow system ipc with observer := .testTicks } = f' →
      flowStep ((c.point (.observe .woken)).flow system ipc) .step =
        (⟨none, none, (schedulerCall f' .yield).1⟩, (schedulerCall f' .yield).2) := by
    intro f' hf'
    rw [flowStep_turn h rfl rfl, if_neg (by decide), if_neg (by decide)]
    exact observerStep_woken rfl hf'
  have hipc := h.ipc
  rcases hpace with ⟨h7, hslices, hpos⟩ | ⟨h7, hmany, hbudget⟩
  · have hne : c.round ≠ 7 ∧ c.slices ≠ 0 := by omega
    refine StepSim.switch (j := 0) ipc none none h rfl .yield
      ?_ ?_ ?_ ?_ ?_ ?_ ?_ (hcode _ ?_)
    · rw [GivesUp.yield.next (by decide)]
      simp [hne]
    · funext i
      rcases i with _ | _ | _ | i <;> simp [h7, hne]
    · simp [h7]
    · simp [h7]
      omega
    · simp
      omega
    · simpa [h7] using hipc
    · simp [Course.output, h7]
    · simp [h7, hne, hleft, Course.resumePc]
  · have hnext : ((c.point (.observe .woken)).rota (some 2)).next = some 2 := by
      rw [GivesUp.yield.next (by decide)]
      simp [h7, hleft]
    by_cases hmore : 14 + c.slices < 256
    · refine StepSim.switch (j := 2) ipc none none h rfl .yield
        hnext ?_ ?_ ?_ ?_ ?_ ?_ (hcode _ ?_)
      · funext i
        rcases i with _ | _ | _ | i <;> simp [h7, hmore]
      · simp [h7, hmore]
      · simp [h7, hmore]
        omega
      · simp
        omega
      · simpa [h7, hmore] using hipc
      · simp [Course.output, h7, hmore]
      · simp [h7, hmore]
    · -- the budget is used up while the observer still waits
      refine StepSim.over false h rfl .yield (.inr ?_) (by rw [hnext]; rfl) ?_ ?_ ?_ ?_ ?_ (hcode _ ?_)
      · simp
        omega
      · funext i
        rcases i with _ | _ | _ | i <;> simp [h7, hmore]
      · simp [h7, hmore]
      · simp [h7, hmore]
      · simpa [h7, hmore] using hipc
      · simp [Course.output, h7, hmore]
      · simp [h7, hmore, hleft, Course.resumePc]
        omega

theorem observe_leave (h : Backed (c.point (.observe .leave)) system ipc)
    (hpace : c.round < 7 ∧ c.slices = c.round ∧ 1 ≤ c.slices ∨ c.round = 7 ∧ 7 ≤ c.slices ∧ 14 + c.slices ≤ 256) :
    StepSim ((c.point (.observe .leave)).flow system ipc) (c.point (.observe .leave)) := by
  have hcode : ∀ f', { (c.point (.observe .leave)).flow system ipc with timerObserverFinished := true } = f' →
      flowStep ((c.point (.observe .leave)).flow system ipc) .step =
        (⟨none, none, (schedulerCall f' .exit).1⟩, (schedulerCall f' .exit).2) := by
    intro f' hf'
    rw [flowStep_turn h rfl rfl, if_neg (by decide), if_neg (by decide)]
    exact observerStep_leave rfl hf'
  have hipc := h.ipc
  rcases hpace with ⟨h7, hslices, -⟩ | ⟨h7, -, -⟩
  · have hne : c.round ≠ 7 := by omega
    refine StepSim.switch (j := 0) ipc none none h rfl .exit
      ?_ ?_ ?_ ?_ ?_ ?_ ?_ (hcode _ ?_)
    · rw [GivesUp.exit.next (by decide)]
      simp [Rota.finish, hne]
    · funext i
      rcases i with _ | _ | _ | i <;> simp [Rota.finish, hne]
    · simp [hne]
    · simp [hne]
      omega
    · simp
      omega
    · simpa [hne] using hipc
    · simp [Course.output, hne]
    · simp [hne, Course.resumePc]
  · have hnext : ((c.point (.observe .leave)).rota (some 2)).finish.next = none := by
      rw [GivesUp.exit.next (by decide)]
      simp [Rota.finish, h7]
    refine StepSim.over true h rfl .exit (.inl hnext) (by rw [hnext]; rfl) ?_ ?_ ?_ ?_ ?_ (hcode _ ?_)
    · funext i
      rcases i with _ | _ | _ | i <;> simp [Rota.finish, h7]
    · simp [h7]
    · simp [h7]
    · simpa [h7] using hipc
    · simp [Course.output, h7]
    · simp [h7, Course.resumePc]

/-! ### `run_task_flow` -/

theorem Backed.atRest (h : Backed c system ipc) (hturn : c.turn = none) :
    AtRest system ∧ ∃ cursor, Represents system.scheduler (c.rota cursor) none := by
  obtain ⟨cursor, htasks, -, -⟩ := h.tasks
  obtain ⟨hrest, hrep⟩ := htasks.atRest (by simp only [Course.rota, hturn, Option.map_none])
  exact ⟨hrest, cursor, hrep⟩

theorem flowStep_main (h : Backed c system ipc) (hturn : c.turn = none) (hawake : c.halted = false) :
    flowStep (c.flow system ipc) .step = runTaskFlowStep (c.flow system ipc) := by
  have hcontrol : (c.flow system ipc).system.control = .bootstrap := (h.atRest hturn).1.control
  unfold flowStep
  rw [if_neg (by simp [hawake])]
  simp only [hcontrol]

/-- The first dispatch is the producer's. -/
theorem run_dispatch (hround : c.round = 0) (hslices : c.slices = 0) :
    rotaStep ((c.point .run).rota none) (.bootstrap (.run taskFlowBudget)) =
      (⟨some 0, none⟩, (c.point (.produce false)).rota (some 0)) := by
  have hnext : ((c.point .run).rota none).next = some 0 := by
    have hfree : ∀ i, 3 ≤ i → decide (((c.point .run).rota none).slots i = .live) = false := by
      intro i hi
      simp only [Course.rota, Course.slots_free _ hi]
      rfl
    rw [Rota.next]
    refine (cyclicFind_three _ hfree).1.trans ?_
    simp [hround]
  have hslots : (c.point (.produce false)).slots = (c.point .run).slots := rfl
  have hstep : rotaStep ((c.point .run).rota none) (.bootstrap (.run taskFlowBudget)) =
      ((c.point .run).rota none).dispatch taskFlowBudget := rfl
  rw [hstep, Rota.dispatch_some hnext (by decide), Course.rota, Course.rota, hslots]
  simp [hround, hslices]

theorem runTaskFlowStep_run (hmain : f.main = .run)
    (hout : (taskStep f.system (.bootstrap (.run taskFlowBudget))).1 = ⟨some 0, none⟩) :
    runTaskFlowStep f =
      (.quiet,
        { f with system := (taskStep f.system (.bootstrap (.run taskFlowBudget))).2, main := .running }) := by
  simp only [runTaskFlowStep, hmain, hout]
  rfl

theorem main_run (h : Backed (c.point .run) system ipc) (hround : c.round = 0) (hslices : c.slices = 0) :
    StepSim ((c.point .run).flow system ipc) (c.point .run) := by
  obtain ⟨hrest, -⟩ := h.atRest rfl
  obtain ⟨cursor, htasks, -, hcursor⟩ := h.tasks
  obtain rfl := hcursor rfl
  obtain ⟨hout, hok⟩ := taskStep_sim htasks (.bootstrap (.run taskFlowBudget))
  rw [run_dispatch hround hslices] at hout hok
  have hentry : ∀ i, ((taskStep system (.bootstrap (.run taskFlowBudget))).2.scheduler.tasks i).entry =
      (system.scheduler.tasks i).entry := by
    intro i
    rw [taskStep_bootstrap hrest.control]
    exact taskRun_entry taskFlowBudget i
  rw [StepSim, flowStep_main h rfl rfl, runTaskFlowStep_run rfl hout]
  refine ⟨rfl, .going (c := c.point (.produce false)) nofun ?_⟩
  exact ⟨h.entries.of_entry_eq hentry, h.ipc, some 0, hok, fun i hi => hi, nofun⟩

/-- The endpoint and the scheduler after a complete run. -/
structure Completed (system : TaskSystem) (ipc : Ipc) (slices : ℕ) : Prop where
  pending : ipcPending ipc 0 = 0
  rejected : ipcRejectedCount ipc 0 = 0
  finished : taskFinishedCount system.scheduler = 3
  current : taskCurrentId system.scheduler = taskInvalidId
  switches : (taskSwitchCount system.scheduler).toNat = 14 + slices

theorem Backed.completed (h : Backed c system ipc) (hturn : c.turn = none) (hround : c.round = 7)
    (hleft : c.left = true) (hdispatches : c.dispatches = 14 + c.slices) (hbudget : 14 + c.slices ≤ 256) :
    Completed system ipc c.slices := by
  obtain ⟨hrest, cursor, hrep⟩ := h.atRest hturn
  have hempty : c.queue = [] := by simp [hround]
  have hipc := h.ipc
  rw [hempty] at hipc
  refine ⟨hipc.pending 0, hipc.rejected 0, ?_, ?_, ?_⟩
  · rw [taskFinishedCount, hrep.finished, countBelow_eq_sum]
    simp [Finset.sum_range_succ, hround, hleft]
  · simp [taskCurrentId, hrest.stopped]
  · rw [taskSwitchCount, hrep.switches, Course.rota, hdispatches, toNat_word (by omega)]

/-- Of all the checks, only the one on the number of switches is open. -/
theorem flowChecks_ran (h : Backed (c.point (.ran true)) system ipc) (hround : c.round = 7)
    (hleft : c.left = true) (hbudget : 14 + c.slices ≤ 256) :
    flowChecks ((c.point (.ran true)).flow system ipc) = decide (taskFlowMinSwitches ≤ 14 + c.slices) := by
  have hdone := h.completed rfl hround hleft (by simp [hround]) hbudget
  have hpending : ipcPending ipc 0#32 = 0#32 := hdone.pending
  have hrejected : ipcRejectedCount ipc 0#32 = 0#32 := hdone.rejected
  have hswitches : (taskSwitchCount system.scheduler).toNat = 14 + c.slices := hdone.switches
  simp [flowChecks, hpending, hrejected, hdone.finished, hdone.current, hswitches, hround, hleft, hbudget]

theorem main_ran {complete : Bool} (h : Backed (c.point (.ran complete)) system ipc)
    (hcomplete : complete = true → c.round = 7 ∧ c.left = true ∧ 1 ≤ c.slices ∧ 14 + c.slices ≤ 256) :
    StepSim ((c.point (.ran complete)).flow system ipc) (c.point (.ran complete)) := by
  have hcode := flowStep_main h rfl rfl
  cases complete with
  | false => exact StepSim.local h rfl hcode rfl ⟨nofun, nofun⟩ rfl rfl rfl
  | true =>
    obtain ⟨hround, hleft, -, hbudget⟩ := hcomplete rfl
    have hchecks := flowChecks_ran h hround hleft hbudget
    have hmain : runTaskFlowStep ((c.point (.ran true)).flow system ipc) =
        (.quiet, { (c.point (.ran true)).flow system ipc with
          main := if flowChecks ((c.point (.ran true)).flow system ipc) then .checkTicks
            else .returned false }) := rfl
    by_cases hmin : taskFlowMinSwitches ≤ 14 + c.slices
    · have hcourse : (c.point (.ran true)).step = c.point .checkTicks := by simp [hmin]
      refine StepSim.local h hcourse ?_ rfl ⟨nofun, nofun⟩ rfl rfl rfl
      rw [hcode, hmain, hchecks, decide_eq_true hmin, Course.output, hcourse]
      rfl
    · have hcourse : (c.point (.ran true)).step = c.point (.returned true false) := by simp [hmin]
      refine StepSim.local h hcourse ?_ rfl ⟨nofun, nofun⟩ rfl rfl rfl
      rw [hcode, hmain, hchecks, decide_eq_false hmin, Course.output, hcourse]
      rfl

theorem main_checkTicks (h : Backed (c.point .checkTicks) system ipc) :
    StepSim ((c.point .checkTicks).flow system ipc) (c.point .checkTicks) := by
  have hcode := flowStep_main h rfl rfl
  by_cases htest : (c.pitTicks - c.tickStart).toNat ≥ pitTestTicks
  · have hcourse : (c.point .checkTicks).step = c.point .checkIrqs := congrArg c.point (if_pos htest)
    refine StepSim.local h hcourse ?_ rfl ⟨nofun, nofun⟩ rfl rfl rfl
    rw [hcode, Course.output, hcourse]
    exact if_pos htest
  · have hcourse : (c.point .checkTicks).step = c.point (.returned true false) := congrArg c.point (if_neg htest)
    refine StepSim.local h hcourse ?_ rfl ⟨nofun, nofun⟩ rfl rfl rfl
    rw [hcode, Course.output, hcourse]
    exact if_neg htest

theorem main_checkIrqs (h : Backed (c.point .checkIrqs) system ipc) :
    StepSim ((c.point .checkIrqs).flow system ipc) (c.point .checkIrqs) :=
  StepSim.local h rfl (flowStep_main h rfl rfl) rfl ⟨nofun, nofun⟩ rfl rfl rfl

theorem main_returned {complete result : Bool} (h : Backed (c.point (.returned complete result)) system ipc) :
    StepSim ((c.point (.returned complete result)).flow system ipc) (c.point (.returned complete result)) :=
  StepSim.local h rfl (flowStep_main h rfl rfl) rfl ⟨nofun, nofun⟩ rfl rfl rfl

/-! ### The start -/

/-- The scheduler with the three tasks. -/
def flowTasks : TaskSystem :=
  let (_, scheduler) := taskCreate (taskSystemInit loadedScheduler) producerTask 0
  let (_, scheduler) := taskCreate scheduler consumerTask 0
  ⟨(taskCreate scheduler timerObserverTask 0).2, .bootstrap⟩

theorem flowTasks_ok (pitTicks irqCount : U32) :
    TaskOK flowTasks (((Course.initial pitTicks irqCount).point .run).rota none) := by
  have hinit : TaskOK ⟨taskSystemInit loadedScheduler, .bootstrap⟩ Rota.initial := taskSystemInit_rest rfl
  have hproducer := (taskCreate_sim hinit rfl producerTask 0).2
  have hconsumer := (taskCreate_sim hproducer rfl consumerTask 0).2
  have hobserver := (taskCreate_sim hconsumer rfl timerObserverTask 0).2
  have hrota : (((Rota.initial.create producerTask).2.create consumerTask).2.create timerObserverTask).2 =
      ((Course.initial pitTicks irqCount).point .run).rota none := by
    have hslots :
        (((Rota.initial.create producerTask).2.create consumerTask).2.create timerObserverTask).2.slots =
        (((Course.initial pitTicks irqCount).point .run).rota none).slots := by
      funext i
      rcases i with _ | _ | _ | i <;> rfl
    exact congrArg (fun slots => (⟨slots, none, none, 0⟩ : Rota)) hslots
  rw [hrota] at hobserver
  exact hobserver

theorem startFlow_initial (endpoints : Ipc) (pitTicks irqCount : U32) :
    ∃ ipc, IpcOK ipc (flowBank []) ∧ startFlow (initialFlow endpoints pitTicks irqCount) =
      ((Course.initial pitTicks irqCount).point .run).flow flowTasks ipc := by
  obtain ⟨hresult, hok⟩ := ipcStep_sim (ipcInit_ok endpoints) .create
  have hfifo : fifoStep emptyBank .create = (.created 0, flowBank []) := rfl
  rw [hfifo] at hresult hok
  have hendpoint : (ipcEndpointCreate (ipcInit endpoints)).1 = 0 := IpcResult.created.inj hresult
  refine ⟨(ipcEndpointCreate (ipcInit endpoints)).2, hok, ?_⟩
  have hstart : startFlow (initialFlow endpoints pitTicks irqCount) =
      { ((Course.initial pitTicks irqCount).point .run).flow flowTasks
        (ipcEndpointCreate (ipcInit endpoints)).2 with
        taskFlowEndpoint := (ipcEndpointCreate (ipcInit endpoints)).1 } := rfl
  rw [hstart, hendpoint]
  rfl

theorem main_start (endpoints : Ipc) (pitTicks irqCount : U32) :
    StepSim (initialFlow endpoints pitTicks irqCount) (Course.initial pitTicks irqCount) := by
  obtain ⟨ipc, hipc, hstart⟩ := startFlow_initial endpoints pitTicks irqCount
  have hcode : flowStep (initialFlow endpoints pitTicks irqCount) .step =
      (.quiet, startFlow (initialFlow endpoints pitTicks irqCount)) := rfl
  rw [StepSim, hcode, hstart]
  refine ⟨rfl, .going nofun ⟨⟨rfl, rfl, rfl⟩, hipc, none, flowTasks_ok pitTicks irqCount, nofun, fun _ => rfl⟩⟩

/-! ### Steps and runs -/

theorem Course.Pace.slices_le (h : c.Pace) (hround : c.round ≤ 6) : c.slices ≤ 6 := by
  unfold Course.Pace at h
  split_ifs at h <;> omega

theorem produce_sim {sending : Bool} (h : Backed (c.point (.produce sending)) system ipc)
    (hok : (c.point (.produce sending)).OK) :
    StepSim ((c.point (.produce sending)).flow system ipc) (c.point (.produce sending)) := by
  obtain ⟨hround, hsending, hpace⟩ := hok
  cases sending with
  | false =>
    by_cases h6 : c.round < 6
    · exact produce_prepare h h6
    · exact produce_exit h (Nat.le_antisymm hround (by simpa using h6)) (hpace.slices_le hround)
  | true => exact produce_send h (hsending rfl) (hpace.slices_le hround)

theorem consume_sim {receiving : Bool} (h : Backed (c.point (.consume receiving)) system ipc)
    (hok : (c.point (.consume receiving)).OK) :
    StepSim ((c.point (.consume receiving)).flow system ipc) (c.point (.consume receiving)) := by
  obtain ⟨hround, hreceiving, hpace⟩ := hok
  cases receiving with
  | false =>
    by_cases h6 : c.round < 6
    · exact consume_prepare h h6
    · exact consume_exit h (Nat.le_antisymm hround (by simpa using h6)) (hpace.slices_le hround)
  | true => exact consume_receive h (hreceiving rfl) (hpace.slices_le hround)

theorem observe_sim {pc : ObserverPc} (h : Backed (c.point (.observe pc)) system ipc)
    (hok : (c.point (.observe pc)).OK) :
    StepSim ((c.point (.observe pc)).flow system ipc) (c.point (.observe pc)) := by
  obtain ⟨hleft, hpos, hpace⟩ := hok
  have hpace' : c.round < 7 ∧ c.slices = c.round ∧ 1 ≤ c.slices ∨
      c.round = 7 ∧ 7 ≤ c.slices ∧ 14 + c.slices ≤ 256 := hpace.imp_left fun h => ⟨h.1, h.2, hpos⟩
  by_cases hwoken : pc = .woken
  · subst hwoken
    exact observe_woken h hleft hpace'
  · by_cases hleave : pc = .leave
    · subst hleave
      exact observe_leave h hpace'
    · exact observe_local h hwoken hleave

theorem Backed.step {stage : Stage} (h : Backed (c.point stage) system ipc) (hstage : stage ≠ .start)
    (hok : (c.point stage).OK) : StepSim ((c.point stage).flow system ipc) (c.point stage) := by
  cases stage with
  | start => exact absurd rfl hstage
  | run => exact main_run h hok.1 hok.2.1
  | produce sending => exact produce_sim h hok
  | consume receiving => exact consume_sim h hok
  | observe pc => exact observe_sim h hok
  | ran complete => exact main_ran h hok
  | checkTicks => exact main_checkTicks h
  | checkIrqs => exact main_checkIrqs h
  | returned complete result => exact main_returned h

/-- One event of the abstract model, with what it shows. -/
def courseStep (c : Course) (e : FlowEvent) : FlowOutput × Course :=
  (if e = .tick ∨ c.halted = true then .quiet else c.output, c.event e)

theorem FlowSim.halted (h : FlowSim f c) : f.halted = c.halted := by
  cases h <;> rfl

/-- **Step lemma**: the code follows the course. -/
theorem flowStep_sim (h : FlowSim f c) (hok : c.OK) (e : FlowEvent) :
    (flowStep f e).1 = (courseStep c e).1 ∧ FlowSim (flowStep f e).2 (courseStep c e).2 := by
  cases e with
  | tick =>
    refine ⟨rfl, ?_⟩
    cases h with
    | start endpoints pitTicks irqCount => exact .start endpoints (pitTicks + 1) (irqCount + 1)
    | going hstage h => exact .going (c := c.event .tick) hstage ⟨h.entries, h.ipc, h.tasks⟩
  | step =>
    cases hhalted : c.halted with
    | true =>
      have hcode : flowStep f .step = (.quiet, f) := if_pos (h.halted.trans hhalted)
      have hcourse : courseStep c .step = (.quiet, c) := by simp [courseStep, Course.event, hhalted]
      rw [hcode, hcourse]
      exact ⟨rfl, h⟩
    | false =>
      have hcourse : courseStep c .step = (c.output, c.step) := by simp [courseStep, Course.event, hhalted]
      rw [hcourse]
      cases h with
      | start endpoints pitTicks irqCount => exact main_start endpoints pitTicks irqCount
      | going hstage h =>
        have hpoint : c.point c.stage = c := by rw [Course.point, ← hhalted]
        rw [← hpoint] at h hok ⊢
        exact h.step hstage hok

/-- **Run lemma**: so do whole runs. -/
theorem flowRun_sim (endpoints : Ipc) (pitTicks irqCount : U32) (es : List FlowEvent) :
    trace flowStep (initialFlow endpoints pitTicks irqCount) es =
        trace courseStep (Course.initial pitTicks irqCount) es ∧
      FlowSim (exec flowStep (initialFlow endpoints pitTicks irqCount) es)
        (exec courseStep (Course.initial pitTicks irqCount) es) ∧
      (exec courseStep (Course.initial pitTicks irqCount) es).OK := by
  refine trace_sim (R := fun f c => FlowSim f c ∧ c.OK) ?_ ⟨.start endpoints pitTicks irqCount, ?_⟩ es
  · intro f c e h
    obtain ⟨hout, hsim⟩ := flowStep_sim h.1 h.2 e
    exact ⟨hout, hsim, Course.event_ok h.2 e⟩
  · exact ⟨rfl, rfl, rfl⟩

end TinyShell
