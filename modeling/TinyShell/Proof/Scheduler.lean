import TinyShell.Machine.Count
import TinyShell.Machine.Run
import TinyShell.Spec.Task

/-!
# The scheduler is a rota

The abstract model is a rota: which slots are free, live or done, which one had the
last turn, and the budget of the run in progress. `task_run`, `task_yield` and
`task_exit` all end in the same `dispatch`; the saved contexts, the flags and the
bootstrap stack pointer of the code are gone.

* `turn_sim`, `rest_sim`: a switch to a task continues it, a switch to bootstrap code
  ends the run.
* `taskStep_sim`, `taskRun_sim`: every call, and every run, goes as on the rota.
-/

namespace TinyShell

open Machine

/-! ## The abstract model -/

/-- What a slot is good for; the task that runs is a live one. -/
inductive Slot
  | free
  | live
  | done
  deriving DecidableEq

structure Rota where
  slots : ℕ → Slot
  /-- The slot that had the last turn. -/
  cursor : Option ℕ
  /-- What is left of the budget, while a run is in progress. -/
  budget : Option U32
  switches : U32

namespace Rota

def initial : Rota := ⟨fun _ => .free, none, none, 0⟩

def start (r : Rota) : ℕ := r.cursor.elim 0 (· + 1)

def next (r : Rota) : Option ℕ := cyclicFind taskMaxTasks r.start fun i => decide (r.slots i = .live)

/-- The next live slot has its turn, or the run ends. -/
def dispatch (r : Rota) (budget : U32) : TaskOutput × Rota :=
  match r.next with
  | none => (⟨none, some (.ran true)⟩, { r with budget := none })
  | some i =>
    if budget = 0 then (⟨none, some (.ran false)⟩, { r with budget := none })
    else
      (⟨some i, none⟩,
        { r with cursor := some i, budget := some (budget - 1), switches := r.switches + 1 })

/-- The slot that had the last turn is done. -/
def finish (r : Rota) : Rota :=
  match r.cursor with
  | none => r
  | some i => { r with slots := Function.update r.slots i .done }

/-- The first free slot goes live. -/
def create (r : Rota) (entry : U32) : TaskOutput × Rota :=
  if entry = 0 then (⟨none, some (.created taskInvalidId)⟩, r)
  else
    match (List.range taskMaxTasks).find? fun i => decide (r.slots i = .free) with
    | none => (⟨none, some (.created taskInvalidId)⟩, r)
    | some i => (⟨none, some (.created i)⟩, { r with slots := Function.update r.slots i .live })

/-- The slot whose task runs. -/
def current (r : Rota) : Option ℕ := r.budget.bind fun _ => r.cursor

end Rota

/-- One step of the abstract model. -/
def rotaStep (r : Rota) : TaskEvent → TaskOutput × Rota
  | .bootstrap call =>
    match r.budget, call with
    | none, .systemInit => (⟨none, none⟩, Rota.initial)
    | none, .create entry _ => r.create entry
    | none, .run budget => r.dispatch budget
    | _, _ => (⟨none, none⟩, r)
  | .task call =>
    match r.budget, call with
    | some budget, .yield => r.dispatch budget
    | some budget, .exit => r.finish.dispatch budget
    | some _, .create _ _ => (⟨none, some (.created taskInvalidId)⟩, r)
    | some _, .run _ => (⟨none, some (.ran false)⟩, r)
    | _, _ => (⟨none, none⟩, r)

/-! ## The task table -/

/-- The state of a slot in the code. -/
def Slot.state (running : Bool) : Slot → TaskState
  | .free => .unused
  | .live => if running then .running else .ready
  | .done => .finished

/-- A switch to this context continues task `i`. -/
def Resumes (i : ℕ) (context : Context) : Prop := context = .trampoline ∨ context = .insideYield i

/-- The task table represents the slots of a rota, with task `current` running. -/
structure TableOK (tasks : ℕ → TaskControlBlock) (slots : ℕ → Slot) (current : Option ℕ) : Prop where
  state : ∀ i < 8, (tasks i).state = (slots i).state (decide (current = some i))
  entry : ∀ i < 8, slots i = .live → (tasks i).entry ≠ 0
  context : ∀ i < 8, slots i = .live → current ≠ some i → Resumes i (tasks i).stackPointer

variable {s : Scheduler} {slots : ℕ → Slot} {i : ℕ}

theorem Slot.state_ready {slot : Slot} {b : Bool} : slot.state b = .ready ↔ slot = .live ∧ b = false := by
  cases slot <;> cases b <;> simp [Slot.state]

theorem Slot.state_running {slot : Slot} {b : Bool} : slot.state b = .running ↔ slot = .live ∧ b = true := by
  cases slot <;> cases b <;> simp [Slot.state]

theorem Slot.state_finished {slot : Slot} {b : Bool} : slot.state b = .finished ↔ slot = .done := by
  cases slot <;> cases b <;> simp [Slot.state]

theorem Slot.state_unused {slot : Slot} {b : Bool} : slot.state b = .unused ↔ slot = .free := by
  cases slot <;> cases b <;> simp [Slot.state]

/-- A table changed at one entry, with no other task running before or after. -/
theorem TableOK.update {tasks : ℕ → TaskControlBlock} {current current' : Option ℕ} {task : TaskControlBlock}
    {slot : Slot} (h : TableOK tasks slots current) (hbefore : current = none ∨ current = some i)
    (hafter : current' = none ∨ current' = some i) (hstate : task.state = slot.state (decide (current' = some i)))
    (hentry : slot = .live → task.entry ≠ 0)
    (hcontext : slot = .live → current' ≠ some i → Resumes i task.stackPointer) :
    TableOK (Function.update tasks i task) (Function.update slots i slot) current' := by
  have hother : ∀ j, j ≠ i → current ≠ some j ∧ current' ≠ some j := by
    intro j hj
    rcases hbefore with rfl | rfl <;> rcases hafter with rfl | rfl <;> simp [Ne.symm hj]
  refine ⟨?_, ?_, ?_⟩ <;> intro j hj8
  all_goals by_cases hj : j = i
  · subst hj
    simpa using hstate
  · have := h.state j hj8
    simp only [(hother j hj).1, decide_false] at this
    simpa [Function.update_of_ne hj, (hother j hj).2] using this
  · subst hj
    simpa using hentry
  · simpa [Function.update_of_ne hj] using h.entry j hj8
  · subst hj
    simpa using hcontext
  · intro hlive _
    rw [Function.update_of_ne hj] at hlive ⊢
    exact h.context j hj8 hlive (hother j hj).1

/-- Task `i` starts to run. -/
theorem TableOK.dispatch {tasks : ℕ → TaskControlBlock} (h : TableOK tasks slots none) (hi : i < 8)
    (hlive : slots i = .live) :
    TableOK (Function.update tasks i { tasks i with state := .running }) slots (some i) := by
  rw [← Function.update_eq_self i slots, hlive]
  refine h.update (.inl rfl) (.inr rfl) ?_ ?_ ?_
  · simp [Slot.state]
  · exact fun _ => h.entry i hi hlive
  · exact fun _ hne => absurd rfl hne

/-- Task `i` stops running: it waits for another turn or is done. -/
theorem TableOK.release {tasks : ℕ → TaskControlBlock} (h : TableOK tasks slots (some i)) (hi : i < 8)
    (hlive : slots i = .live) (slot : Slot) (context : Context) (hcontext : slot = .live → Resumes i context) :
    TableOK (Function.update tasks i { tasks i with state := slot.state false, stackPointer := context })
      (Function.update slots i slot) none :=
  h.update (.inr rfl) (.inl rfl) (by simp) (fun _ => h.entry i hi hlive) (fun hslot _ => hcontext hslot)

/-! ## The code simulates the rota -/

/-- The scheduler's variables represent a rota, with task `current` running. -/
structure Represents (s : Scheduler) (r : Rota) (current : Option ℕ) : Prop where
  initialized : s.schedulerInitialized = true
  table : TableOK s.tasks r.slots current
  cursor : s.roundRobinCursor = r.cursor.getD taskInvalidId
  cursor_lt : ∀ i, r.cursor = some i → i < 8
  switches : s.switchCount = r.switches
  finished : s.finishedCount = word (countBelow 8 fun i => decide (r.slots i = .done))

/-- No run is in progress. -/
structure AtRest (sys : TaskSystem) : Prop where
  control : sys.control = .bootstrap
  stopped : sys.scheduler.schedulerRunning = false
  current : sys.scheduler.currentTaskId = taskInvalidId

/-- Task `i` has its turn, with `budget` further dispatches to go. -/
structure InTurn (sys : TaskSystem) (slots : ℕ → Slot) (i : ℕ) (budget : U32) : Prop where
  lt : i < 8
  live : slots i = .live
  control : sys.control = .task i
  running : sys.scheduler.schedulerRunning = true
  current : sys.scheduler.currentTaskId = i
  remaining : sys.scheduler.remainingDispatches = budget
  bootstrap : sys.scheduler.bootstrapStackPointer = .insideRun

def ModeOK (sys : TaskSystem) (r : Rota) : Prop :=
  match r.budget with
  | none => AtRest sys
  | some budget => ∃ i, r.cursor = some i ∧ InTurn sys r.slots i budget

/-- The system between two calls represents a rota. -/
structure TaskOK (sys : TaskSystem) (r : Rota) : Prop where
  represents : Represents sys.scheduler r r.current
  mode : ModeOK sys r

variable {r : Rota} {sys : TaskSystem} {n p : ℕ} {context : Context}

/-- The budget is not part of what is represented. -/
theorem Represents.withBudget {current : Option ℕ} (h : Represents s r current) (budget : Option U32) :
    Represents s { r with budget := budget } current :=
  ⟨h.initialized, h.table, h.cursor, h.cursor_lt, h.switches, h.finished⟩

/-- Nor are the variables of the run in progress. -/
theorem Represents.withRun {current : Option ℕ} (h : Represents s r current) (boot : Context) (id : ℕ)
    (remaining : U32) (running : Bool) :
    Represents { s with
      bootstrapStackPointer := boot, currentTaskId := id, remainingDispatches := remaining,
      schedulerRunning := running } r current :=
  ⟨h.initialized, h.table, h.cursor, h.cursor_lt, h.switches, h.finished⟩

theorem Rota.next_some (h : r.next = some n) : n < 8 ∧ r.slots n = .live := by
  obtain ⟨hn, hlive, -⟩ := cyclicFind_some h
  exact ⟨hn, by simpa using hlive⟩

/-- The id of a slot is not the invalid id. -/
theorem next_valid (hn : n < 8) : n ≠ taskInvalidId := by
  change n ≠ 0xFFFFFFFF
  omega

theorem Represents.next (h : Represents s r none) :
    findNextReady s s.roundRobinCursor = r.next.getD taskInvalidId := by
  have hready : ∀ i < 8, decide ((s.tasks i).state = .ready) = decide (r.slots i = .live) := by
    intro i hi
    rw [h.table.state i hi]
    simp [Slot.state_ready]
  have hstart : (if s.roundRobinCursor ≠ taskInvalidId then (s.roundRobinCursor + 1) % taskMaxTasks else 0) =
      r.start % taskMaxTasks := by
    rw [h.cursor, Rota.start]
    cases hc : r.cursor with
    | none => rfl
    | some c =>
      simp only [Option.getD_some, Option.elim_some]
      rw [if_pos (next_valid (h.cursor_lt c hc))]
  unfold findNextReady
  simp only
  rw [hstart, cyclicFind_mod, cyclicFind_congr (by decide) hready, Rota.next]

theorem findNextReady_saveContext (context : Context) (after : ℕ) :
    findNextReady (saveContext s p context) after = findNextReady s after := by
  have hstate : ∀ i, ((saveContext s p context).tasks i).state = (s.tasks i).state := by
    intro i
    unfold saveContext
    by_cases hi : i = p
    · subst hi
      simp
    · simp [Function.update_of_ne hi]
  simp only [findNextReady, hstate]

/-- The scheduler after `activate_task` has dispatched task `n`. -/
def activated (s : Scheduler) (n : ℕ) : Scheduler :=
  { setState s n .running with
    currentTaskId := n
    roundRobinCursor := n
    remainingDispatches := s.remainingDispatches - 1
    switchCount := s.switchCount + 1 }

@[simp] theorem activated_stackPointer :
    ((activated s n).tasks n).stackPointer = (s.tasks n).stackPointer := by
  simp [activated, setState]

theorem activateTask_ready (hn : n < 8) (hready : (s.tasks n).state = .ready) (hb : s.remainingDispatches ≠ 0) :
    activateTask s n = (true, activated s n) := by
  unfold activateTask
  rw [if_neg]
  · rfl
  · simpa [hready, hn] using hb

theorem Represents.ready (h : Represents s r none) (hn : r.next = some n) : (s.tasks n).state = .ready := by
  obtain ⟨hn8, hlive⟩ := Rota.next_some hn
  rw [h.table.state n hn8, hlive]
  rfl

theorem Represents.activated (h : Represents s r none) (hn : r.next = some n) (budget : Option U32) :
    Represents (activated s n)
      { r with cursor := some n, budget := budget, switches := r.switches + 1 } (some n) := by
  obtain ⟨hn8, hlive⟩ := Rota.next_some hn
  refine ⟨h.initialized, h.table.dispatch hn8 hlive, rfl, ?_, ?_, h.finished⟩
  · intro i hi
    obtain rfl : n = i := by simpa using hi
    exact hn8
  · change s.switchCount + 1 = _
    rw [h.switches]

theorem Rota.dispatch_some {budget : U32} (hn : r.next = some n) (hb : budget ≠ 0) :
    r.dispatch budget = (⟨some n, none⟩,
      { r with cursor := some n, budget := some (budget - 1), switches := r.switches + 1 }) := by
  simp only [Rota.dispatch, hn, if_neg hb]

theorem Rota.dispatch_end {budget : U32} (hend : r.next = none ∨ budget = 0) :
    r.dispatch budget = (⟨none, some (.ran r.next.isNone)⟩, { r with budget := none }) := by
  unfold Rota.dispatch
  cases hn : r.next with
  | none => rfl
  | some n =>
    obtain rfl : budget = 0 := hend.resolve_left (by simp [hn])
    rfl

/-- **A turn**: the switch to a dispatched task continues it. -/
theorem turn_sim (h : Represents s r none) (hn : r.next = some n) {budget : U32} (hb : budget ≠ 0)
    (hrunning : s.schedulerRunning = true) (hremaining : s.remainingDispatches = budget)
    (hboot : s.bootstrapStackPointer = .insideRun) :
    (resume (some n) (activated s n) ((activated s n).tasks n).stackPointer).1 = (r.dispatch budget).1 ∧
      TaskOK (resume (some n) (activated s n) ((activated s n).tasks n).stackPointer).2
        (r.dispatch budget).2 := by
  obtain ⟨hn8, hlive⟩ := Rota.next_some hn
  have hresume : resume (some n) (activated s n) (s.tasks n).stackPointer =
      (⟨some n, none⟩, ⟨activated s n, .task n⟩) := by
    rcases h.table.context n hn8 hlive (by simp) with hc | hc
    · -- the first turn of the task goes through the trampoline
      have hentry := h.table.entry n hn8 hlive
      rw [hc]
      simp only [resume, taskTrampoline]
      rw [if_neg]
      · rfl
      · simpa [activated, setState, hn8] using hentry
    · rw [hc]
      rfl
  rw [activated_stackPointer, hresume, Rota.dispatch_some hn hb]
  refine ⟨rfl, h.activated hn _, n, rfl, hn8, hlive, rfl, hrunning, rfl, ?_, hboot⟩
  change s.remainingDispatches - 1 = _
  rw [hremaining]

/-- **The end of a run**: the switch to bootstrap code returns from `task_run`. -/
theorem rest_sim (h : Represents s r none) (hidle : s.schedulerRunning = false)
    (hcurrent : s.currentTaskId = taskInvalidId) (budget : U32) (hend : r.next = none ∨ budget = 0) :
    (resume none s .insideRun).1 = (r.dispatch budget).1 ∧
      TaskOK (resume none s .insideRun).2 (r.dispatch budget).2 := by
  have hcomplete : decide (findNextReady s s.roundRobinCursor = taskInvalidId) = r.next.isNone := by
    rw [h.next]
    cases hn : r.next with
    | none => rfl
    | some n => simpa using next_valid (Rota.next_some hn).1
  rw [Rota.dispatch_end hend, resume, hcomplete]
  exact ⟨rfl, h.withBudget none, rfl, hidle, hcurrent⟩

@[simp] theorem resume_scheduler (dispatched : Option ℕ) (context : Context) :
    (resume dispatched s context).2.scheduler = s := by
  cases context <;> rfl

/-- What `task_yield` and `task_exit` end in: a switch to the next ready task, or to
bootstrap code. -/
def leave (s : Scheduler) (previous : ℕ) (context : Context) : TaskOutput × TaskSystem :=
  let next := findNextReady s previous
  if next ≠ taskInvalidId && s.remainingDispatches ≠ 0 then
    match activateTask s next with
    | (false, s) => (⟨none, none⟩, ⟨s, .stopped .activateFailed⟩)
    | (true, s) => resume (some next) (saveContext s previous context) (s.tasks next).stackPointer
  else switchToBootstrap s previous context

theorem saveContext_activated (hne : n ≠ p) :
    saveContext (activated s n) p context = activated (saveContext s p context) n := by
  simp only [saveContext, activated, setState, Function.update_of_ne hne, Function.update_of_ne hne.symm]
  rw [Function.update_comm hne]

theorem leave_sim (h : Represents (saveContext s p context) r none) (hp : r.cursor = some p)
    {budget : U32} (hne : r.next = some p → budget = 0) (hrunning : s.schedulerRunning = true)
    (hremaining : s.remainingDispatches = budget) (hboot : s.bootstrapStackPointer = .insideRun) :
    (leave s p context).1 = (r.dispatch budget).1 ∧ TaskOK (leave s p context).2 (r.dispatch budget).2 := by
  have hcursor : s.roundRobinCursor = p := by
    have := h.cursor
    rwa [hp] at this
  have hnext : findNextReady s p = r.next.getD taskInvalidId := by
    rw [← findNextReady_saveContext (p := p) context, ← h.next]
    exact congrArg _ hcursor.symm
  have hbootstrap : ∀ hend : r.next = none ∨ budget = 0,
      (switchToBootstrap s p context).1 = (r.dispatch budget).1 ∧
        TaskOK (switchToBootstrap s p context).2 (r.dispatch budget).2 := by
    intro hend
    simp only [switchToBootstrap, hboot]
    exact rest_sim (h.withRun _ taskInvalidId _ false) rfl rfl budget hend
  unfold leave
  simp only [hnext, hremaining]
  cases hn : r.next with
  | none =>
    rw [Option.getD_none, if_neg (by simp)]
    exact hbootstrap (.inl hn)
  | some n =>
    rw [Option.getD_some]
    by_cases hb : budget = 0
    · rw [if_neg (by simp [hb])]
      exact hbootstrap (.inr hb)
    · obtain ⟨hn8, -⟩ := Rota.next_some hn
      have hnp : n ≠ p := by
        rintro rfl
        exact hb (hne hn)
      have hvalid := next_valid hn8
      have htask : (saveContext s p context).tasks n = s.tasks n := Function.update_of_ne hnp _ _
      have hready : (s.tasks n).state = .ready := by rw [← htask]; exact h.ready hn
      have hpointer : ((activated s n).tasks n).stackPointer =
          ((activated (saveContext s p context) n).tasks n).stackPointer := by
        rw [activated_stackPointer, activated_stackPointer, htask]
      rw [if_pos (by simpa [hvalid] using hb), activateTask_ready hn8 hready (by rwa [hremaining])]
      simp only
      rw [saveContext_activated hnp, hpointer]
      exact turn_sim h hn hb hrunning hremaining hboot

/-! ## Every call -/

/-- `task_run` from bootstrap code. -/
theorem taskRun_rest_sim (h : TaskOK sys r) (hrest : r.budget = none) (budget : U32) :
    (taskRun sys budget).1 = (r.dispatch budget).1 ∧ TaskOK (taskRun sys budget).2 (r.dispatch budget).2 := by
  obtain ⟨hrep, hmode⟩ := h
  simp only [ModeOK, hrest] at hmode
  simp only [Rota.current, hrest, Option.bind_none] at hrep
  have hnext := hrep.next
  unfold taskRun
  simp only
  rw [if_neg (by simp [hrep.initialized, hmode.stopped]), hnext]
  have hsame : TaskOK sys { r with budget := none } := ⟨hrep.withBudget none, hmode⟩
  cases hn : r.next with
  | none =>
    simp only [Rota.dispatch, hn]
    exact ⟨rfl, hsame⟩
  | some n =>
    obtain ⟨hn8, -⟩ := Rota.next_some hn
    simp only [Option.getD_some, if_neg (next_valid hn8)]
    by_cases hb : budget = 0
    · simp only [if_pos hb, Rota.dispatch, hn]
      exact ⟨trivial, hsame⟩
    · rw [if_neg hb, activateTask_ready hn8 (by exact hrep.ready hn) (by exact hb)]
      exact turn_sim (hrep.withRun .insideRun sys.scheduler.currentTaskId budget true) hn hb rfl rfl rfl

/-- The turn of task `i`, as the guard of `task_yield` and `task_exit` sees it. -/
theorem TaskOK.inTurn (h : TaskOK sys r) {budget : U32} (hb : r.budget = some budget) :
    ∃ i, r.cursor = some i ∧ InTurn sys r.slots i budget ∧ Represents sys.scheduler r (some i) ∧
      dispatchedTask sys.scheduler = true := by
  obtain ⟨hrep, hmode⟩ := h
  simp only [ModeOK, hb] at hmode
  obtain ⟨i, hi, hturn⟩ := hmode
  simp only [Rota.current, hb, Option.bind_some, hi] at hrep
  refine ⟨i, hi, hturn, hrep, ?_⟩
  have hstate := hrep.table.state i hturn.lt
  rw [hturn.live] at hstate
  simp [dispatchedTask, hrep.initialized, hturn.running, hturn.current, hturn.lt, hstate, Slot.state]

theorem Represents.cursor_eq {current : Option ℕ} (h : Represents s r current) (hi : r.cursor = some i) :
    s.roundRobinCursor = i := by
  rw [h.cursor, hi]
  rfl

/-- The only ready task yields to itself: there is no switch, and the context that
was saved for it stays as it was. -/
theorem taskYield_self {budget : U32} (hrep : Represents sys.scheduler r (some i))
    (hturn : InTurn sys r.slots i budget) (hself : r.next = some i) (hb : budget ≠ 0) :
    TaskOK ⟨activated (setState sys.scheduler i .ready) i, .task i⟩ (r.dispatch budget).2 := by
  have htable : TableOK (activated (setState sys.scheduler i .ready) i).tasks r.slots (some i) := by
    simp only [activated, setState, Function.update_self, Function.update_idem]
    rw [← Function.update_eq_self i r.slots, hturn.live]
    refine hrep.table.update (.inr rfl) (.inr rfl) ?_ ?_ ?_
    · simp [Slot.state]
    · exact fun _ => hrep.table.entry i hturn.lt hturn.live
    · exact fun _ hne => absurd rfl hne
  rw [Rota.dispatch_some hself hb]
  refine ⟨⟨hrep.initialized, htable, rfl, ?_, ?_, hrep.finished⟩,
    i, rfl, hturn.lt, hturn.live, rfl, hturn.running, rfl, ?_, hturn.bootstrap⟩
  · intro j hj
    obtain rfl : i = j := by simpa using hj
    exact hturn.lt
  · change sys.scheduler.switchCount + 1 = _
    rw [hrep.switches]
  · change sys.scheduler.remainingDispatches - 1 = _
    rw [hturn.remaining]

/-- `task_yield` from a task that does not yield to itself. -/
theorem taskYield_leave (hguard : dispatchedTask sys.scheduler = true)
    (hcurrent : sys.scheduler.currentTaskId = i)
    (hother : ¬ (findNextReady (setState sys.scheduler i .ready) i = i ∧ sys.scheduler.remainingDispatches ≠ 0)) :
    taskYield sys = leave (setState sys.scheduler i .ready) i (.insideYield i) := by
  unfold taskYield leave
  simp only [hguard, hcurrent, Bool.not_true, Bool.false_eq_true, if_false]
  generalize findNextReady (setState sys.scheduler i .ready) i = next at hother ⊢
  by_cases hbudget : (setState sys.scheduler i .ready).remainingDispatches = 0
  · simp [hbudget]
  · have hne : next ≠ i := fun heq => hother ⟨heq, hbudget⟩
    rcases activateTask (setState sys.scheduler i .ready) next with ⟨ok, s'⟩
    cases ok <;> simp only [if_neg hne]

/-- `task_yield` from the task that runs. -/
theorem taskYield_sim (h : TaskOK sys r) {budget : U32} (hb : r.budget = some budget) :
    (taskYield sys).1 = (r.dispatch budget).1 ∧ TaskOK (taskYield sys).2 (r.dispatch budget).2 := by
  obtain ⟨i, hi, hturn, hrep, hguard⟩ := h.inTurn hb
  have hrest : Represents (saveContext (setState sys.scheduler i .ready) i (.insideYield i)) r none := by
    have htable := hrep.table.release hturn.lt hturn.live .live (.insideYield i) (fun _ => .inr rfl)
    rw [← hturn.live, Function.update_eq_self, hturn.live] at htable
    refine ⟨hrep.initialized, ?_, hrep.cursor, hrep.cursor_lt, hrep.switches, hrep.finished⟩
    simpa [saveContext, setState, Slot.state] using htable
  have hnext : findNextReady (setState sys.scheduler i .ready) i = r.next.getD taskInvalidId := by
    rw [← hrest.next, findNextReady_saveContext]
    exact congrArg _ (hrep.cursor_eq hi).symm
  by_cases hself : r.next = some i ∧ budget ≠ 0
  · obtain ⟨hself, hbudget⟩ := hself
    have hremaining : (setState sys.scheduler i .ready).remainingDispatches ≠ 0 := by
      rwa [← hturn.remaining] at hbudget
    have hyield : taskYield sys = (⟨some i, none⟩, ⟨activated (setState sys.scheduler i .ready) i, .task i⟩) := by
      unfold taskYield
      simp only [hguard, hturn.current, hnext, hself, hturn.control, Option.getD_some]
      rw [if_neg (by simp), if_pos (by simpa [next_valid hturn.lt] using hremaining),
        activateTask_ready hturn.lt (by simp [setState]) hremaining]
      simp
    rw [hyield]
    exact ⟨by rw [Rota.dispatch_some hself hbudget], taskYield_self hrep hturn hself hbudget⟩
  · have hyield : taskYield sys = leave (setState sys.scheduler i .ready) i (.insideYield i) := by
      refine taskYield_leave hguard hturn.current fun hyields => hself ?_
      rw [hnext, hturn.remaining] at hyields
      refine ⟨?_, hyields.2⟩
      cases hn : r.next with
      | none =>
        rw [hn] at hyields
        exact absurd hyields.1.symm (next_valid hturn.lt)
      | some n => rw [← hyields.1, hn, Option.getD_some]
    rw [hyield]
    refine leave_sim hrest hi ?_ hturn.running hturn.remaining hturn.bootstrap
    intro hn
    by_contra hbudget
    exact hself ⟨hn, hbudget⟩

theorem taskExit_eq : taskExit sys =
    if !dispatchedTask sys.scheduler then (⟨none, none⟩, ⟨sys.scheduler, .stopped .exitRefused⟩)
    else
      leave
        { setState sys.scheduler sys.scheduler.currentTaskId .finished with
          finishedCount := sys.scheduler.finishedCount + 1 }
        sys.scheduler.currentTaskId (.insideExit sys.scheduler.currentTaskId) :=
  rfl

/-- `task_exit` from the task that runs. -/
theorem taskExit_sim (h : TaskOK sys r) {budget : U32} (hb : r.budget = some budget) :
    (taskExit sys).1 = (r.finish.dispatch budget).1 ∧ TaskOK (taskExit sys).2 (r.finish.dispatch budget).2 := by
  obtain ⟨i, hi, hturn, hrep, hguard⟩ := h.inTurn hb
  have hfinish : r.finish = { r with slots := Function.update r.slots i .done } := by
    simp only [Rota.finish, hi]
  have hcount : countBelow 8 (fun j => decide (Function.update r.slots i .done j = .done)) =
      countBelow 8 (fun j => decide (r.slots j = .done)) + 1 := by
    have hstep := countBelow_step (P := fun j => decide (r.slots j = .done))
      (Q := fun j => decide (Function.update r.slots i .done j = .done)) hturn.lt
      (fun j hj => by rw [Function.update_of_ne hj])
    simpa [hturn.live] using hstep
  have hexit : taskExit sys = leave
      { setState sys.scheduler i .finished with finishedCount := sys.scheduler.finishedCount + 1 } i
        (.insideExit i) := by
    rw [taskExit_eq, if_neg (by simp [hguard]), hturn.current]
  rw [hexit]
  refine leave_sim ?_ (by rw [hfinish, hi]) ?_ hturn.running hturn.remaining hturn.bootstrap
  · have htable := hrep.table.release hturn.lt hturn.live .done (.insideExit i) (by simp)
    refine ⟨hrep.initialized, ?_, ?_, ?_, ?_, ?_⟩
    · rw [hfinish]
      simpa [saveContext, setState, Slot.state] using htable
    · rw [hfinish]
      exact hrep.cursor
    · rw [hfinish]
      exact hrep.cursor_lt
    · rw [hfinish]
      exact hrep.switches
    · rw [hfinish]
      change sys.scheduler.finishedCount + 1 = word (countBelow 8 _)
      rw [hcount, word_succ, hrep.finished]
  · intro hn
    have hlive := (Rota.next_some hn).2
    rw [hfinish] at hlive
    simp at hlive

/-- Bootstrap code and rejected calls find no dispatched task. -/
theorem TaskOK.atRest (h : TaskOK sys r) (hb : r.budget = none) :
    AtRest sys ∧ Represents sys.scheduler r none := by
  obtain ⟨hrep, hmode⟩ := h
  simp only [ModeOK, hb] at hmode
  simp only [Rota.current, hb, Option.bind_none] at hrep
  exact ⟨hmode, hrep⟩

theorem taskSystemInit_rest (hidle : s.schedulerRunning = false) :
    TaskOK ⟨taskSystemInit s, .bootstrap⟩ Rota.initial := by
  unfold taskSystemInit
  rw [hidle]
  refine ⟨⟨rfl, ⟨?_, ?_, ?_⟩, rfl, by simp [Rota.initial], rfl, ?_⟩, rfl, rfl, rfl⟩
  · intro i hi
    simp [hi, Rota.initial, Slot.state]
  · simp [Rota.initial]
  · simp [Rota.initial]
  · simp [Rota.initial, countBelow]

/-- `task_create` from bootstrap code. -/
theorem taskCreate_sim (h : TaskOK sys r) (hb : r.budget = none) (entry argument : U32) :
    (createStep sys entry argument).1 = (r.create entry).1 ∧
      TaskOK (createStep sys entry argument).2 (r.create entry).2 := by
  obtain ⟨hmode, hrep⟩ := h.atRest hb
  have hfree : ((List.range taskMaxTasks).find? fun i => decide ((sys.scheduler.tasks i).state = .unused)) =
      (List.range taskMaxTasks).find? fun i => decide (r.slots i = .free) := by
    refine List.find?_congr ?_
    intro i hi
    rw [hrep.table.state i (List.mem_range.1 hi)]
    simp [Slot.state_unused]
  unfold createStep taskCreate Rota.create
  simp only [hrep.initialized, hmode.stopped, Bool.not_true, Bool.or_self, Bool.false_or]
  by_cases hentry : entry = 0
  · simp only [hentry, decide_true, if_true]
    exact ⟨trivial, h⟩
  · simp only [hentry, decide_false, Bool.false_eq_true, if_false, hfree]
    cases hfind : (List.range taskMaxTasks).find? fun i => decide (r.slots i = .free) with
    | none => exact ⟨rfl, h⟩
    | some i =>
      have hi : i < 8 := List.mem_range.1 (List.mem_of_find?_eq_some hfind)
      have hslot := List.find?_some hfind
      have hcount : countBelow 8 (fun j => decide (Function.update r.slots i .live j = .done)) =
          countBelow 8 (fun j => decide (r.slots j = .done)) := by
        refine countBelow_congr ?_
        intro j _
        by_cases hj : j = i
        · subst hj
          simp [of_decide_eq_true hslot]
        · rw [Function.update_of_ne hj]
      refine ⟨rfl, ?_, ?_⟩
      · simp only [Rota.current, hb, Option.bind_none]
        refine ⟨rfl, ?_, hrep.cursor, hrep.cursor_lt, hrep.switches, ?_⟩
        · exact hrep.table.update (.inl rfl) (.inl rfl) rfl (fun _ => hentry) (fun _ _ => .inl rfl)
        · rw [hcount]
          exact hrep.finished
      · simp only [ModeOK, hb]
        exact ⟨hmode.control, rfl, hmode.current⟩

theorem taskStep_bootstrap (h : sys.control = .bootstrap) (call : BootstrapCall) :
    taskStep sys (.bootstrap call) = bootstrapStep sys call := by
  simp only [taskStep, h]

theorem taskStep_task (h : sys.control = .task i) (call : TaskCall) :
    taskStep sys (.task call) = taskCallStep sys call := by
  simp only [taskStep, h]

/-- **Step lemma**: every call goes as on the rota. -/
theorem taskStep_sim (h : TaskOK sys r) (e : TaskEvent) :
    (taskStep sys e).1 = (rotaStep r e).1 ∧ TaskOK (taskStep sys e).2 (rotaStep r e).2 := by
  cases hb : r.budget with
  | none =>
    obtain ⟨hmode, hrep⟩ := h.atRest hb
    cases e with
    | bootstrap call =>
      rw [taskStep_bootstrap hmode.control]
      cases call with
      | systemInit =>
        simp only [rotaStep, hb, bootstrapStep, hmode.control]
        exact ⟨trivial, taskSystemInit_rest hmode.stopped⟩
      | create entry argument =>
        simp only [rotaStep, hb]
        exact taskCreate_sim h hb entry argument
      | run budget =>
        simp only [rotaStep, hb]
        exact taskRun_rest_sim h hb budget
      | yield =>
        have hnone : taskYield sys = (⟨none, none⟩, sys) := by
          simp [taskYield, dispatchedTask, hmode.stopped]
        simp only [rotaStep, hb, bootstrapStep, hnone]
        exact ⟨trivial, h⟩
    | task call =>
      simp only [taskStep, hmode.control, rotaStep, hb]
      exact ⟨trivial, h⟩
  | some budget =>
    obtain ⟨i, hi, hturn, hrep, -⟩ := h.inTurn hb
    cases e with
    | bootstrap call =>
      simp only [taskStep, hturn.control, rotaStep, hb]
      exact ⟨trivial, h⟩
    | task call =>
      rw [taskStep_task hturn.control]
      cases call with
      | systemInit =>
        simp only [rotaStep, hb, taskCallStep, taskSystemInit, hturn.running, if_true]
        exact ⟨trivial, h⟩
      | create entry argument =>
        simp only [rotaStep, hb, taskCallStep, createStep, taskCreate, hturn.running, Bool.or_true,
          Bool.true_or, if_true]
        exact ⟨trivial, h⟩
      | run budget' =>
        simp only [rotaStep, hb, taskCallStep, taskRun, hturn.running, Bool.or_true, if_true]
        exact ⟨trivial, h⟩
      | yield =>
        simp only [rotaStep, hb]
        exact taskYield_sim h hb
      | exit =>
        simp only [rotaStep, hb]
        exact taskExit_sim h hb

theorem initialSystem_ok : TaskOK initialSystem Rota.initial := taskSystemInit_rest rfl

/-- **Run lemma**: so do whole runs. -/
theorem taskRun_sim (es : List TaskEvent) :
    trace taskStep initialSystem es = trace rotaStep Rota.initial es ∧
      TaskOK (exec taskStep initialSystem es) (exec rotaStep Rota.initial es) :=
  trace_sim (R := TaskOK) (fun _ _ e h => taskStep_sim h e) initialSystem_ok es

end TinyShell
