import TinyShell.Machine.Cyclic
import TinyShell.Machine.Word

/-!
# Cooperative tasks (`kernel/task/task.c`)

Eight task slots and a round-robin cursor. Every function runs with interrupts off up
to its `task_context_switch`, so a call is one step; where control goes is part of the
state. A saved stack pointer is modelled by what a switch to it resumes: the
trampoline, the rest of `task_yield`, `task_exit` or `task_run`.
-/

namespace TinyShell

open Machine

abbrev taskMaxTasks : ℕ := 8

abbrev taskInvalidId : ℕ := 0xFFFFFFFF

inductive TaskState
  | unused
  | ready
  | running
  | finished
  deriving DecidableEq

/-- The code that a saved stack pointer leads back to. -/
inductive Context
  | null
  | trampoline
  | insideYield (id : ℕ)
  | insideExit (id : ℕ)
  | insideRun
  deriving DecidableEq

structure TaskControlBlock where
  state : TaskState
  entry : U32
  argument : U32
  stackPointer : Context

structure Scheduler where
  tasks : ℕ → TaskControlBlock
  bootstrapStackPointer : Context
  currentTaskId : ℕ
  roundRobinCursor : ℕ
  remainingDispatches : U32
  switchCount : U32
  finishedCount : U32
  schedulerInitialized : Bool
  schedulerRunning : Bool

/-- Why `task_stop` was called. -/
inductive StopReason
  | activateFailed
  | trampolineEntry
  | exitRefused
  | resumedAfterExit
  | nullContext
  deriving DecidableEq

/-- Whose code runs. -/
inductive Control
  | bootstrap
  | task (id : ℕ)
  | stopped (reason : StopReason)
  deriving DecidableEq

structure TaskSystem where
  scheduler : Scheduler
  control : Control

/-- What a call returned to the code that made it. -/
inductive TaskReturn
  | created (id : ℕ)
  | ran (complete : Bool)
  deriving DecidableEq

/-- What a step shows: the task that `activate_task` dispatched, and the call that
returned. -/
structure TaskOutput where
  dispatched : Option ℕ
  returned : Option TaskReturn
  deriving DecidableEq

def setState (s : Scheduler) (id : ℕ) (state : TaskState) : Scheduler :=
  { s with tasks := Function.update s.tasks id { s.tasks id with state := state } }

def saveContext (s : Scheduler) (id : ℕ) (context : Context) : Scheduler :=
  { s with tasks := Function.update s.tasks id { s.tasks id with stackPointer := context } }

def findNextReady (s : Scheduler) (after : ℕ) : ℕ :=
  let start := if after ≠ taskInvalidId then (after + 1) % taskMaxTasks else 0
  (cyclicFind taskMaxTasks start fun candidate => decide ((s.tasks candidate).state = .ready)).getD
    taskInvalidId

/-- `activate_task`. -/
def activateTask (s : Scheduler) (id : ℕ) : Bool × Scheduler :=
  if id ≥ taskMaxTasks || (s.tasks id).state ≠ .ready || s.remainingDispatches = 0 then (false, s)
  else
    (true,
      { setState s id .running with
        currentTaskId := id
        roundRobinCursor := id
        remainingDispatches := s.remainingDispatches - 1
        switchCount := s.switchCount + 1 })

/-- `task_trampoline`, up to the call of the task's entry. -/
def taskTrampoline (s : Scheduler) : Control :=
  let id := s.currentTaskId
  if id ≥ taskMaxTasks || (s.tasks id).state ≠ .running || (s.tasks id).entry = 0 then
    .stopped .trampolineEntry
  else .task id

/-- The end of `task_context_switch`: the saved code goes on to where it next returns. -/
def resume (dispatched : Option ℕ) (s : Scheduler) : Context → TaskOutput × TaskSystem
  | .null => (⟨dispatched, none⟩, ⟨s, .stopped .nullContext⟩)
  | .trampoline => (⟨dispatched, none⟩, ⟨s, taskTrampoline s⟩)
  | .insideYield id => (⟨dispatched, none⟩, ⟨s, .task id⟩)
  | .insideExit _ => (⟨dispatched, none⟩, ⟨s, .stopped .resumedAfterExit⟩)
  | .insideRun =>
    let complete := findNextReady s s.roundRobinCursor = taskInvalidId
    (⟨dispatched, some (.ran complete)⟩, ⟨s, .bootstrap⟩)

/-- `switch_to_bootstrap`, from inside the call that `context` saves. -/
def switchToBootstrap (s : Scheduler) (previous : ℕ) (context : Context) : TaskOutput × TaskSystem :=
  let s := { s with currentTaskId := taskInvalidId, schedulerRunning := false }
  resume none (saveContext s previous context) s.bootstrapStackPointer

/-- `task_system_init`. -/
def taskSystemInit (s : Scheduler) : Scheduler :=
  if s.schedulerRunning then s
  else
    { tasks := fun id => if id < taskMaxTasks then ⟨.unused, 0, 0, .null⟩ else s.tasks id
      bootstrapStackPointer := .null
      currentTaskId := taskInvalidId
      roundRobinCursor := taskInvalidId
      remainingDispatches := 0
      switchCount := 0
      finishedCount := 0
      schedulerRunning := false
      schedulerInitialized := true }

/-- `task_create`; `prepare_initial_stack` leaves a frame that returns into the
trampoline. -/
def taskCreate (s : Scheduler) (entry argument : U32) : ℕ × Scheduler :=
  if !s.schedulerInitialized || s.schedulerRunning || entry = 0 then (taskInvalidId, s)
  else
    match (List.range taskMaxTasks).find? fun candidate => decide ((s.tasks candidate).state = .unused) with
    | none => (taskInvalidId, s)
    | some id => (id, { s with tasks := Function.update s.tasks id ⟨.ready, entry, argument, .trampoline⟩ })

/-- `task_run`. -/
def taskRun (sys : TaskSystem) (switchBudget : U32) : TaskOutput × TaskSystem :=
  let s := sys.scheduler
  if !s.schedulerInitialized || s.schedulerRunning then (⟨none, some (.ran false)⟩, sys)
  else
    let next := findNextReady s s.roundRobinCursor
    if next = taskInvalidId then (⟨none, some (.ran true)⟩, sys)
    else if switchBudget = 0 then (⟨none, some (.ran false)⟩, sys)
    else
      match activateTask { s with remainingDispatches := switchBudget, schedulerRunning := true } next with
      | (false, s) => (⟨none, some (.ran false)⟩, ⟨{ s with schedulerRunning := false }, sys.control⟩)
      | (true, s) =>
        resume (some next) { s with bootstrapStackPointer := .insideRun } (s.tasks next).stackPointer

/-- The guard of `task_yield` and `task_exit`: a dispatched task makes the call. -/
def dispatchedTask (s : Scheduler) : Bool :=
  s.schedulerInitialized && s.schedulerRunning && s.currentTaskId < taskMaxTasks &&
    (s.tasks s.currentTaskId).state = .running

/-- `task_yield`. -/
def taskYield (sys : TaskSystem) : TaskOutput × TaskSystem :=
  let s := sys.scheduler
  if !dispatchedTask s then (⟨none, none⟩, sys)
  else
    let previous := s.currentTaskId
    let s := setState s previous .ready
    let next := findNextReady s previous
    if next ≠ taskInvalidId && s.remainingDispatches ≠ 0 then
      match activateTask s next with
      | (false, s) => (⟨none, none⟩, ⟨s, .stopped .activateFailed⟩)
      | (true, s) =>
        if next = previous then (⟨some next, none⟩, ⟨s, sys.control⟩)
        else resume (some next) (saveContext s previous (.insideYield previous)) (s.tasks next).stackPointer
    else switchToBootstrap s previous (.insideYield previous)

/-- `task_exit`, also where the trampoline calls it after the entry returned. -/
def taskExit (sys : TaskSystem) : TaskOutput × TaskSystem :=
  let s := sys.scheduler
  if !dispatchedTask s then (⟨none, none⟩, ⟨s, .stopped .exitRefused⟩)
  else
    let previous := s.currentTaskId
    let s := { setState s previous .finished with finishedCount := s.finishedCount + 1 }
    let next := findNextReady s previous
    if next ≠ taskInvalidId && s.remainingDispatches ≠ 0 then
      match activateTask s next with
      | (false, s) => (⟨none, none⟩, ⟨s, .stopped .activateFailed⟩)
      | (true, s) =>
        resume (some next) (saveContext s previous (.insideExit previous)) (s.tasks next).stackPointer
    else switchToBootstrap s previous (.insideExit previous)

def taskCurrentId (s : Scheduler) : ℕ :=
  if !s.schedulerRunning || s.currentTaskId ≥ taskMaxTasks then taskInvalidId else s.currentTaskId

def taskSwitchCount (s : Scheduler) : U32 := s.switchCount

def taskFinishedCount (s : Scheduler) : U32 := s.finishedCount

/-! ## Calls -/

/-- Calls that bootstrap code makes. -/
inductive BootstrapCall
  | systemInit
  | create (entry argument : U32)
  | run (switchBudget : U32)
  | yield

/-- Calls that a task makes; a return of its entry is an `exit`. -/
inductive TaskCall
  | systemInit
  | create (entry argument : U32)
  | run (switchBudget : U32)
  | yield
  | exit

inductive TaskEvent
  | bootstrap (call : BootstrapCall)
  | task (call : TaskCall)

/-- `task_create` as a step of the code in control. -/
def createStep (sys : TaskSystem) (entry argument : U32) : TaskOutput × TaskSystem :=
  let (id, s) := taskCreate sys.scheduler entry argument
  (⟨none, some (.created id)⟩, ⟨s, sys.control⟩)

def bootstrapStep (sys : TaskSystem) : BootstrapCall → TaskOutput × TaskSystem
  | .systemInit => (⟨none, none⟩, ⟨taskSystemInit sys.scheduler, sys.control⟩)
  | .create entry argument => createStep sys entry argument
  | .run switchBudget => taskRun sys switchBudget
  | .yield => taskYield sys

def taskCallStep (sys : TaskSystem) : TaskCall → TaskOutput × TaskSystem
  | .systemInit => (⟨none, none⟩, ⟨taskSystemInit sys.scheduler, sys.control⟩)
  | .create entry argument => createStep sys entry argument
  | .run switchBudget => taskRun sys switchBudget
  | .yield => taskYield sys
  | .exit => taskExit sys

/-- One step: a call of the code that has control. Code without control makes no call. -/
def taskStep (sys : TaskSystem) : TaskEvent → TaskOutput × TaskSystem
  | .bootstrap call =>
    match sys.control with
    | .bootstrap => bootstrapStep sys call
    | _ => (⟨none, none⟩, sys)
  | .task call =>
    match sys.control with
    | .task _ => taskCallStep sys call
    | _ => (⟨none, none⟩, sys)

/-- The scheduler's variables as the loader leaves them. -/
def loadedScheduler : Scheduler where
  tasks _ := ⟨.unused, 0, 0, .null⟩
  bootstrapStackPointer := .null
  currentTaskId := taskInvalidId
  roundRobinCursor := taskInvalidId
  remainingDispatches := 0
  switchCount := 0
  finishedCount := 0
  schedulerInitialized := false
  schedulerRunning := false

/-- Bootstrap code has called `task_system_init`. -/
def initialSystem : TaskSystem := ⟨taskSystemInit loadedScheduler, .bootstrap⟩

/-! ## Whole calls of `task_run` -/

variable {σ : Type*}

/-- What the task that runs does next, given its id, `task_switch_count`,
`task_finished_count` and the state of all task code. -/
abbrev Behaviour (σ : Type*) := ℕ → U32 → U32 → σ → TaskCall × σ

/-- A call of `task_run` that returned: its result, the tasks dispatched in order, and
what it left. -/
structure RunResult (σ : Type*) where
  complete : Bool
  dispatched : List ℕ
  system : TaskSystem
  state : σ

/-- The tasks run, for at most `fuel` calls, until control is back in bootstrap code. -/
def runUntilReturn (act : Behaviour σ) (fuel : ℕ) (step : TaskOutput × TaskSystem) (x : σ) :
    Option (RunResult σ) :=
  let (out, sys) := step
  match sys.control, fuel with
  | .bootstrap, _ =>
    match out.returned with
    | some (.ran complete) => some ⟨complete, out.dispatched.toList, sys, x⟩
    | _ => none
  | .task id, fuel + 1 =>
    let (call, x) := act id (taskSwitchCount sys.scheduler) (taskFinishedCount sys.scheduler) x
    (runUntilReturn act fuel (taskStep sys (.task call)) x).map fun result =>
      { result with dispatched := out.dispatched.toList ++ result.dispatched }
  | _, _ => none

/-- A whole call `task_run(switch_budget)` of bootstrap code. -/
def taskRunCall (act : Behaviour σ) (fuel : ℕ) (sys : TaskSystem) (x : σ) (switchBudget : U32) :
    Option (RunResult σ) :=
  runUntilReturn act fuel (taskRun sys switchBudget) x

/-- How a slice ends. -/
inductive SliceEnd
  | yield
  | exit

def SliceEnd.call : SliceEnd → TaskCall
  | .yield => .yield
  | .exit => .exit

/-- Tasks given by their slices: what a task does between a dispatch and its next yield
or exit. -/
abbrev Slices (σ : Type*) := ℕ → U32 → U32 → σ → SliceEnd × σ

def Slices.behaviour (slices : Slices σ) : Behaviour σ := fun id switches finished x =>
  let (ending, x) := slices id switches finished x
  (ending.call, x)

/-- Every dispatch is one slice, so the budget bounds their number. -/
def taskRunSlices (slices : Slices σ) (sys : TaskSystem) (x : σ) (switchBudget : U32) : Option (RunResult σ) :=
  taskRunCall slices.behaviour switchBudget.toNat sys x switchBudget

end TinyShell
