import TinyShell.Machine.Stack
import TinyShell.Spec.Task

/-!
# Context switches (`boot/context_switch.S`, `kernel/task/task.c`)

The scheduler of `Spec.Task` on a machine with nine stacks. Here a saved stack pointer
is a word in memory, `task_context_switch` is the code of `context_switch.S`, and where
it returns to is what it pops from the stack it has switched to. The symbolic contexts
of `Spec.Task` are carried along and not read.

The C functions keep to the calling convention: a function saves the registers that
belong to its caller in its frame and has anything in them while it runs. The static
`switch_to_bootstrap` is part of the functions that call it.
-/

namespace TinyShell

open Machine

abbrev taskStackSize : ℕ := 16384

abbrev eflagsReserved : U32 := 1#32 <<< 1

abbrev eflagsTrap : U32 := 1#32 <<< 8

abbrev eflagsInterrupt : U32 := 1#32 <<< 9

abbrev eflagsDirection : U32 := 1#32 <<< 10

abbrev eflagsNestedTask : U32 := 1#32 <<< 14

abbrev eflagsVirtual8086 : U32 := 1#32 <<< 17

/-- `task_context_switch`. -/
def taskContextSwitch : List Instr :=
  [.load 12 .esp .eax, .push .eax, .push .ebp, .push .ebx, .push .esi, .push .edi,
    .load 24 .esp .eax, .store .esp .eax, .load 28 .esp .esp,
    .pop .edi, .pop .esi, .pop .ebx, .pop .ebp, .popf, .ret]

/-! ## The linked program -/

/-- The calls of `task_context_switch`. -/
inductive CallSite
  | run
  | yieldToTask
  | yieldToBootstrap
  | exitToTask
  | exitToBootstrap
  deriving DecidableEq

def callSites : List CallSite := [.run, .yieldToTask, .yieldToBootstrap, .exitToTask, .exitToBootstrap]

/-- Code that `task_context_switch` may return to. -/
inductive Label
  | trampoline
  | after (site : CallSite)
  deriving DecidableEq

def labels : List Label := .trampoline :: callSites.map .after

/-- The owner of a stack. -/
inductive Party
  | bootstrap
  | task (id : ℕ)
  deriving DecidableEq

def parties : List Party := .bootstrap :: (List.range taskMaxTasks).map .task

/-- Where the linker placed code and data, and what the compiler keeps in the frames. -/
structure Image where
  address : Label → U32
  taskExit : U32
  /-- The words in the frame of a function at its call, besides the saved registers and
  the arguments of the call. -/
  frameWords : CallSite → ℕ
  tasks : ℕ
  bootstrapStackPointer : ℕ
  taskStacks : ℕ
  stackBottom : ℕ
  injective : Function.Injective address
  aligned : taskStacks % 16 = 0
  fits : tasks + 128 < 2 ^ 32 ∧ bootstrapStackPointer + 4 < 2 ^ 32 ∧ taskStacks + 131072 < 2 ^ 32 ∧
    stackBottom + 16384 < 2 ^ 32
  apart : [(tasks, 128), (bootstrapStackPointer, 4), (taskStacks, 131072), (stackBottom, 16384)].Pairwise
    fun r r' => r.1 + r.2 ≤ r'.1 ∨ r'.1 + r'.2 ≤ r.1

namespace Image

variable (image : Image)

/-- `&tasks[id].stack_pointer` or `&bootstrap_stack_pointer`. -/
def stackPointer : Party → ℕ
  | .bootstrap => image.bootstrapStackPointer
  | .task id => image.tasks + 16 * id + 12

/-- The lowest byte of a stack. -/
def stackLow : Party → ℕ
  | .bootstrap => image.stackBottom
  | .task id => image.taskStacks + taskStackSize * id

/-- The stack that a push at this stack pointer goes to. -/
def onStack (esp : U32) : Option Party :=
  parties.find? fun p => image.stackLow p < esp.toNat ∧ esp.toNat ≤ image.stackLow p + taskStackSize

/-- Code that runs on one stack writes neither to another one nor to the variables that
hold the stack pointers. -/
def mayWrite (p : Party) (x : ℕ) : Bool :=
  !(image.tasks ≤ x && x < image.tasks + 128) &&
    !(image.bootstrapStackPointer ≤ x && x < image.bootstrapStackPointer + 4) &&
      parties.all fun q => q = p || !(image.stackLow q ≤ x && x < image.stackLow q + taskStackSize)

/-- Code makes a call with room for the frames below its stack pointer. -/
def hasRoom (p : Party) (esp : U32) : Bool :=
  callSites.all (fun site => image.stackLow p + 4 * (14 + image.frameWords site) ≤ esp.toNat) &&
    esp.toNat ≤ image.stackLow p + taskStackSize

def labelAt (eip : U32) : Option Label := labels.find? fun label => image.address label = eip

end Image

/-! ## Flags and frames -/

def interruptStateSaveAndDisable (c : Cpu) : U32 × Cpu :=
  (c.eflags, { c with eflags := c.eflags &&& ~~~eflagsInterrupt })

def interruptStateRestore (c : Cpu) (flags : U32) : Cpu :=
  if flags &&& eflagsInterrupt ≠ 0 then { c with eflags := c.eflags ||| eflagsInterrupt }
  else { c with eflags := c.eflags &&& ~~~eflagsInterrupt }

def initialTaskEflags (creatorFlags : U32) : U32 :=
  let cleared := eflagsTrap ||| eflagsDirection ||| eflagsNestedTask ||| eflagsVirtual8086
  (creatorFlags ||| eflagsReserved) &&& ~~~cleared

/-- `prepare_initial_stack`. -/
def prepareInitialStack (image : Image) (m : Memory) (id : ℕ) (creatorFlags : U32) : Memory :=
  let top := word (image.stackLow (.task id) + taskStackSize) &&& ~~~0x0F#32
  let (stack, m) := [image.taskExit, image.address .trampoline, initialTaskEflags creatorFlags, 0, 0, 0, 0].foldl
    descend (top, m)
  store32 m (image.stackPointer (.task id)) stack

/-- What a function has in registers and in its frame where it calls
`task_context_switch`. -/
structure Frame where
  eax : U32
  ebx : U32
  esi : U32
  edi : U32
  ebp : U32
  locals : ℕ → U32

/-- A function calls `task_context_switch(old, new, flags)`. It was called itself with
the return address in `eip`. -/
def callSwitch (image : Image) (site : CallSite) (frame : Frame) (c : Cpu) (old : ℕ) (new flags : U32) : Cpu :=
  let c :=
    c.pushAll ([c.eip, c.ebp, c.ebx, c.esi, c.edi] ++ (List.range (image.frameWords site)).map frame.locals)
  let c := { c with eax := frame.eax, ebx := frame.ebx, esi := frame.esi, edi := frame.edi, ebp := frame.ebp }
  (c.pushAll [flags, new, word old, image.address (.after site)]).execAll taskContextSwitch

/-- The function returns after that call. -/
def returnAfter (image : Image) (site : CallSite) (c : Cpu) : Cpu :=
  c.execAll [.drop (3 + image.frameWords site), .pop .edi, .pop .esi, .pop .ebx, .pop .ebp, .ret]

/-! ## Calls -/

/-- What belongs to the caller of a function. -/
structure CallerView where
  ebx : U32
  esi : U32
  edi : U32
  ebp : U32
  esp : U32
  interrupts : Bool
  deriving DecidableEq

def callerView (c : Cpu) : CallerView := ⟨c.ebx, c.esi, c.edi, c.ebp, c.esp, c.eflags.getLsbD 9⟩

structure Kernel where
  cpu : Cpu
  scheduler : Scheduler
  control : Control

/-- What a step shows: the call and what belonged to its caller, a task created with the
flags of its creator, a dispatch, the return of a call, and the first entry of a task into
`task_trampoline`. -/
structure SwitchOutput where
  called : Option (Party × CallerView)
  created : Option (ℕ × U32)
  dispatched : Option ℕ
  returned : Option (Party × CallerView)
  entered : Option (ℕ × Cpu)

def SwitchOutput.quiet : SwitchOutput := ⟨none, none, none, none, none⟩

def Party.control : Party → Control
  | .bootstrap => .bootstrap
  | .task id => .task id

namespace Kernel

/-- A call has returned: the code on the stack of `esp` goes on. -/
def comeBack (image : Image) (dispatched : Option ℕ) (c : Cpu) (s : Scheduler) : SwitchOutput × Kernel :=
  match image.onStack c.esp with
  | some p => (⟨none, none, dispatched, some (p, callerView c), none⟩, ⟨c, s, p.control⟩)
  | none => (⟨none, none, dispatched, none, none⟩, ⟨c, s, .stopped .nullContext⟩)

/-- `task_context_switch` has returned. -/
def resume (image : Image) (dispatched : Option ℕ) (c : Cpu) (s : Scheduler) : SwitchOutput × Kernel :=
  match image.labelAt c.eip with
  | some .trampoline =>
    (⟨none, none, dispatched, none, some (s.currentTaskId, c)⟩, ⟨c, s, taskTrampoline s⟩)
  | some (.after .run) =>
    let (flags, c) := interruptStateSaveAndDisable c
    let complete := findNextReady s s.roundRobinCursor = taskInvalidId
    let c := { interruptStateRestore c flags with eax := if complete then 1 else 0 }
    comeBack image dispatched (returnAfter image .run c) s
  | some (.after .yieldToTask) => comeBack image dispatched (returnAfter image .yieldToTask c) s
  | some (.after .yieldToBootstrap) => comeBack image dispatched (returnAfter image .yieldToBootstrap c) s
  | some (.after .exitToTask) | some (.after .exitToBootstrap) =>
    (⟨none, none, dispatched, none, none⟩, ⟨c, s, .stopped .resumedAfterExit⟩)
  | none => (⟨none, none, dispatched, none, none⟩, ⟨c, s, .stopped .nullContext⟩)

/-- `task_context_switch(&tasks[previous].stack_pointer, tasks[next].stack_pointer, flags)`. -/
def switchToTask (image : Image) (site : CallSite) (frame : Frame) (c : Cpu) (s : Scheduler) (previous next : ℕ)
    (flags : U32) (context : Context) : SwitchOutput × Kernel :=
  let c := callSwitch image site frame c (image.stackPointer (.task previous))
    (load32 c.mem (image.stackPointer (.task next))) flags
  resume image (some next) c (saveContext s previous context)

/-- `switch_to_bootstrap`. -/
def switchToBootstrap (image : Image) (site : CallSite) (frame : Frame) (c : Cpu) (s : Scheduler) (previous : ℕ)
    (flags : U32) (context : Context) : SwitchOutput × Kernel :=
  let s := { s with currentTaskId := taskInvalidId, schedulerRunning := false }
  let c := callSwitch image site frame c (image.stackPointer (.task previous))
    (load32 c.mem (image.stackPointer .bootstrap)) flags
  resume image none c (saveContext s previous context)

/-- `task_system_init`. -/
def taskSystemInit (image : Image) (c : Cpu) (s : Scheduler) : SwitchOutput × Kernel :=
  let (flags, c) := interruptStateSaveAndDisable c
  if s.schedulerRunning then comeBack image none (interruptStateRestore c flags) s
  else
    let m := parties.foldl (fun m p => store32 m (image.stackPointer p) 0) c.mem
    comeBack image none (interruptStateRestore { c with mem := m } flags) (TinyShell.taskSystemInit s)

/-- `task_create`. -/
def taskCreate (image : Image) (c : Cpu) (s : Scheduler) (entry argument : U32) : SwitchOutput × Kernel :=
  let (flags, c) := interruptStateSaveAndDisable c
  let (id, s) := TinyShell.taskCreate s entry argument
  if id = taskInvalidId then comeBack image none (interruptStateRestore c flags) s
  else
    let c := { c with mem := prepareInitialStack image c.mem id flags }
    let (out, k) := comeBack image none (interruptStateRestore c flags) s
    ({ out with created := some (id, flags) }, k)

/-- `task_run`. -/
def taskRun (image : Image) (frame : Frame) (c : Cpu) (s : Scheduler) (switchBudget : U32) :
    SwitchOutput × Kernel :=
  let (flags, c) := interruptStateSaveAndDisable c
  if !s.schedulerInitialized || s.schedulerRunning then comeBack image none (interruptStateRestore c flags) s
  else
    let next := findNextReady s s.roundRobinCursor
    if next = taskInvalidId then comeBack image none (interruptStateRestore c flags) s
    else if switchBudget = 0 then comeBack image none (interruptStateRestore c flags) s
    else
      match activateTask { s with remainingDispatches := switchBudget, schedulerRunning := true } next with
      | (false, s) => comeBack image none (interruptStateRestore c flags) { s with schedulerRunning := false }
      | (true, s) =>
        let c := callSwitch image .run frame c (image.stackPointer .bootstrap)
          (load32 c.mem (image.stackPointer (.task next))) flags
        resume image (some next) c { s with bootstrapStackPointer := .insideRun }

/-- `task_yield`. -/
def taskYield (image : Image) (frame : Frame) (c : Cpu) (s : Scheduler) : SwitchOutput × Kernel :=
  let (flags, c) := interruptStateSaveAndDisable c
  if !dispatchedTask s then comeBack image none (interruptStateRestore c flags) s
  else
    let previous := s.currentTaskId
    let s := setState s previous .ready
    let next := findNextReady s previous
    if next ≠ taskInvalidId && s.remainingDispatches ≠ 0 then
      match activateTask s next with
      | (false, s) => (.quiet, ⟨c, s, .stopped .activateFailed⟩)
      | (true, s) =>
        if next = previous then comeBack image (some next) (interruptStateRestore c flags) s
        else switchToTask image .yieldToTask frame c s previous next flags (.insideYield previous)
    else switchToBootstrap image .yieldToBootstrap frame c s previous flags (.insideYield previous)

/-- `task_exit`. -/
def taskExit (image : Image) (frame : Frame) (c : Cpu) (s : Scheduler) : SwitchOutput × Kernel :=
  let (flags, c) := interruptStateSaveAndDisable c
  if !dispatchedTask s then (.quiet, ⟨c, s, .stopped .exitRefused⟩)
  else
    let previous := s.currentTaskId
    let s := { setState s previous .finished with finishedCount := s.finishedCount + 1 }
    let next := findNextReady s previous
    if next ≠ taskInvalidId && s.remainingDispatches ≠ 0 then
      match activateTask s next with
      | (false, s) => (.quiet, ⟨c, s, .stopped .activateFailed⟩)
      | (true, s) => switchToTask image .exitToTask frame c s previous next flags (.insideExit previous)
    else switchToBootstrap image .exitToBootstrap frame c s previous flags (.insideExit previous)

/-! ## Steps -/

/-- The code in control runs up to its next call: it leaves registers, memory and the
return address of the call as in `code`, and its call has this `frame`. -/
structure Event where
  code : Cpu
  frame : Frame
  call : TaskEvent

/-- Code has run on a stack: bytes that it may not write are as before. -/
def afterCode (image : Image) (p : Party) (before code : Cpu) : Cpu :=
  { code with mem := fun x => if image.mayWrite p x then code.mem x else before.mem x }

def bootstrapCall (image : Image) (frame : Frame) (c : Cpu) (s : Scheduler) :
    BootstrapCall → SwitchOutput × Kernel
  | .systemInit => taskSystemInit image c s
  | .create entry argument => taskCreate image c s entry argument
  | .run switchBudget => taskRun image frame c s switchBudget
  | .yield => taskYield image frame c s

def taskCall (image : Image) (frame : Frame) (c : Cpu) (s : Scheduler) : TaskCall → SwitchOutput × Kernel
  | .systemInit => taskSystemInit image c s
  | .create entry argument => taskCreate image c s entry argument
  | .run switchBudget => taskRun image frame c s switchBudget
  | .yield => taskYield image frame c s
  | .exit => taskExit image frame c s

/-- The code of a party runs and makes a call, unless its stack has no room for it. -/
def partyStep (image : Image) (p : Party) (k : Kernel) (code : Cpu) (call : Cpu → SwitchOutput × Kernel) :
    SwitchOutput × Kernel :=
  if image.hasRoom p code.esp then
    let c := afterCode image p k.cpu code
    let (out, k) := call c
    ({ out with called := some (p, callerView c) }, k)
  else (.quiet, k)

/-- One step: a call of the code that has control. -/
def step (image : Image) (k : Kernel) (e : Event) : SwitchOutput × Kernel :=
  match e.call with
  | .bootstrap call =>
    match k.control with
    | .bootstrap => partyStep image .bootstrap k e.code fun c => bootstrapCall image e.frame c k.scheduler call
    | _ => (.quiet, k)
  | .task call =>
    match k.control with
    | .task id => partyStep image (.task id) k e.code fun c => taskCall image e.frame c k.scheduler call
    | _ => (.quiet, k)

/-- Bootstrap code has called `task_system_init`. -/
def initial (cpu : Cpu) : Kernel := ⟨cpu, initialSystem.scheduler, .bootstrap⟩

end Kernel

end TinyShell
