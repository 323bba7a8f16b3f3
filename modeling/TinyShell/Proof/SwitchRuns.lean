import TinyShell.Proof.Switch

/-!
# Context switches are transparent

Beside the machine stands a `SwitchLedger`: what belonged to the caller at the last call
of every party, and the flags with which a task was created that has not run yet. In
every reachable state each party that may be resumed is suspended as the ledger says
(`KernelOK`), and the scheduler is in a state of `Spec.Task` (`Answers.system`).

* `kernelStep_ok`: every call keeps this, and answers as the ledger says.
* `context_switch_transparent`: what a call finds when it returns, and a task when it starts.
-/

namespace TinyShell

open Machine

variable {image : Image} {c c' : Cpu} {s s' : Scheduler} {p q : Party} {i n : ℕ} {m m' : Memory}

/-! ## The ledger -/

structure SwitchLedger where
  /-- What belonged to the caller at the last call. -/
  calls : Party → Option CallerView
  /-- The flags of the creator of a task that has not been dispatched since. -/
  created : ℕ → Option U32

namespace SwitchLedger

def initial : SwitchLedger := ⟨fun _ => none, fun _ => none⟩

def record (L : SwitchLedger) (out : SwitchOutput) : SwitchLedger where
  calls :=
    match out.called with
    | some (p, view) => Function.update L.calls p (some view)
    | none => L.calls
  created :=
    match out.created, out.dispatched with
    | some (id, flags), _ => Function.update L.created id (some flags)
    | none, some id => Function.update L.created id none
    | none, none => L.created

end SwitchLedger

variable {L L' : SwitchLedger}

/-- The ledger after the outputs of a run. -/
def switchLedger (outs : List SwitchOutput) : SwitchLedger := outs.foldl SwitchLedger.record SwitchLedger.initial

namespace SwitchLedger

variable {view : CallerView} {created : Option (ℕ × U32)} {dispatched : Option ℕ}
  {returned : Option (Party × CallerView)} {entered : Option (ℕ × Cpu)}

@[simp] theorem record_calls_self :
    (L.record ⟨some (p, view), created, dispatched, returned, entered⟩).calls p = some view := by
  simp [record]

theorem record_calls_of_ne (hne : q ≠ p) :
    (L.record ⟨some (p, view), created, dispatched, returned, entered⟩).calls q = L.calls q := by
  simp [record, Function.update_of_ne hne]

theorem record_created {flags : U32} {called : Option (Party × CallerView)} :
    (L.record ⟨called, some (i, flags), dispatched, returned, entered⟩).created =
      Function.update L.created i (some flags) :=
  rfl

theorem record_dispatched {called : Option (Party × CallerView)} :
    (L.record ⟨called, none, some i, returned, entered⟩).created = Function.update L.created i none :=
  rfl

end SwitchLedger

/-! ## Parties that may be resumed -/

/-- A ready task is suspended as its symbolic context says. -/
def ReadyOK (image : Image) (L : SwitchLedger) (m : Memory) (i : ℕ) : Context → Prop
  | .trampoline => ∃ flags, L.created i = some flags ∧ Prepared image m i flags
  | .insideYield j => j = i ∧ ∃ site view, (site = .yieldToTask ∨ site = .yieldToBootstrap) ∧
      L.calls (.task i) = some view ∧ Suspended image m (.task i) site view
  | _ => False

theorem ReadyOK.untouched {context : Context} (h : ReadyOK image L m i context)
    (hm : Untouched image (.task i) m m') (hcalls : L'.calls (.task i) = L.calls (.task i))
    (hcreated : L'.created i = L.created i) : ReadyOK image L' m' i context := by
  cases context with
  | trampoline =>
    obtain ⟨flags, hflags, hprepared⟩ := h
    exact ⟨flags, hcreated.trans hflags, hprepared.untouched hm⟩
  | insideYield j =>
    obtain ⟨rfl, site, view, hsite, hview, hs⟩ := h
    exact ⟨rfl, site, view, hsite, hcalls.trans hview, hs.untouched hm⟩
  | null => exact h.elim
  | insideExit j => exact h.elim
  | insideRun => exact h.elim

/-- A slot of the task table; a task that the ledger has as created has not run. -/
structure TaskSlotOK (image : Image) (L : SwitchLedger) (m : Memory) (i : ℕ) (task : TaskControlBlock) :
    Prop where
  ready : task.state = .ready → ReadyOK image L m i task.stackPointer
  fresh : L.created i ≠ none → task.state ≠ .running ∧ (task.state = .ready → task.stackPointer = .trampoline)

/-- Bootstrap code waits in `task_run`. -/
def BootstrapOK (image : Image) (L : SwitchLedger) (m : Memory) : Prop :=
  ∃ view, L.calls .bootstrap = some view ∧ Suspended image m .bootstrap .run view

/-- The machine is in step with the scheduler and the ledger. -/
structure KernelOK (image : Image) (L : SwitchLedger) (k : Kernel) : Prop where
  tasks : ∃ r, TaskOK ⟨k.scheduler, k.control⟩ r
  slots : ∀ i < 8, TaskSlotOK image L k.cpu.mem i (k.scheduler.tasks i)
  running : k.scheduler.schedulerRunning = true → BootstrapOK image L k.cpu.mem

theorem TaskOK.of_task {r : Rota} (h : TaskOK ⟨s, .task i⟩ r) :
    InTurn ⟨s, .task i⟩ r.slots i s.remainingDispatches ∧ (s.tasks i).state = .running := by
  cases hb : r.budget with
  | none => exact absurd (h.atRest hb).1.control (by simp)
  | some budget =>
    obtain ⟨j, -, hturn, hrep, -⟩ := h.inTurn hb
    obtain rfl : i = j := by simpa using hturn.control
    obtain rfl : s.remainingDispatches = budget := hturn.remaining
    refine ⟨hturn, ?_⟩
    have hstate := hrep.table.state i hturn.lt
    rw [hturn.live] at hstate
    simpa [Slot.state] using hstate

theorem TaskOK.of_bootstrap {r : Rota} (h : TaskOK ⟨s, .bootstrap⟩ r) : s.schedulerRunning = false := by
  cases hb : r.budget with
  | none => exact (h.atRest hb).1.stopped
  | some budget =>
    obtain ⟨j, -, hturn, -, -⟩ := h.inTurn hb
    exact absurd hturn.control (by simp)

theorem KernelOK.ne_of_ready (h : KernelOK image L ⟨c, s, p.control⟩) (hready : (s.tasks i).state = .ready) :
    p ≠ .task i := by
  rintro rfl
  obtain ⟨r, hr⟩ := h.tasks
  have hstate : (s.tasks i).state = .running := hr.of_task.2
  rw [hready] at hstate
  exact absurd hstate (by decide)

theorem KernelOK.ne_bootstrap (h : KernelOK image L ⟨c, s, p.control⟩) (hrunning : s.schedulerRunning = true) :
    p ≠ .bootstrap := by
  rintro rfl
  obtain ⟨r, hr⟩ := h.tasks
  have hidle : s.schedulerRunning = false := hr.of_bootstrap
  rw [hrunning] at hidle
  exact absurd hidle (by decide)

/-- What a call leaves is in step again when each party that may be resumed is either as
before or newly suspended. -/
theorem KernelOK.keep (h : KernelOK image L ⟨c, s, p.control⟩) {control : Control}
    (htasks : ∃ r, TaskOK ⟨s', control⟩ r) (hcalls : ∀ q, q ≠ p → L'.calls q = L.calls q)
    (hslots : ∀ i < 8, (s'.tasks i = s.tasks i ∧ L'.created i = L.created i ∧
        (p ≠ .task i → Untouched image (.task i) c.mem c'.mem)) ∨
      TaskSlotOK image L' c'.mem i (s'.tasks i))
    (hrunning : s'.schedulerRunning = true →
      (s.schedulerRunning = true ∧ Untouched image .bootstrap c.mem c'.mem) ∨ BootstrapOK image L' c'.mem) :
    KernelOK image L' ⟨c', s', control⟩ := by
  refine ⟨htasks, fun i hi => ?_, fun hrun => ?_⟩
  · change TaskSlotOK image L' c'.mem i (s'.tasks i)
    rcases hslots i hi with ⟨htask, hcreated, hm⟩ | hnew
    · have hslot := h.slots i hi
      rw [htask]
      refine ⟨fun hready => ?_, fun hfresh => hslot.fresh (hcreated ▸ hfresh)⟩
      have hne := h.ne_of_ready hready
      exact (hslot.ready hready).untouched (hm hne) (hcalls _ hne.symm) hcreated
    · exact hnew
  · rcases hrunning hrun with ⟨hold, hm⟩ | hnew
    · obtain ⟨view, hview, hs⟩ := h.running hold
      exact ⟨view, (hcalls _ (h.ne_bootstrap hold).symm).trans hview, hs.untouched hm⟩
    · exact hnew

/-- The code that has control calls. -/
structure Calling (image : Image) (L : SwitchLedger) (p : Party) (c : Cpu) (s : Scheduler) : Prop where
  party : p ∈ parties
  room : image.hasRoom p c.esp = true
  kernel : KernelOK image L ⟨c, s, p.control⟩

/-- Code that has run on its own stack makes a call. -/
theorem KernelOK.calling (h : KernelOK image L ⟨c, s, p.control⟩) {code : Cpu} (hp : p ∈ parties)
    (hroom : image.hasRoom p code.esp = true) : Calling image L p (Kernel.afterCode image p c code) s := by
  refine ⟨hp, hroom, h.keep h.tasks (fun q _ => rfl) (fun i hi => .inl ⟨rfl, rfl, fun hne => ?_⟩)
    fun hrun => .inl ⟨hrun, ?_⟩⟩
  · exact afterCode_untouched (mem_parties.2 (.inr ⟨i, hi, rfl⟩)) hne.symm
  · exact afterCode_untouched (mem_parties.2 (.inl rfl)) (h.ne_bootstrap hrun).symm

theorem Calling.lt (h : Calling image L (.task i) c s) : i < 8 := by
  obtain ⟨r, hr⟩ := h.kernel.tasks
  exact hr.of_task.1.lt

/-! ## Answers -/

/-- The output of a step with its call. -/
def withCall (p : Party) (c : Cpu) (out : SwitchOutput) : SwitchOutput :=
  { out with called := some (p, callerView c) }

/-- Control is with a party whose call has returned, or with a task that has started. -/
def GoesOn (result : SwitchOutput × Kernel) : Prop :=
  ∃ q : Party, result.2.control = q.control ∧
    ((∃ view, result.1.returned = some (q, view)) ∨ ∃ i c', q = .task i ∧ result.1.entered = some (i, c'))

/-- A call has gone as in `Spec.Task`, and as the ledger says. -/
structure Answers (image : Image) (L : SwitchLedger) (p : Party) (c : Cpu) (result : SwitchOutput × Kernel)
    (abstract : TaskOutput × TaskSystem) : Prop where
  dispatched : result.1.dispatched = abstract.1.dispatched
  system : (⟨result.2.scheduler, result.2.control⟩ : TaskSystem) = abstract.2
  kernel : KernelOK image (L.record (withCall p c result.1)) result.2
  goes_on : GoesOn result
  returned : ∀ q view, result.1.returned = some (q, view) → (L.record (withCall p c result.1)).calls q = some view
  entered : ∀ i c', result.1.entered = some (i, c') → i < 8 ∧ ∃ flags, L.created i = some flags ∧
    EntersTrampoline image i flags c'
  first : ∀ i, result.1.dispatched = some i → L.created i ≠ none → ∃ c', result.1.entered = some (i, c')

/-! ## Calls that do not switch -/

/-- The code goes on after its call with what belongs to it. -/
theorem Calling.comeBack (h : Calling image L p c s) (e : U32) (m : Memory) (dispatched : Option ℕ)
    (s' : Scheduler) :
    ∃ c', c'.mem = m ∧
      Kernel.comeBack image dispatched (interruptStateRestore { c with eflags := e, mem := m } c.eflags) s' =
        (⟨none, none, dispatched, some (p, callerView c), none⟩, ⟨c', s', p.control⟩) := by
  have hrestore := interruptStateRestore_eq { c with eflags := e, mem := m } c.eflags
  have hbit := interruptStateRestore_bit { c with eflags := e, mem := m } c.eflags
  generalize interruptStateRestore { c with eflags := e, mem := m } c.eflags = c₁ at hrestore hbit ⊢
  have hview : callerView c₁ = callerView c := by
    rw [hrestore]
    simp only [callerView, hbit]
  have hesp : c₁.esp = c.esp := by rw [hrestore]
  obtain ⟨hlow, hhigh⟩ := hasRoom_bounds h.room .run
  refine ⟨c₁, by rw [hrestore], ?_⟩
  rw [comeBack_eq h.party (by rw [hesp]; omega) (by rw [hesp]; exact hhigh), hview]

/-- A call that returns at once, having changed only the caller's slot or nothing. -/
theorem Calling.returns (h : Calling image L p c s) (e : U32) (dispatched : Option ℕ)
    (returned : Option TaskReturn)
    (hok : ∃ r, TaskOK ⟨s', p.control⟩ r) (hrunning : s'.schedulerRunning = s.schedulerRunning)
    (hslots : ∀ i < 8, dispatched ≠ some i → s'.tasks i = s.tasks i)
    (hdispatched : ∀ i, dispatched = some i → p = .task i ∧ (s'.tasks i).state = .running) :
    Answers image L p c
      (Kernel.comeBack image dispatched (interruptStateRestore { c with eflags := e } c.eflags) s')
      (⟨dispatched, returned⟩, ⟨s', p.control⟩) := by
  obtain ⟨c', hmem, hback⟩ := h.comeBack e c.mem dispatched s'
  have hsame : ∀ q : Party, Untouched image q c.mem c'.mem := fun q => hmem ▸ ⟨fun _ _ _ => rfl, fun _ _ _ => rfl⟩
  rw [hback]
  refine ⟨rfl, rfl, ?_, ⟨p, rfl, .inl ⟨_, rfl⟩⟩, ?_, by simp, fun i hi hcreated => ?_⟩
  · refine h.kernel.keep hok (fun q hne => SwitchLedger.record_calls_of_ne hne) (fun i hi => ?_)
      fun hrun => .inl ⟨hrunning ▸ hrun, hsame _⟩
    by_cases hd : dispatched = some i
    · obtain ⟨-, hstate⟩ := hdispatched i hd
      subst hd
      refine .inr ⟨fun hready => ?_, fun hcreated => absurd ?_ hcreated⟩
      · rw [hstate] at hready
        exact absurd hready (by decide)
      · simp [withCall, SwitchLedger.record_dispatched]
    · refine .inl ⟨hslots i hi hd, ?_, fun _ => hsame _⟩
      cases dispatched with
      | none => rfl
      | some j =>
        rw [withCall, SwitchLedger.record_dispatched, Function.update_of_ne]
        exact fun heq => hd (by rw [heq])
  · intro q view hq
    obtain ⟨rfl, rfl⟩ : p = q ∧ callerView c = view := by simpa using hq
    exact SwitchLedger.record_calls_self
  · -- the task that runs has been dispatched since its creation
    obtain ⟨rfl, -⟩ := hdispatched i hi
    obtain ⟨r, hr⟩ := h.kernel.tasks
    obtain ⟨hturn, hstate⟩ := hr.of_task
    exact absurd hstate ((h.kernel.slots i hturn.lt).fresh hcreated).1

/-- A call that is refused. -/
theorem Calling.refused (h : Calling image L p c s) (e : U32) (returned : Option TaskReturn) :
    Answers image L p c (Kernel.comeBack image none (interruptStateRestore { c with eflags := e } c.eflags) s)
      (⟨none, returned⟩, ⟨s, p.control⟩) :=
  h.returns e none returned h.kernel.tasks rfl (fun _ _ _ => rfl) (by simp)

theorem Calling.bootstrap_of_idle (h : Calling image L p c s) (hidle : s.schedulerRunning = false) :
    p = .bootstrap := by
  rcases mem_parties.1 h.party with hp | ⟨i, -, rfl⟩
  · exact hp
  · obtain ⟨r, hr⟩ := h.kernel.tasks
    have hrun : s.schedulerRunning = true := hr.of_task.1.running
    rw [hidle] at hrun
    exact absurd hrun (by decide)

theorem taskSystemInit_answers (h : Calling image L p c s)
    (hok : ∃ r, TaskOK ⟨taskSystemInit s, p.control⟩ r) :
    Answers image L p c (Kernel.taskSystemInit image c s) (⟨none, none⟩, ⟨taskSystemInit s, p.control⟩) := by
  simp only [Kernel.taskSystemInit, interruptStateSaveAndDisable]
  cases hrunning : s.schedulerRunning with
  | true =>
    have hsame : taskSystemInit s = s := if_pos hrunning
    rw [if_pos rfl, hsame]
    exact h.refused _ _
  | false =>
    have hinit : (taskSystemInit s).schedulerRunning = false ∧
        ∀ i < 8, ((taskSystemInit s).tasks i).state = .unused := by
      rw [taskSystemInit, if_neg (by simp [hrunning])]
      exact ⟨rfl, fun i hi => by simp [hi]⟩
    rw [if_neg (by simp)]
    generalize parties.foldl (fun m p => store32 m (image.stackPointer p) 0) c.mem = m
    obtain ⟨c', -, hback⟩ := h.comeBack (c.eflags &&& ~~~eflagsInterrupt) m none (taskSystemInit s)
    rw [hback]
    refine ⟨rfl, rfl,
      h.kernel.keep hok (fun q hne => SwitchLedger.record_calls_of_ne hne) (fun i hi => .inr ⟨?_, ?_⟩) ?_,
      ⟨p, rfl, .inl ⟨_, rfl⟩⟩, ?_, by simp, by simp⟩
    · rw [hinit.2 i hi]
      exact fun hready => absurd hready (by decide)
    · rw [hinit.2 i hi]
      exact fun _ => ⟨by decide, fun hready => absurd hready (by decide)⟩
    · rw [hinit.1]
      exact fun hrun => absurd hrun (by decide)
    · intro q view hq
      obtain ⟨rfl, rfl⟩ : p = q ∧ callerView c = view := by simpa using hq
      exact SwitchLedger.record_calls_self

theorem taskCreate_cases (s : Scheduler) (entry argument : U32) :
    taskCreate s entry argument = (taskInvalidId, s) ∨
      s.schedulerRunning = false ∧ ∃ id < 8, taskCreate s entry argument =
        (id, { s with tasks := Function.update s.tasks id ⟨.ready, entry, argument, .trampoline⟩ }) := by
  unfold taskCreate
  split_ifs with hguard
  · exact .inl rfl
  · cases hfind : (List.range taskMaxTasks).find? fun candidate =>
      decide ((s.tasks candidate).state = .unused) with
    | none => exact .inl rfl
    | some id =>
      simp only [Bool.or_eq_true, not_or, Bool.not_eq_true] at hguard
      exact .inr ⟨hguard.1.2, id, List.mem_range.1 (List.mem_of_find?_eq_some hfind), rfl⟩

theorem taskCreate_answers (h : Calling image L p c s) (entry argument : U32)
    (hok : ∃ r, TaskOK (createStep ⟨s, p.control⟩ entry argument).2 r) :
    Answers image L p c (Kernel.taskCreate image c s entry argument)
      (createStep ⟨s, p.control⟩ entry argument) := by
  rcases taskCreate_cases s entry argument with hsame | ⟨hidle, id, hid8, hcreate⟩
  · simp only [Kernel.taskCreate, interruptStateSaveAndDisable, createStep, hsame, if_true]
    exact h.refused _ _
  · obtain rfl := h.bootstrap_of_idle hidle
    obtain ⟨hprepared, huntouched⟩ := prepareInitialStack_spec hid8 image c.mem c.eflags
    have hvalid : id ≠ taskInvalidId := next_valid hid8
    simp only [createStep, hcreate] at hok
    simp only [Kernel.taskCreate, interruptStateSaveAndDisable, createStep, hcreate, if_neg hvalid]
    obtain ⟨c', hmem, hback⟩ :=
      h.comeBack (c.eflags &&& ~~~eflagsInterrupt) (prepareInitialStack image c.mem id c.eflags)
      none { s with tasks := Function.update s.tasks id ⟨.ready, entry, argument, .trampoline⟩ }
    rw [hback]
    rw [← hmem] at hprepared huntouched
    refine ⟨rfl, rfl, h.kernel.keep hok (fun q hne => SwitchLedger.record_calls_of_ne hne) (fun i hi => ?_) ?_,
      ⟨.bootstrap, rfl, .inl ⟨_, rfl⟩⟩, ?_, by simp, by simp⟩
    · by_cases hi' : i = id
      · subst hi'
        simp only [withCall, SwitchLedger.record_created, Function.update_self]
        exact .inr ⟨fun _ => ⟨c.eflags, by simp [SwitchLedger.record_created], hprepared⟩, by simp⟩
      · refine .inl ⟨Function.update_of_ne hi' _ _, Function.update_of_ne hi' _ _,
          fun _ => huntouched _ ?_ (by simpa using hi')⟩
        exact mem_parties.2 (.inr ⟨i, hi, rfl⟩)
    · simp [hidle]
    · intro q view hq
      obtain ⟨rfl, rfl⟩ : Party.bootstrap = q ∧ callerView c = view := by simpa using hq
      exact SwitchLedger.record_calls_self

/-! ## Switches -/

def Party.dispatched : Party → Option ℕ
  | .bootstrap => none
  | .task id => some id

/-- The context that a switch to a party resumes. -/
def Scheduler.contextOf (s : Scheduler) : Party → Context
  | .bootstrap => s.bootstrapStackPointer
  | .task id => (s.tasks id).stackPointer

/-- The scheduler may switch to this party. -/
def Scheduler.MayResume (s : Scheduler) : Party → Prop
  | .bootstrap => s.schedulerRunning = true
  | .task id => id < 8 ∧ (s.tasks id).state = .ready

/-- How a switch leaves the party that called. -/
def Rests (s : Scheduler) (site : CallSite) : Party → Prop
  | .bootstrap => site = .run
  | .task i => (s.tasks i).state = .finished ∨ (site = .yieldToTask ∨ site = .yieldToBootstrap) ∧
      (s.tasks i).state = .ready ∧ (s.tasks i).stackPointer = .insideYield i

/-- The scheduler hands over from `p` to `q`. -/
structure HandsOver (s s' : Scheduler) (site : CallSite) (p q : Party) : Prop where
  rests : Rests s' site p
  keeps : ∀ i, p ≠ .task i → q ≠ .task i → s'.tasks i = s.tasks i
  next : ∀ i, q = .task i → s'.currentTaskId = i ∧ (s'.tasks i).state = .running
  idle : q = .bootstrap → s'.schedulerRunning = false

/-- What is seen where a switch to `q` arrives. -/
structure Arrives (image : Image) (L : SwitchLedger) (q : Party) (s' : Scheduler) (context : Context) (m : Memory)
    (result : SwitchOutput × Kernel) : Prop where
  output : result.1.called = none ∧ result.1.created = none ∧ result.1.dispatched = q.dispatched
  kernel : result.2.cpu.mem = m ∧
    (⟨result.2.scheduler, result.2.control⟩ : TaskSystem) = (resume q.dispatched s' context).2
  shows : (∃ view, result.2.control = q.control ∧ L.calls q = some view ∧ context ≠ .trampoline ∧
      result.1.returned = some (q, view) ∧ result.1.entered = none) ∨
    ∃ i c' flags, q = .task i ∧ i < 8 ∧ result.2.control = taskTrampoline s' ∧ L.created i = some flags ∧
      result.1.returned = none ∧ result.1.entered = some (i, c') ∧ EntersTrampoline image i flags c'

theorem Calling.not_self (h : Calling image L p c s) (hq : s.MayResume q) : p ≠ q := by
  cases q with
  | bootstrap => exact h.kernel.ne_bootstrap hq
  | task n => exact h.kernel.ne_of_ready hq.2

theorem Scheduler.MayResume.mem (hq : s.MayResume q) : q ∈ parties := by
  cases q with
  | bootstrap => exact mem_parties.2 (.inl rfl)
  | task n => exact mem_parties.2 (.inr ⟨n, hq.1, rfl⟩)

/-- Every party that may be resumed is a suspended call or a new task. -/
theorem Calling.resumable (h : Calling image L p c s) (hq : s.MayResume q) :
    (∃ site view, site ≠ .exitToTask ∧ site ≠ .exitToBootstrap ∧ s.contextOf q ≠ .trampoline ∧
      L.calls q = some view ∧ Suspended image c.mem q site view ∧
      ∀ s' : Scheduler, (resume q.dispatched s' (s.contextOf q)).2 = ⟨s', q.control⟩) ∨
    ∃ i flags, q = .task i ∧ i < 8 ∧ s.contextOf q = .trampoline ∧ L.created i = some flags ∧
      Prepared image c.mem i flags := by
  cases q with
  | bootstrap =>
    obtain ⟨view, hview, hs⟩ := h.kernel.running hq
    obtain ⟨i, hi, rfl⟩ := (mem_parties.1 h.party).resolve_left (h.kernel.ne_bootstrap hq)
    obtain ⟨r, hr⟩ := h.kernel.tasks
    have hcontext : s.bootstrapStackPointer = .insideRun := hr.of_task.1.bootstrap
    refine .inl ⟨.run, view, by decide, by decide, ?_, hview, hs, fun s' => ?_⟩
    · rw [Scheduler.contextOf, hcontext]
      decide
    · rw [Scheduler.contextOf, hcontext]
      rfl
  | task n =>
    have hready : ReadyOK image L c.mem n (s.tasks n).stackPointer := (h.kernel.slots n hq.1).ready hq.2
    simp only [Scheduler.contextOf]
    cases hcontext : (s.tasks n).stackPointer with
    | trampoline =>
      rw [hcontext] at hready
      obtain ⟨flags, hflags, hprepared⟩ := hready
      exact .inr ⟨n, flags, rfl, hq.1, rfl, hflags, hprepared⟩
    | insideYield j =>
      rw [hcontext] at hready
      obtain ⟨rfl, site, view, hsite, hview, hs⟩ := hready
      refine .inl ⟨site, view, ?_, ?_, by simp, hview, hs, fun s' => rfl⟩ <;>
        rcases hsite with rfl | rfl <;> decide
    | null =>
      rw [hcontext] at hready
      exact hready.elim
    | insideExit j =>
      rw [hcontext] at hready
      exact hready.elim
    | insideRun =>
      rw [hcontext] at hready
      exact hready.elim

/-- **A switch**: the party that called is suspended, the other goes on, and no third
stack is touched. -/
theorem Calling.arrives (h : Calling image L p c s) (hq : s.MayResume q) (site : CallSite)
    (frame : Frame) (e : U32) (hnext : ∀ i, q = .task i → s'.currentTaskId = i) :
    ∃ m', (∀ p' ∈ parties, p' ≠ p → Untouched image p' c.mem m') ∧ Suspended image m' p site (callerView c) ∧
      Arrives image L q s' (s.contextOf q) m'
        (Kernel.resume image q.dispatched
          (callSwitch image site frame { c with eflags := e } (image.stackPointer p)
            (load32 c.mem (image.stackPointer q)) c.eflags) s') := by
  have hne := h.not_self hq
  rcases h.resumable hq with ⟨site', view, hsite, hsite', hcontext, hview, hs, hresume⟩ |
      ⟨i, flags, rfl, hi, hcontext, hflags, hprepared⟩
  · obtain ⟨a, d, si, b, bp, f, above, hsaved, hback⟩ := resume_suspended hq.mem hs hsite hsite'
    obtain ⟨m', hcall, huntouched, hsusp⟩ := callSwitch_spec (c := { c with eflags := e }) site frame c.eflags
      h.party hq.mem hne h.room hsaved
    obtain ⟨c', hmem, hres⟩ := hback
      ⟨word (image.stackPointer p), b, si, d, bp, word (a + 24), f, image.address (.after site'), m'⟩
      q.dispatched s' (huntouched q hq.mem hne.symm) rfl rfl rfl
    refine ⟨m', huntouched, hsusp, ?_⟩
    rw [hcall, hres]
    exact ⟨⟨rfl, rfl, rfl⟩, ⟨hmem, (hresume s').symm⟩, .inl ⟨view, rfl, hview, hcontext, rfl, rfl⟩⟩
  · obtain ⟨m', hcall, huntouched, hsusp⟩ := callSwitch_spec (c := { c with eflags := e }) site frame c.eflags
      h.party hq.mem hne h.room hprepared
    obtain ⟨henters, hres⟩ := resume_prepared
      (c := ⟨word (image.stackPointer p), 0, 0, 0, 0, word (image.stackLow (.task i) + 16356 + 24),
        initialTaskEflags flags, image.address .trampoline, m'⟩)
      hi (hprepared.untouched (huntouched _ hq.mem hne.symm)) ⟨rfl, rfl, rfl, rfl⟩ rfl rfl rfl
        (Party.task i).dispatched s'
    refine ⟨m', huntouched, hsusp, ?_⟩
    rw [hcall, hres, hcontext, hnext i rfl]
    exact ⟨⟨rfl, rfl, rfl⟩, ⟨rfl, rfl⟩, .inr ⟨i, _, flags, rfl, hi, rfl, hflags, rfl, rfl, henters⟩⟩

theorem taskTrampoline_ok {r : Rota} (h : TaskOK ⟨s, taskTrampoline s⟩ r) :
    taskTrampoline s = .task s.currentTaskId := by
  have hgoes : taskTrampoline s ≠ .stopped .trampolineEntry := by
    intro hstop
    cases hb : r.budget with
    | none => exact absurd ((h.atRest hb).1.control.symm.trans hstop) (by simp)
    | some budget =>
      obtain ⟨i, -, hturn, -, -⟩ := h.inTurn hb
      exact absurd (hturn.control.symm.trans hstop) (by simp)
  simp only [taskTrampoline] at hgoes ⊢
  split_ifs at hgoes ⊢ with hguard
  · exact absurd rfl hgoes
  · rfl

/-- The slot of a task that has called and rests. -/
theorem Calling.rests (h : Calling image L (.task i) c s) {site : CallSite} (hrests : Rests s' site (.task i))
    (hcalls : L'.calls (.task i) = some (callerView c)) (hcreated : L'.created i = L.created i)
    (hs : Suspended image m' (.task i) site (callerView c)) : TaskSlotOK image L' m' i (s'.tasks i) := by
  obtain ⟨r, hr⟩ := h.kernel.tasks
  obtain ⟨hturn, hstate⟩ := hr.of_task
  refine ⟨fun hready => ?_, fun hfresh => ?_⟩
  · rcases hrests with hfinished | ⟨hsite, -, hcontext⟩
    · rw [hready] at hfinished
      exact absurd hfinished (by decide)
    · rw [hcontext]
      exact ⟨rfl, site, callerView c, hsite, hcalls, hs⟩
  · rw [hcreated] at hfresh
    exact absurd hstate ((h.kernel.slots i hturn.lt).fresh hfresh).1

/-- **A call that switches** answers as the ledger says. -/
theorem Calling.switch (h : Calling image L p c s) (hq : s.MayResume q) {site : CallSite}
    (hover : HandsOver s s' site p q) {context : Context} (hcontext : context = s.contextOf q)
    (frame : Frame) (e : U32) (hok : ∃ r, TaskOK (resume q.dispatched s' context).2 r) :
    Answers image L p c
      (Kernel.resume image q.dispatched
        (callSwitch image site frame { c with eflags := e } (image.stackPointer p)
          (load32 c.mem (image.stackPointer q)) c.eflags) s')
      (resume q.dispatched s' context) := by
  subst hcontext
  obtain ⟨m', huntouched, hsusp, ⟨hcalled, hcreated, hdispatched⟩, ⟨hmem, hsystem⟩, hshows⟩ :=
    h.arrives hq site frame e fun i hi => (hover.next i hi).1
  generalize Kernel.resume image q.dispatched _ s' = result at *
  obtain ⟨⟨_, _, _, returned, entered⟩, ⟨c', s'', control⟩⟩ := result
  obtain rfl : s'' = s' := (congrArg TaskSystem.scheduler hsystem).trans (resume_scheduler _ _)
  simp only at hcalled hcreated hdispatched hmem hshows
  subst hcalled hcreated hdispatched hmem
  rw [← hsystem] at hok
  have hne := h.not_self hq
  have hkept : ∀ i, q ≠ .task i →
      (L.record (withCall p c ⟨none, none, q.dispatched, returned, entered⟩)).created i = L.created i := by
    intro i hi
    cases q with
    | bootstrap => rfl
    | task n => exact Function.update_of_ne (fun heq => hi (by rw [heq])) _ _
  refine ⟨by cases s.contextOf q <;> rfl, hsystem, ?_, ?_, ?_, ?_, ?_⟩
  · refine h.kernel.keep hok (fun q' hne' => SwitchLedger.record_calls_of_ne hne') (fun i hi => ?_) fun hrun => ?_
    · have hmem : Party.task i ∈ parties := mem_parties.2 (.inr ⟨i, hi, rfl⟩)
      by_cases hiq : q = .task i
      · subst hiq
        obtain ⟨-, hstate⟩ := hover.next i rfl
        refine .inr ⟨fun hready => ?_, fun hfresh => ?_⟩
        · rw [hstate] at hready
          exact absurd hready (by decide)
        · exact (hfresh (Function.update_self _ _ _)).elim
      · by_cases hip : p = .task i
        · subst hip
          exact .inr (h.rests hover.rests SwitchLedger.record_calls_self (hkept i hiq) hsusp)
        · exact .inl ⟨hover.keeps i hip hiq, hkept i hiq, fun _ => huntouched _ hmem (Ne.symm hip)⟩
    · cases p with
      | bootstrap =>
        obtain rfl : site = .run := hover.rests
        exact .inr ⟨callerView c, SwitchLedger.record_calls_self, hsusp⟩
      | task i =>
        obtain ⟨r, hr⟩ := h.kernel.tasks
        exact .inl ⟨hr.of_task.1.running, huntouched _ (mem_parties.2 (.inl rfl)) (by simp)⟩
  · rcases hshows with ⟨view, rfl, -, -, rfl, -⟩ | ⟨i, c', flags, rfl, -, rfl, -, -, rfl, -⟩
    · exact ⟨q, rfl, .inl ⟨view, rfl⟩⟩
    · obtain ⟨r, hr⟩ := hok
      refine ⟨.task i, (taskTrampoline_ok hr).trans ?_, .inr ⟨i, c', rfl, rfl⟩⟩
      rw [(hover.next i rfl).1]
      rfl
  · rcases hshows with ⟨view, -, hview, -, rfl, -⟩ | ⟨i, c', flags, -, -, -, -, rfl, -⟩
    · intro q' view' hq'
      obtain ⟨rfl, rfl⟩ : q = q' ∧ view = view' := by simpa using hq'
      exact (SwitchLedger.record_calls_of_ne hne.symm).trans hview
    · simp
  · rcases hshows with ⟨view, -, -, -, -, rfl⟩ | ⟨i, c', flags, -, hi, -, hflags, -, rfl, henters⟩
    · simp
    · intro i' c'' hi'
      obtain ⟨rfl, rfl⟩ : i = i' ∧ c' = c'' := by simpa using hi'
      exact ⟨hi, flags, hflags, henters⟩
  · intro i hi hfresh
    cases q with
    | bootstrap => simp [Party.dispatched] at hi
    | task n =>
      obtain rfl : n = i := by simpa [Party.dispatched] using hi
      have hcontext : s.contextOf (.task n) = .trampoline := ((h.kernel.slots n hq.1).fresh hfresh).2 hq.2
      rcases hshows with ⟨view, -, -, hsecond, -⟩ | ⟨i, c', flags, heq, -, -, -, -, rfl, -⟩
      · exact absurd hcontext hsecond
      · obtain rfl : n = i := by simpa using heq
        exact ⟨c', rfl⟩

/-! ## Calls that switch -/

/-- What `find_next_ready` finds. -/
theorem findNextReady_ready {after : ℕ} (h : findNextReady s after ≠ taskInvalidId) :
    findNextReady s after < 8 ∧ (s.tasks (findNextReady s after)).state = .ready := by
  unfold findNextReady at h ⊢
  simp only at h ⊢
  generalize (if after ≠ taskInvalidId then (after + 1) % taskMaxTasks else 0) = start at h ⊢
  cases hfind : cyclicFind taskMaxTasks start fun candidate => decide ((s.tasks candidate).state = .ready) with
  | none => exact absurd (by rw [hfind]; rfl) h
  | some n =>
    obtain ⟨hn, hready, -⟩ := cyclicFind_some hfind
    exact ⟨hn, of_decide_eq_true hready⟩

theorem activated_tasks_of_ne (hne : i ≠ n) : (activated s n).tasks i = s.tasks i := Function.update_of_ne hne _ _

theorem activated_state : ((activated s n).tasks n).state = .running := by
  simp [activated, setState]

/-- `task_run`. -/
theorem taskRun_answers (h : Calling image L p c s) (frame : Frame) (budget : U32)
    (hok : ∃ r, TaskOK (taskRun ⟨s, p.control⟩ budget).2 r) :
    Answers image L p c (Kernel.taskRun image frame c s budget) (taskRun ⟨s, p.control⟩ budget) := by
  simp only [Kernel.taskRun, interruptStateSaveAndDisable, taskRun] at hok ⊢
  by_cases hguard : (!s.schedulerInitialized || s.schedulerRunning) = true
  · simp only [hguard, if_true]
    exact h.refused _ _
  simp only [hguard, Bool.false_eq_true, if_false] at hok ⊢
  by_cases hnext : findNextReady s s.roundRobinCursor = taskInvalidId
  · simp only [hnext, if_true]
    exact h.refused _ _
  by_cases hbudget : budget = 0
  · simp only [if_neg hnext, hbudget, if_true]
    exact h.refused _ _
  have hidle : s.schedulerRunning = false := by
    simp only [Bool.or_eq_true, not_or, Bool.not_eq_true] at hguard
    exact hguard.2
  obtain rfl := h.bootstrap_of_idle hidle
  obtain ⟨hn, hready⟩ := findNextReady_ready hnext
  simp only [if_neg hnext, if_neg hbudget] at hok ⊢
  generalize findNextReady s s.roundRobinCursor = n at hok hn hready ⊢
  have hactive :=
    activateTask_ready (s := { s with remainingDispatches := budget, schedulerRunning := true }) hn hready
    hbudget
  rw [hactive] at hok ⊢
  simp only [activated_stackPointer] at hok ⊢
  refine h.switch (q := .task n) ⟨hn, hready⟩ ⟨rfl, fun i _ hi => ?_, fun i hi => ?_, by simp⟩ rfl frame _ hok
  · exact activated_tasks_of_ne fun heq => hi (by rw [heq])
  · obtain rfl : n = i := by simpa using hi
    exact ⟨rfl, activated_state⟩

/-- What `task_yield` and `task_exit` end in. -/
def Kernel.leave (image : Image) (toTask toBootstrap : CallSite) (frame : Frame) (c : Cpu) (s : Scheduler)
    (previous : ℕ) (flags : U32) (context : Context) : SwitchOutput × Kernel :=
  let next := findNextReady s previous
  if next ≠ taskInvalidId && s.remainingDispatches ≠ 0 then
    match activateTask s next with
    | (false, s) => (.quiet, ⟨c, s, .stopped .activateFailed⟩)
    | (true, s) => switchToTask image toTask frame c s previous next flags context
  else switchToBootstrap image toBootstrap frame c s previous flags context

theorem kernel_taskExit_leave {frame : Frame} (hguard : dispatchedTask s = true)
    (hcurrent : s.currentTaskId = i) :
    Kernel.taskExit image frame c s =
      Kernel.leave image .exitToTask .exitToBootstrap frame { c with eflags := c.eflags &&& ~~~eflagsInterrupt }
        { setState s i .finished with finishedCount := s.finishedCount + 1 } i c.eflags (.insideExit i) := by
  unfold Kernel.taskExit
  simp only [interruptStateSaveAndDisable, hguard, hcurrent, Bool.not_true, Bool.false_eq_true, if_false]
  rfl

theorem kernel_taskYield_leave {frame : Frame} (hguard : dispatchedTask s = true) (hcurrent : s.currentTaskId = i)
    (hother : ¬ (findNextReady (setState s i .ready) i = i ∧ s.remainingDispatches ≠ 0)) :
    Kernel.taskYield image frame c s =
      Kernel.leave image .yieldToTask .yieldToBootstrap frame { c with eflags := c.eflags &&& ~~~eflagsInterrupt }
        (setState s i .ready) i c.eflags (.insideYield i) := by
  unfold Kernel.taskYield Kernel.leave
  simp only [interruptStateSaveAndDisable, hguard, hcurrent, Bool.not_true, Bool.false_eq_true, if_false]
  generalize findNextReady (setState s i .ready) i = next at hother ⊢
  by_cases hbudget : (setState s i .ready).remainingDispatches = 0
  · simp [hbudget]
  · have hne : next ≠ i := fun heq => hother ⟨heq, hbudget⟩
    rcases activateTask (setState s i .ready) next with ⟨ok, s'⟩
    cases ok <;> simp only [if_neg hne]

variable {context : Context} {state : TaskState}

theorem saveContext_tasks_of_ne (hne : n ≠ i) : (saveContext s i context).tasks n = s.tasks n :=
  Function.update_of_ne hne _ _

theorem saveContext_tasks_self : (saveContext s i context).tasks i = { s.tasks i with stackPointer := context } :=
  Function.update_self _ _ _

/-- The running task leaves in a new state: it has finished, or yields. -/
theorem Calling.leave (h : Calling image L (.task i) c s) {s₁ : Scheduler} {toTask toBootstrap : CallSite}
    (htasks : s₁.tasks = Function.update s.tasks i { s.tasks i with state := state })
    (hpointer : s₁.bootstrapStackPointer = s.bootstrapStackPointer)
    (hrests : ∀ site, site = toTask ∨ site = toBootstrap → state = .finished ∨
      (site = .yieldToTask ∨ site = .yieldToBootstrap) ∧ state = .ready ∧ context = .insideYield i)
    (hne : s₁.remainingDispatches ≠ 0 → findNextReady s₁ i ≠ i) (frame : Frame) (e : U32)
    (hok : ∃ r, TaskOK (leave s₁ i context).2 r) :
    Answers image L (.task i) c
      (Kernel.leave image toTask toBootstrap frame { c with eflags := e } s₁ i c.eflags context)
      (leave s₁ i context) := by
  have hrest : ∀ site s', s'.tasks i = { s.tasks i with state := state, stackPointer := context } →
      site = toTask ∨ site = toBootstrap → Rests s' site (.task i) := by
    intro site s' hs' hsite
    simp only [Rests, hs']
    exact hrests site hsite
  have hother : ∀ j, j ≠ i → s₁.tasks j = s.tasks j := by
    intro j hj
    rw [htasks, Function.update_of_ne hj]
  have hself : s₁.tasks i = { s.tasks i with state := state } := by rw [htasks, Function.update_self]
  simp only [Kernel.leave, TinyShell.leave] at hok ⊢
  by_cases hgo : (decide (findNextReady s₁ i ≠ taskInvalidId) && decide (s₁.remainingDispatches ≠ 0)) = true
  · simp only [hgo, if_true] at hok ⊢
    simp only [Bool.and_eq_true, decide_eq_true_eq] at hgo
    obtain ⟨hn, hready⟩ := findNextReady_ready hgo.1
    have hni := hne hgo.2
    generalize findNextReady s₁ i = n at hok hn hready hni ⊢
    rw [activateTask_ready hn hready hgo.2] at hok ⊢
    simp only [activated_stackPointer, hother n hni] at hok hready ⊢
    refine h.switch (q := .task n) ⟨hn, hready⟩
      ⟨hrest _ _ ?_ (.inl rfl), fun j hji hjn => ?_, fun j hj => ?_, by simp⟩
      rfl frame e hok
    · rw [saveContext_tasks_self, activated_tasks_of_ne hni.symm, hself]
    · have hji' : j ≠ i := fun heq => hji (by rw [heq])
      rw [saveContext_tasks_of_ne hji', activated_tasks_of_ne fun heq => hjn (by rw [heq]), hother j hji']
    · obtain rfl : n = j := by simpa using hj
      refine ⟨rfl, ?_⟩
      rw [saveContext_tasks_of_ne hni]
      exact activated_state
  · simp only [hgo, Bool.false_eq_true, if_false] at hok ⊢
    obtain ⟨r, hr⟩ := h.kernel.tasks
    refine h.switch (q := .bootstrap) hr.of_task.1.running
      ⟨hrest _ _ ?_ (.inr rfl), fun j hji _ => ?_, by simp, fun _ => rfl⟩ hpointer frame e hok
    · rw [saveContext_tasks_self, hself]
    · have hji' : j ≠ i := fun heq => hji (by rw [heq])
      rw [saveContext_tasks_of_ne hji', hother j hji']

/-- A task passes the guard of `task_yield` and `task_exit`. -/
theorem Calling.dispatched (h : Calling image L (.task i) c s) :
    dispatchedTask s = true ∧ s.currentTaskId = i := by
  obtain ⟨r, hr⟩ := h.kernel.tasks
  have hturn := hr.of_task.1
  have hstate : (s.tasks i).state = .running := hr.of_task.2
  have hcurrent : s.currentTaskId = i := hturn.current
  have hrunning : s.schedulerRunning = true := hturn.running
  have hinitialized : s.schedulerInitialized = true := hr.represents.initialized
  refine ⟨?_, hcurrent⟩
  simp [dispatchedTask, hcurrent, hrunning, hinitialized, hstate, hturn.lt]

theorem taskExit_answers (h : Calling image L (.task i) c s) (frame : Frame)
    (hok : ∃ r, TaskOK (taskExit ⟨s, .task i⟩).2 r) :
    Answers image L (.task i) c (Kernel.taskExit image frame c s) (taskExit ⟨s, .task i⟩) := by
  obtain ⟨hguard, hcurrent⟩ := h.dispatched
  let s₁ := { setState s i .finished with finishedCount := s.finishedCount + 1 }
  have hleave : taskExit ⟨s, .task i⟩ = leave s₁ i (.insideExit i) := by
    simp only [taskExit_eq, hguard, hcurrent, Bool.not_true, Bool.false_eq_true, if_false, s₁]
  have htasks : s₁.tasks = Function.update s.tasks i { s.tasks i with state := .finished } := rfl
  rw [hleave] at hok ⊢
  rw [kernel_taskExit_leave hguard hcurrent]
  refine h.leave htasks rfl (fun site _ => .inl rfl) (fun _ hself => ?_) frame _ hok
  -- the task has finished, so it is not ready
  have hvalid : findNextReady s₁ i ≠ taskInvalidId := by
    rw [hself]
    exact next_valid h.lt
  have hready := (findNextReady_ready hvalid).2
  rw [hself] at hready
  simp [s₁, setState] at hready

theorem taskYield_answers (h : Calling image L p c s) (frame : Frame)
    (hok : ∃ r, TaskOK (taskYield ⟨s, p.control⟩).2 r) :
    Answers image L p c (Kernel.taskYield image frame c s) (taskYield ⟨s, p.control⟩) := by
  rcases mem_parties.1 h.party with rfl | ⟨i, hi, rfl⟩
  · obtain ⟨r, hr⟩ := h.kernel.tasks
    have hidle : s.schedulerRunning = false := hr.of_bootstrap
    have hguard : dispatchedTask s = false := by simp [dispatchedTask, hidle]
    simp only [Kernel.taskYield, taskYield, interruptStateSaveAndDisable, hguard, Bool.not_false, if_true]
    exact h.refused _ _
  obtain ⟨hguard, hcurrent⟩ := h.dispatched
  by_cases hself : findNextReady (setState s i .ready) i = i ∧ s.remainingDispatches ≠ 0
  · -- the only ready task goes on
    obtain ⟨hnext, hbudget⟩ := hself
    have hactive := activateTask_ready (s := setState s i .ready) hi (by simp [setState]) hbudget
    have hgo : (decide (i ≠ taskInvalidId) && decide ((setState s i .ready).remainingDispatches ≠ 0)) = true := by
      rw [Bool.and_eq_true]
      exact ⟨decide_eq_true (next_valid hi), decide_eq_true hbudget⟩
    simp only [Kernel.taskYield, taskYield, interruptStateSaveAndDisable, hguard, hcurrent, Bool.not_true,
      Bool.false_eq_true, if_false, hnext, hgo, if_true, hactive] at hok ⊢
    refine h.returns _ (some i) none hok rfl (fun j _ hj => ?_) fun j hj => ?_
    · have hji : j ≠ i := fun heq => hj (by rw [heq])
      rw [activated_tasks_of_ne hji]
      exact Function.update_of_ne hji _ _
    · obtain rfl : i = j := by simpa using hj
      exact ⟨rfl, activated_state⟩
  · have hleave : taskYield ⟨s, (Party.task i).control⟩ = leave (setState s i .ready) i (.insideYield i) :=
      taskYield_leave hguard hcurrent hself
    rw [hleave] at hok ⊢
    rw [kernel_taskYield_leave hguard hcurrent hself]
    have htasks :
        (setState s i .ready).tasks = Function.update s.tasks i { s.tasks i with state := .ready } := rfl
    refine h.leave htasks rfl (fun site hsite => .inr ⟨hsite, rfl, rfl⟩) (fun hbudget hnext => ?_) frame _ hok
    exact hself ⟨hnext, hbudget⟩

/-! ## Runs -/

variable {k : Kernel}

theorem bootstrapCall_answers (h : Calling image L .bootstrap c s) (frame : Frame) (call : BootstrapCall)
    (hok : ∃ r, TaskOK (bootstrapStep ⟨s, .bootstrap⟩ call).2 r) :
    Answers image L .bootstrap c (Kernel.bootstrapCall image frame c s call)
      (bootstrapStep ⟨s, .bootstrap⟩ call) := by
  cases call with
  | systemInit => exact taskSystemInit_answers h hok
  | create entry argument => exact taskCreate_answers h entry argument hok
  | run switchBudget => exact taskRun_answers h frame switchBudget hok
  | yield => exact taskYield_answers h frame hok

theorem taskCall_answers (h : Calling image L (.task i) c s) (frame : Frame) (call : TaskCall)
    (hok : ∃ r, TaskOK (taskCallStep ⟨s, .task i⟩ call).2 r) :
    Answers image L (.task i) c (Kernel.taskCall image frame c s call) (taskCallStep ⟨s, .task i⟩ call) := by
  cases call with
  | systemInit => exact taskSystemInit_answers h hok
  | create entry argument => exact taskCreate_answers h entry argument hok
  | run switchBudget => exact taskRun_answers h frame switchBudget hok
  | yield => exact taskYield_answers h frame hok
  | exit => exact taskExit_answers h frame hok

/-- Code without control makes no call, and neither does code without room on its stack. -/
theorem kernelStep_cases (h : KernelOK image L k) (e : Kernel.Event) :
    Kernel.step image k e = (.quiet, k) ∨
      ∃ p c result, Kernel.step image k e = (withCall p c result.1, result.2) ∧
        Answers image L p c result (taskStep ⟨k.scheduler, k.control⟩ e.call) := by
  obtain ⟨cpu, s, control⟩ := k
  obtain ⟨r, hr⟩ := h.tasks
  have hok := (taskStep_sim hr e.call).2
  obtain ⟨code, frame, call⟩ := e
  cases call with
  | bootstrap call =>
    cases control with
    | bootstrap =>
      simp only [Kernel.step, Kernel.partyStep]
      split_ifs with hroom
      · have hcalling := KernelOK.calling (p := .bootstrap) h (mem_parties.2 (.inl rfl)) hroom
        exact .inr ⟨.bootstrap, _, _, rfl, bootstrapCall_answers hcalling frame call ⟨_, hok⟩⟩
      · exact .inl rfl
    | task i => exact .inl rfl
    | stopped reason => exact .inl rfl
  | task call =>
    cases control with
    | bootstrap => exact .inl rfl
    | task i =>
      have hi : i < 8 := hr.of_task.1.lt
      simp only [Kernel.step, Kernel.partyStep]
      split_ifs with hroom
      · have hcalling := KernelOK.calling (p := .task i) h (mem_parties.2 (.inr ⟨i, hi, rfl⟩)) hroom
        exact .inr ⟨.task i, _, _, rfl, taskCall_answers hcalling frame call ⟨_, hok⟩⟩
      · exact .inl rfl
    | stopped reason => exact .inl rfl

/-- **Step lemma.** -/
theorem kernelStep_ok (h : KernelOK image L k) (e : Kernel.Event) :
    KernelOK image (L.record (Kernel.step image k e).1) (Kernel.step image k e).2 := by
  rcases kernelStep_cases h e with hquiet | ⟨p, c, result, hstep, hanswers⟩
  · rw [hquiet]
    exact h
  · rw [hstep]
    exact hanswers.kernel

theorem initial_ok (image : Image) (cpu : Cpu) : KernelOK image .initial (Kernel.initial cpu) := by
  refine ⟨⟨_, initialSystem_ok⟩, fun i hi => ⟨fun hready => ?_, fun hfresh => absurd rfl hfresh⟩, fun hrun => ?_⟩
  · simp [Kernel.initial, initialSystem, taskSystemInit, loadedScheduler] at hready
  · simp [Kernel.initial, initialSystem, taskSystemInit, loadedScheduler] at hrun

/-- The ledger of a run. -/
def ledgerAfter (image : Image) (cpu : Cpu) (es : List Kernel.Event) : SwitchLedger :=
  switchLedger ((trace (Kernel.step image) (Kernel.initial cpu) es).map Prod.snd)

/-- **Run lemma.** -/
theorem kernelRun_ok (image : Image) (cpu : Cpu) (es : List Kernel.Event) :
    KernelOK image (ledgerAfter image cpu es) (exec (Kernel.step image) (Kernel.initial cpu) es) := by
  refine hist_inv (I := fun tr k => KernelOK image (switchLedger (tr.map Prod.snd)) k)
    (initial_ok image cpu) ?_ es
  intro tr k e h
  simp only [switchLedger, List.map_append, List.foldl_append, List.map_cons, List.map_nil, List.foldl_cons,
    List.foldl_nil]
  exact kernelStep_ok h e

/-- **The machine refines the scheduler of `Spec.Task`**: as the scheduler goes its way on
the calls that were made, so does the machine. -/
theorem kernel_refines_tasks (image : Image) (cpu : Cpu) (es : List Kernel.Event) :
    ∃ calls : List TaskEvent, calls.Sublist (es.map Kernel.Event.call) ∧
      (⟨(exec (Kernel.step image) (Kernel.initial cpu) es).scheduler,
        (exec (Kernel.step image) (Kernel.initial cpu) es).control⟩ : TaskSystem) =
          exec taskStep initialSystem calls := by
  induction es using List.reverseRecOn with
  | nil => exact ⟨[], List.Sublist.refl _, rfl⟩
  | append_singleton es e ih =>
    obtain ⟨calls, hsub, hsystem⟩ := ih
    rw [exec_append, List.map_append]
    rcases kernelStep_cases (kernelRun_ok image cpu es) e with hquiet | ⟨p, c, result, hstep, hanswers⟩
    · refine ⟨calls, hsub.trans (List.sublist_append_left _ _), ?_⟩
      simp only [exec, hquiet]
      exact hsystem
    · refine ⟨calls ++ [e.call], hsub.append (List.Sublist.refl _), ?_⟩
      rw [exec_append, ← hsystem]
      simp only [exec, hstep]
      exact hanswers.system

/-- The code that has control and could make the call. -/
def InControl (k : Kernel) (call : TaskEvent) : Party → Prop
  | .bootstrap => k.control = .bootstrap ∧ ∃ c, call = .bootstrap c
  | .task i => k.control = .task i ∧ ∃ c, call = .task c

/-- The code in control makes its call if its stack has room. -/
theorem kernelStep_called {p : Party} (e : Kernel.Event) (hp : InControl k e.call p)
    (hroom : image.hasRoom p e.code.esp = true) :
    (Kernel.step image k e).1.called = some (p, callerView (Kernel.afterCode image p k.cpu e.code)) := by
  -- both parties make their calls through `partyStep`
  cases p <;>
  · obtain ⟨hcontrol, call, hcall⟩ := hp
    rw [Kernel.step, hcall, hcontrol]
    simp only [Kernel.partyStep, hroom, if_true]

/-- What a step of the machine from `k` shows, given the ledger of the run so far. -/
structure Transparent (image : Image) (L : SwitchLedger) (k : Kernel) (e : Kernel.Event)
    (result : SwitchOutput × Kernel) : Prop where
  /-- The code in control makes its call if its stack has room. -/
  called : ∀ p, InControl k e.call p → image.hasRoom p e.code.esp = true →
    result.1.called = some (p, callerView (Kernel.afterCode image p k.cpu e.code))
  /-- A call dispatches the task that it dispatches in `Spec.Task`, and leaves the same scheduler. -/
  refines : result.1.called ≠ none →
    result.1.dispatched = (taskStep ⟨k.scheduler, k.control⟩ e.call).1.dispatched ∧
      (⟨result.2.scheduler, result.2.control⟩ : TaskSystem) = (taskStep ⟨k.scheduler, k.control⟩ e.call).2
  /-- A call returns with what belonged to its caller at the call. -/
  returned : ∀ p view, result.1.returned = some (p, view) → (L.record result.1).calls p = some view
  /-- Only a new task enters `task_trampoline`. -/
  entered : ∀ i c, result.1.entered = some (i, c) → i < 8 ∧ ∃ flags, L.created i = some flags ∧
    EntersTrampoline image i flags c
  /-- The first dispatch of a task does. -/
  first : ∀ i, result.1.dispatched = some i → L.created i ≠ none → ∃ c, result.1.entered = some (i, c)
  /-- After every call some code goes on in one of the two ways. -/
  goes_on : result.1.called ≠ none → GoesOn result

/-- **Context switches are transparent**, whatever the code on the nine stacks does within
its own stack and whatever it calls, and the scheduler goes its way as in `Spec.Task`. -/
theorem context_switch_transparent (image : Image) (cpu : Cpu) (es : List Kernel.Event) (e : Kernel.Event) :
    let k := exec (Kernel.step image) (Kernel.initial cpu) es
    (∃ calls : List TaskEvent, calls.Sublist (es.map Kernel.Event.call) ∧
      (⟨k.scheduler, k.control⟩ : TaskSystem) = exec taskStep initialSystem calls) ∧
      Transparent image (ledgerAfter image cpu es) k e (Kernel.step image k e) := by
  refine ⟨kernel_refines_tasks image cpu es, ?_⟩
  have hcalled := fun p hp hroom =>
    (kernelStep_called e hp hroom :
      (Kernel.step image (exec (Kernel.step image) (Kernel.initial cpu) es) e).1.called = some (p, _))
  rcases kernelStep_cases (kernelRun_ok image cpu es) e with hquiet | ⟨p, c, result, hstep, hanswers⟩
  · rw [hquiet] at hcalled ⊢
    exact ⟨hcalled, fun h => absurd rfl h, by simp [SwitchOutput.quiet], by simp [SwitchOutput.quiet],
      by simp [SwitchOutput.quiet], fun h => absurd rfl h⟩
  · rw [hstep] at hcalled ⊢
    exact ⟨hcalled, fun _ => ⟨hanswers.dispatched, hanswers.system⟩, hanswers.returned, hanswers.entered,
      hanswers.first, fun _ => hanswers.goes_on⟩

/-- A kernel in its place, with three words in every frame. -/
def sampleImage : Image where
  address
    | .trampoline => 0x100100#32
    | .after .run => 0x100200#32
    | .after .yieldToTask => 0x100300#32
    | .after .yieldToBootstrap => 0x100400#32
    | .after .exitToTask => 0x100500#32
    | .after .exitToBootstrap => 0x100600#32
  taskExit := 0x100700#32
  frameWords _ := 3
  tasks := 0x120000
  bootstrapStackPointer := 0x121000
  taskStacks := 0x130000
  stackBottom := 0x160000
  injective := by
    rintro (_ | site) (_ | site') h
    · rfl
    · cases site' <;> simp at h
    · cases site <;> simp at h
    · cases site <;> cases site' <;> simp at h ⊢
  aligned := by decide
  fits := by decide
  apart := by decide

def sampleEvent (esp ebx : U32) (call : TaskEvent) : Kernel.Event :=
  ⟨⟨0, ebx, 5, 6, 7, esp, 0x202#32, 0x100800#32, fun _ => 0⟩, ⟨1, 2, 3, 4, 5, fun _ => 9⟩, call⟩

-- `task_run` returns where the only task yields and the budget is spent
example :
    (Kernel.step sampleImage
      (exec (Kernel.step sampleImage) (Kernel.initial ⟨0, 0, 0, 0, 0, 0, 0, 0, fun _ => 0⟩)
        [sampleEvent 0x163FF0#32 11 (.bootstrap (.create 1 2)), sampleEvent 0x163FE0#32 12 (.bootstrap (.run 1))])
      (sampleEvent 0x133F00#32 13 (.task .yield))).1.returned =
      some (.bootstrap, ⟨12, 5, 6, 7, 0x163FE0#32, true⟩) := by
  decide +kernel

end TinyShell
