import TinyShell.Proof.Scheduler

/-!
# What bootstrap and task code can observe of the scheduler

* `rotaStep_move`: what one step of the rota can do.
* `scheduler_invariant`: the state of the scheduler after every run.
-/

namespace TinyShell

open Machine

variable {r : Rota} {sys : TaskSystem} {i : ℕ}

/-! ## What a step can do -/

/-- The rota `q` is `r` after its running task, if any, gave up its turn. -/
structure Released (r q : Rota) : Prop where
  cursor : q.cursor = r.cursor
  switches : q.switches = r.switches
  slots : ∀ i, q.slots i = r.slots i ∨ (r.current = some i ∧ q.slots i = .done)

theorem Released.refl (r : Rota) : Released r r := ⟨rfl, rfl, fun _ => .inl rfl⟩

theorem Released.finish {budget : U32} (hb : r.budget = some budget) : Released r r.finish := by
  unfold Rota.finish
  cases hc : r.cursor with
  | none => exact .refl r
  | some c =>
    refine ⟨by simp [hc], rfl, ?_⟩
    intro i
    by_cases hi : i = c
    · subst hi
      exact .inr ⟨by simp [Rota.current, hb, hc], by simp⟩
    · exact .inl (by simp [Function.update_of_ne hi])

/-- The steps of the rota. -/
inductive RotaMove (r : Rota) : TaskEvent → TaskOutput → Rota → Prop
  | stay {e : TaskEvent} {returned : Option TaskReturn} (h : ∀ i < 8, returned ≠ some (.created i)) :
    RotaMove r e ⟨none, returned⟩ r
  | reset (hb : r.budget = none) : RotaMove r (.bootstrap .systemInit) ⟨none, none⟩ Rota.initial
  | create {e : TaskEvent} {i : ℕ} (hb : r.budget = none) (hi : i < 8) (hfree : r.slots i = .free) :
    RotaMove r e ⟨none, some (.created i)⟩ { r with slots := Function.update r.slots i .live }
  | dispatch {e : TaskEvent} {q : Rota} {n : ℕ} {budget : U32} (hq : Released r q) (hn : q.next = some n) :
    RotaMove r e ⟨some n, none⟩
      { q with cursor := some n, budget := some (budget - 1), switches := q.switches + 1 }
  | rest {e : TaskEvent} {q : Rota} {complete : Bool} (hq : Released r q) :
    RotaMove r e ⟨none, some (.ran complete)⟩ { q with budget := none }

theorem dispatch_move {q : Rota} (hq : Released r q) (e : TaskEvent) (budget : U32) :
    RotaMove r e (q.dispatch budget).1 (q.dispatch budget).2 := by
  unfold Rota.dispatch
  cases hn : q.next with
  | none => exact .rest hq
  | some n =>
    simp only
    split_ifs
    · exact .rest hq
    · exact .dispatch hq hn

theorem create_move (hb : r.budget = none) (e : TaskEvent) (entry : U32) :
    RotaMove r e (r.create entry).1 (r.create entry).2 := by
  have hrefused : ∀ i < 8, some (TaskReturn.created taskInvalidId) ≠ some (.created i) := by
    intro i hi heq
    simp only [Option.some.injEq, TaskReturn.created.injEq] at heq
    exact next_valid hi heq.symm
  unfold Rota.create
  split_ifs
  · exact .stay hrefused
  · cases hfind : (List.range taskMaxTasks).find? fun i => decide (r.slots i = .free) with
    | none => exact .stay hrefused
    | some i =>
      have hfree := List.find?_some hfind
      exact .create hb (List.mem_range.1 (List.mem_of_find?_eq_some hfind)) (of_decide_eq_true hfree)

theorem rotaStep_move (r : Rota) (e : TaskEvent) : RotaMove r e (rotaStep r e).1 (rotaStep r e).2 := by
  have hstay : RotaMove r e ⟨none, none⟩ r := .stay (by simp)
  cases hb : r.budget with
  | none =>
    rcases e with ⟨_ | _ | budget | _⟩ | call
    · simp only [rotaStep, hb]
      exact .reset hb
    · simp only [rotaStep, hb]
      exact create_move hb _ _
    · simp only [rotaStep, hb]
      exact dispatch_move (.refl r) _ _
    · simpa only [rotaStep, hb] using hstay
    · simpa only [rotaStep, hb] using hstay
  | some budget =>
    rcases e with call | ⟨_ | _ | _ | _ | _⟩
    · simpa only [rotaStep, hb] using hstay
    · simpa only [rotaStep, hb] using hstay
    · simp only [rotaStep, hb]
      refine .stay ?_
      intro i hi heq
      simp only [Option.some.injEq, TaskReturn.created.injEq] at heq
      exact next_valid hi heq.symm
    · simp only [rotaStep, hb]
      exact .stay (by simp)
    · simp only [rotaStep, hb]
      exact dispatch_move (.refl r) _ _
    · simp only [rotaStep, hb]
      exact dispatch_move (.finish hb) _ _

/-! ## What bootstrap and task code can observe -/

/-- The moves of a slot. -/
inductive Moves : TaskState → TaskState → Prop
  | stay (state : TaskState) : Moves state state
  | create : Moves .unused .ready
  | dispatch : Moves .ready .running
  | yield : Moves .running .ready
  | exit : Moves .running .finished

/-- Only a change of turns moves a slot that stays what it is. -/
theorem Slot.moves (slot : Slot) (b b' : Bool) : Moves (slot.state b) (slot.state b') := by
  cases slot with
  | free => exact .stay _
  | done => exact .stay _
  | live =>
    cases b <;> cases b'
    · exact .stay _
    · exact .dispatch
    · exact .yield
    · exact .stay _

theorem TaskOK.state (h : TaskOK sys r) (hi : i < 8) :
    (sys.scheduler.tasks i).state = (r.slots i).state (decide (r.current = some i)) :=
  h.represents.table.state i hi

theorem TaskOK.current_live (h : TaskOK sys r) (hi : r.current = some i) : i < 8 ∧ r.slots i = .live := by
  cases hb : r.budget with
  | none => simp [Rota.current, hb] at hi
  | some budget =>
    obtain ⟨j, hj, hturn, -, -⟩ := h.inTurn hb
    obtain rfl : j = i := by simpa [Rota.current, hb, hj] using hi
    exact ⟨hturn.lt, hturn.live⟩

/-- A slot that gave up its turn moves as it may. -/
theorem Released.moves {q : Rota} (hq : Released r q) (h : TaskOK sys r) (b : Bool) (i : ℕ) :
    Moves ((r.slots i).state (decide (r.current = some i))) ((q.slots i).state b) := by
  rcases hq.slots i with hsame | ⟨hcurrent, hdone⟩
  · rw [hsame]
    exact Slot.moves ..
  · rw [hdone, (h.current_live hcurrent).2, hcurrent]
    simpa [Slot.state] using Moves.exit

/-- A step that does not start the system anew moves every slot as it may. -/
theorem taskStep_moves (h : TaskOK sys r) {e : TaskEvent}
    (he : ¬(e = .bootstrap .systemInit ∧ sys.scheduler.schedulerRunning = false)) (hi : i < 8) :
    Moves (sys.scheduler.tasks i).state ((taskStep sys e).2.scheduler.tasks i).state := by
  have hafter := (taskStep_sim h e).2
  rw [h.state hi, hafter.state hi]
  have hmove := rotaStep_move r e
  generalize hr : rotaStep r e = step at *
  obtain ⟨out, r'⟩ := step
  simp only at hmove hafter ⊢
  cases hmove with
  | stay => exact Slot.moves ..
  | reset hb => exact absurd ⟨rfl, (h.atRest hb).1.stopped⟩ he
  | @create _ j hb hj hfree =>
    by_cases hji : i = j
    · subst hji
      simpa [hfree, Slot.state, Rota.current, hb] using Moves.create
    · simpa [Function.update_of_ne hji] using Slot.moves ..
  | dispatch hq => exact hq.moves h _ i
  | rest hq => exact hq.moves h _ i

/-- A finished slot stays finished, is not dispatched and is not given out. -/
theorem taskStep_finished (h : TaskOK sys r) {e : TaskEvent} (he : e ≠ .bootstrap .systemInit) (hi : i < 8)
    (hdone : r.slots i = .done) :
    (rotaStep r e).2.slots i = .done ∧ (taskStep sys e).1.dispatched ≠ some i ∧
      (taskStep sys e).1.returned ≠ some (.created i) := by
  rw [(taskStep_sim h e).1]
  have hmove := rotaStep_move r e
  generalize rotaStep r e = step at *
  obtain ⟨out, r'⟩ := step
  have hkept : ∀ q, Released r q → q.slots i = .done := by
    intro q hq
    rcases hq.slots i with hsame | ⟨-, hq⟩
    · rw [hsame, hdone]
    · exact hq
  cases hmove with
  | stay hreturned => exact ⟨hdone, by simp, hreturned i hi⟩
  | reset => exact absurd rfl he
  | @create _ j _ _ hfree =>
    have hji : i ≠ j := by
      rintro rfl
      simp [hdone] at hfree
    exact ⟨by simpa [Function.update_of_ne hji] using hdone, by simp, by simpa using hji.symm⟩
  | @dispatch _ q n _ hq hn =>
    have hni : n ≠ i := by
      rintro rfl
      simpa [hkept q hq] using (Rota.next_some hn).2
    exact ⟨hkept q hq, by simpa using hni, by simp⟩
  | @rest _ q _ hq => exact ⟨hkept q hq, by simp, by simp⟩

theorem taskRun_finished {es : List TaskEvent} (hes : TaskEvent.bootstrap .systemInit ∉ es) (h : TaskOK sys r)
    (hi : i < 8) (hdone : r.slots i = .done) :
    ((exec taskStep sys es).scheduler.tasks i).state = .finished ∧
      ∀ call ∈ trace taskStep sys es, call.2.dispatched ≠ some i ∧ call.2.returned ≠ some (.created i) := by
  induction es generalizing sys r with
  | nil =>
    refine ⟨?_, by simp [trace]⟩
    change (sys.scheduler.tasks i).state = .finished
    rw [h.state hi, Slot.state_finished, hdone]
  | cons e es ih =>
    rw [List.mem_cons, not_or] at hes
    obtain ⟨hdone', hout⟩ := taskStep_finished h (Ne.symm hes.1) hi hdone
    obtain ⟨hstate, hrest⟩ := ih hes.2 (taskStep_sim h e).2 hdone'
    refine ⟨hstate, ?_⟩
    intro call hcall
    rcases List.mem_cons.1 hcall with rfl | hcall
    · exact hout
    · exact hrest call hcall

/-- What holds of the scheduler between any two calls. -/
structure SchedulerInvariant (sys : TaskSystem) : Prop where
  /-- The scheduler runs exactly when exactly one task does. -/
  running_iff : sys.scheduler.schedulerRunning = true ↔
    ∃! i, i < taskMaxTasks ∧ (sys.scheduler.tasks i).state = .running
  /-- That task is the current one, had the last turn, and has control. -/
  running_task : sys.scheduler.schedulerRunning = true →
    ∀ i < taskMaxTasks, (sys.scheduler.tasks i).state = .running →
      sys.scheduler.currentTaskId = i ∧ sys.scheduler.roundRobinCursor = i ∧ sys.control = .task i
  idle : sys.scheduler.schedulerRunning = false →
    (∀ i < taskMaxTasks, (sys.scheduler.tasks i).state ≠ .running) ∧ sys.scheduler.currentTaskId = taskInvalidId
  finished_count : (taskFinishedCount sys.scheduler).toNat =
    countBelow taskMaxTasks fun i => decide ((sys.scheduler.tasks i).state = .finished)
  /-- Every step moves the slots as they may, unless `task_system_init` takes effect. -/
  moves : ∀ e, ¬(e = .bootstrap .systemInit ∧ sys.scheduler.schedulerRunning = false) →
    ∀ i < taskMaxTasks, Moves (sys.scheduler.tasks i).state ((taskStep sys e).2.scheduler.tasks i).state
  /-- Until then, a finished slot is not dispatched and not given out again. -/
  finished : ∀ es, TaskEvent.bootstrap .systemInit ∉ es →
    ∀ i < taskMaxTasks, (sys.scheduler.tasks i).state = .finished →
      ((exec taskStep sys es).scheduler.tasks i).state = .finished ∧
      ∀ call ∈ trace taskStep sys es, call.2.dispatched ≠ some i ∧ call.2.returned ≠ some (.created i)
  /-- No guard stops the machine. -/
  not_stopped : ∀ reason, sys.control ≠ .stopped reason

theorem TaskOK.finished_count (h : TaskOK sys r) : (taskFinishedCount sys.scheduler).toNat =
    countBelow taskMaxTasks fun i => decide ((sys.scheduler.tasks i).state = .finished) := by
  have hsame : countBelow 8 (fun i => decide ((sys.scheduler.tasks i).state = .finished)) =
      countBelow 8 fun i => decide (r.slots i = .done) := by
    refine countBelow_congr ?_
    intro i hi
    rw [h.state hi]
    simp [Slot.state_finished]
  have hle := countBelow_le 8 fun i => decide (r.slots i = .done)
  rw [hsame, taskFinishedCount, h.represents.finished, toNat_word (by omega)]

theorem TaskOK.running (h : TaskOK sys r) (hi : i < 8) :
    (sys.scheduler.tasks i).state = .running ↔ r.current = some i := by
  rw [h.state hi, Slot.state_running, decide_eq_true_iff]
  exact ⟨And.right, fun hcurrent => ⟨(h.current_live hcurrent).2, hcurrent⟩⟩

/-- **The scheduler's state** between any two calls of any run. -/
theorem scheduler_invariant (es : List TaskEvent) : SchedulerInvariant (exec taskStep initialSystem es) := by
  have h := (taskRun_sim es).2
  generalize exec taskStep initialSystem es = sys at h
  generalize exec rotaStep Rota.initial es = r at h
  have hfinished : ∀ es, TaskEvent.bootstrap .systemInit ∉ es →
      ∀ i < taskMaxTasks, (sys.scheduler.tasks i).state = .finished →
        ((exec taskStep sys es).scheduler.tasks i).state = .finished ∧
        ∀ call ∈ trace taskStep sys es, call.2.dispatched ≠ some i ∧ call.2.returned ≠ some (.created i) := by
    intro es hes i hi hstate
    rw [h.state hi, Slot.state_finished] at hstate
    exact taskRun_finished hes h hi hstate
  have hmoves := fun e he i hi => taskStep_moves (e := e) (i := i) h he hi
  cases hb : r.budget with
  | none =>
    obtain ⟨hmode, -⟩ := h.atRest hb
    have hnone : ∀ i < 8, (sys.scheduler.tasks i).state ≠ .running := by
      intro i hi
      rw [ne_eq, h.running hi]
      simp [Rota.current, hb]
    refine ⟨?_, ?_, fun _ => ⟨hnone, hmode.current⟩, h.finished_count, hmoves, hfinished, ?_⟩
    · rw [hmode.stopped]
      refine ⟨by simp, ?_⟩
      rintro ⟨i, ⟨hi, hrunning⟩, -⟩
      exact absurd hrunning (hnone i hi)
    · rw [hmode.stopped]
      simp
    · simp [hmode.control]
  | some budget =>
    obtain ⟨i, hi, hturn, hrep, -⟩ := h.inTurn hb
    have hcurrent : r.current = some i := by simp [Rota.current, hb, hi]
    have hunique : ∀ j < 8, (sys.scheduler.tasks j).state = .running → j = i := by
      intro j hj hrunning
      rw [h.running hj, hcurrent] at hrunning
      simpa using hrunning.symm
    refine ⟨?_, ?_, ?_, h.finished_count, hmoves, hfinished, ?_⟩
    · refine ⟨fun _ => ⟨i, ⟨hturn.lt, (h.running hturn.lt).2 hcurrent⟩, ?_⟩, fun _ => hturn.running⟩
      exact fun j hj => hunique j hj.1 hj.2
    · intro _ j hj hrunning
      obtain rfl := hunique j hj hrunning
      exact ⟨hturn.current, hrep.cursor_eq hi, hturn.control⟩
    · rw [hturn.running]
      simp
    · simp [hturn.control]

end TinyShell
