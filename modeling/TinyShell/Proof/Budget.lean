import TinyShell.Proof.SchedulerRuns

/-!
# The budget of `task_run`

* `run_accounting`: how many dispatches a call makes and what it returns.
* `budget_split`: two calls in a row do what one call with the sum of their budgets does.
-/

namespace TinyShell

open Machine

variable {σ : Type*} {r q : Rota} {sys : TaskSystem} {act : Behaviour σ} {x : σ} {out : TaskOutput} {budget : U32}

/-! ## One call of `task_run` -/

theorem runUntilReturn_end {step : TaskOutput × TaskSystem} {complete : Bool} (h : TaskOK step.2 r)
    (hb : r.budget = none) (hout : step.1 = ⟨none, some (.ran complete)⟩) (fuel : ℕ) :
    runUntilReturn act fuel step x = some ⟨complete, [], step.2, x⟩ := by
  unfold runUntilReturn
  simp only [(h.atRest hb).1.control, hout]
  rfl

theorem runUntilReturn_turn {i : ℕ} (hturn : InTurn sys r.slots i budget) (fuel : ℕ) :
    runUntilReturn act (fuel + 1) (out, sys) x =
      (runUntilReturn act fuel
        (taskStep sys (.task (act i (taskSwitchCount sys.scheduler) (taskFinishedCount sys.scheduler) x).1))
        (act i (taskSwitchCount sys.scheduler) (taskFinishedCount sys.scheduler) x).2).map
        fun result => { result with dispatched := out.dispatched.toList ++ result.dispatched } := by
  conv_lhs => unfold runUntilReturn
  simp only [hturn.control]

/-- What a run with `budget` dispatches to go and `switches` behind it came to. -/
structure Accounted (switches budget : U32) (dispatched : List ℕ) (complete : Bool) (sys : TaskSystem) :
    Prop where
  le_budget : dispatched.length ≤ budget.toNat
  switches : taskSwitchCount sys.scheduler = switches + word dispatched.length
  complete_iff : complete = true ↔ ∀ i < taskMaxTasks, (sys.scheduler.tasks i).state ≠ .ready
  exhausted : complete = false → dispatched.length = budget.toNat

theorem Rota.next_eq_none : r.next = none ↔ ∀ i < 8, r.slots i ≠ .live := by
  rw [Rota.next, cyclicFind_eq_none (by decide)]
  simp

theorem TaskOK.none_ready (h : TaskOK sys r) (hb : r.budget = none) :
    (∀ i < taskMaxTasks, (sys.scheduler.tasks i).state ≠ .ready) ↔ r.next = none := by
  have hready : ∀ i < 8, (sys.scheduler.tasks i).state = .ready ↔ r.slots i = .live := by
    intro i hi
    rw [h.state hi, Slot.state_ready]
    simp [Rota.current, hb]
  rw [Rota.next_eq_none]
  exact forall₂_congr fun i hi => not_congr (hready i hi)

variable {step : TaskOutput × TaskSystem} {result : RunResult σ}

/-- What holds of the rest of a run, whenever a task has its turn. -/
def TurnAccounted (act : Behaviour σ) (fuel : ℕ) : Prop :=
  ∀ {r : Rota} {sys : TaskSystem} {out : TaskOutput} {x : σ} {budget : U32} {result : RunResult σ},
    TaskOK sys r → r.budget = some budget → runUntilReturn act fuel (out, sys) x = some result →
      ∃ dispatched, result.dispatched = out.dispatched.toList ++ dispatched ∧
        Accounted r.switches budget dispatched result.complete result.system

/-- A dispatch is one of the budget, or the run ends there. -/
theorem dispatch_accounted {fuel : ℕ} (ih : TurnAccounted act fuel) (hout : step.1 = (q.dispatch budget).1)
    (h : TaskOK step.2 (q.dispatch budget).2) (hresult : runUntilReturn act fuel step x = some result) :
    Accounted q.switches budget result.dispatched result.complete result.system := by
  by_cases hend : q.next = none ∨ budget = 0
  · rw [Rota.dispatch_end hend] at hout h
    rw [runUntilReturn_end h rfl (by rw [hout])] at hresult
    obtain rfl := Option.some.inj hresult
    refine ⟨by simp, ?_, ?_, ?_⟩
    · simpa [taskSwitchCount] using h.represents.switches
    · rw [h.none_ready rfl, Option.isNone_iff_eq_none]
      rfl
    · intro hincomplete
      have hready : q.next ≠ none := Option.isNone_eq_false_iff.1 hincomplete |> Option.isSome_iff_ne_none.1
      simp [hend.resolve_left hready]
  · obtain ⟨n, hn⟩ := Option.ne_none_iff_exists'.1 (not_or.1 hend).1
    have hb := (not_or.1 hend).2
    rw [Rota.dispatch_some hn hb] at hout h
    obtain ⟨out, sys⟩ := step
    obtain rfl : out = _ := hout
    obtain ⟨dispatched, hlist, haccounted⟩ := ih h rfl hresult
    have hpos : budget.toNat ≠ 0 := fun hzero => hb (BitVec.eq_of_toNat_eq hzero)
    have hminus : (budget - 1).toNat = budget.toNat - 1 := by bv_omega
    have hlength : result.dispatched.length = dispatched.length + 1 := by simp [hlist]
    refine ⟨?_, ?_, haccounted.complete_iff, ?_⟩
    · have := haccounted.le_budget
      omega
    · rw [haccounted.switches, hlength, word_succ]
      ring
    · intro hcomplete
      have := haccounted.exhausted hcomplete
      omega

theorem turn_accounted (act : Behaviour σ) (fuel : ℕ) : TurnAccounted act fuel := by
  induction fuel with
  | zero =>
    intro r sys out x budget result h hb hresult
    obtain ⟨i, -, hturn, -, -⟩ := h.inTurn hb
    simp [runUntilReturn, hturn.control] at hresult
  | succ fuel ih =>
    intro r sys out x budget result h hb hresult
    obtain ⟨i, -, hturn, -, -⟩ := h.inTurn hb
    rw [runUntilReturn_turn hturn, Option.map_eq_some_iff] at hresult
    obtain ⟨rest, hrest, rfl⟩ := hresult
    refine ⟨rest.dispatched, rfl, ?_⟩
    generalize (act i _ _ x).1 = call at hrest
    have hsim := taskStep_sim h (.task call)
    generalize taskStep sys (.task call) = step at hsim hrest
    obtain ⟨out', sys'⟩ := step
    -- a rejected call leaves the task in its turn
    have hrejected : ∀ returned, rotaStep r (.task call) = (⟨none, returned⟩, r) →
        Accounted r.switches budget rest.dispatched rest.complete rest.system := by
      intro returned hstep
      rw [hstep] at hsim
      obtain ⟨dispatched, hlist, haccounted⟩ := ih hsim.2 hb hrest
      obtain rfl : out' = _ := hsim.1
      rwa [show rest.dispatched = dispatched from hlist]
    cases call with
    | systemInit => exact hrejected none (by simp only [rotaStep, hb])
    | create entry argument => exact hrejected (some (.created taskInvalidId)) (by simp only [rotaStep, hb])
    | run budget' => exact hrejected (some (.ran false)) (by simp only [rotaStep, hb])
    | yield =>
      simp only [rotaStep, hb] at hsim
      exact dispatch_accounted ih hsim.1 hsim.2 hrest
    | exit =>
      simp only [rotaStep, hb] at hsim
      have haccounted := dispatch_accounted ih hsim.1 hsim.2 hrest
      rwa [(Released.finish hb).switches] at haccounted

/-- How the scheduler keeps account of the budgets of `task_run`. -/
structure BudgetRules (sys : TaskSystem) : Prop where
  /-- A call of bootstrap code that returns, whatever the tasks do meanwhile. -/
  accounted : sys.control = .bootstrap →
    ∀ {σ : Type} (act : Behaviour σ) (fuel : ℕ) (x : σ) (budget : U32) result,
    taskRunCall act fuel sys x budget = some result →
      Accounted (taskSwitchCount sys.scheduler) budget result.dispatched result.complete result.system
  /-- A call from inside a running task. -/
  nested : ∀ i, sys.control = .task i → ∀ budget, taskRun sys budget = (⟨none, some (.ran false)⟩, sys)

/-- **Budget accounting** in every reachable state. -/
theorem run_accounting (es : List TaskEvent) : BudgetRules (exec taskStep initialSystem es) := by
  have h := (taskRun_sim es).2
  generalize exec taskStep initialSystem es = sys at h
  generalize exec rotaStep Rota.initial es = r at h
  cases hb : r.budget with
  | none =>
    obtain ⟨hmode, hrep⟩ := h.atRest hb
    refine ⟨?_, by simp [hmode.control]⟩
    intro _ σ act fuel x budget result hresult
    have hsim := taskRun_rest_sim h hb budget
    have haccounted := dispatch_accounted (turn_accounted act fuel) hsim.1 hsim.2 hresult
    rwa [← hrep.switches] at haccounted
  | some budget =>
    obtain ⟨i, -, hturn, -, -⟩ := h.inTurn hb
    refine ⟨by simp [hturn.control], ?_⟩
    intro _ _ budget'
    simp [taskRun, hturn.running]

/-- Two tasks that always yield share a budget of three. -/
theorem run_accounting_two_tasks : ∃ result,
    taskRunCall (fun _ _ _ x => (.yield, x)) 3
      (exec taskStep initialSystem (List.replicate 2 (.bootstrap (.create 1 0)))) () 3 = some result ∧
    result.dispatched = [0, 1, 0] ∧ Accounted 0 3 result.dispatched result.complete result.system := by
  refine ⟨_, rfl, rfl, ?_⟩
  exact (run_accounting (List.replicate 2 (.bootstrap (.create 1 0)))).accounted rfl
    (fun _ _ _ x => (.yield, x)) 3 () 3 _ rfl

/-! ## Two calls in a row -/

def Rota.finishedCount (r : Rota) : U32 := word (countBelow 8 fun i => decide (r.slots i = .done))

/-- The rota while task `n` has the turn. -/
def Rota.took (q : Rota) (n : ℕ) : Rota := { q with cursor := some n, budget := none, switches := q.switches + 1 }

def Rota.after (r : Rota) : SliceEnd → Rota
  | .yield => r
  | .exit => r.finish

/-- One turn of the rota: the next task is dispatched and runs its slice. -/
def turn (slices : Slices σ) (p : Rota × σ) : Option (ℕ × Rota × σ) :=
  match p.1.next with
  | none => none
  | some n =>
    let r := p.1.took n
    let slice := slices n r.switches r.finishedCount p.2
    some (n, r.after slice.1, slice.2)

/-- A call that returned has dispatched these tasks and left this rota and state. -/
structure EndsAs (result : RunResult σ) (dispatched : List ℕ) (p : Rota × σ) : Prop where
  dispatched : result.dispatched = dispatched
  system : TaskOK result.system p.1
  rest : p.1.budget = none
  state : result.state = p.2
  complete : result.complete = p.1.next.isNone

variable {slices : Slices σ}

theorem runSlices_end (hq : q.budget = none) (hend : q.next = none ∨ budget = 0)
    (hout : step.1 = (q.dispatch budget).1) (h : TaskOK step.2 (q.dispatch budget).2) (fuel : ℕ) :
    ∃ result, runUntilReturn act fuel step x = some result ∧ EndsAs result [] (q, x) := by
  have hsame : ({ q with budget := none } : Rota) = q := by rw [← hq]
  rw [Rota.dispatch_end hend, hsame] at hout h
  exact ⟨_, runUntilReturn_end h hq hout fuel, rfl, h, hq, rfl, rfl⟩

theorem turn_some {n : ℕ} (hn : q.next = some n) :
    turn slices (q, x) = some (n,
      (q.took n).after (slices n (q.took n).switches (q.took n).finishedCount x).1,
      (slices n (q.took n).switches (q.took n).finishedCount x).2) := by
  simp only [turn, hn]

theorem Rota.after_budget (n : ℕ) (ending : SliceEnd) : ((q.took n).after ending).budget = none := by
  cases ending <;> rfl

/-- The end of a slice goes back to the dispatcher. -/
theorem slice_sim {n : ℕ}
    (h : TaskOK sys { q with cursor := some n, budget := some budget, switches := q.switches + 1 })
    (ending : SliceEnd) :
    (taskStep sys (.task ending.call)).1 = (((q.took n).after ending).dispatch budget).1 ∧
      TaskOK (taskStep sys (.task ending.call)).2 (((q.took n).after ending).dispatch budget).2 := by
  have hstep := taskStep_sim h (.task ending.call)
  cases ending with
  | yield => exact hstep
  | exit => exact hstep

/-- **A call of `task_run` is as many turns as its budget allows.** -/
theorem runSlices_turns {m : ℕ} (hm : budget.toNat = m) (hq : q.budget = none)
    (hout : step.1 = (q.dispatch budget).1) (h : TaskOK step.2 (q.dispatch budget).2) : ∃ result,
      runUntilReturn slices.behaviour m step x = some result ∧
        EndsAs result (emit (turn slices) m (q, x)).1 (emit (turn slices) m (q, x)).2 := by
  induction m generalizing q budget step x with
  | zero =>
    obtain rfl : budget = 0 := BitVec.eq_of_toNat_eq hm
    exact runSlices_end hq (.inr rfl) hout h 0
  | succ m ih =>
    by_cases hend : q.next = none
    · have hstopped : turn slices (q, x) = none := by simp only [turn, hend]
      rw [emit_stopped hstopped]
      exact runSlices_end hq (.inl hend) hout h _
    · obtain ⟨n, hn⟩ := Option.ne_none_iff_exists'.1 hend
      have hb : budget ≠ 0 := by
        rintro rfl
        simp at hm
      have hminus : (budget - 1).toNat = m := by bv_omega
      rw [Rota.dispatch_some hn hb] at hout h
      obtain ⟨out, sys⟩ := step
      obtain rfl : out = _ := hout
      obtain ⟨i, hi, hturn, hrep, -⟩ := h.inTurn rfl
      obtain rfl : n = i := Option.some.inj hi
      have hslice : slices.behaviour n (taskSwitchCount sys.scheduler) (taskFinishedCount sys.scheduler) x =
          slices.behaviour n (q.took n).switches (q.took n).finishedCount x := by
        rw [taskSwitchCount, taskFinishedCount, hrep.switches, hrep.finished]
        rfl
      obtain ⟨hout, hok⟩ := slice_sim h (slices n (q.took n).switches (q.took n).finishedCount x).1
      obtain ⟨result, hresult, hends⟩ := ih hminus (Rota.after_budget _ _) hout hok
      rw [runUntilReturn_turn hturn, hslice, emit_step (turn_some hn)]
      refine ⟨_, Option.map_eq_some_iff.2 ⟨result, hresult, rfl⟩, ?_, hends.system, hends.rest, hends.state,
        hends.complete⟩
      rw [hends.dispatched]
      rfl

/-- The call of bootstrap code. -/
theorem taskRunSlices_turns (h : TaskOK sys r) (hb : r.budget = none) (slices : Slices σ) (x : σ) (budget : U32) :
    ∃ result, taskRunSlices slices sys x budget = some result ∧
      EndsAs result (emit (turn slices) budget.toNat (r, x)).1 (emit (turn slices) budget.toNat (r, x)).2 :=
  have hsim := taskRun_rest_sim h hb budget
  runSlices_turns rfl hb hsim.1 hsim.2

/-- One call did what two calls in a row did: the same dispatches, the same result, and
the same state of the tasks, of their code and of the scheduler. -/
structure SameRun (first second whole : RunResult σ) : Prop where
  dispatched : whole.dispatched = first.dispatched ++ second.dispatched
  states : ∀ i < taskMaxTasks, (whole.system.scheduler.tasks i).state = (second.system.scheduler.tasks i).state
  state : whole.state = second.state
  cursor : whole.system.scheduler.roundRobinCursor = second.system.scheduler.roundRobinCursor
  switches : taskSwitchCount whole.system.scheduler = taskSwitchCount second.system.scheduler
  finished : taskFinishedCount whole.system.scheduler = taskFinishedCount second.system.scheduler
  complete : whole.complete = second.complete

/-- **Splitting a budget** does not change the schedule. -/
theorem budget_split (es : List TaskEvent) (hrest : (exec taskStep initialSystem es).control = .bootstrap)
    (slices : Slices σ) (x : σ) (a b : U32) (hab : a.toNat + b.toNat < 2 ^ 32) :
    ∃ first second whole,
      taskRunSlices slices (exec taskStep initialSystem es) x a = some first ∧
      taskRunSlices slices first.system first.state b = some second ∧
      taskRunSlices slices (exec taskStep initialSystem es) x (a + b) = some whole ∧
      SameRun first second whole := by
  have h := (taskRun_sim es).2
  generalize exec taskStep initialSystem es = sys at h hrest
  generalize exec rotaStep Rota.initial es = r at h
  have hb : r.budget = none := by
    by_contra hb
    obtain ⟨budget, hb⟩ := Option.ne_none_iff_exists'.1 hb
    obtain ⟨i, -, hturn, -, -⟩ := h.inTurn hb
    simp [hturn.control] at hrest
  obtain ⟨first, hfirst, hends₁⟩ := taskRunSlices_turns h hb slices x a
  obtain ⟨second, hsecond, hends₂⟩ := taskRunSlices_turns hends₁.system hends₁.rest slices first.state b
  obtain ⟨whole, hwhole, hends⟩ := taskRunSlices_turns h hb slices x (a + b)
  have hsum : (a + b).toNat = a.toNat + b.toNat := by
    rw [BitVec.toNat_add, Nat.mod_eq_of_lt hab]
  rw [hsum, emit_add] at hends
  rw [hends₁.state, Prod.mk.eta] at hends₂
  refine ⟨first, second, whole, hfirst, hsecond, hwhole, ?_⟩
  have hw := hends.system.represents
  have hs := hends₂.system.represents
  refine ⟨?_, ?_, ?_, ?_, ?_, ?_, ?_⟩
  · rw [hends.dispatched, hends₁.dispatched, hends₂.dispatched]
  · intro i hi
    rw [hends.system.state hi, hends₂.system.state hi]
  · rw [hends.state, hends₂.state]
  · rw [hw.cursor, hs.cursor]
  · exact hw.switches.trans hs.switches.symm
  · exact hw.finished.trans hs.finished.symm
  · rw [hends.complete, hends₂.complete]

/-- Two tasks that count their slices: a budget of three as one and two. -/
theorem budget_split_two_tasks : ∃ first second whole : RunResult ℕ,
    taskRunSlices (fun _ _ _ x => (.yield, x + 1))
      (exec taskStep initialSystem (List.replicate 2 (.bootstrap (.create 1 0)))) 0 1 = some first ∧
    taskRunSlices (fun _ _ _ x => (.yield, x + 1)) first.system first.state 2 = some second ∧
    taskRunSlices (fun _ _ _ x => (.yield, x + 1))
      (exec taskStep initialSystem (List.replicate 2 (.bootstrap (.create 1 0)))) 0 (1 + 2) = some whole ∧
    SameRun first second whole :=
  budget_split (List.replicate 2 (.bootstrap (.create 1 0))) rfl
    (fun _ _ _ x => (.yield, x + 1)) 0 1 2 (by decide)

end TinyShell
