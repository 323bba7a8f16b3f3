import TinyShell.Proof.SchedulerRuns

/-!
# Round robin

The dispatcher takes the live slot that is fewest steps ahead of the cursor. Seen from
the slot behind `u`, a whole turn of the rota passes every other slot once before `u`
itself, which is the farthest.

* `waiting_step`: a waiting task comes nearer with every dispatch of another.
* `rotation_step`: between two turns of `u`, each task that waited has one.
* `round_robin`: both, over every run.
-/

namespace TinyShell

open Machine

/-- The tasks that a run dispatched, in order. -/
def dispatches (run : List (TaskEvent × TaskOutput)) : List ℕ := run.filterMap fun call => call.2.dispatched

variable {r q r' : Rota} {sys : TaskSystem} {e : TaskEvent} {out : TaskOutput} {es : List TaskEvent} {t u n : ℕ}

/-- Task `t` waits for a turn. -/
structure Waiting (r : Rota) (t : ℕ) : Prop where
  live : r.slots t = .live
  idle : r.current ≠ some t

theorem Waiting.released (h : Waiting r t) (hq : Released r q) : q.slots t = .live := by
  rcases hq.slots t with hsame | ⟨hcurrent, -⟩
  · rw [hsame, h.live]
  · exact absurd hcurrent h.idle

theorem Released.start (hq : Released r q) : q.start = r.start := by
  rw [Rota.start, Rota.start, hq.cursor]

/-- The dispatcher takes the nearest live slot. -/
theorem Rota.next_nearest (hn : q.next = some n) {j : ℕ} (hj : j < 8) (hlive : q.slots j = .live) :
    ahead 8 q.start n ≤ ahead 8 q.start j := by
  obtain ⟨-, -, hnearest⟩ := cyclicFind_some hn
  exact hnearest j hj (by simpa using hlive)

/-- **Step lemma**: a dispatch of another task brings a waiting one nearer. -/
theorem waiting_step (h : Waiting r t) (ht : t < 8) (hmove : RotaMove r e out r')
    (he : e ≠ .bootstrap .systemInit) (hout : out.dispatched ≠ some t) :
    Waiting r' t ∧ out.dispatched.toList.length + ahead 8 r'.start t ≤ ahead 8 r.start t := by
  cases hmove with
  | stay => exact ⟨h, by simp⟩
  | reset => exact absurd rfl he
  | @create _ i hb hi hfree =>
    have hit : t ≠ i := by
      rintro rfl
      simp [h.live] at hfree
    exact ⟨⟨by simpa [Function.update_of_ne hit] using h.live, h.idle⟩, by simp [Rota.start]⟩
  | @dispatch _ q n _ hq hn =>
    have hnt : n ≠ t := by simpa using hout
    obtain ⟨hn8, -⟩ := Rota.next_some hn
    have hlive := h.released hq
    have hnearest := Rota.next_nearest hn ht hlive
    have hnearer : ahead 8 q.start n < ahead 8 q.start t :=
      lt_of_le_of_ne hnearest fun heq => hnt (ahead_inj hn8 ht heq)
    have hlt := ahead_lt (show 0 < 8 by decide) q.start t
    have hnext : ahead 8 q.start (n + 1) = ahead 8 q.start n + 1 := ahead_next (by omega)
    have hsub : ahead 8 (n + 1) t = ahead 8 q.start t - ahead 8 q.start (n + 1) := ahead_sub ht (by omega)
    refine ⟨⟨hlive, by simpa [Rota.current] using hnt⟩, ?_⟩
    change 1 + ahead 8 (n + 1) t ≤ _
    rw [← hq.start]
    omega
  | rest hq =>
    have hlive := h.released hq
    exact ⟨⟨hlive, by simp [Rota.current]⟩, by simp [Rota.start, hq.cursor]⟩

theorem dispatches_cons (r : Rota) (e : TaskEvent) (es : List TaskEvent) :
    dispatches (trace rotaStep r (e :: es)) =
      (rotaStep r e).1.dispatched.toList ++ dispatches (trace rotaStep (rotaStep r e).2 es) := by
  cases hout : (rotaStep r e).1.dispatched <;> simp [dispatches, trace, hout]

/-- **Run lemma**: no more tasks pass a waiting one than were ahead of it. -/
theorem waiting_run (h : Waiting r t) (ht : t < 8) (hes : TaskEvent.bootstrap .systemInit ∉ es)
    (hnot : t ∉ dispatches (trace rotaStep r es)) :
    (dispatches (trace rotaStep r es)).length ≤ ahead 8 r.start t := by
  induction es generalizing r with
  | nil => simp [dispatches, trace]
  | cons e es ih =>
    rw [List.mem_cons, not_or] at hes
    rw [dispatches_cons, List.mem_append, not_or] at hnot
    obtain ⟨hwaiting, hnearer⟩ := waiting_step h ht (rotaStep_move r e) (Ne.symm hes.1) (by simpa using hnot.1)
    have hrest := ih hwaiting hes.2 hnot.2
    rw [dispatches_cons, List.length_append]
    omega

/-! ## Between two turns of a task -/

/-- How far the rota has come since task `u` had its turn: task `t`, which waited then, is
still to come, or has had one turn and lies behind; or `u` is done. -/
inductive Rotation (u t : ℕ) (r : Rota) : ℕ → Prop
  | pending (hu : r.slots u = .live) (ht : Waiting r t)
    (hahead : ahead 8 (u + 1) r.start ≤ ahead 8 (u + 1) t) : Rotation u t r 0
  | served (hu : r.slots u = .live) (hbehind : ahead 8 (u + 1) t < ahead 8 (u + 1) r.start) : Rotation u t r 1
  | gone (k : ℕ) (hu : r.slots u = .done) : Rotation u t r k

/-- Every slot but `u` itself is less than seven steps from behind `u`. -/
theorem ahead_lt_last (ht : t < 8) (hu : u < 8) (htu : t ≠ u) : ahead 8 (u + 1) t < 7 := by
  have hlt := ahead_lt (show 0 < 8 by decide) (u + 1) t
  have hself := ahead_self hu
  have hne : ahead 8 (u + 1) t ≠ ahead 8 (u + 1) u := fun heq => htu (ahead_inj ht hu heq)
  omega

/-- Giving up a turn leaves `u` live, or done for good. -/
theorem Released.slot (hq : Released r q) (hu : r.slots u = .live) : q.slots u = .live ∨ q.slots u = .done := by
  rcases hq.slots u with hsame | ⟨-, hdone⟩
  · exact .inl (by rw [hsame, hu])
  · exact .inr hdone

/-- The dispatch of task `n`, seen from behind `u`. -/
theorem Rotation.dispatch {k : ℕ} (h : Rotation u t r k) (hu : u < 8) (ht : t < 8) (htu : t ≠ u)
    (hq : Released r q) (hn : q.next = some n) (budget : Option U32) (switches : U32) :
    (n = u → k = 1) ∧
      (n ≠ u → Rotation u t { q with cursor := some n, budget := budget, switches := switches }
        (k + [n].count t)) := by
  obtain ⟨hn8, hnlive⟩ := Rota.next_some hn
  have hlast := ahead_lt_last ht hu htu
  have hgone : q.slots u = .done →
      (n = u → k = 1) ∧
        (n ≠ u → Rotation u t { q with cursor := some n, budget := budget, switches := switches }
          (k + [n].count t)) := by
    intro hdone
    refine ⟨?_, fun _ => .gone _ hdone⟩
    rintro rfl
    simp [hnlive] at hdone
  cases h with
  | pending hulive hwait hahead =>
    rcases hq.slot hulive with hulive | hdone
    · have htlive := hwait.released hq
      obtain ⟨-, hle⟩ := ahead_between hn8 ht (by rwa [hq.start]) (Rota.next_nearest hn ht htlive)
      have hnext : ahead 8 (u + 1) (n + 1) = ahead 8 (u + 1) n + 1 := ahead_next (by omega)
      refine ⟨?_, ?_⟩
      · rintro rfl
        have := ahead_self hu
        omega
      · intro _
        by_cases hnt : n = t
        · subst hnt
          rw [List.count_singleton_self]
          refine .served hulive ?_
          change _ < ahead 8 (u + 1) (n + 1)
          omega
        · have hne : ahead 8 (u + 1) n ≠ ahead 8 (u + 1) t := fun heq => hnt (ahead_inj hn8 ht heq)
          rw [List.count_singleton, beq_eq_false_iff_ne.2 hnt]
          refine .pending hulive ⟨htlive, ?_⟩ ?_
          · cases budget <;> simp [Rota.current, hnt]
          · change ahead 8 (u + 1) (n + 1) ≤ _
            omega
    · exact hgone hdone
  | served hulive hbehind =>
    rcases hq.slot hulive with hulive | hdone
    · have hself := ahead_self hu
      have hstart := ahead_lt (show 0 < 8 by decide) (u + 1) q.start
      obtain ⟨hge, -⟩ := ahead_between hn8 hu (show ahead 8 (u + 1) q.start ≤ ahead 8 (u + 1) u by omega)
        (Rota.next_nearest hn hu hulive)
      rw [hq.start] at hge
      refine ⟨fun _ => rfl, ?_⟩
      intro hnu
      have hnt : n ≠ t := by
        rintro rfl
        omega
      have hnlast := ahead_lt_last hn8 hu hnu
      have hnext : ahead 8 (u + 1) (n + 1) = ahead 8 (u + 1) n + 1 := ahead_next (by omega)
      rw [List.count_singleton, beq_eq_false_iff_ne.2 hnt]
      refine .served hulive ?_
      change _ < ahead 8 (u + 1) (n + 1)
      omega
    · exact hgone hdone
  | gone k hdone =>
    rcases hq.slots u with hsame | ⟨-, hdone⟩
    · exact hgone (by rw [hsame, hdone])
    · exact hgone hdone

/-- **Step lemma**, for a step that does not dispatch `u`. -/
theorem rotation_step {k : ℕ} (h : Rotation u t r k) (hu : u < 8) (ht : t < 8) (htu : t ≠ u)
    (hmove : RotaMove r e out r') (he : e ≠ .bootstrap .systemInit) (hout : out.dispatched ≠ some u) :
    Rotation u t r' (k + out.dispatched.toList.count t) := by
  cases hmove with
  | stay => exact h
  | reset => exact absurd rfl he
  | @create _ i hb hi hfree =>
    have hkept : ∀ {j : ℕ}, r.slots j ≠ .free → Function.update r.slots i .live j = r.slots j := by
      intro j hj
      refine Function.update_of_ne ?_ _ _
      rintro rfl
      exact hj hfree
    cases h with
    | pending hulive hwait hahead =>
      refine .pending ?_ ⟨?_, hwait.idle⟩ hahead
      · simpa [hkept (show r.slots u ≠ .free by simp [hulive])] using hulive
      · simpa [hkept (show r.slots t ≠ .free by simp [hwait.live])] using hwait.live
    | served hulive hbehind =>
      refine .served ?_ hbehind
      simpa [hkept (show r.slots u ≠ .free by simp [hulive])] using hulive
    | gone k hdone =>
      refine .gone _ ?_
      simpa [hkept (show r.slots u ≠ .free by simp [hdone])] using hdone
  | dispatch hq hn => exact (h.dispatch hu ht htu hq hn _ _).2 (by simpa using hout)
  | @rest _ q _ hq =>
    cases h with
    | pending hulive hwait hahead =>
      have htlive := hwait.released hq
      rcases hq.slot hulive with hulive | hdone
      · refine .pending hulive ⟨htlive, by simp [Rota.current]⟩ ?_
        rwa [← hq.start] at hahead
      · exact .gone _ hdone
    | served hulive hbehind =>
      rcases hq.slot hulive with hulive | hdone
      · refine .served hulive ?_
        rwa [← hq.start] at hbehind
      · exact .gone _ hdone
    | gone k hdone =>
      refine .gone _ ?_
      rcases hq.slots u with hsame | ⟨-, hdone⟩
      · rw [← hdone, ← hsame]
      · exact hdone

/-- **Run lemma**: the rotation goes on until `u` is dispatched. -/
theorem rotation_run {k : ℕ} (h : Rotation u t r k) (hu : u < 8) (ht : t < 8) (htu : t ≠ u)
    (hes : TaskEvent.bootstrap .systemInit ∉ es) (hnot : u ∉ dispatches (trace rotaStep r es)) :
    Rotation u t (exec rotaStep r es) (k + (dispatches (trace rotaStep r es)).count t) := by
  induction es generalizing r k with
  | nil => simpa [dispatches, trace, exec] using h
  | cons e es ih =>
    rw [List.mem_cons, not_or] at hes
    rw [dispatches_cons, List.mem_append, not_or] at hnot
    have hstep := rotation_step h hu ht htu (rotaStep_move r e) (Ne.symm hes.1) (by simpa using hnot.1)
    have hrest := ih hstep hes.2 hnot.2
    rwa [Nat.add_assoc, ← List.count_append, ← dispatches_cons] at hrest

/-- A dispatch of `u` starts a rotation for every task that waits. -/
theorem rotation_start (hmove : RotaMove r e out r') (hout : out.dispatched = some u) (hwait : Waiting r' t) :
    u < 8 ∧ Rotation u t r' 0 := by
  cases hmove with
  | @dispatch _ q n _ hq hn =>
    obtain rfl : n = u := Option.some.inj hout
    obtain ⟨hn8, hlive⟩ := Rota.next_some hn
    refine ⟨hn8, .pending hlive hwait ?_⟩
    have hzero : ahead 8 (n + 1) (n + 1) = 0 := by
      unfold ahead
      omega
    exact hzero.trans_le (Nat.zero_le _)
  | stay => simp at hout
  | reset => simp at hout
  | create => simp at hout
  | rest => simp at hout

/-- The next dispatch of `u` ends it. -/
theorem rotation_end {k : ℕ} (h : Rotation u t r k) (hu : u < 8) (ht : t < 8) (htu : t ≠ u)
    (hmove : RotaMove r e out r') (hout : out.dispatched = some u) : k = 1 := by
  cases hmove with
  | dispatch hq hn => exact (h.dispatch hu ht htu hq hn none 0).1 (Option.some.inj hout)
  | stay => simp at hout
  | reset => simp at hout
  | create => simp at hout
  | rest => simp at hout

/-- Fair scheduling from a state on. -/
structure Fair (sys : TaskSystem) : Prop where
  /-- Between a dispatch of `u` and the next one, every other task that was ready at the
  first has exactly one. -/
  once : ∀ e u, (taskStep sys e).1.dispatched = some u →
    ∀ es e', TaskEvent.bootstrap .systemInit ∉ es →
      u ∉ dispatches (trace taskStep (taskStep sys e).2 es) →
      (taskStep (exec taskStep (taskStep sys e).2 es) e').1.dispatched = some u →
      ∀ t < taskMaxTasks, t ≠ u → ((taskStep sys e).2.scheduler.tasks t).state = .ready →
        (dispatches (trace taskStep (taskStep sys e).2 es)).count t = 1
  /-- A ready task is passed by at most seven dispatches. -/
  bypass : ∀ t < taskMaxTasks, (sys.scheduler.tasks t).state = .ready →
    ∀ es, TaskEvent.bootstrap .systemInit ∉ es → t ∉ dispatches (trace taskStep sys es) →
      (dispatches (trace taskStep sys es)).length ≤ 7

theorem TaskOK.waiting (h : TaskOK sys r) (ht : t < 8) (hready : (sys.scheduler.tasks t).state = .ready) :
    Waiting r t := by
  rw [h.state ht, Slot.state_ready, decide_eq_false_iff_not] at hready
  exact ⟨hready.1, hready.2⟩

/-- **Round robin**, in every run. -/
theorem round_robin (es : List TaskEvent) : Fair (exec taskStep initialSystem es) := by
  have h := (taskRun_sim es).2
  generalize exec taskStep initialSystem es = sys at h
  generalize exec rotaStep Rota.initial es = r at h
  have hsim : ∀ {sys r}, TaskOK sys r → ∀ es, trace taskStep sys es = trace rotaStep r es ∧
      TaskOK (exec taskStep sys es) (exec rotaStep r es) := fun h es =>
    trace_sim (R := TaskOK) (fun _ _ e h => taskStep_sim h e) h es
  refine ⟨?_, ?_⟩
  · intro e u hfirst es e' hes hbetween hnext t ht htu hready
    obtain ⟨hout, hok⟩ := taskStep_sim h e
    obtain ⟨htrace, hok'⟩ := hsim hok es
    rw [hout] at hfirst
    rw [htrace] at hbetween ⊢
    rw [(taskStep_sim hok' e').1] at hnext
    obtain ⟨hu, hrotation⟩ := rotation_start (rotaStep_move r e) hfirst (hok.waiting ht hready)
    have hrun := rotation_run hrotation hu ht htu hes hbetween
    simpa using rotation_end hrun hu ht htu (rotaStep_move _ e') hnext
  · intro t ht hready es hes hnot
    rw [(hsim h es).1] at hnot ⊢
    have hpassed := waiting_run (h.waiting ht hready) ht hes hnot
    have hlt := ahead_lt (show 0 < 8 by decide) r.start t
    omega

/-- Three tasks take turns: between two turns of task 0, task 1 has one. -/
theorem round_robin_three_tasks :
    (dispatches (trace taskStep
      (taskStep (exec taskStep initialSystem (List.replicate 3 (.bootstrap (.create 1 0))))
        (.bootstrap (.run 9))).2
      [.task .yield, .task .yield])).count 1 = 1 :=
  (round_robin (List.replicate 3 (.bootstrap (.create 1 0)))).once (.bootstrap (.run 9)) 0 (by decide)
    [.task .yield, .task .yield] (.task .yield) (by simp) (by decide) (by decide) 1 (by decide)
      (by decide) (by decide)

end TinyShell
