import Mathlib

/-!
# Runs of a call interface

A component is a function `step : σ → ε → ρ × σ` that takes one call in one
state to its result and the next state. `exec` is the state after a list of
calls, `trace` the calls with their results.

* `exec_inv`: an invariant that every call keeps holds after every run.
* `hist_inv`: the same for a relation between the state and the history of
  calls and results so far.
* `trace_sim`: two components related by a simulation answer alike for ever.
* `exec_iff`: a property of states that is lost exactly in the calls outside of `P` holds
  after a run exactly when all its calls are in `P`.
* `countAlong_concat`: the number of calls of a run that are in `P`.
* `since_concat`: what has happened in a history and has not been undone since.
* `filterMapAfter_concat`: what each element of a history gives, given those before it.
* `emit_add`: a bounded iteration of a partial step can be cut anywhere.
-/

namespace Machine

variable {σ τ ε ρ : Type*}

/-- The state after a list of calls. -/
def exec (step : σ → ε → ρ × σ) (s : σ) : List ε → σ
  | [] => s
  | e :: es => exec step (step s e).2 es

/-- The calls of a run, each with its result. -/
def trace (step : σ → ε → ρ × σ) (s : σ) : List ε → List (ε × ρ)
  | [] => []
  | e :: es => (e, (step s e).1) :: trace step (step s e).2 es

variable {step : σ → ε → ρ × σ}

theorem exec_append (s : σ) (es fs : List ε) :
    exec step s (es ++ fs) = exec step (exec step s es) fs := by
  induction es generalizing s with
  | nil => rfl
  | cons e es ih => exact ih (step s e).2

theorem trace_fst (s : σ) (es : List ε) : (trace step s es).map Prod.fst = es := by
  induction es generalizing s with
  | nil => rfl
  | cons e es ih => exact congrArg (e :: ·) (ih (step s e).2)

/-- **Invariant rule.** -/
theorem exec_inv {I : σ → Prop} (hstep : ∀ s e, I s → I (step s e).2) {s : σ} (h0 : I s)
    (es : List ε) : I (exec step s es) := by
  induction es generalizing s with
  | nil => exact h0
  | cons e es ih => exact ih (hstep s e h0)

/-- **History rule.** A relation between the history so far and the state that
holds at the start and is kept by every call holds after every run. -/
theorem hist_inv {I : List (ε × ρ) → σ → Prop} {s : σ} (h0 : I [] s)
    (hstep : ∀ tr s e, I tr s → I (tr ++ [(e, (step s e).1)]) (step s e).2) (es : List ε) :
    I (trace step s es) (exec step s es) := by
  -- the induction carries the history that was there before the run
  have key : ∀ (es : List ε) (tr : List (ε × ρ)) (s : σ), I tr s →
      I (tr ++ trace step s es) (exec step s es) := by
    intro es
    induction es with
    | nil => intro tr s h; simpa [trace, exec] using h
    | cons e es ih =>
      intro tr s h
      have := ih _ _ (hstep tr s e h)
      rwa [List.append_assoc, List.singleton_append] at this
  simpa using key es [] s h0

/-- A call of a run, seen from the state in which it is made. -/
theorem mem_trace {s : σ} {es : List ε} {e : ε} {r : ρ} (h : (e, r) ∈ trace step s es) :
    ∃ es₁ es₂, es = es₁ ++ e :: es₂ ∧ r = (step (exec step s es₁) e).1 := by
  induction es generalizing s with
  | nil => simp [trace] at h
  | cons a es ih =>
    rcases List.mem_cons.1 h with h | h
    · obtain ⟨rfl, rfl⟩ := Prod.mk.inj h
      exact ⟨[], es, rfl, rfl⟩
    · obtain ⟨es₁, es₂, rfl, hr⟩ := ih h
      exact ⟨a :: es₁, es₂, rfl, hr⟩

/-- **Simulation rule.** Related states answer every call alike and stay related,
so two runs from related states have the same results. -/
theorem trace_sim {step' : τ → ε → ρ × τ} {R : σ → τ → Prop}
    (hsim : ∀ s t e, R s t → (step s e).1 = (step' t e).1 ∧ R (step s e).2 (step' t e).2)
    {s : σ} {t : τ} (h0 : R s t) (es : List ε) :
    trace step s es = trace step' t es ∧ R (exec step s es) (exec step' t es) := by
  induction es generalizing s t with
  | nil => exact ⟨rfl, h0⟩
  | cons e es ih =>
    obtain ⟨hr, hR⟩ := hsim s t e h0
    obtain ⟨ht, hE⟩ := ih hR
    exact ⟨by simp only [trace, hr, ht], hE⟩

/-! ## Properties of all calls -/

/-- **A property of states that is lost exactly in the calls outside of `P`** holds after a run
exactly when all its calls are in `P`, each in the state in which it is made. -/
theorem exec_iff {I G : σ → Prop} {P : σ → ε → Prop} (hinv : ∀ s e, I s → I (step s e).2)
    (hstep : ∀ s e, I s → (G (step s e).2 ↔ G s ∧ P s e)) {s : σ} (h0 : I s) (hG : G s) (es : List ε) :
    G (exec step s es) ↔ ∀ before e after, es = before ++ e :: after → P (exec step s before) e := by
  -- the split of the run is the one of its first call or one of the rest
  have key : ∀ (es : List ε) (s : σ), I s →
      (G (exec step s es) ↔ G s ∧ ∀ before e after, es = before ++ e :: after → P (exec step s before) e) := by
    intro es
    induction es with
    | nil =>
      intro s _
      simp [exec]
    | cons a es ih =>
      intro s hs
      rw [exec, ih _ (hinv s a hs), hstep s a hs, and_assoc]
      refine and_congr_right fun _ => ⟨?_, fun h => ⟨h [] a es rfl, fun before e after hes => ?_⟩⟩
      · rintro ⟨hfirst, hrest⟩ before e after hes
        cases before with
        | nil =>
          obtain ⟨rfl, -⟩ := List.cons.inj hes
          exact hfirst
        | cons b before =>
          obtain ⟨rfl, hes'⟩ := List.cons.inj hes
          exact hrest before e after hes'
      · exact h (a :: before) e after (congrArg (a :: ·) hes)
  rw [key es s h0]
  exact and_iff_right hG

/-- The number of calls of a run that are in `P`, each in the state in which it is made. -/
def countAlong (step : σ → ε → ρ × σ) (P : σ → ε → Bool) (s : σ) : List ε → ℕ
  | [] => 0
  | e :: es => (if P s e then 1 else 0) + countAlong step P (step s e).2 es

theorem countAlong_concat (P : σ → ε → Bool) (s : σ) (es : List ε) (e : ε) :
    countAlong step P s (es ++ [e]) = countAlong step P s es + if P (exec step s es) e then 1 else 0 := by
  induction es generalizing s with
  | nil => exact Nat.add_comm _ _
  | cons a es ih =>
    rw [List.cons_append, countAlong, ih, countAlong, exec, Nat.add_assoc]

theorem countAlong_sim {step' : τ → ε → ρ × τ} {R : σ → τ → Prop} {P : σ → ε → Bool} {P' : τ → ε → Bool}
    (hsim : ∀ s t e, R s t → R (step s e).2 (step' t e).2) (hP : ∀ s t e, R s t → P s e = P' t e)
    {s : σ} {t : τ} (h0 : R s t) (es : List ε) : countAlong step P s es = countAlong step' P' t es := by
  induction es generalizing s t with
  | nil => rfl
  | cons e es ih => rw [countAlong, countAlong, hP s t e h0, ih (hsim s t e h0)]

theorem countAlong_le {P : σ → ε → Bool} {q : ε → Bool} (h : ∀ s e, P s e = true → q e = true) (s : σ)
    (es : List ε) : countAlong step P s es ≤ es.countP q := by
  induction es generalizing s with
  | nil => rfl
  | cons e es ih =>
    have hrest := ih (step s e).2
    rw [countAlong, List.countP_cons]
    cases hP : P s e with
    | false =>
      simp only [Bool.false_eq_true, if_false]
      omega
    | true =>
      simp only [if_true, h s e hP]
      omega

/-! ## Histories -/

variable {α β : Type*}

/-- Something in the history is in `P`, and nothing after it is in `Q`. -/
def Since (P Q : α → Prop) (l : List α) : Prop :=
  ∃ before x after, l = before ++ x :: after ∧ P x ∧ ∀ y ∈ after, ¬Q y

theorem not_since_nil (P Q : α → Prop) : ¬Since P Q [] := by
  rintro ⟨before, x, after, h, -⟩
  simp at h

theorem since_concat {P Q : α → Prop} {l : List α} {x : α} :
    Since P Q (l ++ [x]) ↔ P x ∨ Since P Q l ∧ ¬Q x := by
  constructor
  · rintro ⟨before, y, after, hl, hy, hafter⟩
    rcases List.eq_nil_or_concat after with rfl | ⟨after, z, rfl⟩
    · obtain ⟨-, hxy⟩ := List.append_inj' hl rfl
      obtain rfl : x = y := by simpa using hxy
      exact .inl hy
    · rw [List.concat_eq_append, ← List.cons_append, ← List.append_assoc] at hl
      obtain ⟨rfl, hxz⟩ := List.append_inj' hl rfl
      obtain rfl : x = z := by simpa using hxz
      simp only [List.concat_eq_append, List.mem_append, List.mem_singleton] at hafter
      exact .inr ⟨⟨before, y, after, rfl, hy, fun w hw => hafter w (.inl hw)⟩, hafter x (.inr rfl)⟩
  · rintro (hx | ⟨⟨before, y, after, rfl, hy, hafter⟩, hx⟩)
    · exact ⟨l, x, [], rfl, hx, by simp⟩
    · refine ⟨before, y, after ++ [x], by simp, hy, fun w hw => ?_⟩
      rcases List.mem_append.1 hw with hw | hw
      · exact hafter w hw
      · rwa [List.mem_singleton.1 hw]

/-- What each element gives after those before it. -/
def filterMapAfter (f : List α → α → Option β) (l : List α) : List β :=
  (List.range l.length).filterMap fun i => (l[i]?).bind (f (l.take i))

theorem filterMapAfter_concat (f : List α → α → Option β) (l : List α) (x : α) :
    filterMapAfter f (l ++ [x]) = filterMapAfter f l ++ (f l x).toList := by
  unfold filterMapAfter
  rw [List.length_append, List.length_singleton, List.range_succ, List.filterMap_append]
  congr 1
  · apply List.filterMap_congr
    intro i hi
    have hlt : i < l.length := List.mem_range.1 hi
    rw [List.getElem?_append_left hlt, List.take_append_of_le_length hlt.le]
  · cases h : f l x <;> simp [h]

/-! ## Bounded iteration -/

variable {f : α → Option (β × α)}

/-- At most `n` steps of a step function that may stop, with what the steps emit. -/
def emit (f : α → Option (β × α)) : ℕ → α → List β × α
  | 0, a => ([], a)
  | n + 1, a =>
    match f a with
    | none => ([], a)
    | some (b, a') => (b :: (emit f n a').1, (emit f n a').2)

theorem emit_stopped {a : α} (h : f a = none) (n : ℕ) : emit f n a = ([], a) := by
  cases n with
  | zero => rfl
  | succ n => simp only [emit, h]

theorem emit_step {a a' : α} {b : β} (h : f a = some (b, a')) (n : ℕ) :
    emit f (n + 1) a = (b :: (emit f n a').1, (emit f n a').2) := by
  simp only [emit, h]

/-- **Cut rule.** -/
theorem emit_add (m n : ℕ) (a : α) :
    emit f (m + n) a =
      ((emit f m a).1 ++ (emit f n (emit f m a).2).1, (emit f n (emit f m a).2).2) := by
  induction m generalizing a with
  | zero => simp [emit]
  | succ m ih =>
    cases h : f a with
    | none => simp [emit_stopped h]
    | some step =>
      obtain ⟨b, a'⟩ := step
      rw [Nat.add_right_comm, emit_step h, emit_step h, ih]
      rfl

end Machine
