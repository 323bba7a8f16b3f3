import TinyShell.Machine.Word

/-!
# Counting loops

`forRange body first last` is `for (i = first; i < last; ++i)` over a machine
word counter; `fill` is such a loop whose iterations only store to cell `i` of
an array. `forRange_inv` is the loop-invariant rule, `forRange_pointwise` the
rule for loops whose iteration `i` changes only cell `i` of a table, and
`forRangeM_eq_some` the rule for loops that may fail and do not.
`foldl_update_apply` is about loops that set the entries of a table one by one.
`Ends` is a loop without a counter, which may fail or break.
-/

namespace Machine

universe u v

variable {σ α : Type*} {w : ℕ}

/-- `for (i = first; i < last; ++i) s = body(s, i)`, over a body in a monad. -/
def forRangeM {σ : Type u} {m : Type u → Type v} [Monad m] (body : σ → BitVec w → m σ)
    (first last : BitVec w) (s : σ) : m σ :=
  (List.range' first.toNat (last.toNat - first.toNat)).foldlM (fun s i => body s (BitVec.ofNat w i)) s

/-- The loop over a body that cannot fail. -/
def forRange (body : σ → BitVec w → σ) (first last : BitVec w) (s : σ) : σ :=
  forRangeM (m := Id) body first last s

/-- `for (i = lo; i < hi; ++i) a[i] = f(i)`. -/
def fill (a : ℕ → α) (lo hi : ℕ) (f : ℕ → α) : ℕ → α := fun i => if lo ≤ i ∧ i < hi then f i else a i

theorem foldl_range'_inv {I : ℕ → σ → Prop} {f : σ → ℕ → σ} {n : ℕ} :
    ∀ {a : ℕ} {s : σ}, I a s → (∀ i s, a ≤ i → i < a + n → I i s → I (i + 1) (f s i)) →
      I (a + n) ((List.range' a n).foldl f s) := by
  induction n with
  | zero => intro a s h0 _; exact h0
  | succ n ih =>
    intro a s h0 hs
    rw [List.range'_succ, List.foldl_cons, show a + (n + 1) = a + 1 + n by omega]
    exact ih (hs a s le_rfl (by omega) h0) (fun i s h1 h2 => hs i s (by omega) (by omega))

theorem foldlM_id (f : σ → α → σ) (l : List α) (s : σ) : List.foldlM (m := Id) f s l = l.foldl f s :=
  List.idRun_foldlM

/-- **Loop-invariant rule** for `forRange`: `I i` holds before iteration `i`. -/
theorem forRange_inv {I : ℕ → σ → Prop} (body : σ → BitVec w → σ) (first last : BitVec w) {s : σ}
    (h0 : I first.toNat s)
    (hstep : ∀ i s, first.toNat ≤ i → i < last.toNat → I i s → I (i + 1) (body s (BitVec.ofNat w i))) :
    I (max first.toNat last.toNat) (forRange body first last s) := by
  have h := foldl_range'_inv (n := last.toNat - first.toNat)
    (f := fun s i => body s (BitVec.ofNat w i)) h0
    (fun i s h1 h2 => hstep i s h1 (by omega))
  rw [forRange, forRangeM, foldlM_id]
  rwa [show first.toNat + (last.toNat - first.toNat) = max first.toNat last.toNat by omega] at h

theorem foldlM_eq_some {I : σ → Prop} {f : σ → α → σ} {g : σ → α → Option σ} {l : List α} :
    ∀ {s : σ}, I s → (∀ s, ∀ i ∈ l, I s → g s i = some (f s i) ∧ I (f s i)) →
      l.foldlM g s = some (l.foldl f s) := by
  induction l with
  | nil => intro s _ _; rfl
  | cons i l ih =>
    intro s h0 hstep
    obtain ⟨hg, hI⟩ := hstep s i List.mem_cons_self h0
    rw [List.foldlM_cons, hg, List.foldl_cons]
    exact ih hI fun s j hj => hstep s j (List.mem_cons_of_mem _ hj)

/-- **No iteration fails** where the invariant `I` says so of each of them. -/
theorem forRangeM_eq_some {I : σ → Prop} {body : σ → BitVec w → σ} {checked : σ → BitVec w → Option σ}
    {first last : BitVec w} {s : σ} (h0 : I s)
    (hstep : ∀ s i, first.toNat ≤ i → i < last.toNat → I s →
      checked s (BitVec.ofNat w i) = some (body s (BitVec.ofNat w i)) ∧ I (body s (BitVec.ofNat w i))) :
    forRangeM checked first last s = some (forRange body first last s) := by
  rw [forRange, forRangeM, forRangeM, foldlM_id]
  apply foldlM_eq_some h0
  intro s i hi
  rw [List.mem_range'_1] at hi
  exact hstep s i hi.1 (by omega)

/-- **Pointwise rule.** If iteration `i` changes only entry `i` of a table read off
the state, and changes it by `g`, the loop applies `g` once to every entry in
the range. -/
theorem forRange_pointwise {β : Type*} (view : σ → ℕ → β) {g : ℕ → β → β} (body : σ → BitVec w → σ)
    (hbody : ∀ s i j, view (body s i) j = if j = i.toNat then g j (view s j) else view s j)
    (first last : BitVec w) (s : σ) (j : ℕ) :
    view (forRange body first last s) j =
      if first.toNat ≤ j ∧ j < last.toNat then g j (view s j) else view s j := by
  have h := forRange_inv body first last (s := s)
    (I := fun i t => view t j = if first.toNat ≤ j ∧ j < i then g j (view s j) else view s j)
    (by rw [if_neg (by omega)])
    (by
      intro i t h1 h2 ht
      have hi : (BitVec.ofNat w i).toNat = i := by
        have := last.isLt
        rw [BitVec.toNat_ofNat, Nat.mod_eq_of_lt (by omega)]
      rw [hbody, hi, ht]
      by_cases hj : j = i
      · rw [if_pos hj, if_neg (by omega), if_pos (by omega)]
      · rw [if_neg hj]
        by_cases hr : first.toNat ≤ j ∧ j < i
        · rw [if_pos hr, if_pos (by omega)]
        · rw [if_neg hr, if_neg (by omega)])
  rw [h]
  by_cases hr : first.toNat ≤ j ∧ j < last.toNat
  · rw [if_pos hr, if_pos (by omega)]
  · rw [if_neg hr, if_neg (by omega)]

theorem fill_of_mem {a : ℕ → α} {lo hi : ℕ} {f : ℕ → α} {i : ℕ} (h1 : lo ≤ i) (h2 : i < hi) :
    fill a lo hi f i = f i := if_pos ⟨h1, h2⟩

theorem fill_of_not_mem {a : ℕ → α} {lo hi : ℕ} {f : ℕ → α} {i : ℕ} (h : ¬(lo ≤ i ∧ i < hi)) :
    fill a lo hi f i = a i := if_neg h

/-! ## Loops over a list -/

/-- A loop that sets an entry for each index of a list. -/
theorem foldl_update_apply {β ι : Type*} [DecidableEq ι] (key : β → ι) (value : β → α)
    (hkey : Function.Injective key) (l : List β) (f : ι → α) (i : ι) :
    (∀ b ∈ l, key b = i → l.foldl (fun f b => Function.update f (key b) (value b)) f i = value b) ∧
      ((∀ b ∈ l, key b ≠ i) → l.foldl (fun f b => Function.update f (key b) (value b)) f i = f i) := by
  induction l generalizing f with
  | nil => simp
  | cons c l ih =>
    obtain ⟨hset, hkeep⟩ := ih (Function.update f (key c) (value c))
    rw [List.foldl_cons]
    constructor
    · intro b hb hbi
      by_cases hmem : b ∈ l
      · exact hset b hmem hbi
      · -- the last entry set for `i` is this one
        obtain rfl : b = c := (List.mem_cons.1 hb).resolve_right hmem
        rw [hkeep, ← hbi, Function.update_self]
        intro b' hb' he
        exact hmem (hkey (he.trans hbi.symm) ▸ hb')
    · intro hne
      rw [hkeep fun b hb => hne b (List.mem_cons_of_mem _ hb),
        Function.update_of_ne (hne c List.mem_cons_self).symm]

/-! ## Loops without a counter -/

/-- `for (;;)` from a state ends: `body` fails, breaks (`true`) or goes on. -/
inductive Ends (body : σ → Option (Bool × σ)) : σ → Option σ → Prop
  | fail {s : σ} : body s = none → Ends body s none
  | stop {s s' : σ} : body s = some (true, s') → Ends body s (some s')
  | next {s s' : σ} {r : Option σ} : body s = some (false, s') → Ends body s' r → Ends body s r

theorem Ends.unique {body : σ → Option (Bool × σ)} {s : σ} {r r' : Option σ} (h : Ends body s r)
    (h' : Ends body s r') : r = r' := by
  induction h with
  | fail hbody => cases h' <;> simp_all
  | stop hbody => cases h' <;> simp_all
  | next hbody _ ih =>
    cases h' with
    | fail hbody' => simp [hbody] at hbody'
    | stop hbody' => simp [hbody] at hbody'
    | next hbody' hrest =>
      obtain rfl : _ = _ := (Prod.mk.inj (Option.some.inj (hbody.symm.trans hbody'))).2
      exact ih hrest

end Machine
