import Mathlib

/-!
# Tokens

`tokens p l` are the maximal runs of elements of `l` that are not separators, where `p`
says what a separator is.

* `tokens_cases`: the first token and what is left behind it.
* `mem_tokens`: no token is empty or holds a separator.
* `tokens_intercalate`: tokens that are joined by one separator are read back.
-/

namespace Machine

variable {α : Type*} {p : α → Bool}

/-- The maximal runs of elements that are not separators. -/
def tokens (p : α → Bool) (l : List α) : List (List α) := (l.splitOnP p).filter fun w => !w.isEmpty

theorem tokens_separator {x : α} (hx : p x = true) (l : List α) : tokens p (x :: l) = tokens p l := by
  rw [tokens, List.splitOnP_cons_eq_if_modifyHead, if_pos hx, List.filter_cons_of_neg (by simp)]
  rfl

theorem tokens_dropWhile (p : α → Bool) (l : List α) : tokens p (l.dropWhile p) = tokens p l := by
  induction l with
  | nil => rfl
  | cons x l ih =>
    by_cases hx : p x = true
    · rw [List.dropWhile_cons_of_pos hx, ih, tokens_separator hx]
    · rw [List.dropWhile_cons_of_neg hx]

/-- What stops a run is a separator. -/
theorem separator_of_stop {s : α} {rest : List α} (h : (s :: rest).dropWhile (!p ·) = s :: rest) :
    p s = true := by
  by_contra hs
  rw [List.dropWhile_cons_of_pos (by simpa using hs)] at h
  have hlen := (List.dropWhile_sublist (fun x => !p x) (l := rest)).length_le
  rw [h, List.length_cons] at hlen
  omega

/-- A run up to a separator or the end is the first token. -/
theorem tokens_run {w rest : List α} (hne : w ≠ []) (hw : ∀ x ∈ w, p x = false)
    (hrest : rest.dropWhile (!p ·) = rest) : tokens p (w ++ rest) = w :: tokens p rest := by
  cases rest with
  | nil =>
    rw [List.append_nil, tokens, List.splitOnP_eq_singleton hw, List.filter_cons_of_pos (by simpa using hne)]
    rfl
  | cons s rest =>
    have hs := separator_of_stop hrest
    rw [tokens_separator hs, tokens, List.splitOnP_append_cons_of_forall_mem hw s hs,
      List.filter_cons_of_pos (by simpa using hne)]
    rfl

/-- There is no token, or there is a first one behind the separators. -/
theorem tokens_cases (p : α → Bool) (l : List α) :
    (l.dropWhile p = [] ∧ tokens p l = []) ∨
      ∃ w rest, l.dropWhile p = w ++ rest ∧ w ≠ [] ∧ (∀ x ∈ w, p x = false) ∧
        rest.dropWhile (!p ·) = rest ∧ tokens p l = w :: tokens p rest := by
  rw [← tokens_dropWhile p l]
  rcases hl : l.dropWhile p with _ | ⟨x, l'⟩
  · exact .inl ⟨rfl, rfl⟩
  · right
    have hx : p x = false := by
      have := List.head_dropWhile_not p (l := l) (by simp [hl])
      simpa [hl] using this
    have hsplit : x :: l' = (x :: l').takeWhile (!p ·) ++ (x :: l').dropWhile (!p ·) :=
      List.takeWhile_append_dropWhile.symm
    have hne : (x :: l').takeWhile (!p ·) ≠ [] := by simp [hx]
    have hword : ∀ y ∈ (x :: l').takeWhile (!p ·), p y = false := fun y hy => by
      simpa using List.mem_takeWhile_imp hy
    have hstop : ((x :: l').dropWhile (!p ·)).dropWhile (!p ·) = (x :: l').dropWhile (!p ·) :=
      List.dropWhile_idempotent _ _
    refine ⟨_, _, hsplit, hne, hword, hstop, ?_⟩
    conv_lhs => rw [hsplit]
    exact tokens_run hne hword hstop

/-- No token is empty or holds a separator, and all its elements are of the list. -/
theorem mem_tokens {l w : List α} (h : w ∈ tokens p l) : w ≠ [] ∧ (∀ x ∈ w, p x = false) ∧ ∀ x ∈ w, x ∈ l := by
  -- on the length: behind the first token there is less left
  induction hn : l.length using Nat.strong_induction_on generalizing l with
  | _ n ih =>
    obtain ⟨-, hnil⟩ | ⟨v, rest, hl, hne, hv, -, htokens⟩ := tokens_cases p l
    · rw [hnil] at h
      exact absurd h List.not_mem_nil
    · have hsub : (v ++ rest).Sublist l := hl ▸ List.dropWhile_sublist p
      have hlen := hsub.length_le
      rw [List.length_append] at hlen
      have hpos := List.length_pos_of_ne_nil hne
      rw [htokens] at h
      rcases List.mem_cons.1 h with rfl | h
      · exact ⟨hne, hv, fun x hx => hsub.subset (List.mem_append_left _ hx)⟩
      · obtain ⟨h1, h2, h3⟩ := ih rest.length (by omega) h rfl
        exact ⟨h1, h2, fun x hx => hsub.subset (List.mem_append_right _ (h3 x hx))⟩

/-- Tokens joined by a separator are the tokens of the joined text. -/
theorem tokens_intercalate {s : α} (hs : p s = true) {ws : List (List α)}
    (hws : ∀ w ∈ ws, w ≠ [] ∧ ∀ x ∈ w, p x = false) : tokens p ([s].intercalate ws) = ws := by
  induction ws with
  | nil => rfl
  | cons w ws ih =>
    rw [List.forall_mem_cons] at hws
    obtain ⟨⟨hne, hw⟩, hws⟩ := hws
    cases ws with
    | nil =>
      rw [show [s].intercalate [w] = w ++ [] by simp]
      exact tokens_run hne hw rfl
    | cons v ws =>
      have hjoin : [s].intercalate (w :: v :: ws) = w ++ s :: [s].intercalate (v :: ws) := by
        simp [List.intercalate]
      rw [hjoin, tokens_run hne hw (by rw [List.dropWhile_cons_of_neg (by simp [hs])]),
        tokens_separator hs, ih hws]

end Machine
