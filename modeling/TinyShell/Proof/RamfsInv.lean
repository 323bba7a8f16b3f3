import TinyShell.Proof.Ramfs

/-!
# Reachable states of the RAM file system

Every reachable state is `ramfsOf T` for some table of files, so nothing in the slots
depends on what was there before.

* `ramfsRun_table`: the representation after every run.
* `validate_table`: `ramfs_validate` accepts it.
* `ramfs_invariant`: the invariant of all reachable states, and that the files determine
  the state.
-/

namespace TinyShell

open Machine

variable {T : FileTable} {i : Fin ramfsMaxFiles} {n : FileName} {v : Content}

/-- **Run lemma**: every reachable state represents a table. -/
theorem ramfsRun_table (calls : List RamfsCall) :
    ∃ T : FileTable, exec ramfsStep ramfsInit calls = ramfsOf T := by
  refine exec_inv (I := fun s => ∃ T : FileTable, s = ramfsOf T) ?_ ⟨Table.empty, ramfsInit_eq⟩ calls
  rintro s call ⟨T, rfl⟩
  cases call with
  | init => exact ⟨Table.empty, ramfsInit_eq⟩
  | file call =>
    obtain ⟨-, T', hs, -⟩ := fileStep_sim ⟨T, rfl, rfl⟩ call
    exact ⟨T', hs⟩

/-! ## Validation -/

/-- The scan counts the files in the slots that are left. -/
theorem validateScan_table (l : List (Fin ramfsMaxFiles)) (hl : l.Nodup) (k : ℕ) :
    validateScan (ramfsOf T) l (word k) = some (word (k + l.countP fun i => (T.slot i).isSome)) := by
  induction l generalizing k with
  | nil => rfl
  | cons i l ih =>
    rw [List.nodup_cons] at hl
    unfold validateScan
    simp only
    cases hi : T.slot i with
    | none =>
      have hslot : (ramfsOf T).slots i = clearSlot := congrArg slotOf hi
      simp only [hslot, clearSlot]
      simp [ih hl.2, hi]
    | some file =>
      obtain ⟨n, v⟩ := file
      have hslot := ramfsOf_slot hi
      have hname : nameIsValid (some (memoryOf (slotOf (some (n, v))).name)) = true := by
        rw [nameIsValid_eq, fileName_slotOf]
        rfl
      have hlength : ¬(slotOf (some (n, v))).length.toNat > ramfsFileMaxBytes := by
        rw [slotOf, toNat_word (v.property.trans_lt (by decide))]
        exact Nat.not_lt.2 v.property
      -- no slot behind has the same name
      have hother : (l.any fun other => ((ramfsOf T).slots other).alive &&
          namesEqual (memoryOf (slotOf (some (n, v))).name) (memoryOf ((ramfsOf T).slots other).name)) =
            false := by
        rw [List.any_eq_false]
        intro j hj hsame
        obtain ⟨halive, hsame⟩ := Bool.and_eq_true_iff.1 hsame
        cases hfile : T.slot j with
        | none =>
          have hdead : (ramfsOf T).slots j = clearSlot := congrArg slotOf hfile
          rw [hdead] at halive
          exact Bool.false_ne_true halive
        | some file =>
          obtain ⟨m, w⟩ := file
          rw [ramfsOf_slot hfile, namesEqual_slotOf (fileName_slotOf m w)] at hsame
          subst hsame
          exact hl.1 (T.distinct i j n v w hi hfile ▸ hj)
      simp only [hslot, hname, hother, decide_eq_false hlength]
      have halive : (slotOf (some (n, v))).alive = true := rfl
      simp only [halive, Bool.not_true, Bool.false_eq_true, if_false, Bool.or_self]
      rw [← word_succ, ih hl.2, List.countP_cons_of_pos (by simp [hi])]
      congr 2
      omega

theorem validate_table (T : FileTable) : ramfsValidate (ramfsOf T) = true := by
  have hused : (word T.used).toNat = T.used := toNat_word (Table.used_le.trans_lt (by decide))
  have hscan := validateScan_table (T := T) (List.finRange ramfsMaxFiles) (List.nodup_finRange _) 0
  rw [Nat.zero_add, ← Table.used_eq_countP] at hscan
  unfold ramfsValidate
  rw [if_neg (by rw [ramfsOf, hused]; exact Nat.not_lt.2 Table.used_le)]
  rw [show (0 : U32) = word 0 from rfl, hscan]
  simp [ramfsOf]

/-! ## The invariant -/

/-- The file in a slot, as it stands there. -/
def fileAt (s : Ramfs) (i : Fin ramfsMaxFiles) : Option (List U8 × List U8) :=
  if (s.slots i).alive then
    some (cString 32 (memoryOf (s.slots i).name), bytesAt (memoryOf (s.slots i).data) (s.slots i).length.toNat)
  else none

structure RamfsInvariant (s : Ramfs) : Prop where
  valid : ramfsValidate s = true
  /-- Behind the terminator of a name there are only zeros. -/
  nameTail : ∀ i, (s.slots i).alive = true → ∀ j k, (s.slots i).name j = 0#8 → j ≤ k → (s.slots i).name k = 0#8
  /-- Behind the data of a file there are only zeros. -/
  dataTail : ∀ i, (s.slots i).alive = true → ∀ j, (s.slots i).length.toNat ≤ j.val → (s.slots i).data j = 0#8
  dead : ∀ i, (s.slots i).alive = false → s.slots i = clearSlot
  count : s.liveFileCount = word (Finset.univ.filter fun i => (s.slots i).alive).card
  /-- An append leaves what a write of the old content followed by the new bytes leaves. -/
  append_eq_write : ∀ pointer data length, (ramfsAppend s (some pointer) data length).1 = .ok →
    ∃ i, findSlot s pointer = some i ∧ ∀ joined,
      bytesAt joined ((s.slots i).length + length).toNat =
          bytesAt (memoryOf (s.slots i).data) (s.slots i).length.toNat ++ given data length →
      ramfsWrite s (some pointer) (some joined) ((s.slots i).length + length) =
        ramfsAppend s (some pointer) data length

theorem bytesAt_slotOf (n : FileName) (v : Content) :
    bytesAt (memoryOf (slotOf (some (n, v))).data) (slotOf (some (n, v))).length.toNat = v.val := by
  rw [slotOf, toNat_word (v.property.trans_lt (by decide)), memoryOf_padded v.property, bytesAt_getD]

theorem fileAt_table (T : FileTable) (i : Fin ramfsMaxFiles) :
    fileAt (ramfsOf T) i = (T.slot i).map fun file => (file.1.val, file.2.val) := by
  unfold fileAt
  cases hi : T.slot i with
  | none =>
    have hslot : (ramfsOf T).slots i = clearSlot := congrArg slotOf hi
    rw [hslot]
    rfl
  | some file =>
    obtain ⟨n, v⟩ := file
    rw [ramfsOf_slot hi, bytesAt_slotOf, fileName_eq_some.1 (fileName_slotOf n v)]
    rfl

/-- A slot is alive exactly when there is a file in it. -/
theorem alive_table (T : FileTable) (i : Fin ramfsMaxFiles) :
    ((ramfsOf T).slots i).alive = (T.slot i).isSome := by
  cases hi : T.slot i with
  | none =>
    have hslot : (ramfsOf T).slots i = clearSlot := congrArg slotOf hi
    rw [hslot]
    rfl
  | some file =>
    rw [ramfsOf_slot hi]
    rfl

theorem append_table {pointer : ℕ → U8} {data : Option (ℕ → U8)} {length : U32}
    (h : (ramfsAppend (ramfsOf T) (some pointer) data length).1 = .ok) :
    ∃ i, findSlot (ramfsOf T) pointer = some i ∧ ∀ joined,
      bytesAt joined (((ramfsOf T).slots i).length + length).toNat =
          bytesAt (memoryOf ((ramfsOf T).slots i).data) ((ramfsOf T).slots i).length.toNat ++ given data length →
      ramfsWrite (ramfsOf T) (some pointer) (some joined) (((ramfsOf T).slots i).length + length) =
        ramfsAppend (ramfsOf T) (some pointer) data length := by
  have hnull : ¬(data = none ∧ length ≠ 0#32) := by
    intro hnull
    rw [ramfsAppend, if_pos (by simpa using hnull)] at h
    exact absurd h (by simp)
  cases hname : fileName pointer with
  | none =>
    simp only [ramfsAppend, nameIsValid_eq, hname] at h
    rw [if_neg (by simpa using hnull)] at h
    simp at h
  | some n =>
    cases hfind : findSlot (ramfsOf T) pointer with
    | none =>
      simp only [ramfsAppend, nameIsValid_eq, hname, hfind] at h
      rw [if_neg (by simpa using hnull)] at h
      simp at h
    | some i =>
      obtain ⟨v, hslot, -⟩ := findSlot_some hname hfind
      refine ⟨i, rfl, fun joined hjoined => ?_⟩
      rw [ramfsOf_slot hslot, bytesAt_slotOf] at hjoined
      have hgiven : given (some joined) ((slotOf (some (n, v))).length + length) = v.val ++ given data length :=
        hjoined
      rw [ramfsAppend_found hname hfind hslot data length hnull, ramfsOf_slot hslot,
        ramfsWrite_found hname hfind hslot (some joined) _ (by simp)]
      simp only [hgiven]

theorem invariant_table (T : FileTable) : RamfsInvariant (ramfsOf T) where
  valid := validate_table T
  nameTail i halive j k hj hjk := by
    rw [alive_table, Option.isSome_iff_exists] at halive
    obtain ⟨⟨n, v⟩, hi⟩ := halive
    rw [ramfsOf_slot hi] at hj ⊢
    have hend : n.val.length ≤ j.val := by
      by_contra hlt
      have hcell : n.val.getD j.val 0#8 = 0#8 := hj
      rw [List.getD_eq_getElem _ _ (by omega)] at hcell
      exact n.property.zero_notMem (hcell ▸ List.getElem_mem _)
    exact List.getD_eq_default _ _ (hend.trans hjk)
  dataTail i halive j hj := by
    rw [alive_table, Option.isSome_iff_exists] at halive
    obtain ⟨⟨n, v⟩, hi⟩ := halive
    rw [ramfsOf_slot hi] at hj ⊢
    rw [slotOf, toNat_word (v.property.trans_lt (by decide))] at hj
    exact List.getD_eq_default _ _ hj
  dead i hdead := by
    rw [alive_table, Option.isSome_eq_false_iff, Option.isNone_iff_eq_none] at hdead
    exact congrArg slotOf hdead
  count := by
    simp only [alive_table]
    rfl
  append_eq_write _ _ _ h := append_table h

/-- A table is determined by the names and contents in its slots. -/
theorem table_ext {T T' : FileTable} (h : ∀ i, fileAt (ramfsOf T) i = fileAt (ramfsOf T') i) : T = T' := by
  have hslot : T.slot = T'.slot := by
    funext i
    have hi := h i
    rw [fileAt_table, fileAt_table] at hi
    refine Option.map_injective ?_ hi
    rintro ⟨n, v⟩ ⟨n', v'⟩ hfile
    obtain ⟨hn, hv⟩ := Prod.mk.inj hfile
    exact Prod.ext (Subtype.ext hn) (Subtype.ext hv)
  cases T
  cases T'
  simp only at hslot
  subst hslot
  rfl

/-- **Reachable states**: the invariant holds, and which slot holds which file determines
everything else. -/
theorem ramfs_invariant (calls calls' : List RamfsCall) :
    RamfsInvariant (exec ramfsStep ramfsInit calls) ∧
      ((∀ i, fileAt (exec ramfsStep ramfsInit calls) i = fileAt (exec ramfsStep ramfsInit calls') i) →
        exec ramfsStep ramfsInit calls = exec ramfsStep ramfsInit calls') := by
  obtain ⟨T, hT⟩ := ramfsRun_table calls
  obtain ⟨T', hT'⟩ := ramfsRun_table calls'
  rw [hT, hT']
  exact ⟨invariant_table T, fun hfiles => congrArg ramfsOf (table_ext hfiles)⟩

end TinyShell
