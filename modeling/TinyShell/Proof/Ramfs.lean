import TinyShell.Machine.Table
import TinyShell.Spec.Ramfs

/-!
# The RAM file system is a bounded map

A table of sixteen slots, each empty or with a file, has exactly one representation
`ramfsOf` in the code's variables, and every call takes such a state to another. What a
call does to the table is what the same call does to a map from valid names to contents.

* `nameIsValid_iff`, `namesEqual_iff`, `copyName_eq`: the scans read a name as a string.
* `fileStep_sim`: each call does to the map what `mapStep` says.
* `ramfs_refines_map`: the results of every run are those of the map.
-/

namespace TinyShell

open Machine

/-! ## Names -/

/-- 1 to 31 letters, digits, `.`, `_`, `-`, other than `.` and `..`. -/
structure ValidName (name : List U8) : Prop where
  pos : 1 ≤ name.length
  le : name.length ≤ ramfsNameMax
  allowed : ∀ character ∈ name, allowed character = true
  not_dot : name ≠ [0x2E#8]
  not_dots : name ≠ [0x2E#8, 0x2E#8]

instance (name : List U8) : Decidable (ValidName name) :=
  decidable_of_iff (1 ≤ name.length ∧ name.length ≤ ramfsNameMax ∧
    (∀ character ∈ name, allowed character = true) ∧
      name ≠ [0x2E#8] ∧ name ≠ [0x2E#8, 0x2E#8])
    ⟨fun ⟨a, b, c, d, e⟩ => ⟨a, b, c, d, e⟩, fun ⟨a, b, c, d, e⟩ => ⟨a, b, c, d, e⟩⟩

abbrev FileName := { name : List U8 // ValidName name }

abbrev Content := { content : List U8 // content.length ≤ ramfsFileMaxBytes }

theorem allowed_ne_zero {character : U8} (h : allowed character = true) : character ≠ 0#8 := by
  rintro rfl
  exact absurd h (by decide)

theorem ValidName.zero_notMem {name : List U8} (h : ValidName name) : 0#8 ∉ name :=
  fun h0 => allowed_ne_zero (h.allowed _ h0) rfl

/-- What the loop of `name_is_valid` still has to find. -/
theorem nameScan_iff (name : ℕ → U8) (fuel k : ℕ) :
    nameScan name fuel k = true ↔
      (cString fuel fun i => name (k + i)).length < fuel ∧
      (∀ character ∈ cString fuel fun i => name (k + i), allowed character = true) ∧
      k + (cString fuel fun i => name (k + i)).length ≠ 0 ∧
      ¬(k + (cString fuel fun i => name (k + i)).length = 1 ∧ name 0 = 0x2E#8) ∧
      ¬(k + (cString fuel fun i => name (k + i)).length = 2 ∧ name 0 = 0x2E#8 ∧ name 1 = 0x2E#8) := by
  induction fuel generalizing k with
  | zero => simp [nameScan, cString]
  | succ fuel ih =>
    rw [cString_step, nameScan]
    by_cases h0 : name k = 0#8
    · rw [if_pos h0, if_pos h0]
      split_ifs with h1 h2 h3
      · simp [h1]
      · simp_all
      · simp_all
      · simp_all
    · rw [if_neg h0, if_neg h0]
      cases hallowed : allowed (name k) with
      | false => simp [hallowed]
      | true =>
        have hlength : k + (cString fuel fun i => name (k + 1 + i)).length.succ =
            k + 1 + (cString fuel fun i => name (k + 1 + i)).length := by omega
        simp only [Bool.not_true, Bool.false_eq_true, if_false, ih, List.length_cons, List.mem_cons,
          forall_eq_or_imp, hallowed, true_and, Nat.add_lt_add_iff_right, hlength]

/-- `name_is_valid` accepts exactly the valid names. -/
theorem nameIsValid_iff (name : ℕ → U8) : nameIsValid (some name) = true ↔ ValidName (cString 32 name) := by
  have hscan := nameScan_iff name 32 0
  simp only [Nat.zero_add] at hscan
  have h0 : (cString 32 name).getD 0 0#8 = name 0 := getD_cString 32 name (Nat.zero_le _) (by decide)
  have h1 : 1 ≤ (cString 32 name).length → (cString 32 name).getD 1 0#8 = name 1 :=
    fun h => getD_cString 32 name h (by decide)
  rw [nameIsValid, hscan]
  generalize cString 32 name = l at *
  constructor
  · rintro ⟨hlt, hallowed, hpos, hdot, hdots⟩
    refine ⟨by omega, Nat.le_of_lt_succ hlt, hallowed, ?_, ?_⟩
    · rintro rfl
      exact hdot ⟨rfl, h0.symm⟩
    · rintro rfl
      exact hdots ⟨rfl, h0.symm, (h1 (by decide)).symm⟩
  · intro h
    refine ⟨Nat.lt_succ_of_le h.le, h.allowed, by have := h.pos; omega, ?_, ?_⟩
    · rintro ⟨hlength, hdot⟩
      obtain ⟨a, rfl⟩ := List.length_eq_one_iff.1 hlength
      exact h.not_dot (by rw [← hdot, ← h0]; rfl)
    · rintro ⟨hlength, hdot, hdot'⟩
      obtain ⟨a, b, rfl⟩ := List.length_eq_two.1 hlength
      have hb := h1 (by simp)
      refine h.not_dots ?_
      rw [show a = 0x2E#8 from h0.trans hdot, show b = 0x2E#8 from hb.trans hdot']

theorem namesScan_iff (left right : ℕ → U8) (fuel k : ℕ) :
    namesScan left right fuel k = true ↔
      (cString fuel fun i => left (k + i)) = (cString fuel fun i => right (k + i)) ∧
        (cString fuel fun i => left (k + i)).length < fuel := by
  induction fuel generalizing k with
  | zero => simp [namesScan, cString]
  | succ fuel ih =>
    rw [cString_step, cString_step, namesScan]
    by_cases hsame : left k = right k
    · rw [if_neg (by simpa using hsame), ← hsame]
      by_cases h0 : left k = 0#8
      · simp [h0]
      · simp [h0, ih]
    · rw [if_pos hsame]
      by_cases h0 : left k = 0#8 <;> by_cases h0' : right k = 0#8 <;> simp_all

/-- `names_equal` compares strings. -/
theorem namesEqual_iff (left right : ℕ → U8) :
    namesEqual left right = true ↔ cString 32 left = cString 32 right ∧ (cString 32 left).length < 32 := by
  have hscan := namesScan_iff left right 32 0
  simp only [Nat.zero_add] at hscan
  exact hscan

/-- The cells that the rest of the copy writes. -/
theorem copyName_apply (name : ℕ → U8) (fuel k : ℕ) (target : Fin 32 → U8) (hk : k + fuel = 32)
    (hzero : ∀ j : Fin 32, k ≤ j.val → target j = 0#8) (j : Fin 32) :
    copyName name fuel k target j =
      if j.val < k then target j else (cString fuel fun i => name (k + i)).getD (j.val - k) 0#8 := by
  induction fuel generalizing k target with
  | zero =>
    rw [if_pos (by omega)]
    rfl
  | succ fuel ih =>
    have hstored : ∀ i : Fin 32, k + 1 ≤ i.val → store target k (name k) i = 0#8 := by
      intro i hi
      rw [store, if_neg (by omega), hzero i (by omega)]
    rw [cString_step, copyName]
    by_cases h0 : name k = 0#8
    · simp only [h0, if_true, store]
      split_ifs with hj hlt
      · omega
      · simp
      · rfl
      · simpa using hzero j (by omega)
    · rw [if_neg h0, if_neg h0, ih (k + 1) _ (by omega) hstored]
      by_cases hlt : j.val < k
      · rw [if_pos (by omega), if_pos hlt, store, if_neg (by omega)]
      · rw [if_neg hlt]
        by_cases heq : j.val = k
        · rw [if_pos (by omega), store, if_pos heq, heq, Nat.sub_self, List.getD_cons_zero]
        · have hsub : j.val - k = j.val - (k + 1) + 1 := by omega
          rw [if_neg (by omega), hsub, List.getD_cons_succ]

/-- `ramfs_create` leaves the name and zeros behind it. -/
theorem copyName_eq (name : ℕ → U8) : copyName name 32 0 (fun _ => 0#8) = padded 32 (cString 32 name) := by
  funext j
  rw [copyName_apply name 32 0 _ rfl (fun _ _ => rfl) j, if_neg (by omega)]
  simp only [Nat.zero_add, Nat.sub_zero]
  rfl

/-! ## The abstract map -/

abbrev FileMap := BoundedMap FileName Content ramfsMaxFiles

/-- The valid name at a pointer, if there is one. -/
def fileName (name : ℕ → U8) : Option FileName :=
  if h : ValidName (cString 32 name) then some ⟨cString 32 name, h⟩ else none

/-- The bytes that a caller hands over. -/
def given (data : Option (ℕ → U8)) (length : U32) : List U8 := bytesAt (data.getD fun _ => 0#8) length.toNat

def emptyContent : Content := ⟨[], by simp⟩

/-- The bytes of an entry. -/
def FileMap.bytes (m : FileMap) (name : FileName) : List U8 := (m.lookup name).elim [] Subtype.val

/-- The entry gets new content, if that is not too large. -/
def FileMap.setContent (m : FileMap) (name : FileName) (content : List U8) (h : m.lookup name ≠ none) :
    FileAnswer × FileMap :=
  if hle : content.length ≤ ramfsFileMaxBytes then (.plain .ok, m.insert name ⟨content, hle⟩ (.inl h))
  else (.plain .tooLarge, m)

/-- One call of the abstract model. -/
def mapStep (m : FileMap) : FileCall → FileAnswer × FileMap
  | .create none => (.plain .invalidArgument, m)
  | .create (some pointer) =>
    match fileName pointer with
    | none => (.plain .invalidName, m)
    | some name =>
      if m.lookup name ≠ none then (.plain .alreadyExists, m)
      else if h : m.keys.card < ramfsMaxFiles then (.plain .ok, m.insert name emptyContent (.inr h))
      else (.plain .noSpace, m)
  | .write none _ _ => (.plain .invalidArgument, m)
  | .write (some pointer) data length =>
    if data = none ∧ length ≠ 0#32 then (.plain .invalidArgument, m)
    else
      match fileName pointer with
      | none => (.plain .invalidName, m)
      | some name =>
        if h : m.lookup name = none then (.plain .notFound, m) else m.setContent name (given data length) h
  | .append none _ _ => (.plain .invalidArgument, m)
  | .append (some pointer) data length =>
    if data = none ∧ length ≠ 0#32 then (.plain .invalidArgument, m)
    else
      match fileName pointer with
      | none => (.plain .invalidName, m)
      | some name =>
        if h : m.lookup name = none then (.plain .notFound, m)
        else m.setContent name (m.bytes name ++ given data length) h
  | .read (some pointer) data capacity (some length) =>
    match fileName pointer with
    | none => (⟨.invalidName, data, some length⟩, m)
    | some name =>
      match m.lookup name with
      | none => (⟨.notFound, data, some length⟩, m)
      | some content =>
        if data = none ∧ (content.val ≠ [] ∨ capacity ≠ 0#32) then (⟨.invalidArgument, data, some length⟩, m)
        else if capacity.toNat < content.val.length then (⟨.tooLarge, data, some length⟩, m)
        else
          (⟨.ok, data.map fun data i => if i < content.val.length then content.val.getD i 0#8 else data i,
            some (word content.val.length)⟩, m)
  | .read _ data _ length => (⟨.invalidArgument, data, length⟩, m)
  | .remove none => (.plain .invalidArgument, m)
  | .remove (some pointer) =>
    match fileName pointer with
    | none => (.plain .invalidName, m)
    | some name => if m.lookup name = none then (.plain .notFound, m) else (.plain .ok, m.erase name)

/-! ## The representation -/

abbrev FileTable := Table FileName Content ramfsMaxFiles

def slotOf : Option (FileName × Content) → RamfsSlot
  | none => clearSlot
  | some (name, content) => ⟨true, padded _ name.val, padded _ content.val, word content.val.length⟩

def ramfsOf (T : FileTable) : Ramfs := ⟨fun i => slotOf (T.slot i), word T.used⟩

variable {T : FileTable} {i : Fin ramfsMaxFiles} {n : FileName} {v : Content}

theorem ramfsOf_slot (h : T.slot i = some (n, v)) :
    (ramfsOf T).slots i = slotOf (some (n, v)) := congrArg slotOf h

theorem fileName_eq_some {pointer : ℕ → U8} : fileName pointer = some n ↔ cString 32 pointer = n.val := by
  unfold fileName
  constructor
  · intro h
    split_ifs at h
    rw [← Option.some.inj h]
  · intro h
    rw [dif_pos (h ▸ n.property)]
    exact congrArg some (Subtype.ext h)

theorem nameIsValid_eq (pointer : ℕ → U8) : nameIsValid (some pointer) = (fileName pointer).isSome := by
  rw [Bool.eq_iff_iff, nameIsValid_iff, fileName]
  split_ifs with h <;> simp [h]

/-- A slot that holds a file has its name. -/
theorem fileName_slotOf (m : FileName) (v : Content) : fileName (memoryOf (slotOf (some (m, v))).name) = some m :=
  fileName_eq_some.2 (cString_padded m.property.zero_notMem (m.property.le.trans (Nat.le_succ _)))

theorem namesEqual_slotOf {pointer : ℕ → U8} (h : fileName pointer = some n) (m : FileName) (v : Content) :
    namesEqual (memoryOf (slotOf (some (m, v))).name) pointer = true ↔ m = n := by
  rw [namesEqual_iff, fileName_eq_some.1 (fileName_slotOf m v), fileName_eq_some.1 h, Subtype.ext_iff]
  exact and_iff_left (Nat.lt_succ_of_le m.property.le)

/-- `find_slot` goes through the files of the table in the order of their slots. -/
theorem findSlot_table {pointer : ℕ → U8} {named : FileName → Bool}
    (h : ∀ m v, namesEqual (memoryOf (slotOf (some (m, v))).name) pointer = named m) :
    findSlot (ramfsOf T) pointer =
      (List.finRange ramfsMaxFiles).find? fun i => (T.slot i).any fun file => named file.1 := by
  refine List.find?_congr ?_
  intro i _
  cases hi : T.slot i with
  | none => simp [ramfsOf, hi, slotOf, clearSlot]
  | some file =>
    obtain ⟨m, v⟩ := file
    rw [ramfsOf_slot hi, h]
    simp [slotOf]

/-- The search for a name finds the slot of the file. -/
theorem findSlot_eq {pointer : ℕ → U8} (h : fileName pointer = some n) :
    findSlot (ramfsOf T) pointer = T.find n := by
  have hnamed : ∀ m v, namesEqual (memoryOf (slotOf (some (m, v))).name) pointer = decide (m = n) := by
    intro m v
    rw [Bool.eq_iff_iff, decide_eq_true_iff, namesEqual_slotOf h]
  rw [findSlot_table hnamed, Table.find]
  simp only [Table.any_slot]

theorem findEmptySlot_eq : findEmptySlot (ramfsOf T) = T.free := by
  refine List.find?_congr ?_
  intro i _
  cases hi : T.slot i <;> simp [ramfsOf, hi, slotOf, clearSlot]

theorem slotOf_update (file : Option (FileName × Content)) :
    (fun j => slotOf (Function.update T.slot i file j)) = Function.update (ramfsOf T).slots i (slotOf file) := by
  funext j
  by_cases hj : j = i
  · subst hj
    simp
  · simp [Function.update_of_ne hj, ramfsOf]

theorem ramfsOf_put (h : ∀ j w, T.slot j = some (n, w) → j = i) :
    ramfsOf (T.put i n v h) =
      ⟨Function.update (ramfsOf T).slots i (slotOf (some (n, v))),
        if T.slot i = none then (ramfsOf T).liveFileCount + 1 else (ramfsOf T).liveFileCount⟩ := by
  rw [ramfsOf, Table.put_slot, slotOf_update, Table.used_put]
  congr 1
  split_ifs
  · exact word_succ T.used
  · rfl

theorem ramfsOf_remove (h : T.slot i ≠ none) :
    ramfsOf (T.remove i) = ⟨Function.update (ramfsOf T).slots i clearSlot, (ramfsOf T).liveFileCount - 1⟩ := by
  have hused : word T.used = word (T.remove i).used + 1 := by
    rw [← word_succ, Table.used_remove h]
  have hcount : (ramfsOf T).liveFileCount - 1 = word (T.remove i).used := by
    rw [ramfsOf, hused]
    ring
  rw [hcount, ramfsOf, Table.remove_slot, slotOf_update]
  rfl

/-! ## Each call -/

/-- The code's variables represent the map. -/
def RamfsRep (s : Ramfs) (m : FileMap) : Prop := ∃ T : FileTable, s = ramfsOf T ∧ T.toMap = m

/-- A call answers as the map does and leaves what the map does. -/
def CallSim (s : Ramfs) (m : FileMap) (call : FileCall) : Prop :=
  (fileStep s call).1 = (mapStep m call).1 ∧ RamfsRep (fileStep s call).2 (mapStep m call).2

theorem findSlot_none {pointer : ℕ → U8} (h : fileName pointer = some n) :
    findSlot (ramfsOf T) pointer = none ↔ T.toMap.lookup n = none := by
  rw [findSlot_eq h]
  exact Table.lookup_eq_none.symm

theorem findSlot_some {pointer : ℕ → U8} (h : fileName pointer = some n)
    (hi : findSlot (ramfsOf T) pointer = some i) :
    ∃ v, T.slot i = some (n, v) ∧ T.toMap.lookup n = some v := by
  rw [findSlot_eq h] at hi
  obtain ⟨v, hv⟩ := Table.find_eq_some.1 hi
  exact ⟨v, hv, Table.lookup_eq_some.2 ⟨i, hv⟩⟩

/-- New content for a file that exists. -/
theorem setContent_sim (hi : T.slot i = some (n, v)) (content : Content) (h : T.toMap.lookup n ≠ none) :
    RamfsRep { ramfsOf T with slots := Function.update (ramfsOf T).slots i (slotOf (some (n, content))) }
      (T.toMap.insert n content (.inl h)) := by
  refine ⟨T.put i n content fun j w hj => T.distinct j i n w v hj hi, ?_, ?_⟩
  · rw [ramfsOf_put, if_neg (by simp [hi])]
  · exact Table.toMap_put _ (.inr ⟨v, hi⟩) _

theorem ramfsCreate_sim (T : FileTable) (name : Option (ℕ → U8)) :
    CallSim (ramfsOf T) T.toMap (.create name) := by
  cases name with
  | none => exact ⟨rfl, T, rfl, rfl⟩
  | some pointer =>
    unfold CallSim
    simp only [fileStep, ramfsCreate, mapStep, nameIsValid_eq]
    cases hname : fileName pointer with
    | none => exact ⟨rfl, T, rfl, rfl⟩
    | some n =>
      simp only [Option.isSome_some, Bool.not_true, Bool.false_eq_true, if_false]
      cases hfind : findSlot (ramfsOf T) pointer with
      | some i =>
        obtain ⟨v, -, hlookup⟩ := findSlot_some hname hfind
        simp only [Option.isSome_some, if_true, hlookup, ne_eq, reduceCtorEq, not_false_eq_true]
        exact ⟨trivial, T, rfl, rfl⟩
      | none =>
        have hlookup := (findSlot_none hname).1 hfind
        simp only [Option.isSome_none, Bool.false_eq_true, if_false, hlookup, ne_eq, not_true_eq_false,
          findEmptySlot_eq]
        cases hfree : T.free with
        | none =>
          rw [dif_neg (Table.toMap_full.1 hfree)]
          exact ⟨rfl, T, rfl, rfl⟩
        | some i =>
          have hroom : T.toMap.keys.card < ramfsMaxFiles := by
            by_contra hfull
            simp [Table.toMap_full.2 hfull] at hfree
          have hslot := Table.free_slot hfree
          have hnew : ∀ j w, T.slot j = some (n, w) → j = i :=
            fun j w hj =>
              absurd (Table.lookup_eq_some.2 ⟨j, hj⟩) (by rw [show T.lookup n = none from hlookup]; nofun)
          rw [dif_pos hroom]
          refine ⟨rfl, T.put i n emptyContent hnew, ?_, Table.toMap_put hnew (.inl hslot) (.inr hroom)⟩
          rw [ramfsOf_put, if_pos hslot]
          have hnamed : slotOf (some (n, emptyContent)) =
              { clearSlot with name := copyName pointer (ramfsNameMax + 1) 0 clearSlot.name, alive := true } := by
            have hcopy : copyName pointer 32 0 clearSlot.name = padded 32 n.val := by
              rw [← fileName_eq_some.1 hname]
              exact copyName_eq pointer
            rw [hcopy]
            rfl
          rw [hnamed]

/-- The slot after a write. -/
theorem slotOf_written (hslot : T.slot i = some (n, v)) (data : Option (ℕ → U8)) (length : U32)
    (hle : (given data length).length ≤ ramfsFileMaxBytes) :
    { (ramfsOf T).slots i with
        data := fun index => if index.val < length.toNat then (data.getD fun _ => 0#8) index.val else 0#8
        length := length } = slotOf (some (n, ⟨given data length, hle⟩)) := by
  rw [ramfsOf_slot hslot]
  refine RamfsSlot.ext rfl rfl ?_ ?_
  · funext index
    exact (getD_bytesAt _ _ _).symm
  · simp [slotOf, given]

/-- `ramfs_write` to a file that exists. -/
theorem ramfsWrite_found {pointer : ℕ → U8} (hname : fileName pointer = some n)
    (hfind : findSlot (ramfsOf T) pointer = some i) (hslot : T.slot i = some (n, v)) (data : Option (ℕ → U8))
    (length : U32) (hgiven : ¬(data = none ∧ length ≠ 0#32)) :
    ramfsWrite (ramfsOf T) (some pointer) data length =
      if hle : (given data length).length ≤ ramfsFileMaxBytes then
        (.ok, { ramfsOf T with
          slots := Function.update (ramfsOf T).slots i (slotOf (some (n, ⟨given data length, hle⟩))) })
      else (.tooLarge, ramfsOf T) := by
  have hlength : (given data length).length = length.toNat := by simp [given]
  simp only [ramfsWrite, nameIsValid_eq, hname, hfind]
  rw [if_neg (by simpa using hgiven), if_neg (by simp)]
  by_cases hle : (given data length).length ≤ ramfsFileMaxBytes
  · rw [dif_pos hle, if_neg (by rw [← hlength]; exact Nat.not_lt.2 hle), slotOf_written hslot data length hle]
  · rw [dif_neg hle, if_pos (by rw [← hlength]; exact Nat.lt_of_not_le hle)]

theorem ramfsWrite_sim (T : FileTable) (name data : Option (ℕ → U8)) (length : U32) :
    CallSim (ramfsOf T) T.toMap (.write name data length) := by
  cases name with
  | none => exact ⟨rfl, T, rfl, rfl⟩
  | some pointer =>
    unfold CallSim
    simp only [fileStep, mapStep]
    by_cases hnull : data = none ∧ length ≠ 0#32
    · rw [if_pos hnull, ramfsWrite, if_pos (by simpa using hnull)]
      exact ⟨rfl, T, rfl, rfl⟩
    · rw [if_neg hnull]
      cases hname : fileName pointer with
      | none =>
        simp only [ramfsWrite, nameIsValid_eq, hname]
        rw [if_neg (by simpa using hnull)]
        exact ⟨rfl, T, rfl, rfl⟩
      | some n =>
        cases hfind : findSlot (ramfsOf T) pointer with
        | none =>
          simp only [ramfsWrite, nameIsValid_eq, hname, hfind]
          rw [dif_pos ((findSlot_none hname).1 hfind), if_neg (by simpa using hnull)]
          exact ⟨rfl, T, rfl, rfl⟩
        | some i =>
          obtain ⟨v, hslot, hlookup⟩ := findSlot_some hname hfind
          have hne : T.toMap.lookup n ≠ none := by simp [hlookup]
          simp only [dif_neg hne, FileMap.setContent, ramfsWrite_found hname hfind hslot data length hnull]
          split_ifs with hle
          · exact ⟨rfl, setContent_sim hslot _ hne⟩
          · exact ⟨rfl, T, rfl, rfl⟩

/-- The slot after an append. -/
theorem slotOf_appended (hslot : T.slot i = some (n, v)) (data : Option (ℕ → U8)) (length : U32)
    (hle : (v.val ++ given data length).length ≤ ramfsFileMaxBytes) :
    { (ramfsOf T).slots i with
        data := fun index =>
          if ((ramfsOf T).slots i).length.toNat ≤ index.val ∧
              index.val < ((ramfsOf T).slots i).length.toNat + length.toNat then
            (data.getD fun _ => 0#8) (index.val - ((ramfsOf T).slots i).length.toNat)
          else ((ramfsOf T).slots i).data index
        length := ((ramfsOf T).slots i).length + length } =
          slotOf (some (n, ⟨v.val ++ given data length, hle⟩)) := by
  have hv : v.val.length < 2 ^ 32 := v.property.trans_lt (by decide)
  rw [ramfsOf_slot hslot]
  refine RamfsSlot.ext rfl rfl ?_ ?_
  · funext index
    simp only [slotOf, padded, toNat_word hv]
    by_cases hold : index.val < v.val.length
    · rw [if_neg (by omega), List.getD_append _ _ _ _ hold]
    · rw [List.getD_append_right _ _ _ _ (by omega), given, getD_bytesAt]
      by_cases hnew : index.val - v.val.length < length.toNat
      · rw [if_pos (by omega), if_pos hnew]
      · rw [if_neg (by omega), if_neg hnew, List.getD_eq_default _ _ (by omega)]
  · simp [slotOf, given, BitVec.ofNat_add]

/-- The room that is left in a file, in words and in numbers. -/
theorem toNat_room {k : ℕ} (hk : k ≤ ramfsFileMaxBytes) :
    (word ramfsFileMaxBytes - word k).toNat = ramfsFileMaxBytes - k := by
  change k ≤ 512 at hk
  change (word 512 - word k).toNat = 512 - k
  bv_omega

/-- `ramfs_append` to a file that exists. -/
theorem ramfsAppend_found {pointer : ℕ → U8} (hname : fileName pointer = some n)
    (hfind : findSlot (ramfsOf T) pointer = some i) (hslot : T.slot i = some (n, v)) (data : Option (ℕ → U8))
    (length : U32) (hgiven : ¬(data = none ∧ length ≠ 0#32)) :
    ramfsAppend (ramfsOf T) (some pointer) data length =
      if hle : (v.val ++ given data length).length ≤ ramfsFileMaxBytes then
        (.ok, { ramfsOf T with
          slots := Function.update (ramfsOf T).slots i (slotOf (some (n, ⟨v.val ++ given data length, hle⟩))) })
      else (.tooLarge, ramfsOf T) := by
  have hroom : length.toNat > (word ramfsFileMaxBytes - ((ramfsOf T).slots i).length).toNat ↔
      ¬(v.val ++ given data length).length ≤ ramfsFileMaxBytes := by
    rw [ramfsOf_slot hslot, slotOf, toNat_room v.property, List.length_append]
    simp only [given, length_bytesAt]
    have := v.property
    omega
  simp only [ramfsAppend, nameIsValid_eq, hname, hfind]
  rw [if_neg (by simpa using hgiven), if_neg (by simp)]
  by_cases hle : (v.val ++ given data length).length ≤ ramfsFileMaxBytes
  · rw [dif_pos hle, if_neg (fun h => hroom.1 h hle), slotOf_appended hslot data length hle]
  · rw [dif_neg hle, if_pos (hroom.2 hle)]

theorem ramfsAppend_sim (T : FileTable) (name data : Option (ℕ → U8)) (length : U32) :
    CallSim (ramfsOf T) T.toMap (.append name data length) := by
  cases name with
  | none => exact ⟨rfl, T, rfl, rfl⟩
  | some pointer =>
    unfold CallSim
    simp only [fileStep, mapStep]
    by_cases hnull : data = none ∧ length ≠ 0#32
    · rw [if_pos hnull, ramfsAppend, if_pos (by simpa using hnull)]
      exact ⟨rfl, T, rfl, rfl⟩
    · rw [if_neg hnull]
      cases hname : fileName pointer with
      | none =>
        simp only [ramfsAppend, nameIsValid_eq, hname]
        rw [if_neg (by simpa using hnull)]
        exact ⟨rfl, T, rfl, rfl⟩
      | some n =>
        cases hfind : findSlot (ramfsOf T) pointer with
        | none =>
          simp only [ramfsAppend, nameIsValid_eq, hname, hfind]
          rw [dif_pos ((findSlot_none hname).1 hfind), if_neg (by simpa using hnull)]
          exact ⟨rfl, T, rfl, rfl⟩
        | some i =>
          obtain ⟨v, hslot, hlookup⟩ := findSlot_some hname hfind
          have hne : T.toMap.lookup n ≠ none := by simp [hlookup]
          have hbytes : FileMap.bytes T.toMap n = v.val := by rw [FileMap.bytes, hlookup]; rfl
          simp only [dif_neg hne, FileMap.setContent, hbytes,
            ramfsAppend_found hname hfind hslot data length hnull]
          split_ifs with hle
          · exact ⟨rfl, setContent_sim hslot _ hne⟩
          · exact ⟨rfl, T, rfl, rfl⟩

theorem ramfsRemove_sim (T : FileTable) (name : Option (ℕ → U8)) :
    CallSim (ramfsOf T) T.toMap (.remove name) := by
  cases name with
  | none => exact ⟨rfl, T, rfl, rfl⟩
  | some pointer =>
    unfold CallSim
    simp only [fileStep, ramfsRemove, mapStep, nameIsValid_eq]
    cases hname : fileName pointer with
    | none => exact ⟨rfl, T, rfl, rfl⟩
    | some n =>
      simp only [Option.isSome_some, Bool.not_true, Bool.false_eq_true, if_false]
      cases hfind : findSlot (ramfsOf T) pointer with
      | none =>
        rw [if_pos ((findSlot_none hname).1 hfind)]
        exact ⟨rfl, T, rfl, rfl⟩
      | some i =>
        obtain ⟨v, hslot, hlookup⟩ := findSlot_some hname hfind
        rw [if_neg (by simp [hlookup])]
        exact ⟨rfl, T.remove i, (ramfsOf_remove (by simp [hslot])).symm, Table.toMap_remove hslot⟩

theorem ramfsRead_sim (T : FileTable) (name data : Option (ℕ → U8)) (capacity : U32) (length : Option U32) :
    CallSim (ramfsOf T) T.toMap (.read name data capacity length) := by
  cases name with
  | none => exact ⟨rfl, T, rfl, rfl⟩
  | some pointer =>
    cases length with
    | none => exact ⟨rfl, T, rfl, rfl⟩
    | some length =>
      unfold CallSim
      simp only [fileStep, ramfsRead, mapStep, nameIsValid_eq]
      cases hname : fileName pointer with
      | none => exact ⟨rfl, T, rfl, rfl⟩
      | some n =>
        simp only [Option.isSome_some, Bool.not_true, Bool.false_eq_true, if_false]
        cases hfind : findSlot (ramfsOf T) pointer with
        | none =>
          simp only [(findSlot_none hname).1 hfind]
          exact ⟨trivial, T, rfl, rfl⟩
        | some i =>
          obtain ⟨v, hslot, hlookup⟩ := findSlot_some hname hfind
          have hlength : ((ramfsOf T).slots i).length = word v.val.length := by rw [ramfsOf_slot hslot]; rfl
          have hdata : memoryOf ((ramfsOf T).slots i).data = fun j => v.val.getD j 0#8 := by
            rw [ramfsOf_slot hslot]
            exact memoryOf_padded v.property
          have hlt : v.val.length < 2 ^ 32 := v.property.trans_lt (by decide)
          have hempty : word v.val.length = 0#32 ↔ v.val = [] := by
            rw [← List.length_eq_zero_iff]
            exact word_eq_zero hlt
          simp only [hlookup, hlength, hdata, toNat_word hlt]
          by_cases hnull : data = none ∧ (v.val ≠ [] ∨ capacity ≠ 0#32)
          · rw [if_pos hnull, if_pos (by simpa [hempty] using hnull)]
            exact ⟨rfl, T, rfl, rfl⟩
          · rw [if_neg hnull, if_neg (by simpa [hempty] using hnull)]
            by_cases hcapacity : capacity.toNat < v.val.length
            · simp only [if_pos hcapacity]
              exact ⟨trivial, T, rfl, rfl⟩
            · simp only [if_neg hcapacity]
              exact ⟨trivial, T, rfl, rfl⟩

/-- **Step lemma**: each call answers as the map does. -/
theorem fileStep_sim {s : Ramfs} {m : FileMap} (h : RamfsRep s m) (call : FileCall) :
    (fileStep s call).1 = (mapStep m call).1 ∧ RamfsRep (fileStep s call).2 (mapStep m call).2 := by
  obtain ⟨T, rfl, rfl⟩ := h
  cases call with
  | create name => exact ramfsCreate_sim T name
  | write name data length => exact ramfsWrite_sim T name data length
  | append name data length => exact ramfsAppend_sim T name data length
  | read name data capacity length => exact ramfsRead_sim T name data capacity length
  | remove name => exact ramfsRemove_sim T name

theorem ramfsInit_eq : ramfsInit = ramfsOf Table.empty := by
  have hused : (Table.empty : FileTable).used = 0 := by simp [Table.used, Table.empty]
  rw [ramfsOf, hused]
  rfl

theorem ramfsInit_rep : RamfsRep ramfsInit BoundedMap.empty := ⟨Table.empty, ramfsInit_eq, Table.toMap_empty⟩

/-- **Run lemma**: so do whole runs. -/
theorem fileRun_sim (calls : List FileCall) :
    trace fileStep ramfsInit calls = trace mapStep BoundedMap.empty calls ∧
      RamfsRep (exec fileStep ramfsInit calls) (exec mapStep BoundedMap.empty calls) :=
  trace_sim (R := RamfsRep) (fun _ _ call h => fileStep_sim h call) ramfsInit_rep calls

/-! ## Every run -/

def FileCall.name : FileCall → Option (ℕ → U8)
  | .create name => name
  | .write name _ _ => name
  | .append name _ _ => name
  | .read name _ _ _ => name
  | .remove name => name

/-- What a file holds, as the code finds it. -/
def contentOf (s : Ramfs) (name : List U8) : Option (List U8) :=
  (findSlot s fun i => name.getD i 0#8).map fun i =>
    bytesAt (memoryOf (s.slots i).data) (s.slots i).length.toNat

/-- The file system and the map answer alike. -/
structure RefinesMap (s : Ramfs) (m : FileMap) : Prop where
  answer : ∀ call, (fileStep s call).1 = (mapStep m call).1
  content : ∀ n : FileName, contentOf s n.val = (m.lookup n).map Subtype.val
  count : s.liveFileCount = word m.keys.card
  /-- A call that fails changes nothing. -/
  failed : ∀ call, (fileStep s call).1.result ≠ .ok →
    (fileStep s call).2 = s ∧ ((fileStep s call).1.data, (fileStep s call).1.length) = call.output
  /-- A call about one name does not affect another. -/
  others : ∀ call (n : FileName), call.name.bind fileName ≠ some n →
    contentOf (fileStep s call).2 n.val = contentOf s n.val

/-- A call succeeds or leaves everything as it was. -/
theorem fileStep_failed (s : Ramfs) (call : FileCall) (h : (fileStep s call).1.result ≠ .ok) :
    (fileStep s call).2 = s ∧ ((fileStep s call).1.data, (fileStep s call).1.length) = call.output := by
  cases call with
  | create name =>
    have hcases : (ramfsCreate s name).1 = .ok ∨ (ramfsCreate s name).2 = s := by
      unfold ramfsCreate
      repeat' split
      all_goals first | exact .inl rfl | exact .inr rfl
    exact ⟨hcases.resolve_left h, rfl⟩
  | write name data length =>
    have hcases : (ramfsWrite s name data length).1 = .ok ∨ (ramfsWrite s name data length).2 = s := by
      unfold ramfsWrite
      repeat' split
      all_goals first | exact .inl rfl | exact .inr rfl
    exact ⟨hcases.resolve_left h, rfl⟩
  | append name data length =>
    have hcases : (ramfsAppend s name data length).1 = .ok ∨ (ramfsAppend s name data length).2 = s := by
      unfold ramfsAppend
      dsimp only
      repeat' split
      all_goals first | exact .inl rfl | exact .inr rfl
    exact ⟨hcases.resolve_left h, rfl⟩
  | read name data capacity length =>
    have hcases : (ramfsRead s name data capacity length).1 = .ok ∨
        (ramfsRead s name data capacity length).2 = (data, length) := by
      unfold ramfsRead
      dsimp only
      repeat' split
      all_goals first | exact .inl rfl | exact .inr rfl
    exact ⟨rfl, hcases.resolve_left h⟩
  | remove name =>
    have hcases : (ramfsRemove s name).1 = .ok ∨ (ramfsRemove s name).2 = s := by
      unfold ramfsRemove
      repeat' split
      all_goals first | exact .inl rfl | exact .inr rfl
    exact ⟨hcases.resolve_left h, rfl⟩

theorem setContent_others {m : FileMap} {name : FileName} (content : List U8) (h : m.lookup name ≠ none)
    (hne : n ≠ name) : (m.setContent name content h).2.lookup n = m.lookup n := by
  unfold FileMap.setContent
  split_ifs
  · exact Function.update_of_ne hne _ _
  · rfl

theorem mapStep_others {m : FileMap} {call : FileCall} (h : call.name.bind fileName ≠ some n) :
    (mapStep m call).2.lookup n = m.lookup n := by
  have hne : ∀ pointer name, call.name = some pointer → fileName pointer = some name → n ≠ name := by
    rintro pointer name hcall hname rfl
    exact h (by rw [hcall, Option.bind_some, hname])
  cases call with
  | create name =>
    cases name with
    | none => rfl
    | some pointer =>
      simp only [mapStep]
      repeat' split
      all_goals first | rfl | exact Function.update_of_ne (hne _ _ rfl ‹_›) _ _
  | write name data length =>
    cases name with
    | none => rfl
    | some pointer =>
      simp only [mapStep]
      repeat' split
      all_goals first | rfl | exact setContent_others _ _ (hne _ _ rfl ‹_›)
  | append name data length =>
    cases name with
    | none => rfl
    | some pointer =>
      simp only [mapStep]
      repeat' split
      all_goals first | rfl | exact setContent_others _ _ (hne _ _ rfl ‹_›)
  | read name data capacity length =>
    cases name with
    | none => rfl
    | some pointer =>
      cases length with
      | none => rfl
      | some length =>
        simp only [mapStep]
        repeat' split
        all_goals rfl
  | remove name =>
    cases name with
    | none => rfl
    | some pointer =>
      simp only [mapStep]
      repeat' split
      all_goals first | rfl | exact Function.update_of_ne (hne _ _ rfl ‹_›) _ _

theorem contentOf_eq {s : Ramfs} {m : FileMap} (h : RamfsRep s m) (n : FileName) :
    contentOf s n.val = (m.lookup n).map Subtype.val := by
  obtain ⟨T, rfl, rfl⟩ := h
  have hname : fileName (fun i => n.val.getD i 0#8) = some n :=
    fileName_eq_some.2 (cString_list n.property.zero_notMem (n.property.le.trans (Nat.le_succ _)))
  unfold contentOf
  cases hfind : findSlot (ramfsOf T) fun i => n.val.getD i 0#8 with
  | none => simp [(findSlot_none hname).1 hfind]
  | some i =>
    obtain ⟨v, hslot, hlookup⟩ := findSlot_some hname hfind
    have hcontent : bytesAt (fun j => v.val.getD j 0#8) v.val.length = v.val := bytesAt_getD v.val
    simp only [hlookup, Option.map_some, ramfsOf_slot hslot, slotOf]
    rw [memoryOf_padded v.property, toNat_word (v.property.trans_lt (by decide)), hcontent]

/-- **RAMFS refines a bounded map.** -/
theorem ramfs_refines_map (calls : List FileCall) :
    trace fileStep ramfsInit calls = trace mapStep BoundedMap.empty calls ∧
      RefinesMap (exec fileStep ramfsInit calls) (exec mapStep BoundedMap.empty calls) := by
  obtain ⟨htrace, hrep⟩ := fileRun_sim calls
  refine ⟨htrace, fun call => (fileStep_sim hrep call).1, contentOf_eq hrep, ?_, fileStep_failed _, ?_⟩
  · obtain ⟨T, hs, hm⟩ := hrep
    rw [hs, ← hm]
    exact congrArg word Table.card_keys.symm
  · intro call n hn
    rw [contentOf_eq (fileStep_sim hrep call).2, contentOf_eq hrep, mapStep_others hn]

end TinyShell
