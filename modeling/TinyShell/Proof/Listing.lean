import TinyShell.Proof.RamfsInv
import TinyShell.Proof.ShellFiles

/-!
# The directory listing agrees with the files

A file is reached by its name (`find_slot`, a bounded comparison with the slots) and by
its number (`ramfs_get_info`, a count of the live slots). In a file system that stands for a
table both are searches of the table's entries.

* `findSlot_string`: the search by name, for every string.
* `fileSize_string`: `file_size` finds the slot that `find_slot` finds.
* `executeLs_table`: what `ls` prints.
* `listing_agrees`: the two ways agree after every sequence of calls.
-/

namespace TinyShell

open Machine

/-- The files of the live slots, in the order of the slots. -/
def directory (s : Ramfs) : List (List U8 × List U8) := (List.finRange ramfsMaxFiles).filterMap (fileAt s)

/-- What `ls` prints for a list of files. -/
def listingOf (files : List (List U8 × List U8)) : List ConsoleCall :=
  if files = [] then consoleWrite (asciiText "(empty)\n")
  else
    files.flatMap fun file =>
      consoleWrite file.1 ++ [.putc 0x20#8] ++ consoleWriteU32Dec (word file.2.length) ++ [.putc 0x0A#8]

variable {T : FileTable} {p : ℕ → U8} {name : List U8}

theorem directory_table (T : FileTable) :
    directory (ramfsOf T) = T.entries.map fun file => (file.1.val, file.2.val) := by
  unfold directory Table.entries
  rw [List.map_filterMap]
  congr 1
  funext i
  exact fileAt_table T i

/-! ## Searching by name -/

/-- A slot's name is a string exactly when `names_equal` says so. -/
theorem namesEqual_string (h : StringAt p name) (m : FileName) (v : Content) :
    namesEqual (memoryOf (slotOf (some (m, v))).name) p = decide (m.val = name) := by
  have hm : m.val.length < 32 := Nat.lt_succ_of_le m.property.le
  rw [Bool.eq_iff_iff, decide_eq_true_eq, namesEqual_iff, fileName_eq_some.1 (fileName_slotOf m v), h.cString,
    and_iff_left hm]
  constructor
  · intro heq
    -- a longer string is seen as 32 bytes, and no file has such a name
    have hlen := congrArg List.length heq
    rw [List.length_take] at hlen
    rw [heq, List.take_of_length_le (by omega)]
  · rintro rfl
    rw [List.take_of_length_le hm.le]

theorem findSlot_string (h : StringAt p name) :
    findSlot (ramfsOf T) p =
      (List.finRange ramfsMaxFiles).find? fun i => (T.slot i).any fun file => decide (file.1.val = name) :=
  findSlot_table (namesEqual_string h)

theorem findSlot_string_some (h : StringAt p name) {i : Fin ramfsMaxFiles}
    (hi : findSlot (ramfsOf T) p = some i) : ∃ n v, T.slot i = some (n, v) ∧ n.val = name := by
  rw [findSlot_string h] at hi
  have hkey := List.find?_some hi
  rw [Option.any_eq_true] at hkey
  obtain ⟨⟨n, v⟩, hslot, hname⟩ := hkey
  exact ⟨n, v, hslot, by simpa using hname⟩

/-- **`file_size` finds the slot that `find_slot` finds.** -/
theorem fileSize_string (h : StringAt p name) :
    fileSize (ramfsOf T) name = (findSlot (ramfsOf T) p).map fun i => ((ramfsOf T).slots i).length := by
  have hscan := sizeScan_table T h.zero_notMem (Nat.zero_add _)
  rw [List.drop_zero, Table.entries, List.find?_filterMap, ← findSlot_string h] at hscan
  rw [fileSize, ramfsCount_table, List.range_eq_range', Table.entries, hscan]
  cases hi : findSlot (ramfsOf T) p with
  | none => rfl
  | some i =>
    obtain ⟨n, v, hslot, -⟩ := findSlot_string_some h hi
    simp [hslot, ramfsOf_slot hslot, slotOf]

/-- A name that the search finds is valid. -/
theorem nameIsValid_of_findSlot (h : StringAt p name) {i : Fin ramfsMaxFiles}
    (hi : findSlot (ramfsOf T) p = some i) : nameIsValid (some p) = true := by
  obtain ⟨n, v, -, rfl⟩ := findSlot_string_some h hi
  rw [nameIsValid_iff, h.cString, List.take_of_length_le (n.property.le.trans (Nat.le_succ _))]
  exact n.property

theorem contentOf_table (h0 : 0#8 ∉ name) (content : List U8) :
    (name, content) ∈ directory (ramfsOf T) ↔ contentOf (ramfsOf T) name = some content := by
  rw [directory_table, List.mem_map]
  constructor
  · rintro ⟨⟨n, v⟩, hmem, heq⟩
    obtain ⟨rfl, rfl⟩ := Prod.mk.inj heq
    obtain ⟨i, hi⟩ := Table.mem_entries.1 hmem
    have hlookup : T.toMap.lookup n = some v := Table.lookup_eq_some.2 ⟨i, hi⟩
    rw [contentOf_eq ⟨T, rfl, rfl⟩ n, hlookup]
    rfl
  · intro hcontent
    obtain ⟨i, hi, rfl⟩ := Option.map_eq_some_iff.1 hcontent
    obtain ⟨n, v, hslot, rfl⟩ := findSlot_string_some (stringAt_getD h0) hi
    refine ⟨(n, v), Table.mem_entries.2 ⟨i, hslot⟩, ?_⟩
    rw [ramfsOf_slot hslot, bytesAt_slotOf]

/-! ## What `ls` prints -/

theorem lsScan_table (T : FileTable) {k m : ℕ} (hm : k + m = T.entries.length) :
    lsScan (ramfsOf T) (List.range' k m) =
      (T.entries.drop k).flatMap fun file =>
        consoleWrite file.1.val ++ [.putc 0x20#8] ++ consoleWriteU32Dec (word file.2.val.length) ++
          [.putc 0x0A#8] := by
  induction m generalizing k with
  | zero =>
    rw [List.drop_of_length_le (by omega)]
    rfl
  | succ m ih =>
    have hk : k < T.entries.length := by omega
    rw [List.range'_succ, lsScan, getInfo_entry hk, List.drop_eq_getElem_cons hk, List.flatMap_cons,
      ← ih (by omega)]
    simp only [infoOf_name]
    rfl

theorem executeLs_table (T : FileTable) : executeLs (ramfsOf T) = listingOf (directory (ramfsOf T)) := by
  have hcount := ramfsCount_table T
  have hempty : ramfsCount (ramfsOf T) = 0#32 ↔ directory (ramfsOf T) = [] := by
    rw [directory_table, List.map_eq_nil_iff, ← List.length_eq_zero_iff, ← hcount]
    bv_omega
  unfold executeLs listingOf
  by_cases h : directory (ramfsOf T) = []
  · rw [if_pos (hempty.2 h), if_pos h]
  · rw [if_neg (mt hempty.1 h), if_neg h, hcount, List.range_eq_range', lsScan_table T (Nat.zero_add _),
      List.drop_zero, directory_table, List.flatMap_map]

theorem decDigits_digit (value : U32) : ∀ c ∈ decDigits value, c ≠ 0x3A#8 := by
  induction value using decDigits.induct with
  | case1 value hpos ih =>
    unfold decDigits
    rw [if_pos hpos, List.forall_mem_cons]
    refine ⟨?_, ih⟩
    have hdigit : (value % 10#32).toNat < 10 := by
      rw [BitVec.toNat_umod]
      exact Nat.mod_lt _ (by decide)
    generalize value % 10#32 = d at hdigit
    intro heq
    have := congrArg BitVec.toNat heq
    rw [BitVec.toNat_add, BitVec.toNat_setWidth] at this
    simp at this
    omega
  | case2 value hzero =>
    unfold decDigits
    rw [if_neg hzero]
    simp

/-- No colon stands in a listing of valid names. -/
theorem colon_notMem_listing {files : List (List U8 × List U8)} (h : ∀ file ∈ files, ValidName file.1) :
    ConsoleCall.putc 0x3A#8 ∉ listingOf files := by
  unfold listingOf consoleWriteU32Dec consoleWrite
  split_ifs with hnil
  · decide
  · rw [List.mem_flatMap]
    rintro ⟨file, hfile, hmem⟩
    -- a colon is not allowed in a name
    have hname : 0x3A#8 ∉ file.1 := by
      intro hc
      exact absurd ((h file hfile).allowed _ hc) (by decide)
    have hdigits := decDigits_digit (word file.2.length)
    split_ifs at hmem
    · simp_all
    · simp only [List.mem_append, List.mem_map, List.mem_singleton, List.mem_reverse,
        ConsoleCall.putc.injEq] at hmem
      rcases hmem with ((⟨c, hc, rfl⟩ | hc) | ⟨c, hc, rfl⟩) | hc
      · exact hname hc
      · exact absurd hc (by decide)
      · exact hdigits _ hc rfl
      · exact absurd hc (by decide)

/-! ## Every run -/

/-- Enumerating the files, reading them by name and the shell's commands agree. -/
structure ListingOK (s : Ramfs) : Prop where
  count : (ramfsCount s).toNat = (directory s).length
  names : ((directory s).map Prod.fst).Nodup
  /-- The files are what a search for their names finds. -/
  files : ∀ name content, 0#8 ∉ name → ((name, content) ∈ directory s ↔ contentOf s name = some content)
  info : ∀ (index : U32) (info : RamfsFileInfo),
    ramfsGetInfo s index (some info) =
      match (directory s)[index.toNat]? with
      | some (name, content) => (true, some ⟨padded _ name, word content.length⟩)
      | none => (false, some info)
  /-- `file_size` answers exactly where `ramfs_read` finds the file, and with its length. -/
  read : ∀ p name, StringAt p name → ∀ data capacity length,
    let answer := ramfsRead s (some p) data capacity (some length)
    match fileSize s name with
    | none => answer.1 = .invalidName ∨ answer.1 = .notFound
    | some size =>
      answer.1 ≠ .invalidName ∧ answer.1 ≠ .notFound ∧ (answer.1 = .ok → answer.2.2 = some size) ∧
        (data ≠ none → size.toNat ≤ capacity.toNat → answer.1 = .ok)
  /-- The whole output of `ls`; the error text is nowhere in it. -/
  ls : executeLs s = listingOf (directory s) ∧ ¬consoleWrite (asciiText "error: ramfs state\n") <:+: executeLs s
  /-- The separator of an append depends on the length of the slot that the append finds. -/
  append : ∀ command status name, command.kind = .append → StringAt (memoryOf (command.argument 0)) name →
    executeCommand s command status =
      let found := (findSlot s (memoryOf (command.argument 0))).map fun i => (s.slots i).length
      match joinArguments command 1 (found.getD 0#32 ≠ 0#32) ⟨fun _ => 0#8, 0⟩ shellTextCapacity with
      | (false, _) => (textTooLong, s)
      | (true, text) =>
        let (result, s) :=
          ramfsAppend s (some (memoryOf (command.argument 0))) (some text.bytes) (word text.length)
        (printResult result, s)

theorem getInfo_directory (T : FileTable) (index : U32) (info : RamfsFileInfo) :
    ramfsGetInfo (ramfsOf T) index (some info) =
      match (directory (ramfsOf T))[index.toNat]? with
      | some (name, content) => (true, some ⟨padded _ name, word content.length⟩)
      | none => (false, some info) := by
  rw [getInfo_table, directory_table, List.getElem?_map]
  cases T.entries[index.toNat]? <;> rfl

theorem read_table (h : StringAt p name) (data : Option (ℕ → U8)) (capacity length : U32) :
    let answer := ramfsRead (ramfsOf T) (some p) data capacity (some length)
    match fileSize (ramfsOf T) name with
    | none => answer.1 = .invalidName ∨ answer.1 = .notFound
    | some size =>
      answer.1 ≠ .invalidName ∧ answer.1 ≠ .notFound ∧ (answer.1 = .ok → answer.2.2 = some size) ∧
        (data ≠ none → size.toNat ≤ capacity.toNat → answer.1 = .ok) := by
  rw [fileSize_string h]
  dsimp only [ramfsRead]
  cases hfind : findSlot (ramfsOf T) p with
  | none =>
    cases nameIsValid (some p) with
    | false => exact .inl rfl
    | true => exact .inr rfl
  | some i =>
    -- `ramfs_read` checks the name first, and then finds the same slot
    rw [nameIsValid_of_findSlot h hfind]
    simp only [Option.map_some, Bool.not_true, Bool.false_eq_true, if_false]
    split_ifs with hnull hcapacity
    · refine ⟨by simp, by simp, by simp, ?_⟩
      intro hdata
      rw [Option.isNone_eq_false_iff.2 (Option.isSome_iff_ne_none.2 hdata)] at hnull
      simp at hnull
    · refine ⟨by simp, by simp, by simp, ?_⟩
      intro _ hle
      omega
    · simp

/-- The argument's array ends the string at the latest. -/
theorem cString_terminated {a : Fin 32 → U8} (h : StringAt (memoryOf a) name) :
    cString 32 (memoryOf a) = name := by
  have hle : name.length ≤ 32 := by
    by_contra hlt
    have hend : memoryOf a 32 = 0#8 := dif_neg (by omega)
    have hbyte := h.bytes 32 (by omega)
    rw [hend, List.getD_eq_getElem _ _ (by omega)] at hbyte
    apply h.zero_notMem
    rw [hbyte]
    exact List.getElem_mem _
  rw [h.cString, List.take_of_length_le hle]

theorem listing_table (T : FileTable) : ListingOK (ramfsOf T) where
  count := by rw [ramfsCount_table, directory_table, List.length_map]
  names := by
    rw [directory_table, List.map_map]
    have hnodup := Table.nodup_entries.map Subtype.val_injective (l := T.entries.map Prod.fst)
    rwa [List.map_map] at hnodup
  files := fun _ content h0 => contentOf_table h0 content
  info := getInfo_directory T
  read := fun _ _ h data capacity length => read_table h data capacity length
  ls := by
    refine ⟨executeLs_table T, ?_⟩
    -- the error text has a colon in it, and a listing has none
    intro herror
    have hcolon : ConsoleCall.putc 0x3A#8 ∈ executeLs (ramfsOf T) := herror.subset (by decide)
    rw [executeLs_table] at hcolon
    refine colon_notMem_listing ?_ hcolon
    rw [directory_table]
    intro file hfile
    obtain ⟨entry, -, rfl⟩ := List.mem_map.1 hfile
    exact entry.1.property
  append := by
    intro command status name hkind h
    have hname : cString (shellCommandArgMax + 1) (memoryOf (command.argument 0)) = name := cString_terminated h
    have hsize := fileSize_string (T := T) h
    unfold executeCommand
    rw [hkind]
    dsimp only
    rw [hname]
    generalize fileSize (ramfsOf T) name = size at hsize ⊢
    subst hsize
    rfl

/-- **The directory listing agrees with the files**, after every sequence of calls. -/
theorem listing_agrees (calls : List RamfsCall) : ListingOK (exec ramfsStep ramfsInit calls) := by
  obtain ⟨T, hT⟩ := ramfsRun_table calls
  rw [hT]
  exact listing_table T

end TinyShell
