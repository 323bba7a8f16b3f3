import TinyShell.Proof.Ramfs

/-!
# Listing the files

`ramfs_get_info` numbers the live files in the order of their slots.

* `getInfo_table`: the file with a number.
-/

namespace TinyShell

open Machine

variable {T : FileTable}

/-- What `ramfs_get_info` tells about a file. -/
def infoOf (file : FileName × Content) : RamfsFileInfo := ⟨padded _ file.1.val, word file.2.val.length⟩

/-- The rest of the scan, when `k` files have been passed. -/
theorem infoScan_table (index : U32) (slots : List (Fin ramfsMaxFiles)) (k : ℕ) (hk : k ≤ index.toNat) :
    infoScan (ramfsOf T) index slots (word k) = ((slots.filterMap T.slot)[index.toNat - k]?).map infoOf := by
  induction slots generalizing k with
  | nil => rfl
  | cons i slots ih =>
    rw [infoScan]
    cases hi : T.slot i with
    | none =>
      have hslot : (ramfsOf T).slots i = clearSlot := congrArg slotOf hi
      rw [hslot, if_pos (by simp [clearSlot]), ih k hk, List.filterMap_cons_none hi]
    | some file =>
      have hslot : (ramfsOf T).slots i = slotOf (some file) := congrArg slotOf hi
      rw [hslot, if_neg (by simp [slotOf]), List.filterMap_cons_some hi]
      by_cases hlast : k = index.toNat
      · have hindex : word k = index := by rw [hlast, word, BitVec.ofNat_toNat, BitVec.setWidth_eq]
        rw [if_neg (not_not.2 hindex), hlast, Nat.sub_self]
        rfl
      · have hindex : word k ≠ index := by
          rintro rfl
          exact hlast (toNat_word (hk.trans_lt (word k).isLt)).symm
        rw [if_pos hindex, ← word_succ, ih (k + 1) (by omega),
          show index.toNat - k = index.toNat - (k + 1) + 1 by omega, List.getElem?_cons_succ]

/-- **The file with a number**; `info` is left as it is where there is none. -/
theorem getInfo_table (T : FileTable) (index : U32) (info : RamfsFileInfo) :
    ramfsGetInfo (ramfsOf T) index (some info) =
      match T.entries[index.toNat]? with
      | some file => (true, some (infoOf file))
      | none => (false, some info) := by
  have hscan := infoScan_table (T := T) index (List.finRange ramfsMaxFiles) 0 (Nat.zero_le _)
  rw [Nat.sub_zero] at hscan
  unfold ramfsGetInfo
  dsimp only
  rw [show (0 : U32) = word 0 from rfl, hscan, Table.entries]
  cases ((List.finRange ramfsMaxFiles).filterMap T.slot)[index.toNat]? <;> rfl

theorem infoOf_name (file : FileName × Content) :
    cString (ramfsNameMax + 1) (memoryOf (infoOf file).name) = file.1.val :=
  cString_padded file.1.property.zero_notMem (file.1.property.le.trans (Nat.le_succ _))

/-- Below the count every number has its file. -/
theorem getInfo_entry {k : ℕ} (hk : k < T.entries.length) (info : RamfsFileInfo) :
    ramfsGetInfo (ramfsOf T) (word k) (some info) = (true, some (infoOf T.entries[k])) := by
  have hindex : (word k).toNat = k := by
    have hused : T.entries.length ≤ 16 := Table.length_entries.trans_le Table.used_le
    exact toNat_word (by omega)
  rw [getInfo_table, hindex, List.getElem?_eq_getElem hk]

theorem ramfsCount_table (T : FileTable) : (ramfsCount (ramfsOf T)).toNat = T.entries.length := by
  rw [Table.length_entries]
  exact toNat_word (Table.used_le.trans_lt (by decide))

end TinyShell
