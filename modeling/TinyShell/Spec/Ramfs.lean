import TinyShell.Machine.Cells
import TinyShell.Machine.Run

/-!
# The RAM file system (`kernel/fs/ramfs.c`)

Pointers of the callers are memories from the address on, `none` when they are NULL;
`ramfs_read` gives back what it has left in the caller's buffer and length.
-/

namespace TinyShell

open Machine

abbrev ramfsMaxFiles : ℕ := 16

abbrev ramfsNameMax : ℕ := 31

abbrev ramfsFileMaxBytes : ℕ := 512

inductive RamfsResult
  | ok
  | invalidArgument
  | invalidName
  | notFound
  | alreadyExists
  | noSpace
  | tooLarge
  deriving DecidableEq

structure RamfsFileInfo where
  name : Fin (ramfsNameMax + 1) → U8
  size : U32

@[ext]
structure RamfsSlot where
  alive : Bool
  name : Fin (ramfsNameMax + 1) → U8
  data : Fin ramfsFileMaxBytes → U8
  length : U32

@[ext]
structure Ramfs where
  slots : Fin ramfsMaxFiles → RamfsSlot
  liveFileCount : U32

/-- What `clear_slot` leaves in a slot. -/
def clearSlot : RamfsSlot := ⟨false, fun _ => 0#8, fun _ => 0#8, 0#32⟩

/-- The characters of a name. -/
def allowed (character : U8) : Bool :=
  (0x61#8 ≤ character && character ≤ 0x7A#8) || (0x41#8 ≤ character && character ≤ 0x5A#8) ||
    (0x30#8 ≤ character && character ≤ 0x39#8) || character = 0x2E#8 || character = 0x5F#8 || character = 0x2D#8

/-- The loop of `name_is_valid` from `length` on. -/
def nameScan (name : ℕ → U8) : ℕ → ℕ → Bool
  | 0, _ => false
  | fuel + 1, length =>
    if name length = 0#8 then
      if length = 0 then false
      else if length = 1 && name 0 = 0x2E#8 then false
      else if length = 2 && name 0 = 0x2E#8 && name 1 = 0x2E#8 then false
      else true
    else if !allowed (name length) then false
    else nameScan name fuel (length + 1)

def nameIsValid : Option (ℕ → U8) → Bool
  | none => false
  | some name => nameScan name (ramfsNameMax + 1) 0

/-- The loop of `names_equal` from `index` on. -/
def namesScan (left right : ℕ → U8) : ℕ → ℕ → Bool
  | 0, _ => false
  | fuel + 1, index =>
    if left index ≠ right index then false
    else if left index = 0#8 then true
    else namesScan left right fuel (index + 1)

def namesEqual (left right : ℕ → U8) : Bool := namesScan left right (ramfsNameMax + 1) 0

def findSlot (s : Ramfs) (name : ℕ → U8) : Option (Fin ramfsMaxFiles) :=
  (List.finRange ramfsMaxFiles).find? fun index =>
    (s.slots index).alive && namesEqual (memoryOf (s.slots index).name) name

def findEmptySlot (s : Ramfs) : Option (Fin ramfsMaxFiles) :=
  (List.finRange ramfsMaxFiles).find? fun index => !(s.slots index).alive

def ramfsInit : Ramfs := ⟨fun _ => clearSlot, 0#32⟩

/-- The loop of `ramfs_create` that copies the name, from `index` on. -/
def copyName (name : ℕ → U8) : ℕ → ℕ → (Fin (ramfsNameMax + 1) → U8) → Fin (ramfsNameMax + 1) → U8
  | 0, _, target => target
  | fuel + 1, index, target =>
    let target := store target index (name index)
    if name index = 0#8 then target else copyName name fuel (index + 1) target

def ramfsCreate (s : Ramfs) (name : Option (ℕ → U8)) : RamfsResult × Ramfs :=
  match name with
  | none => (.invalidArgument, s)
  | some name =>
    if !nameIsValid (some name) then (.invalidName, s)
    else if (findSlot s name).isSome then (.alreadyExists, s)
    else
      match findEmptySlot s with
      | none => (.noSpace, s)
      | some slot =>
        let cleared := clearSlot
        let named := { cleared with name := copyName name (ramfsNameMax + 1) 0 cleared.name, alive := true }
        (.ok, ⟨Function.update s.slots slot named, s.liveFileCount + 1⟩)

def ramfsWrite (s : Ramfs) (name data : Option (ℕ → U8)) (length : U32) : RamfsResult × Ramfs :=
  match name with
  | none => (.invalidArgument, s)
  | some name =>
    if data.isNone && length ≠ 0#32 then (.invalidArgument, s)
    else if !nameIsValid (some name) then (.invalidName, s)
    else
      match findSlot s name with
      | none => (.notFound, s)
      | some slot =>
        if length.toNat > ramfsFileMaxBytes then (.tooLarge, s)
        else
          -- a NULL pointer comes with no byte to copy
          let source := data.getD fun _ => 0#8
          let written :=
            { s.slots slot with
              data := fun index => if index.val < length.toNat then source index.val else 0#8
              length := length }
          (.ok, { s with slots := Function.update s.slots slot written })

def ramfsAppend (s : Ramfs) (name data : Option (ℕ → U8)) (length : U32) : RamfsResult × Ramfs :=
  match name with
  | none => (.invalidArgument, s)
  | some name =>
    if data.isNone && length ≠ 0#32 then (.invalidArgument, s)
    else if !nameIsValid (some name) then (.invalidName, s)
    else
      match findSlot s name with
      | none => (.notFound, s)
      | some slot =>
        let old := s.slots slot
        if length.toNat > (word ramfsFileMaxBytes - old.length).toNat then (.tooLarge, s)
        else
          let source := data.getD fun _ => 0#8
          let appended :=
            { old with
              data := fun index =>
                if old.length.toNat ≤ index.val ∧ index.val < old.length.toNat + length.toNat then
                  source (index.val - old.length.toNat)
                else old.data index
              length := old.length + length }
          (.ok, { s with slots := Function.update s.slots slot appended })

/-- The caller's buffer and length stand beside the result. -/
def ramfsRead (s : Ramfs) (name data : Option (ℕ → U8)) (capacity : U32) (length : Option U32) :
    RamfsResult × Option (ℕ → U8) × Option U32 :=
  match name, length with
  | some name, some _ =>
    if !nameIsValid (some name) then (.invalidName, data, length)
    else
      match findSlot s name with
      | none => (.notFound, data, length)
      | some slot =>
        let slot := s.slots slot
        if data.isNone && (slot.length ≠ 0#32 || capacity ≠ 0#32) then (.invalidArgument, data, length)
        else if capacity.toNat < slot.length.toNat then (.tooLarge, data, length)
        else
          let copied := data.map fun data index =>
            if index < slot.length.toNat then memoryOf slot.data index else data index
          (.ok, copied, some slot.length)
  | _, _ => (.invalidArgument, data, length)

def ramfsRemove (s : Ramfs) (name : Option (ℕ → U8)) : RamfsResult × Ramfs :=
  match name with
  | none => (.invalidArgument, s)
  | some name =>
    if !nameIsValid (some name) then (.invalidName, s)
    else
      match findSlot s name with
      | none => (.notFound, s)
      | some slot => (.ok, ⟨Function.update s.slots slot clearSlot, s.liveFileCount - 1⟩)

def ramfsCount (s : Ramfs) : U32 := s.liveFileCount

/-- The loop of `ramfs_get_info` over the slots that are left. -/
def infoScan (s : Ramfs) (index : U32) : List (Fin ramfsMaxFiles) → U32 → Option RamfsFileInfo
  | [], _ => none
  | slot :: rest, liveIndex =>
    if !(s.slots slot).alive then infoScan s index rest liveIndex
    else if liveIndex ≠ index then infoScan s index rest (liveIndex + 1)
    else some ⟨(s.slots slot).name, (s.slots slot).length⟩

/-- The caller's `info` stands beside the result. -/
def ramfsGetInfo (s : Ramfs) (index : U32) (info : Option RamfsFileInfo) : Bool × Option RamfsFileInfo :=
  match info with
  | none => (false, none)
  | some info =>
    match infoScan s index (List.finRange ramfsMaxFiles) 0 with
    | some found => (true, some found)
    | none => (false, some info)

/-- The loop of `ramfs_validate` over the slots that are left; `none` when it has failed. -/
def validateScan (s : Ramfs) : List (Fin ramfsMaxFiles) → U32 → Option U32
  | [], aliveCount => some aliveCount
  | index :: rest, aliveCount =>
    let slot := s.slots index
    if !slot.alive then
      if slot.length ≠ 0#32 || (List.finRange (ramfsNameMax + 1)).any (fun field => slot.name field ≠ 0#8) ||
          (List.finRange ramfsFileMaxBytes).any (fun field => slot.data field ≠ 0#8) then none
      else validateScan s rest aliveCount
    else if !nameIsValid (some (memoryOf slot.name)) || slot.length.toNat > ramfsFileMaxBytes then none
    else if rest.any fun other =>
        (s.slots other).alive && namesEqual (memoryOf slot.name) (memoryOf (s.slots other).name) then none
    else validateScan s rest (aliveCount + 1)

def ramfsValidate (s : Ramfs) : Bool :=
  if s.liveFileCount.toNat > ramfsMaxFiles then false
  else
    match validateScan s (List.finRange ramfsMaxFiles) 0 with
    | none => false
    | some aliveCount => aliveCount = s.liveFileCount

/-! ## Calls -/

inductive FileCall
  | create (name : Option (ℕ → U8))
  | write (name data : Option (ℕ → U8)) (length : U32)
  | append (name data : Option (ℕ → U8)) (length : U32)
  | read (name data : Option (ℕ → U8)) (capacity : U32) (length : Option U32)
  | remove (name : Option (ℕ → U8))

/-- The result of a call and what it has left in the caller's buffer and length. -/
structure FileAnswer where
  result : RamfsResult
  data : Option (ℕ → U8)
  length : Option U32

/-- The caller's buffer and length before a call. -/
def FileCall.output : FileCall → Option (ℕ → U8) × Option U32
  | .read _ data _ length => (data, length)
  | _ => (none, none)

/-- The answer of a call that gives nothing back but its result. -/
def FileAnswer.plain (result : RamfsResult) : FileAnswer := ⟨result, none, none⟩

def fileStep (s : Ramfs) : FileCall → FileAnswer × Ramfs
  | .create name => let (result, s) := ramfsCreate s name; (.plain result, s)
  | .write name data length => let (result, s) := ramfsWrite s name data length; (.plain result, s)
  | .append name data length => let (result, s) := ramfsAppend s name data length; (.plain result, s)
  | .read name data capacity length =>
    let (result, data, length) := ramfsRead s name data capacity length
    (⟨result, data, length⟩, s)
  | .remove name => let (result, s) := ramfsRemove s name; (.plain result, s)

/-- All calls of the file system that can change it. -/
inductive RamfsCall
  | init
  | file (call : FileCall)

def ramfsStep (s : Ramfs) : RamfsCall → Option FileAnswer × Ramfs
  | .init => (none, ramfsInit)
  | .file call => let (answer, s) := fileStep s call; (some answer, s)

end TinyShell
