import TinyShell.Machine.Cells

/-!
# The line editor (`kernel/shell/line_editor.c`)

The editor of a call is never NULL here; the caller's `line` may be, and stands beside
the result as `shell_line_editor_take` leaves it.
-/

namespace TinyShell

open Machine

abbrev shellLineMax : ℕ := 127

inductive ShellLineEvent
  | none
  | echo
  | erase
  | ready
  | full
  deriving DecidableEq

@[ext]
structure ShellLineEditor where
  buffer : Fin (shellLineMax + 1) → U8
  length : ℕ
  overflowCount : U32
  ready : Bool

def isPrintableAscii (character : U8) : Bool := 0x20#8 ≤ character && character ≤ 0x7E#8

def clearLineBuffer (editor : ShellLineEditor) : ShellLineEditor :=
  { editor with buffer := fun _ => 0#8, length := 0, ready := false }

/-- `shell_line_editor_init`; what was there before does not matter. -/
def shellLineEditorInit (editor : ShellLineEditor) : ShellLineEditor :=
  { clearLineBuffer editor with overflowCount := 0#32 }

def shellLineEditorFeed (editor : ShellLineEditor) (character : U8) : ShellLineEvent × ShellLineEditor :=
  if editor.ready then (.none, editor)
  else if character = 0x08#8 then
    if editor.length = 0 then (.none, editor)
    else
      let length := editor.length - 1
      (.erase, { editor with length, buffer := store editor.buffer length 0#8 })
  else if character = 0x0A#8 ∨ character = 0x0D#8 then (.ready, { editor with ready := true })
  else if !isPrintableAscii character then (.none, editor)
  else if editor.length ≥ shellLineMax then
    (.full, { editor with overflowCount := editor.overflowCount + 1 })
  else
    let buffer := store editor.buffer editor.length character
    let length := editor.length + 1
    (.echo, { editor with length, buffer := store buffer length 0#8 })

def shellLineEditorTake (editor : ShellLineEditor) (line : Option (ℕ → U8)) (capacity : U32) :
    Bool × Option (ℕ → U8) × ShellLineEditor :=
  match line with
  | none => (false, none, editor)
  | some line =>
    if !editor.ready || editor.length > shellLineMax || capacity.toNat ≤ editor.length then
      (false, some line, editor)
    else
      let copied := fun index => if index ≤ editor.length then memoryOf editor.buffer index else line index
      (true, some copied, clearLineBuffer editor)

/-! ## Calls -/

inductive EditorCall
  | init
  | feed (character : U8)
  | take (line : Option (ℕ → U8)) (capacity : U32)

/-- The result of a call; for `shell_line_editor_take` with the caller's line behind it. -/
inductive EditorAnswer
  | initialized
  | event (event : ShellLineEvent)
  | taken (success : Bool) (line : Option (ℕ → U8))

def editorStep (editor : ShellLineEditor) : EditorCall → EditorAnswer × ShellLineEditor
  | .init => (.initialized, shellLineEditorInit editor)
  | .feed character => let (event, editor) := shellLineEditorFeed editor character; (.event event, editor)
  | .take line capacity =>
    let (success, line, editor) := shellLineEditorTake editor line capacity
    (.taken success line, editor)

end TinyShell
