import TinyShell.Spec.Command
import TinyShell.Spec.Console
import TinyShell.Spec.LineEditor
import TinyShell.Spec.Ramfs

/-!
# The shell (`kernel/shell/runtime.c`)

A function that prints gives the list of its console calls. `system_status_read` is
answered from outside: the snapshot, or `none` where it fails. Local arrays are zero
before they are written; nothing of them is read before.
-/

namespace TinyShell

open Machine

/-- A string literal as a pointer. -/
def literal (s : String) : ℕ → U8 := fun i => (asciiText s).getD i 0#8

/-! ## Self tests -/

/-- `ramfs_self_test`, with the file system as it leaves it. -/
def ramfsSelfTest : Bool × Ramfs :=
  let name := some (literal "self-test")
  let first := some (literal "abc")
  let appended := some (literal "d")
  let s := ramfsInit
  if !ramfsValidate s || ramfsCount s ≠ 0#32 then (false, s)
  else
  let (result, s) := ramfsCreate s name
  if result ≠ .ok then (false, s)
  else
  let (result, s) := ramfsCreate s name
  if result ≠ .alreadyExists then (false, s)
  else
  let (result, s) := ramfsCreate s (some (literal "bad/name"))
  if result ≠ .invalidName then (false, s)
  else
  let (result, s) := ramfsWrite s name first 3#32
  if result ≠ .ok then (false, s)
  else
  let (result, s) := ramfsAppend s name appended 1#32
  if result ≠ .ok || ramfsCount s ≠ 1#32 then (false, s)
  else
  match ramfsGetInfo s 0#32 (some ⟨fun _ => 0#8, 0#32⟩) with
  | (true, some info) =>
    if !stringsEqual (cString (ramfsNameMax + 1) (memoryOf info.name)) (asciiText "self-test") ||
      info.size ≠ 4#32 then
      (false, s)
    else
    let output : ℕ → U8 := fun _ => 0xA5#8
    let (result, output, length) := ramfsRead s name (some output) 3#32 (some 0xA5A5A5A5#32)
    if result ≠ .tooLarge || output.map (· 0) ≠ some 0xA5#8 || length ≠ some 0xA5A5A5A5#32 then (false, s)
    else
    let (result, s) := ramfsAppend s name appended 509#32
    if result ≠ .tooLarge then (false, s)
    else
    let (result, output, length) := ramfsRead s name output 4#32 (some 0#32)
    if result ≠ .ok || length ≠ some 4#32 || output.map (bytesAt · 4) ≠ some (asciiText "abcd") ||
      !ramfsValidate s then
      (false, s)
    else
    let (result, s) := ramfsRemove s name
    if result ≠ .ok || ramfsCount s ≠ 0#32 || !ramfsValidate s then (false, s) else (true, s)
  | _ => (false, s)

/-- `for (index = 0; index < count; ++index)` of the editor's test; `none` where it fails. -/
def feedEchoed : ℕ → ShellLineEditor → Option ShellLineEditor
  | 0, editor => some editor
  | count + 1, editor =>
    let (event, editor) := shellLineEditorFeed editor 0x78#8
    if event ≠ .echo then none else feedEchoed count editor

def lineEditorSelfTest : Bool :=
  let editor := shellLineEditorInit ⟨fun _ => 0#8, 0, 0#32, false⟩
  let output : ℕ → U8 := fun _ => 0#8
  if editor.length ≠ 0 || editor.ready || editor.overflowCount ≠ 0#32 then false
  else
  let (first, editor) := shellLineEditorFeed editor 0x61#8
  let (second, editor) := shellLineEditorFeed editor 0x62#8
  let (third, editor) := shellLineEditorFeed editor 0x08#8
  let (fourth, editor) := shellLineEditorFeed editor 0x0A#8
  let (fifth, editor) := shellLineEditorFeed editor 0x78#8
  let (short, output, editor) := shellLineEditorTake editor (some output) 1#32
  let (taken, output, editor) := shellLineEditorTake editor output 128#32
  if [first, second, third, fourth, fifth] ≠ [.echo, .echo, .erase, .ready, .none] || short || !taken ||
      !stringsEqual (cString (shellLineMax + 1) (output.getD fun _ => 0#8)) (asciiText "a") then false
  else
  match feedEchoed shellLineMax editor with
  | none => false
  | some editor =>
    let (event, editor) := shellLineEditorFeed editor 0x79#8
    if event ≠ .full || editor.overflowCount ≠ 1#32 then false
    else
    let (event, editor) := shellLineEditorFeed editor 0x0D#8
    let (taken, output, editor) := shellLineEditorTake editor output 128#32
    event = .ready && taken && output.map (· shellLineMax) = some 0#8 && editor.length = 0 && !editor.ready

def parserSelfTest : Bool :=
  match shellCommandParse (some (asciiText "  write\tnote  hello world ")) (some commandClear) with
  | (.ok, some command) =>
    if command.kind ≠ .write || command.argumentCount ≠ 3 ||
        !stringsEqual (cString 32 (memoryOf command.name)) (asciiText "write") ||
        !stringsEqual (cString 32 (memoryOf (command.argument 0))) (asciiText "note") ||
        !stringsEqual (cString 32 (memoryOf (command.argument 1))) (asciiText "hello") ||
        !stringsEqual (cString 32 (memoryOf (command.argument 2))) (asciiText "world") ||
        !shellCommandHasValidArity command || (shellCommandUsage command.kind).isNone then false
    else
    match shellCommandParse (some (asciiText "nosuch")) (some command) with
    | (.ok, some command) =>
      command.kind = .unknown && !shellCommandHasValidArity command &&
        (shellCommandParse (some (asciiText " \t ")) (some command)).1 = .empty
    | _ => false
  | _ => false

/-! ## Command text -/

/-- A `char` array with the length of the text in it. -/
structure TextBuffer where
  bytes : ℕ → U8
  length : ℕ

def bufferAppendChar (capacity : ℕ) (b : TextBuffer) (character : U8) : Bool × TextBuffer :=
  if b.length + 1 ≥ capacity then (false, b)
  else
    let bytes := Function.update b.bytes b.length character
    (true, ⟨Function.update bytes (b.length + 1) 0#8, b.length + 1⟩)

/-- The loop of `join_arguments` over one argument. -/
def appendText (capacity : ℕ) : List U8 → TextBuffer → Bool × TextBuffer
  | [], b => (true, b)
  | character :: rest, b =>
    match bufferAppendChar capacity b character with
    | (false, b) => (false, b)
    | (true, b) => appendText capacity rest b

/-- The loop of `join_arguments` over the arguments that are left. -/
def joinLoop (command : ShellCommand) (firstArgument capacity : ℕ) : List ℕ → TextBuffer → Bool × TextBuffer
  | [], b => (true, b)
  | argument :: rest, b =>
    match if argument ≠ firstArgument then bufferAppendChar capacity b 0x20#8 else (true, b) with
    | (false, b) => (false, b)
    | (true, b) =>
      match appendText capacity (cString (shellCommandArgMax + 1) (memoryOf (command.argument argument))) b with
      | (false, b) => (false, b)
      | (true, b) => joinLoop command firstArgument capacity rest b

def joinArguments (command : ShellCommand) (firstArgument : ℕ) (leadingSpace : Bool) (buffer : TextBuffer)
    (capacity : ℕ) : Bool × TextBuffer :=
  if capacity = 0 ∨ firstArgument > command.argumentCount then (false, buffer)
  else
    let b : TextBuffer := ⟨Function.update buffer.bytes 0 0#8, 0⟩
    match if leadingSpace then bufferAppendChar capacity b 0x20#8 else (true, b) with
    | (false, b) => (false, b)
    | (true, b) =>
      joinLoop command firstArgument capacity
        (List.range' firstArgument (command.argumentCount - firstArgument)) b

abbrev shellTextCapacity : ℕ := 256

/-! ## Output -/

def printPrompt : List ConsoleCall := consoleWrite (asciiText "tiny> ")

def printRamfsResult : RamfsResult → List ConsoleCall
  | .invalidArgument => consoleWrite (asciiText "error: invalid argument\n")
  | .invalidName => consoleWrite (asciiText "error: invalid name\n")
  | .notFound => consoleWrite (asciiText "error: file not found\n")
  | .alreadyExists => consoleWrite (asciiText "error: file exists\n")
  | .noSpace => consoleWrite (asciiText "error: ramfs full\n")
  | .tooLarge => consoleWrite (asciiText "error: file too large\n")
  | .ok => []

structure SystemStatus where
  pmmTotalPages : U32
  pmmFreePages : U32
  heapTotalBytes : U32
  heapFreeBytes : U32
  heapLargestFreeBlock : U32
  heapAllocatedBlocks : U32
  pitTicks : U32
  irq0Count : U32
  keyboardDropped : U32
  taskSwitches : U32
  taskFinished : U32

def printStatus : Option SystemStatus → List ConsoleCall
  | none => consoleWrite (asciiText "error: status unavailable\n")
  | some status =>
    consoleWrite (asciiText "PMM pages: free=") ++ consoleWriteU32Dec status.pmmFreePages ++
    consoleWrite (asciiText " total=") ++ consoleWriteU32Dec status.pmmTotalPages ++ [.putc 0x0A#8] ++
    consoleWrite (asciiText "Heap bytes: free=") ++ consoleWriteU32Dec status.heapFreeBytes ++
    consoleWrite (asciiText " total=") ++ consoleWriteU32Dec status.heapTotalBytes ++
    consoleWrite (asciiText " largest=") ++ consoleWriteU32Dec status.heapLargestFreeBlock ++
    consoleWrite (asciiText " blocks=") ++ consoleWriteU32Dec status.heapAllocatedBlocks ++ [.putc 0x0A#8] ++
    consoleWrite (asciiText "Timer: ticks=") ++ consoleWriteU32Dec status.pitTicks ++
    consoleWrite (asciiText " irq0=") ++ consoleWriteU32Dec status.irq0Count ++ [.putc 0x0A#8] ++
    consoleWrite (asciiText "Keyboard: dropped=") ++ consoleWriteU32Dec status.keyboardDropped ++
      [.putc 0x0A#8] ++
    consoleWrite (asciiText "Tasks: switches=") ++ consoleWriteU32Dec status.taskSwitches ++
    consoleWrite (asciiText " finished=") ++ consoleWriteU32Dec status.taskFinished ++ [.putc 0x0A#8]

/-- The loop of `file_size` over the indices that are left: the size, or `none` where
the source returns false. -/
def sizeScan (s : Ramfs) (name : List U8) : List ℕ → Option U32
  | [] => none
  | index :: rest =>
    match ramfsGetInfo s (word index) (some ⟨fun _ => 0#8, 0#32⟩) with
    | (true, some info) =>
      if stringsEqual (cString (ramfsNameMax + 1) (memoryOf info.name)) name then some info.size
      else sizeScan s name rest
    | _ => none

def fileSize (s : Ramfs) (name : List U8) : Option U32 := sizeScan s name (List.range (ramfsCount s).toNat)

/-- The loop of `execute_ls` over the indices that are left. -/
def lsScan (s : Ramfs) : List ℕ → List ConsoleCall
  | [] => []
  | index :: rest =>
    match ramfsGetInfo s (word index) (some ⟨fun _ => 0#8, 0#32⟩) with
    | (true, some info) =>
      consoleWrite (cString (ramfsNameMax + 1) (memoryOf info.name)) ++ [.putc 0x20#8] ++
        consoleWriteU32Dec info.size ++ [.putc 0x0A#8] ++ lsScan s rest
    | _ => consoleWrite (asciiText "error: ramfs state\n")

def executeLs (s : Ramfs) : List ConsoleCall :=
  if ramfsCount s = 0#32 then consoleWrite (asciiText "(empty)\n")
  else lsScan s (List.range (ramfsCount s).toNat)

def executeCat (s : Ramfs) (name : ℕ → U8) : List ConsoleCall :=
  let (result, data, length) :=
    ramfsRead s (some name) (some fun _ => 0#8) (word ramfsFileMaxBytes) (some 0#32)
  if result ≠ .ok then printRamfsResult result
  else (bytesAt (data.getD fun _ => 0#8) (length.getD 0#32).toNat).map .putc ++ [.putc 0x0A#8]

/-! ## Commands -/

/-- The end of `execute_command` after a call of the file system. -/
def printResult (result : RamfsResult) : List ConsoleCall :=
  if result = .ok then consoleWrite (asciiText "ok\n") else printRamfsResult result

def textTooLong : List ConsoleCall := consoleWrite (asciiText "error: text too long\n")

def executeCommand (s : Ramfs) (command : ShellCommand)
    (status : Option SystemStatus) : List ConsoleCall × Ramfs :=
  let text : TextBuffer := ⟨fun _ => 0#8, 0⟩
  let name := memoryOf (command.argument 0)
  match command.kind with
  | .help => (consoleWrite shellCommandHelp ++ [.putc 0x0A#8], s)
  | .clear => ([.clear], s)
  | .echo =>
    match joinArguments command 0 false text shellTextCapacity with
    | (false, _) => (textTooLong, s)
    | (true, text) => (consoleWrite (cString shellTextCapacity text.bytes) ++ [.putc 0x0A#8], s)
  | .ls => (executeLs s, s)
  | .cat => (executeCat s name, s)
  | .touch =>
    let (result, s) := ramfsCreate s (some name)
    (printResult result, s)
  | .write =>
    match joinArguments command 1 false text shellTextCapacity with
    | (false, _) => (textTooLong, s)
    | (true, text) =>
      let (result, s) := ramfsWrite s (some name) (some text.bytes) (word text.length)
      (printResult result, s)
  | .append =>
    let existing := fileSize s (cString (shellCommandArgMax + 1) name)
    match joinArguments command 1 (existing.getD 0#32 ≠ 0#32) text shellTextCapacity with
    | (false, _) => (textTooLong, s)
    | (true, text) =>
      let (result, s) := ramfsAppend s (some name) (some text.bytes) (word text.length)
      (printResult result, s)
  | .rm =>
    let (result, s) := ramfsRemove s (some name)
    (printResult result, s)
  | .status => (printStatus status, s)
  | .about =>
    (consoleWrite (asciiText
      "TinyShell OS is an i386 teaching microkernel prototype. Shell and RAMFS currently run in Ring 0.\n"), s)
  | .unknown => (consoleWrite (asciiText "error: unknown command\n"), s)

/-- What `shell_runtime_handle_char` does with a line, up to the next prompt. -/
def executeLine (s : Ramfs) (line : List U8) (status : Option SystemStatus) : List ConsoleCall × Ramfs :=
  match shellCommandParse (some line) (some commandClear) with
  | (.empty, _) => ([], s)
  | (.tooManyArguments, _) => (consoleWrite (asciiText "error: too many arguments\n"), s)
  | (.argumentTooLong, _) => (consoleWrite (asciiText "error: argument too long\n"), s)
  | (.ok, some command) =>
    if command.kind = .unknown then (consoleWrite (asciiText "error: unknown command\n"), s)
    else if !shellCommandHasValidArity command then
      (consoleWrite (asciiText "error: usage: ") ++ consoleWrite ((shellCommandUsage command.kind).getD []) ++
        [.putc 0x0A#8], s)
    else executeCommand s command status
  | _ => (consoleWrite (asciiText "error: invalid command line\n"), s)

/-! ## The runtime -/

structure ShellRuntime where
  editor : ShellLineEditor
  initialized : Bool
  started : Bool
  ramfs : Ramfs
  console : Console

/-- The console after some calls. -/
def ShellRuntime.print (s : ShellRuntime) (calls : List ConsoleCall) : ShellRuntime :=
  { s with console := calls.foldl consoleStep s.console }

def shellRuntimeInit (s : ShellRuntime) : Bool × ShellRuntime :=
  let s := { s with initialized := false, started := false, ramfs := ramfsSelfTest.2 }
  if !ramfsSelfTest.1 || !lineEditorSelfTest || !parserSelfTest then (false, s)
  else (true, { s with ramfs := ramfsInit, editor := shellLineEditorInit s.editor, initialized := true })

def shellRuntimeStart (s : ShellRuntime) : ShellRuntime :=
  if !s.initialized || s.started then s
  else
    ShellRuntime.print { s with started := true }
      (consoleWrite (asciiText "TinyShell OS interactive shell (Ring 0)\n") ++ printPrompt)

/-- What a call of `shell_runtime_handle_char` has done, beside the state: the line it
gave to the parser, if any, and what it printed between that line and the next prompt. -/
structure Handled where
  line : Option (List U8)
  answer : List ConsoleCall

/-- The `switch` of `shell_runtime_handle_char`, for the event and the editor that
`shell_line_editor_feed` has given. -/
def handleEvent (s : ShellRuntime) (character : U8) (status : Option SystemStatus) (event : ShellLineEvent)
    (editor : ShellLineEditor) : Handled × ShellRuntime :=
  match event with
  | .echo => (⟨none, []⟩, ShellRuntime.print { s with editor } [.putc character])
  | .erase => (⟨none, []⟩, ShellRuntime.print { s with editor } [.putc 0x08#8])
  | .ready =>
    match shellLineEditorTake editor (some fun _ => 0#8) (word (shellLineMax + 1)) with
    | (true, some line, editor) =>
      let line := cString (shellLineMax + 1) line
      let (answer, ramfs) := executeLine s.ramfs line status
      (⟨some line, answer⟩, ShellRuntime.print { s with editor, ramfs } (.putc 0x0A#8 :: answer ++ printPrompt))
    | _ =>
      let answer := consoleWrite (asciiText "error: line unavailable\n")
      (⟨none, answer⟩,
        ShellRuntime.print { s with editor := shellLineEditorInit editor }
          (.putc 0x0A#8 :: answer ++ printPrompt))
  | .none | .full => (⟨none, []⟩, { s with editor })

def shellRuntimeHandleChar (s : ShellRuntime) (input : U8 × Option SystemStatus) : Handled × ShellRuntime :=
  if !s.initialized || !s.started then (⟨none, []⟩, s)
  else
    let (event, editor) := shellLineEditorFeed s.editor input.1
    handleEvent s input.1 input.2 event editor

end TinyShell
