import TinyShell.Machine.Cells

/-!
# The command parser (`kernel/shell/command.c`)

A line is the list of the bytes before its NUL, and so is what is left of it at the
cursor: the end of the list reads as NUL. Pointers that may be NULL are options, and the
caller's `command` stands beside the result.
-/

namespace TinyShell

open Machine

abbrev shellCommandMaxArgs : ℕ := 8

abbrev shellCommandArgMax : ℕ := 31

inductive ShellCommandKind
  | help
  | clear
  | echo
  | ls
  | cat
  | touch
  | write
  | append
  | rm
  | status
  | about
  | unknown
  deriving DecidableEq

inductive ShellParseResult
  | ok
  | empty
  | invalidArgument
  | tooManyArguments
  | argumentTooLong
  deriving DecidableEq

@[ext]
structure ShellCommand where
  kind : ShellCommandKind
  name : Fin (shellCommandArgMax + 1) → U8
  argumentCount : ℕ
  arguments : Fin shellCommandMaxArgs → Fin (shellCommandArgMax + 1) → U8

/-- `command->arguments[index]`. -/
def ShellCommand.argument (command : ShellCommand) (index : ℕ) : Fin (shellCommandArgMax + 1) → U8 :=
  if h : index < shellCommandMaxArgs then command.arguments ⟨index, h⟩ else fun _ => 0#8

def isSeparator (character : U8) : Bool := character = 0x20#8 || character = 0x09#8

/-- `strings_equal`, of this file and of `runtime.c`. -/
def stringsEqual : List U8 → List U8 → Bool
  | [], [] => true
  | [], right :: _ => right = 0#8
  | left :: _, [] => left = 0#8
  | left :: lefts, right :: rights =>
    if left ≠ right then false else if left = 0#8 then true else stringsEqual lefts rights

def commandKind (name : List U8) : ShellCommandKind :=
  if stringsEqual name (asciiText "help") then .help
  else if stringsEqual name (asciiText "clear") then .clear
  else if stringsEqual name (asciiText "echo") then .echo
  else if stringsEqual name (asciiText "ls") then .ls
  else if stringsEqual name (asciiText "cat") then .cat
  else if stringsEqual name (asciiText "touch") then .touch
  else if stringsEqual name (asciiText "write") then .write
  else if stringsEqual name (asciiText "append") then .append
  else if stringsEqual name (asciiText "rm") then .rm
  else if stringsEqual name (asciiText "status") then .status
  else if stringsEqual name (asciiText "about") then .about
  else .unknown

/-- What `command_clear` leaves in a command. -/
def commandClear : ShellCommand := ⟨.unknown, fun _ => 0#8, 0, fun _ _ => 0#8⟩

/-- `while (is_separator(*cursor)) cursor += 1;` -/
def skipSeparators : List U8 → List U8
  | [] => []
  | character :: cursor => if isSeparator character then skipSeparators cursor else character :: cursor

/-- `*cursor == '\0'`. -/
def atEnd (cursor : List U8) : Bool := cursor.headD 0#8 = 0#8

/-- The loop of `copy_token` with `length` bytes copied: the result, the cursor and the
destination. -/
def copyToken : List U8 → ℕ → (Fin (shellCommandArgMax + 1) → U8) →
    ShellParseResult × List U8 × (Fin (shellCommandArgMax + 1) → U8)
  | [], length, destination => (.ok, [], store destination length 0#8)
  | character :: cursor, length, destination =>
    if character ≠ 0#8 ∧ !isSeparator character then
      if length ≥ shellCommandArgMax then (.argumentTooLong, character :: cursor, destination)
      else copyToken cursor (length + 1) (store destination length character)
    else (.ok, character :: cursor, store destination length 0#8)

/-- The loop of `shell_command_parse` over the arguments; the check of their number ends
it before the fuel does. -/
def parseArguments : ℕ → List U8 → ShellCommand → ShellParseResult × ShellCommand
  | 0, _, parsed => (.tooManyArguments, parsed)
  | fuel + 1, cursor, parsed =>
    let cursor := skipSeparators cursor
    if atEnd cursor then (.ok, parsed)
    else if parsed.argumentCount ≥ shellCommandMaxArgs then (.tooManyArguments, parsed)
    else
      let (result, cursor, argument) := copyToken cursor 0 (parsed.argument parsed.argumentCount)
      if result ≠ .ok then (result, parsed)
      else
        parseArguments fuel cursor
          { parsed with
            arguments := store parsed.arguments parsed.argumentCount argument
            argumentCount := parsed.argumentCount + 1 }

def shellCommandParse (line : Option (List U8)) (command : Option ShellCommand) :
    ShellParseResult × Option ShellCommand :=
  match line, command with
  | some line, some command =>
    let cursor := skipSeparators line
    if atEnd cursor then (.empty, some command)
    else
      let parsed := commandClear
      let (result, cursor, name) := copyToken cursor 0 parsed.name
      if result ≠ .ok then (result, some command)
      else
        let kind := commandKind (cString (shellCommandArgMax + 1) (memoryOf name))
        match parseArguments (shellCommandMaxArgs + 1) cursor { parsed with name, kind } with
        | (.ok, parsed) => (.ok, some parsed)
        | (result, _) => (result, some command)
  | _, _ => (.invalidArgument, command)

def shellCommandHasValidArity (command : ShellCommand) : Bool :=
  match command.kind with
  | .help | .clear | .ls | .status | .about => command.argumentCount = 0
  | .cat | .touch | .rm => command.argumentCount = 1
  | .write | .append => command.argumentCount ≥ 2 && command.argumentCount ≤ shellCommandMaxArgs
  | .echo => command.argumentCount ≤ shellCommandMaxArgs
  | .unknown => false

def shellCommandUsage : ShellCommandKind → Option (List U8)
  | .help => some (asciiText "help")
  | .clear => some (asciiText "clear")
  | .echo => some (asciiText "echo [text ...]")
  | .ls => some (asciiText "ls")
  | .cat => some (asciiText "cat <name>")
  | .touch => some (asciiText "touch <name>")
  | .write => some (asciiText "write <name> <text ...>")
  | .append => some (asciiText "append <name> <text ...>")
  | .rm => some (asciiText "rm <name>")
  | .status => some (asciiText "status")
  | .about => some (asciiText "about")
  | .unknown => none

def shellCommandHelp : List U8 :=
  ["help\n", "clear\n", "echo [text ...]\n", "ls\n", "cat <name>\n", "touch <name>\n",
    "write <name> <text ...>\n", "append <name> <text ...>\n", "rm <name>\n", "status\n",
    "about"].flatMap asciiText

end TinyShell
