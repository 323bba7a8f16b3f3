import TinyShell.Machine.Cells

/-!
# The console (`kernel/console/console.c`, `kernel/serial.c`)

The state holds the VGA cells, the cursor and all bytes given to the serial port so
far; the port is taken to be ready in the end. A text is the list of the bytes before
its NUL. Other components only call the console and never read it, so what they do to it
is a list of `ConsoleCall`s.
-/

namespace TinyShell

open Machine

abbrev vgaWidth : ℕ := 80

abbrev vgaHeight : ℕ := 25

abbrev vgaBufferCells : ℕ := vgaWidth * vgaHeight

@[ext]
structure Console where
  vgaBuffer : Fin vgaBufferCells → U16
  vgaRow : ℕ
  vgaColumn : ℕ
  /-- The bytes written to `COM1`, the oldest first. -/
  serial : List U8

/-! ## The serial port -/

def serialWriteChar (c : Console) (value : U8) : Console := { c with serial := c.serial ++ [value] }

def serialWrite (c : Console) : List U8 → Console
  | [] => c
  | value :: text =>
    let c := if value = 0x0A#8 then serialWriteChar c 0x0D#8 else c
    serialWrite (serialWriteChar c value) text

/-! ## The screen -/

def vgaEntry (value : U8) : U16 := value.setWidth 16 ||| (0x07#16 <<< 8)

def vgaBlank : U16 := vgaEntry 0x20#8

/-- `vga_buffer[index]`. -/
def vgaCell (c : Console) (index : ℕ) : U16 :=
  if h : index < vgaBufferCells then c.vgaBuffer ⟨index, h⟩ else 0#16

def vgaPutCell (c : Console) (row column : ℕ) (entry : U16) : Console :=
  let index := row * vgaWidth + column
  if index ≥ vgaBufferCells then c else { c with vgaBuffer := store c.vgaBuffer index entry }

/-- `vga_put_cell` with its guard checked: `none` where it drops a store. -/
def vgaPutCellChecked (c : Console) (row column : ℕ) (entry : U16) : Option Console :=
  let index := row * vgaWidth + column
  if index ≥ vgaBufferCells then none else some { c with vgaBuffer := store c.vgaBuffer index entry }

/-- `serial_putc`: a text of one byte. -/
def serialPutc (c : Console) (value : U8) : Console := serialWrite c (cString 1 fun _ => value)

/-! The functions over `vga_put_cell` are written once for both, in the monad of the store. -/

section screen

variable {m : Type → Type} [Monad m] (putCell : Console → ℕ → ℕ → U16 → m Console)

/-- `for (column = 0; column < VGA_WIDTH; ++column) vga_put_cell(row, column, …)`; the
entry is read when it is stored. -/
def vgaPutRowM (c : Console) (row : ℕ) (entry : Console → ℕ → U16) : m Console :=
  (List.range' 0 vgaWidth).foldlM (fun c column => putCell c row column (entry c column)) c

def vgaScrollM (c : Console) : m Console := do
  let c ← (List.range' 0 (vgaHeight - 1)).foldlM
    (fun c row => vgaPutRowM putCell c row fun c column => vgaCell c ((row + 1) * vgaWidth + column)) c
  let c ← vgaPutRowM putCell c (vgaHeight - 1) fun _ _ => vgaBlank
  pure { c with vgaRow := vgaHeight - 1 }

def vgaAdvanceLineM (c : Console) : m Console :=
  let c := { c with vgaColumn := 0, vgaRow := c.vgaRow + 1 }
  if c.vgaRow = vgaHeight then vgaScrollM putCell c else pure c

def vgaBackspaceM (c : Console) : m (Bool × Console) :=
  if c.vgaColumn > 0 then do
    let c := { c with vgaColumn := c.vgaColumn - 1 }
    let c ← putCell c c.vgaRow c.vgaColumn vgaBlank
    pure (true, c)
  else if c.vgaRow > 0 then do
    let c := { c with vgaRow := c.vgaRow - 1, vgaColumn := vgaWidth - 1 }
    let c ← putCell c c.vgaRow c.vgaColumn vgaBlank
    pure (true, c)
  else pure (false, c)

def vgaPutPrintableM (c : Console) (value : U8) : m Console := do
  let c ← putCell c c.vgaRow c.vgaColumn (vgaEntry value)
  let c := { c with vgaColumn := c.vgaColumn + 1 }
  if c.vgaColumn = vgaWidth then vgaAdvanceLineM putCell c else pure c

def consoleClearM (c : Console) : m Console := do
  let c ← (List.range' 0 vgaHeight).foldlM (fun c row => vgaPutRowM putCell c row fun _ _ => vgaBlank) c
  pure { c with vgaRow := 0, vgaColumn := 0 }

def consolePutcM (c : Console) (value : U8) : m Console :=
  if value = 0x0A#8 then do
    let c ← vgaAdvanceLineM putCell c
    pure (serialPutc c value)
  else if value = 0x0D#8 then pure (serialPutc { c with vgaColumn := 0 } value)
  else if value = 0x08#8 then do
    let (erased, c) ← vgaBackspaceM putCell c
    pure (if erased then serialWrite c [0x08#8, 0x20#8, 0x08#8] else c)
  else if value < 0x20#8 ∨ value > 0x7E#8 then pure c
  else do
    let c ← vgaPutPrintableM putCell c value
    pure (serialPutc c value)

end screen

def vgaPutRow (c : Console) (row : ℕ) (entry : Console → ℕ → U16) : Console :=
  vgaPutRowM (m := Id) vgaPutCell c row entry

def vgaScroll (c : Console) : Console := vgaScrollM (m := Id) vgaPutCell c

def vgaAdvanceLine (c : Console) : Console := vgaAdvanceLineM (m := Id) vgaPutCell c

def vgaBackspace (c : Console) : Bool × Console := vgaBackspaceM (m := Id) vgaPutCell c

def vgaPutPrintable (c : Console) (value : U8) : Console := vgaPutPrintableM (m := Id) vgaPutCell c value

def consoleClear (c : Console) : Console := consoleClearM (m := Id) vgaPutCell c

/-- `serial_init` sets up registers of the port that the model does not have. -/
def consoleInit (c : Console) : Console := consoleClear c

def consolePutc (c : Console) (value : U8) : Console := consolePutcM (m := Id) vgaPutCell c value

/-- `console_init` with the stores checked. -/
def consoleInitChecked (c : Console) : Option Console := consoleClearM vgaPutCellChecked c

/-- `console_putc` with the stores checked. -/
def consolePutcChecked (c : Console) (value : U8) : Option Console := consolePutcM vgaPutCellChecked c value

/-! ## Calls -/

inductive ConsoleCall
  | putc (value : U8)
  | clear
  deriving DecidableEq

def consoleStep (c : Console) : ConsoleCall → Console
  | .putc value => consolePutc c value
  | .clear => consoleClear c

/-- `console_write`. -/
def consoleWrite (text : List U8) : List ConsoleCall := text.map .putc

/-- The loop of `console_write_u32_dec` that collects the digits, the last one first. -/
def decDigits (value : U32) : List U8 :=
  if value > 0#32 then (0x30#8 + (value % 10#32).setWidth 8) :: decDigits (value / 10#32) else []
termination_by value.toNat
decreasing_by
  rw [BitVec.toNat_udiv]
  exact Nat.div_lt_self (by bv_omega) (by decide)

/-- `console_write_u32_dec`. -/
def consoleWriteU32Dec (value : U32) : List ConsoleCall :=
  if value = 0#32 then [.putc 0x30#8] else consoleWrite (decDigits value).reverse

/-- `console_write_u32_hex`. -/
def consoleWriteU32Hex (value : U32) : List ConsoleCall :=
  consoleWrite (asciiText "0x") ++
    (List.range 8).reverse.map fun nibble =>
      .putc ((asciiText "0123456789abcdef").getD (value >>> (nibble * 4) &&& 0xF#32).toNat 0#8)

/-! ## Reading the serial port (`tools/qemu-shell-test.py`) -/

/-- The loop of `visible_serial` over the text that is left. -/
def visibleSerial : List U8 → List U8 → List U8
  | [], visible => visible
  | character :: rest, visible =>
    if (character :: rest).take 3 = [0x08#8, 0x20#8, 0x08#8] then visibleSerial (rest.drop 2) visible.dropLast
    else if character = 0x08#8 then visibleSerial rest visible.dropLast
    else visibleSerial rest (visible ++ [character])
termination_by text => text.length
decreasing_by all_goals simp

/-- The serial output as the test reads it: without carriage returns, and replayed. -/
def shownText (serial : List U8) : List U8 := visibleSerial (serial.filter (· ≠ 0x0D#8)) []

end TinyShell
