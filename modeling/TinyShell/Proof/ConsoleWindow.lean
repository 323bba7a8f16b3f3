import TinyShell.Machine.Terminal
import TinyShell.Proof.Console

/-!
# The console is a window on an unbounded terminal

`Displays t c`: the 25 rows of cells and the cursor are the window of the terminal `t`. The
screen scrolls by copying, the terminal by moving its window; they agree because the row that
comes into view has never been written.

* `Displays.lineFeed`, `Displays.print`, `Displays.backspace`: each operation of the screen is the
  terminal's.
* `putc_checked`: no store is outside of the buffer.
* `console_window`: both, for every string of bytes.
-/

namespace TinyShell

open Machine

variable {c : Console} {t : Terminal U8}

/-- What the terminal does with a byte. -/
def terminalPut (t : Terminal U8) (byte : U8) : Terminal U8 :=
  if byte = 0x0A#8 then t.lineFeed 25
  else if byte = 0x0D#8 then t.carriageReturn
  else if byte = 0x08#8 then t.backspace 80 0x20#8
  else if 0x20#8 ≤ byte ∧ byte ≤ 0x7E#8 then t.print 80 25 byte
  else t

/-- The screen is the terminal's window. -/
structure Displays (t : Terminal U8) (c : Console) : Prop where
  fits : t.Fits 80 25 0x20#8
  row : t.row = t.top + c.vgaRow
  column : t.column = c.vgaColumn
  cells : ∀ r < 25, ∀ k < 80, vgaCell c (r * 80 + k) = vgaEntry (t.cell (t.top + r) k)

theorem Displays.row_lt (h : Displays t c) : c.vgaRow < 25 := by
  have hlt := h.fits.row_lt
  have hrow := h.row
  omega

theorem Displays.column_lt (h : Displays t c) : c.vgaColumn < 80 := h.column ▸ h.fits.column_lt

/-- The serial port is not part of the screen. -/
theorem Displays.serial (h : Displays t c) (serial : List U8) : Displays t { c with serial } :=
  ⟨h.fits, h.row, h.column, h.cells⟩

/-! ## The screen's operations -/

/-- A row is filled with one entry. -/
theorem vgaCell_fillRow {row : ℕ} (hrow : row < 25) (entry : U16) (i : ℕ) :
    vgaCell (vgaPutRow c row fun _ _ => entry) i =
      if row * 80 ≤ i ∧ i < row * 80 + 80 then entry else vgaCell c i := by
  refine vgaPutRow_inv
    (I := fun k c' => vgaCell c' i = if row * 80 ≤ i ∧ i < row * 80 + k then entry else vgaCell c i) ?_ ?_
  · rw [if_neg (by omega)]
  · intro k c' hk hc
    rw [vgaCell_putCell (by omega), hc]
    by_cases hi : i = row * 80 + k
    · rw [if_pos hi, if_pos (by omega)]
    · rw [if_neg hi]
      congr 1
      apply propext
      omega

/-- The last row after a scroll is blank. -/
theorem vgaCell_scroll_last {i : ℕ} (hi : 1920 ≤ i) (hlt : i < 2000) : vgaCell (vgaScroll c) i = vgaBlank := by
  have hfill := vgaCell_fillRow (c := (List.range' 0 24).foldl copyRow c) (show 24 < 25 by decide) vgaBlank i
  rw [if_pos (by omega)] at hfill
  have hrow : ∀ c' : Console, vgaCell { c' with vgaRow := 24 } i = vgaCell c' i := fun _ => rfl
  rw [vgaScroll_eq, hrow, hfill]

theorem vgaCell_clear {i : ℕ} (hi : i < 2000) : vgaCell (consoleClear c) i = vgaBlank := by
  have hrows := foldl_range'_inv (I := fun row c' => i < row * 80 → vgaCell c' i = vgaBlank) (n := 25) (a := 0)
    (f := fun c row => vgaPutRow c row fun _ _ => vgaBlank) (s := c) (by omega)
    (by
      intro row c' _ hrow hc hlt
      rw [vgaCell_fillRow (by omega)]
      split_ifs with hin
      · rfl
      · exact hc (by omega))
  have hcursor : ∀ c' : Console, vgaCell { c' with vgaRow := 0, vgaColumn := 0 } i = vgaCell c' i := fun _ => rfl
  rw [consoleClear_eq, hcursor]
  exact hrows (by omega)

theorem Displays.put (h : Displays t c) (x : U8) :
    Displays (t.put x) (vgaPutCell c c.vgaRow c.vgaColumn (vgaEntry x)) := by
  have hsame : SameCursor c (vgaPutCell c c.vgaRow c.vgaColumn (vgaEntry x)) :=
    SameCursor.putCell ⟨rfl, rfl, rfl⟩ _ _ _
  have hr := h.row_lt
  have hc := h.column_lt
  refine ⟨h.fits.put x, ?_, ?_, ?_⟩
  · rw [hsame.row]
    exact h.row
  · rw [hsame.column]
    exact h.column
  · intro r hr' k hk
    rw [vgaCell_putCell (by omega), Terminal.put_cell, h.row, h.column]
    change _ = vgaEntry (if t.top + r = t.top + c.vgaRow ∧ k = c.vgaColumn then x else t.cell (t.top + r) k)
    -- both write the cursor's cell, the terminal counting from its first line and the screen from its top
    by_cases hcursor : r = c.vgaRow ∧ k = c.vgaColumn
    · rw [if_pos (by omega), if_pos (by omega)]
    · rw [if_neg (by omega), if_neg (by omega), h.cells r hr' k hk]

theorem Displays.lineFeed (h : Displays t c) : Displays (t.lineFeed 25) (vgaAdvanceLine c) := by
  have hfits := h.fits.lineFeed (by decide) (by decide)
  have hrow := h.row
  have hlt := h.row_lt
  have hcells : ∀ i, vgaCell { c with vgaColumn := 0, vgaRow := c.vgaRow + 1 } i = vgaCell c i := fun _ => rfl
  rw [vgaAdvanceLine_eq]
  by_cases hlast : c.vgaRow + 1 = 25
  · rw [if_pos hlast]
    have htop : (t.lineFeed 25).top = t.top + 1 := if_pos (by omega)
    obtain ⟨hr, hc, -⟩ := vgaScroll_cursor { c with vgaColumn := 0, vgaRow := c.vgaRow + 1 }
    refine ⟨hfits, ?_, ?_, ?_⟩
    · rw [htop, hr]
      change t.row + 1 = t.top + 1 + 24
      omega
    · rw [hc]
      rfl
    · intro r hr' k hk
      rw [htop]
      change _ = vgaEntry (t.cell (t.top + 1 + r) k)
      by_cases hend : r = 24
      · -- the row that comes into view has never been written
        rw [vgaCell_scroll_last (by omega) (by omega), h.fits.below _ (by omega)]
        rfl
      · rw [vgaCell_scroll (by omega), hcells, show r * 80 + k + 80 = (r + 1) * 80 + k by omega,
          h.cells (r + 1) (by omega) k hk, show t.top + (r + 1) = t.top + 1 + r by omega]
  · -- there is a row left, and the window stays
    rw [if_neg hlast]
    have htop : (t.lineFeed 25).top = t.top := if_neg (by omega)
    refine ⟨hfits, ?_, rfl, ?_⟩
    · rw [htop]
      change t.row + 1 = t.top + (c.vgaRow + 1)
      omega
    · intro r hr k hk
      rw [htop]
      exact h.cells r hr k hk

theorem Displays.carriageReturn (h : Displays t c) : Displays t.carriageReturn { c with vgaColumn := 0 } :=
  ⟨h.fits.carriageReturn, h.row, rfl, h.cells⟩

theorem Displays.print (h : Displays t c) (x : U8) : Displays (t.print 80 25 x) (vgaPutPrintable c x) := by
  have hput := h.put x
  have hcolumn := h.column_lt
  have hsame : SameCursor c (vgaPutCell c c.vgaRow c.vgaColumn (vgaEntry x)) :=
    SameCursor.putCell ⟨rfl, rfl, rfl⟩ _ _ _
  rw [Terminal.print, vgaPutPrintable_eq]
  dsimp only
  rw [h.column, hsame.column]
  by_cases hwrap : c.vgaColumn + 1 = 80
  · rw [if_pos hwrap, if_pos hwrap]
    -- the line feed does not look at the column
    have hline := hput.lineFeed
    exact hline
  · rw [if_neg hwrap, if_neg hwrap]
    exact ⟨⟨hput.fits.top_le, hput.fits.row_lt, by dsimp only; omega, hput.fits.below⟩, hput.row, rfl, hput.cells⟩

theorem Displays.backspace (h : Displays t c) : Displays (t.backspace 80 0x20#8) (vgaBackspace c).2 := by
  have hrow := h.row
  have hcolumn := h.column
  have hlt := h.column_lt
  have hr := h.row_lt
  rw [Terminal.backspace, vgaBackspace_eq]
  by_cases hcol : c.vgaColumn > 0
  · rw [if_pos (by omega), if_pos hcol]
    have hback : Displays { t with column := t.column - 1 } { c with vgaColumn := c.vgaColumn - 1 } :=
      ⟨⟨h.fits.top_le, h.fits.row_lt, by dsimp only; omega, h.fits.below⟩, hrow, by dsimp only; omega, h.cells⟩
    exact hback.put 0x20#8
  · rw [if_neg (by omega), if_neg hcol]
    by_cases htop : c.vgaRow > 0
    · -- at the left edge the cursor goes to the end of the row above, whatever was printed there
      rw [if_pos (by omega), if_pos htop]
      have hback : Displays { t with row := t.row - 1, column := 80 - 1 }
          { c with vgaRow := c.vgaRow - 1, vgaColumn := 79 } :=
        ⟨⟨by dsimp only; omega, by dsimp only; omega, by dsimp only; omega, h.fits.below⟩,
          by dsimp only; omega, rfl, h.cells⟩
      exact hback.put 0x20#8
    · rw [if_neg (by omega), if_neg htop]
      exact h

/-- **Step lemma**: a byte does to the screen what it does to the terminal. -/
theorem Displays.putc (h : Displays t c) (byte : U8) : Displays (terminalPut t byte) (consolePutc c byte) := by
  rw [terminalPut, consolePutc_eq]
  by_cases hlf : byte = 0x0A#8
  · rw [if_pos hlf, if_pos hlf, hlf, serialPutc_eq _ (by decide)]
    exact h.lineFeed.serial _
  rw [if_neg hlf, if_neg hlf]
  by_cases hcr : byte = 0x0D#8
  · rw [if_pos hcr, if_pos hcr, hcr, serialPutc_eq _ (by decide)]
    exact h.carriageReturn.serial _
  rw [if_neg hcr, if_neg hcr]
  by_cases hbs : byte = 0x08#8
  · rw [if_pos hbs, if_pos hbs]
    have hback := h.backspace
    split_ifs
    · rw [serialWrite_erase]
      exact hback.serial _
    · exact hback
  rw [if_neg hbs, if_neg hbs]
  by_cases hprint : 0x20#8 ≤ byte ∧ byte ≤ 0x7E#8
  · have h0 : byte ≠ 0#8 := by bv_omega
    rw [if_pos hprint, if_neg (by bv_omega), serialPutc_eq _ h0]
    exact (h.print byte).serial _
  · -- the other control bytes are dropped
    rw [if_neg hprint, if_pos (by bv_omega)]
    exact h

theorem displays_init (c : Console) : Displays (Terminal.start 0x20#8) (consoleInit c) := by
  obtain ⟨hrow, hcolumn, -⟩ := consoleClear_spec c
  refine ⟨Terminal.Fits.start (by decide) (by decide) _, ?_, ?_, ?_⟩
  · exact hrow.symm
  · exact hcolumn.symm
  · intro r hr k hk
    exact vgaCell_clear (by omega)

/-! ## No store is outside of the buffer -/

theorem putCell_checked {row column : ℕ} (h : row * 80 + column < 2000) (entry : U16) :
    vgaPutCellChecked c row column entry = some (vgaPutCell c row column entry) := by
  have hin : ¬row * vgaWidth + column ≥ vgaBufferCells := Nat.not_le.2 h
  unfold vgaPutCellChecked vgaPutCell
  dsimp only
  rw [if_neg hin, if_neg hin]

theorem putRow_checked {row : ℕ} (hrow : row < 25) (c : Console) (entry : Console → ℕ → U16) :
    vgaPutRowM vgaPutCellChecked c row entry = some (vgaPutRow c row entry) := by
  rw [vgaPutRow_eq]
  apply foldlM_eq_some (I := fun _ => True) trivial
  intro c column hcolumn _
  have hlt : column < 80 := by simpa using (List.mem_range'_1.1 hcolumn).2
  exact ⟨putCell_checked (by omega) _, trivial⟩

theorem rows_checked {n : ℕ} (hn : n ≤ 25) (c : Console) (entry : ℕ → Console → ℕ → U16) :
    (List.range' 0 n).foldlM (fun c row => vgaPutRowM vgaPutCellChecked c row (entry row)) c =
      some ((List.range' 0 n).foldl (fun c row => vgaPutRow c row (entry row)) c) := by
  apply foldlM_eq_some (I := fun _ => True) trivial
  intro c row hrow _
  have hlt : row < n := by simpa using (List.mem_range'_1.1 hrow).2
  exact ⟨putRow_checked (by omega) c _, trivial⟩

theorem scroll_checked (c : Console) : vgaScrollM vgaPutCellChecked c = some (vgaScroll c) := by
  rw [vgaScrollM, vgaScroll_eq,
    rows_checked (by decide) c fun row c column => vgaCell c ((row + 1) * vgaWidth + column), Option.bind_eq_bind,
    Option.bind_some, putRow_checked (by decide), Option.bind_some]
  rfl

theorem advanceLine_checked (c : Console) : vgaAdvanceLineM vgaPutCellChecked c = some (vgaAdvanceLine c) := by
  rw [vgaAdvanceLineM, vgaAdvanceLine_eq]
  split_ifs
  · exact scroll_checked _
  · rfl

theorem backspace_checked (hrow : c.vgaRow < 25) (hcolumn : c.vgaColumn < 80) :
    vgaBackspaceM vgaPutCellChecked c = some (vgaBackspace c) := by
  rw [vgaBackspaceM, vgaBackspace_eq]
  split_ifs
  · dsimp only
    rw [putCell_checked (by omega)]
    rfl
  · dsimp only
    rw [putCell_checked (by change (c.vgaRow - 1) * 80 + 79 < 2000; omega)]
    rfl
  · rfl

theorem putPrintable_checked (hrow : c.vgaRow < 25) (hcolumn : c.vgaColumn < 80) (value : U8) :
    vgaPutPrintableM vgaPutCellChecked c value = some (vgaPutPrintable c value) := by
  rw [vgaPutPrintableM, vgaPutPrintable_eq, putCell_checked (by omega), Option.bind_eq_bind, Option.bind_some]
  dsimp only
  split_ifs
  · exact advanceLine_checked _
  · rfl

theorem putc_checked (hrow : c.vgaRow < 25) (hcolumn : c.vgaColumn < 80) (value : U8) :
    consolePutcChecked c value = some (consolePutc c value) := by
  rw [consolePutcChecked, consolePutcM, consolePutc_eq, advanceLine_checked, backspace_checked hrow hcolumn,
    putPrintable_checked hrow hcolumn]
  split_ifs with hfeed hreturn hback herased hother
  · rfl
  · rfl
  · exact congrArg some (if_pos herased)
  · exact congrArg some (if_neg herased)
  · rfl
  · rfl

theorem init_checked (c : Console) : consoleInitChecked c = some (consoleInit c) := by
  rw [consoleInitChecked, consoleClearM, rows_checked (by decide) c fun _ _ _ => vgaBlank, consoleInit,
    consoleClear_eq]
  rfl

/-! ## Every string of bytes -/

/-- **Run lemma.** -/
theorem Displays.run (h : Displays t c) (bytes : List U8) :
    Displays (bytes.foldl terminalPut t) (bytes.foldl consolePutc c) := by
  induction bytes generalizing t c with
  | nil => exact h
  | cons byte bytes ih => exact ih (h.putc byte)

/-- **The console is a window on an unbounded terminal.** Whatever is printed, the cursor is on
the screen, no store is dropped by the guard of `vga_put_cell`, and cells and cursor are those of the
terminal's window. -/
theorem console_window (c₀ : Console) (bytes : List U8) :
    consoleInitChecked c₀ = some (consoleInit c₀) ∧
      let c := bytes.foldl consolePutc (consoleInit c₀)
      bytes.foldlM consolePutcChecked (consoleInit c₀) = some c ∧ c.vgaRow < 25 ∧ c.vgaColumn < 80 ∧
        Displays (bytes.foldl terminalPut (Terminal.start 0x20#8)) c := by
  have hrun := (displays_init c₀).run bytes
  refine ⟨init_checked c₀, ?_, hrun.row_lt, hrun.column_lt, hrun⟩
  apply foldlM_eq_some (I := fun c => ∃ t, Displays t c) ⟨_, displays_init c₀⟩
  rintro c byte - ⟨t, ht⟩
  exact ⟨putc_checked ht.row_lt ht.column_lt byte, _, ht.putc byte⟩

end TinyShell
