import TinyShell.Machine.Loop
import TinyShell.Spec.Console

/-!
# What the console shows

Each screen operation is described cell by cell through `vgaCell`: a scroll moves the
cells up by a row (`vgaCell_scroll`), and whatever is printed, the cells before the
cursor end with the printed text.

* `Transcript`: how the replay of the serial output proceeds, however it goes on.
* `Showing base c t`: the screen before the cursor and the replayed serial output since
  `base` both end with `t`; `Showing.putc_printable`, `Showing.putc_backspace` and
  `Showing.step` say what each call does to `t`.
-/

namespace TinyShell

open Machine

variable {c : Console} {t : List U8}

/-- The cursor's index in the buffer. -/
def Console.cursor (c : Console) : ℕ := c.vgaRow * vgaWidth + c.vgaColumn

/-- The `n` cells before the cursor. -/
def cellsBefore (c : Console) (n : ℕ) : List U16 := (List.range n).map fun i => vgaCell c (c.cursor - n + i)

/-! ## The functions of the code -/

theorem vgaPutRow_eq (c : Console) (row : ℕ) (entry : Console → ℕ → U16) :
    vgaPutRow c row entry =
      (List.range' 0 80).foldl (fun c column => vgaPutCell c row column (entry c column)) c :=
  foldlM_id _ _ _

theorem vgaAdvanceLine_eq (c : Console) :
    vgaAdvanceLine c =
      if c.vgaRow + 1 = 25 then vgaScroll { c with vgaColumn := 0, vgaRow := c.vgaRow + 1 }
      else { c with vgaColumn := 0, vgaRow := c.vgaRow + 1 } := rfl

theorem vgaBackspace_eq (c : Console) :
    vgaBackspace c =
      if c.vgaColumn > 0 then
        (true, vgaPutCell { c with vgaColumn := c.vgaColumn - 1 } c.vgaRow (c.vgaColumn - 1) vgaBlank)
      else if c.vgaRow > 0 then
        (true, vgaPutCell { c with vgaRow := c.vgaRow - 1, vgaColumn := 79 } (c.vgaRow - 1) 79 vgaBlank)
      else (false, c) := rfl

theorem vgaPutPrintable_eq (c : Console) (value : U8) :
    vgaPutPrintable c value =
      let c := vgaPutCell c c.vgaRow c.vgaColumn (vgaEntry value)
      if c.vgaColumn + 1 = 80 then vgaAdvanceLine { c with vgaColumn := c.vgaColumn + 1 }
      else { c with vgaColumn := c.vgaColumn + 1 } := rfl

theorem consoleClear_eq (c : Console) :
    consoleClear c =
      { (List.range' 0 25).foldl (fun c row => vgaPutRow c row fun _ _ => vgaBlank) c with
        vgaRow := 0, vgaColumn := 0 } := by
  rw [← foldlM_id]
  rfl

theorem consolePutc_eq (c : Console) (value : U8) :
    consolePutc c value =
      if value = 0x0A#8 then serialPutc (vgaAdvanceLine c) value
      else if value = 0x0D#8 then serialPutc { c with vgaColumn := 0 } value
      else if value = 0x08#8 then
        if (vgaBackspace c).1 then serialWrite (vgaBackspace c).2 [0x08#8, 0x20#8, 0x08#8] else (vgaBackspace c).2
      else if value < 0x20#8 ∨ value > 0x7E#8 then c
      else serialPutc (vgaPutPrintable c value) value := rfl

/-! ## Cells -/

theorem vgaCell_putCell {row column : ℕ} (h : row * 80 + column < 2000) (entry : U16) (i : ℕ) :
    vgaCell (vgaPutCell c row column entry) i = if i = row * 80 + column then entry else vgaCell c i := by
  have hput : vgaPutCell c row column entry =
      { c with vgaBuffer := store c.vgaBuffer (row * 80 + column) entry } := if_neg (Nat.not_le.2 h)
  rw [hput]
  by_cases hi : i < vgaBufferCells
  · simp only [vgaCell, dif_pos hi, store]
  · rw [vgaCell, dif_neg hi, vgaCell, dif_neg hi, if_neg]
    rintro rfl
    exact hi h

/-- What only changes cells keeps the cursor and the serial port. -/
structure SameCursor (c c' : Console) : Prop where
  row : c'.vgaRow = c.vgaRow
  column : c'.vgaColumn = c.vgaColumn
  serial : c'.serial = c.serial

theorem SameCursor.putCell {c c' : Console} (h : SameCursor c c') (row column : ℕ) (entry : U16) :
    SameCursor c (vgaPutCell c' row column entry) := by
  unfold vgaPutCell
  dsimp only
  split_ifs
  · exact h
  · exact ⟨h.row, h.column, h.serial⟩

/-- The loop over a row. -/
theorem vgaPutRow_inv {I : ℕ → Console → Prop} {row : ℕ} {entry : Console → ℕ → U16} (h0 : I 0 c)
    (hstep : ∀ k c, k < 80 → I k c → I (k + 1) (vgaPutCell c row k (entry c k))) :
    I 80 (vgaPutRow c row entry) := by
  have h := foldl_range'_inv (I := I) (n := 80) (f := fun c k => vgaPutCell c row k (entry c k)) h0
    fun k c _ hk hc => hstep k c (by omega) hc
  rw [vgaPutRow_eq]
  rwa [Nat.zero_add] at h

theorem SameCursor.putRow {c c' : Console} (h : SameCursor c c') (row : ℕ) (entry : Console → ℕ → U16) :
    SameCursor c (vgaPutRow c' row entry) :=
  vgaPutRow_inv (I := fun _ => SameCursor c) h fun _ _ _ hc => hc.putCell _ _ _

theorem SameCursor.foldl {c c' : Console} (h : SameCursor c c') {f : Console → ℕ → Console}
    (hf : ∀ c' row, SameCursor c c' → SameCursor c (f c' row)) (rows : List ℕ) :
    SameCursor c (rows.foldl f c') := by
  induction rows generalizing c' with
  | nil => exact h
  | cons row rows ih => exact ih (hf _ _ h)

/-- A copy of the next row's cells, up to index `k`. -/
def Shifted (c : Console) (k : ℕ) (c' : Console) : Prop :=
  ∀ i, vgaCell c' i = if i < k then vgaCell c (i + 80) else vgaCell c i

/-- The loop of `vga_scroll` over one row. -/
def copyRow (c : Console) (row : ℕ) : Console :=
  vgaPutRow c row fun c column => vgaCell c ((row + 1) * vgaWidth + column)

theorem Shifted.copyRow {c' : Console} {row : ℕ} (hrow : row < 24) (h : Shifted c (row * 80) c') :
    Shifted c (row * 80 + 80) (copyRow c' row) := by
  refine vgaPutRow_inv (I := fun k => Shifted c (row * 80 + k)) h ?_
  intro k c' hk hc i
  -- the cell that is read has not been written yet
  have hread : vgaCell c' ((row + 1) * vgaWidth + k) = vgaCell c (row * 80 + k + 80) := by
    rw [hc, show (row + 1) * vgaWidth + k = row * 80 + k + 80 from by change (row + 1) * 80 + k = _; omega,
      if_neg (by omega)]
  rw [vgaCell_putCell (by omega), hread, hc i]
  by_cases hi : i = row * 80 + k
  · rw [if_pos hi, if_pos (by omega), hi]
  · rw [if_neg hi]
    by_cases hlt : i < row * 80 + k
    · rw [if_pos hlt, if_pos (by omega)]
    · rw [if_neg hlt, if_neg (by omega)]

theorem vgaScroll_eq (c : Console) :
    vgaScroll c =
      { vgaPutRow ((List.range' 0 24).foldl copyRow c) 24 fun _ _ => vgaBlank with vgaRow := 24 } := by
  rw [← foldlM_id]
  rfl

/-- Above the last row a scroll leaves the cells of the next row. -/
theorem vgaCell_scroll {i : ℕ} (hi : i < 1920) : vgaCell (vgaScroll c) i = vgaCell c (i + 80) := by
  have hrows : Shifted c ((0 + 24) * 80) ((List.range' 0 24).foldl copyRow c) :=
    foldl_range'_inv (I := fun row => Shifted c (row * 80)) (fun i => by rw [if_neg (by omega)])
      fun row c' _ hrow hc => by
        rw [Nat.succ_mul]
        exact hc.copyRow (by omega)
  have hlast : ∀ c' : Console, vgaCell (vgaPutRow c' 24 fun _ _ => vgaBlank) i = vgaCell c' i := fun c' =>
    vgaPutRow_inv (I := fun _ c'' => vgaCell c'' i = vgaCell c' i) rfl fun k c'' hk hc => by
      rw [vgaCell_putCell (by omega), if_neg (by omega), hc]
  have hrow : ∀ c' : Console, vgaCell { c' with vgaRow := 24 } i = vgaCell c' i := fun _ => rfl
  rw [vgaScroll_eq, hrow, hlast, hrows i, if_pos (by omega)]

theorem vgaScroll_cursor (c : Console) :
    (vgaScroll c).vgaRow = 24 ∧ (vgaScroll c).vgaColumn = c.vgaColumn ∧ (vgaScroll c).serial = c.serial := by
  have hrows : SameCursor c ((List.range' 0 24).foldl copyRow c) :=
    SameCursor.foldl ⟨rfl, rfl, rfl⟩ (fun _ row h => h.putRow row _) _
  have hlast := hrows.putRow 24 fun _ _ => vgaBlank
  rw [vgaScroll_eq]
  generalize vgaPutRow _ 24 _ = c' at hlast ⊢
  exact ⟨rfl, hlast.column, hlast.serial⟩

/-! ## The cursor -/

/-- The cells up to index `stop` are those before the new cursor, a row further up
where the screen has scrolled. -/
structure Advanced (c c' : Console) (stop : ℕ) : Prop where
  row_lt : c'.vgaRow < 25
  column_lt : c'.vgaColumn < 80
  serial : c'.serial = c.serial
  moved : ∃ d, (d = 0 ∨ c'.cursor = 1920) ∧ c'.cursor + d = stop ∧
    ∀ i < c'.cursor, vgaCell c' i = vgaCell c (i + d)

theorem cursor_eq (c : Console) : c.cursor = c.vgaRow * 80 + c.vgaColumn := rfl

theorem vgaAdvanceLine_advanced (hrow : c.vgaRow < 25) : Advanced c (vgaAdvanceLine c) (c.vgaRow * 80 + 80) := by
  have hcells : ∀ i, vgaCell { c with vgaColumn := 0, vgaRow := c.vgaRow + 1 } i = vgaCell c i := fun _ => rfl
  rw [vgaAdvanceLine_eq]
  by_cases hlast : c.vgaRow + 1 = 25
  · rw [if_pos hlast]
    obtain ⟨hr, hc, hs⟩ := vgaScroll_cursor { c with vgaColumn := 0, vgaRow := c.vgaRow + 1 }
    have hcursor : (vgaScroll { c with vgaColumn := 0, vgaRow := c.vgaRow + 1 }).cursor = 1920 := by
      rw [cursor_eq, hr, hc]
      rfl
    refine ⟨by omega, hc.trans_lt (show 0 < 80 by decide), hs, 80, .inr hcursor, by omega, ?_⟩
    intro i hi
    rw [vgaCell_scroll (by omega), hcells]
  · rw [if_neg hlast]
    refine ⟨by dsimp only; omega, show 0 < 80 by decide, rfl, 0, .inl rfl,
      by rw [cursor_eq]; dsimp only; omega, ?_⟩
    intro i _
    rw [hcells, Nat.add_zero]

theorem vgaPutPrintable_advanced (hrow : c.vgaRow < 25) (hcolumn : c.vgaColumn < 80) (value : U8) :
    Advanced (vgaPutCell c c.vgaRow c.vgaColumn (vgaEntry value)) (vgaPutPrintable c value) (c.cursor + 1) := by
  have hsame : SameCursor c (vgaPutCell c c.vgaRow c.vgaColumn (vgaEntry value)) :=
    SameCursor.putCell ⟨rfl, rfl, rfl⟩ _ _ _
  rw [vgaPutPrintable_eq]
  dsimp only
  generalize vgaPutCell c c.vgaRow c.vgaColumn (vgaEntry value) = put at hsame ⊢
  by_cases hwrap : put.vgaColumn + 1 = 80
  · rw [if_pos hwrap]
    have h := vgaAdvanceLine_advanced (c := { put with vgaColumn := put.vgaColumn + 1 })
      (by dsimp only; rw [hsame.row]; exact hrow)
    refine ⟨h.row_lt, h.column_lt, h.serial, ?_⟩
    obtain ⟨d, hd, hstop, hcells⟩ := h.moved
    refine ⟨d, hd, ?_, hcells⟩
    rw [hstop, cursor_eq, ← hsame.row, ← hsame.column]
    dsimp only
    omega
  · rw [if_neg hwrap]
    have hcol := hsame.column
    refine ⟨by dsimp only; rw [hsame.row]; exact hrow, by dsimp only; omega, rfl, 0, .inl rfl, ?_, fun i _ => rfl⟩
    rw [cursor_eq, cursor_eq, ← hsame.row, ← hsame.column]
    dsimp only
    omega

/-- The cursor is one cell back, and nothing before it has changed. -/
structure SteppedBack (c c' : Console) : Prop where
  row_lt : c'.vgaRow < 25
  column_lt : c'.vgaColumn < 80
  serial : c'.serial = c.serial
  cursor : c'.cursor + 1 = c.cursor
  cells : ∀ i < c'.cursor, vgaCell c' i = vgaCell c i

theorem SteppedBack.blank {c' : Console} (h : SteppedBack c c') :
    SteppedBack c (vgaPutCell c' c'.vgaRow c'.vgaColumn vgaBlank) := by
  have hsame : SameCursor c' (vgaPutCell c' c'.vgaRow c'.vgaColumn vgaBlank) :=
    SameCursor.putCell ⟨rfl, rfl, rfl⟩ _ _ _
  have hcursor : (vgaPutCell c' c'.vgaRow c'.vgaColumn vgaBlank).cursor = c'.cursor := by
    rw [cursor_eq, hsame.row, hsame.column, cursor_eq]
  refine ⟨hsame.row.trans_lt h.row_lt, hsame.column.trans_lt h.column_lt, hsame.serial.trans h.serial,
    hcursor ▸ h.cursor, ?_⟩
  intro i hi
  rw [hcursor] at hi
  have hr := h.row_lt
  have hc := h.column_lt
  rw [vgaCell_putCell (by omega), if_neg (by rw [cursor_eq] at hi; omega), h.cells i hi]

/-- A backspace that is not at the first cell steps back. -/
theorem vgaBackspace_spec (hrow : c.vgaRow < 25) (hcolumn : c.vgaColumn < 80) (hpos : 0 < c.cursor) :
    (vgaBackspace c).1 = true ∧ SteppedBack c (vgaBackspace c).2 := by
  rw [cursor_eq] at hpos
  rw [vgaBackspace_eq]
  by_cases hcol : c.vgaColumn > 0
  · rw [if_pos hcol]
    have h : SteppedBack c { c with vgaColumn := c.vgaColumn - 1 } :=
      ⟨hrow, by dsimp only; omega, rfl, by rw [cursor_eq, cursor_eq]; dsimp only; omega, fun _ _ => rfl⟩
    exact ⟨rfl, h.blank⟩
  · rw [if_neg hcol, if_pos (by omega)]
    have h : SteppedBack c { c with vgaRow := c.vgaRow - 1, vgaColumn := 79 } := by
      refine ⟨by dsimp only; omega, show 79 < 80 by decide, rfl, ?_, fun _ _ => rfl⟩
      rw [cursor_eq, cursor_eq]
      change (c.vgaRow - 1) * 80 + 79 + 1 = c.vgaRow * 80 + c.vgaColumn
      omega
    exact ⟨rfl, h.blank⟩

/-! ## The serial port -/

/-- However the output goes on, its replay up to here leaves `shown`. -/
def Transcript (output shown : List U8) : Prop :=
  ∀ rest, visibleSerial (output ++ rest) [] = visibleSerial rest shown

theorem Transcript.nil : Transcript [] [] := fun _ => rfl

theorem Transcript.push {output shown : List U8} (h : Transcript output shown) {character : U8}
    (hne : character ≠ 0x08#8) : Transcript (output ++ [character]) (shown ++ [character]) := by
  intro rest
  rw [List.append_assoc, h, List.singleton_append, visibleSerial, if_neg, if_neg hne]
  intro htriple
  rw [List.take_succ_cons, List.cons.injEq] at htriple
  exact hne htriple.1

theorem Transcript.erase {output shown : List U8} (h : Transcript output shown) :
    Transcript (output ++ [0x08#8, 0x20#8, 0x08#8]) shown.dropLast := by
  intro rest
  rw [List.append_assoc, h]
  simp only [List.cons_append, List.nil_append]
  rw [visibleSerial, if_pos rfl]
  rfl

theorem Transcript.shownText {output shown : List U8} (h : Transcript (output.filter (· ≠ 0x0D#8)) shown) :
    shownText output = shown := by
  have := h []
  rw [List.append_nil, visibleSerial] at this
  exact this

theorem serialPutc_eq (c : Console) {value : U8} (h0 : value ≠ 0#8) :
    serialPutc c value =
      { c with serial := c.serial ++ if value = 0x0A#8 then [0x0D#8, 0x0A#8] else [value] } := by
  have htext : cString 1 (fun _ => value) = [value] := by rw [cString, if_neg h0, cString]
  rw [serialPutc, htext, serialWrite, serialWrite]
  split_ifs with hlf
  · simp [serialWriteChar, hlf]
  · rfl

theorem serialWrite_erase (c : Console) :
    serialWrite c [0x08#8, 0x20#8, 0x08#8] = { c with serial := c.serial ++ [0x08#8, 0x20#8, 0x08#8] } := by
  simp [serialWrite, serialWriteChar]

/-! ## Both -/

/-- The cursor is on the screen, the cells before it end with `t`, and so does the
replay of what went to the serial port since `base`. -/
structure Showing (base : List U8) (c : Console) (t : List U8) : Prop where
  row_lt : c.vgaRow < 25
  column_lt : c.vgaColumn < 80
  length_le : t.length ≤ c.cursor
  cells : cellsBefore c t.length = t.map vgaEntry
  serial : ∃ since shown, c.serial = base ++ since ∧ Transcript (since.filter (· ≠ 0x0D#8)) (shown ++ t)

variable {base : List U8}

/-- A console whose cursor is on the screen, at the start of the output. -/
theorem Showing.start (hrow : c.vgaRow < 25) (hcolumn : c.vgaColumn < 80) : Showing c.serial c [] :=
  ⟨hrow, hcolumn, Nat.zero_le _, rfl, [], [], (List.append_nil _).symm, Transcript.nil⟩

theorem Showing.forget (h : Showing base c t) : Showing base c [] := by
  obtain ⟨since, shown, hserial, htranscript⟩ := h.serial
  refine ⟨h.row_lt, h.column_lt, Nat.zero_le _, rfl, since, shown ++ t, hserial, ?_⟩
  rwa [List.append_nil]

/-- A printable character is added. -/
theorem Showing.putc_printable (h : Showing base c t) {value : U8} (hlow : 0x20#8 ≤ value)
    (hhigh : value ≤ 0x7E#8) (ht : t.length < 1920) : Showing base (consolePutc c value) (t ++ [value]) := by
  have hlf : value ≠ 0x0A#8 := by bv_omega
  have hcr : value ≠ 0x0D#8 := by bv_omega
  have hbs : value ≠ 0x08#8 := by bv_omega
  have h0 : value ≠ 0#8 := by bv_omega
  have hputc : consolePutc c value =
      { vgaPutPrintable c value with serial := (vgaPutPrintable c value).serial ++ [value] } := by
    rw [consolePutc_eq, if_neg hlf, if_neg hcr, if_neg hbs, if_neg (by bv_omega), serialPutc_eq _ h0, if_neg hlf]
  have hprint := vgaPutPrintable_advanced h.row_lt h.column_lt value
  obtain ⟨d, hd, hcursor, hcells⟩ := hprint.moved
  obtain ⟨since, shown, hserial, htranscript⟩ := h.serial
  have hrow := h.row_lt
  have hcolumn := h.column_lt
  have hle := h.length_le
  have hput : ∀ i, vgaCell (vgaPutCell c c.vgaRow c.vgaColumn (vgaEntry value)) i =
      if i = c.cursor then vgaEntry value else vgaCell c i := vgaCell_putCell (by omega) _
  have hserial' : (vgaPutPrintable c value).serial = base ++ since := by
    rw [hprint.serial, (SameCursor.putCell ⟨rfl, rfl, rfl⟩ _ _ _ : SameCursor c _).serial, hserial]
  rw [hputc]
  generalize vgaPutPrintable c value = c' at hprint hcursor hcells hd hserial' ⊢
  have hlen : t.length + 1 ≤ c'.cursor := by omega
  refine ⟨hprint.row_lt, hprint.column_lt, ?_, ?_, since ++ [value], shown, ?_, ?_⟩
  · rw [List.length_append]
    exact hlen
  · -- the cell at the old cursor comes last, the older ones stay in front of it
    have hshift : ∀ i < t.length + 1, vgaCell c' (c'.cursor - (t.length + 1) + i) =
        if i = t.length then vgaEntry value else vgaCell c (c.cursor - t.length + i) := by
      intro i hi
      rw [hcells _ (by omega), hput]
      by_cases hlast : i = t.length
      · rw [if_pos (by omega), if_pos hlast]
      · rw [if_neg (by omega), if_neg hlast]
        congr 1
        omega
    rw [List.map_append, ← h.cells, List.length_append]
    unfold cellsBefore
    change (List.range (t.length + 1)).map (fun i => vgaCell c' (c'.cursor - (t.length + 1) + i)) = _
    rw [List.range_succ, List.map_append, List.map_singleton, hshift _ (by omega), if_pos rfl]
    refine congrArg (· ++ [vgaEntry value]) (List.map_congr_left fun i hi => ?_)
    rw [List.mem_range] at hi
    rw [hshift i (by omega), if_neg (by omega)]
  · rw [hserial', List.append_assoc]
  · rw [List.filter_append, List.filter_singleton, decide_eq_true hcr, cond_true, ← List.append_assoc]
    exact htranscript.push hbs

/-- A backspace takes the last character away. -/
theorem Showing.putc_backspace {value : U8} (h : Showing base c (t ++ [value])) :
    Showing base (consolePutc c 0x08#8) t := by
  have hle := h.length_le
  rw [List.length_append, List.length_singleton] at hle
  obtain ⟨herased, hback⟩ := vgaBackspace_spec h.row_lt h.column_lt (by omega)
  have hcursor := hback.cursor
  have hputc : consolePutc c 0x08#8 = { (vgaBackspace c).2 with
      serial := (vgaBackspace c).2.serial ++ [0x08#8, 0x20#8, 0x08#8] } := by
    rw [consolePutc_eq, if_neg (by decide), if_neg (by decide), if_pos rfl]
    dsimp only
    rw [if_pos herased, serialWrite_erase]
  obtain ⟨since, shown, hserial, htranscript⟩ := h.serial
  rw [hputc]
  refine ⟨hback.row_lt, hback.column_lt, by rw [cursor_eq] at hcursor ⊢; dsimp only; omega, ?_,
    since ++ [0x08#8, 0x20#8, 0x08#8], shown, ?_, ?_⟩
  · have hcells := h.cells
    rw [List.length_append, List.length_singleton, List.map_append] at hcells
    unfold cellsBefore at hcells ⊢
    rw [List.range_succ, List.map_append] at hcells
    rw [← (List.append_inj' hcells rfl).1]
    refine List.map_congr_left fun i hi => ?_
    rw [List.mem_range] at hi
    change vgaCell (vgaBackspace c).2 ((vgaBackspace c).2.cursor - t.length + i) = _
    rw [hback.cells _ (by omega)]
    congr 1
    omega
  · rw [hback.serial, hserial, List.append_assoc]
  · have := htranscript.erase
    rw [← List.append_assoc, List.dropLast_concat] at this
    rw [List.filter_append]
    exact this

theorem consoleClear_spec (c : Console) :
    (consoleClear c).vgaRow = 0 ∧ (consoleClear c).vgaColumn = 0 ∧ (consoleClear c).serial = c.serial := by
  have hrows : SameCursor c ((List.range' 0 25).foldl (fun c row => vgaPutRow c row fun _ _ => vgaBlank) c) :=
    SameCursor.foldl ⟨rfl, rfl, rfl⟩ (fun _ row h => h.putRow row _) _
  rw [consoleClear_eq]
  generalize List.foldl _ c _ = c' at hrows ⊢
  exact ⟨rfl, rfl, hrows.serial⟩

/-- Whatever is called, the cursor stays on the screen and the output can be replayed. -/
theorem Showing.step (h : Showing base c t) (call : ConsoleCall) : Showing base (consoleStep c call) [] := by
  have hforget := h.forget
  obtain ⟨since, shown, hserial, htranscript⟩ := hforget.serial
  rw [List.append_nil] at htranscript
  cases call with
  | clear =>
    obtain ⟨hrow, hcolumn, hsame⟩ := consoleClear_spec c
    refine ⟨hrow.trans_lt (by decide), hcolumn.trans_lt (by decide), Nat.zero_le _, rfl, since, shown, ?_, ?_⟩
    · exact hsame.trans hserial
    · rwa [List.append_nil]
  | putc value =>
    rw [consoleStep]
    by_cases hlf : value = 0x0A#8
    · have hline := vgaAdvanceLine_advanced h.row_lt
      rw [consolePutc_eq, if_pos hlf, hlf, serialPutc_eq _ (by decide), if_pos rfl]
      refine ⟨hline.row_lt, hline.column_lt, Nat.zero_le _, rfl, since ++ [0x0D#8, 0x0A#8],
        shown ++ [0x0A#8], ?_, ?_⟩
      · rw [hline.serial, hserial, List.append_assoc]
      · rw [List.filter_append, List.append_nil]
        exact htranscript.push (by decide)
    by_cases hcr : value = 0x0D#8
    · rw [consolePutc_eq, if_neg hlf, if_pos hcr, hcr, serialPutc_eq _ (by decide), if_neg (by decide)]
      refine ⟨h.row_lt, show 0 < 80 by decide, Nat.zero_le _, rfl, since ++ [0x0D#8], shown, ?_, ?_⟩
      · rw [hserial, List.append_assoc]
      · rw [List.filter_append, List.append_nil]
        exact (List.append_nil _).symm ▸ htranscript
    by_cases hbs : value = 0x08#8
    · rw [consolePutc_eq, if_neg hlf, if_neg hcr, if_pos hbs]
      by_cases hpos : 0 < c.cursor
      · obtain ⟨herased, hback⟩ := vgaBackspace_spec h.row_lt h.column_lt hpos
        rw [if_pos herased, serialWrite_erase]
        refine ⟨hback.row_lt, hback.column_lt, Nat.zero_le _, rfl, since ++ [0x08#8, 0x20#8, 0x08#8],
          shown.dropLast, ?_, ?_⟩
        · rw [hback.serial, hserial, List.append_assoc]
        · rw [List.filter_append, List.append_nil]
          exact htranscript.erase
      · -- at the first cell nothing happens, on the screen or on the port
        have hnone : vgaBackspace c = (false, c) := by
          rw [cursor_eq] at hpos
          rw [vgaBackspace_eq, if_neg (by omega), if_neg (by omega)]
        rw [hnone]
        exact hforget
    by_cases hprintable : value < 0x20#8 ∨ value > 0x7E#8
    · rw [consolePutc_eq, if_neg hlf, if_neg hcr, if_neg hbs, if_pos hprintable]
      exact hforget
    · rw [not_or] at hprintable
      exact (hforget.putc_printable (by bv_omega) (by bv_omega) (by decide)).forget

/-- **Run lemma**: so for any list of calls. -/
theorem Showing.steps (h : Showing base c t) (calls : List ConsoleCall) :
    Showing base (calls.foldl consoleStep c) [] := by
  induction calls generalizing c t with
  | nil => exact h.forget
  | cons call calls ih => exact ih (h.step call)

/-- A printable text is added as a whole. -/
theorem Showing.write (h : Showing base c t) {l : List U8} (hl : ∀ x ∈ l, 0x20#8 ≤ x ∧ x ≤ 0x7E#8)
    (ht : t.length + l.length ≤ 1920) : Showing base ((consoleWrite l).foldl consoleStep c) (t ++ l) := by
  induction l generalizing c t with
  | nil => rwa [List.append_nil]
  | cons x l ih =>
    rw [List.forall_mem_cons] at hl
    rw [List.length_cons] at ht
    have hx := h.putc_printable hl.1.1 hl.1.2 (by omega)
    have hrest := ih hx hl.2 (by rw [List.length_append, List.length_singleton]; omega)
    rwa [List.append_assoc, List.singleton_append] at hrest

end TinyShell
