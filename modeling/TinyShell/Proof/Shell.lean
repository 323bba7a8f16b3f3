import TinyShell.Proof.Console
import TinyShell.Proof.LineEditor
import TinyShell.Spec.Shell

/-!
# The shell, character by character

After `shell_runtime_init` and `shell_runtime_start` the shell is `Running` with an empty
line, and each character either edits the line (`Edited`) or submits it (`Submitted`).

* `handleChar_cases`: what a character does.
* `screen_agrees`: screen, serial line and edit buffer agree after every character.
-/

namespace TinyShell

open Machine

/-- The shell has been started, and the line in its editor is `l`; it is not waiting for
that line to be taken. -/
structure Running (s : ShellRuntime) (l : LineText) : Prop where
  initialized : s.initialized = true
  started : s.started = true
  editor : ∃ overflow, s.editor = editorOf l overflow false

/-- What an edit of the line prints. -/
inductive Echo (l l' : LineText) : List ConsoleCall → Prop
  | typed {character : U8} : isPrintableAscii character = true → l'.text = l.text ++ [character] →
      Echo l l' [.putc character]
  | erased {character : U8} : l.text = l'.text ++ [character] → Echo l l' [.putc 0x08#8]
  | ignored : l' = l → Echo l l' []

/-- The character has changed the line at most. -/
structure Edited (s : ShellRuntime) (l : LineText) (handled : Handled) (s' : ShellRuntime) (l' : LineText) :
    Prop where
  handled : handled = ⟨none, []⟩
  ramfs : s'.ramfs = s.ramfs
  console : ∃ calls, Echo l l' calls ∧ s'.console = calls.foldl consoleStep s.console

/-- The character has submitted the line: it is answered, and a prompt follows. -/
structure Submitted (s : ShellRuntime) (l : LineText) (status : Option SystemStatus) (handled : Handled)
    (s' : ShellRuntime) : Prop where
  handled : handled = ⟨some l.text, (executeLine s.ramfs l.text status).1⟩
  ramfs : s'.ramfs = (executeLine s.ramfs l.text status).2
  console : ∃ calls, s'.console = (calls ++ printPrompt).foldl consoleStep s.console

variable {s : ShellRuntime} {l : LineText}

/-- The event that the editor gives for a character. -/
theorem handleChar_event (h : Running s l) {overflow : U32} (heditor : s.editor = editorOf l overflow false)
    {character : U8} {event : ShellLineEvent} {editor : ShellLineEditor}
    (hfeed : shellLineEditorFeed (editorOf l overflow false) character = (event, editor))
    (status : Option SystemStatus) :
    shellRuntimeHandleChar s (character, status) = handleEvent s character status event editor := by
  unfold shellRuntimeHandleChar
  rw [if_neg (by simp [h.initialized, h.started]), heditor, hfeed]

theorem handleChar_submit (h : Running s l) {character : U8} (hsubmit : character = 0x0A#8 ∨ character = 0x0D#8)
    (status : Option SystemStatus) :
    Submitted s l status (shellRuntimeHandleChar s (character, status)).1
        (shellRuntimeHandleChar s (character, status)).2 ∧
      Running (shellRuntimeHandleChar s (character, status)).2 .empty := by
  obtain ⟨overflow, heditor⟩ := h.editor
  have hcapacity : l.text.length < (word (shellLineMax + 1)).toNat := Nat.lt_succ_of_le l.length_le
  have htake := take_editorOf l overflow (fun _ => 0#8) hcapacity
  rw [handleChar_event h heditor (feed_submit hsubmit)]
  simp only [handleEvent, htake, cString_lineWith]
  exact ⟨⟨rfl, rfl, _, rfl⟩, h.initialized, h.started, overflow, rfl⟩

/-- A character that does not submit the line. -/
theorem handleChar_edit (h : Running s l) {character : U8} (hsubmit : ¬(character = 0x0A#8 ∨ character = 0x0D#8))
    (status : Option SystemStatus) :
    Edited s l (shellRuntimeHandleChar s (character, status)).1 (shellRuntimeHandleChar s (character, status)).2
        (editStep l character).2 ∧
      Running (shellRuntimeHandleChar s (character, status)).2 (editStep l character).2 := by
  obtain ⟨overflow, heditor⟩ := h.editor
  by_cases hbs : character = 0x08#8
  · subst hbs
    have hedit : editStep l 0x08#8 = (none, l.erase) := if_pos rfl
    rw [hedit, handleChar_event h heditor (feed_backspace l overflow)]
    rcases List.eq_nil_or_concat l.text with hnil | ⟨text, x, hl⟩
    · have hsame : l.erase = l := by
        cases l
        simp_all [LineText.erase]
      rw [if_pos hnil]
      exact ⟨⟨rfl, rfl, [], .ignored hsame, rfl⟩, h.initialized, h.started, overflow, rfl⟩
    · have hne : l.text ≠ [] := by simp [hl]
      have herase : l.text = l.erase.text ++ [x] := by simp [LineText.erase, hl]
      rw [if_neg hne]
      exact ⟨⟨rfl, rfl, _, .erased herase, rfl⟩, h.initialized, h.started, overflow, rfl⟩
  by_cases hroom : isPrintableAscii character = true ∧ l.text.length < shellLineMax
  · have hedit : editStep l character = (none, l.push character hroom) := by
      rw [editStep, if_neg hbs, if_neg hsubmit, dif_pos hroom]
    rw [hedit, handleChar_event h heditor (feed_echo hbs hsubmit hroom)]
    exact ⟨⟨rfl, rfl, _, .typed hroom.1 rfl, rfl⟩, h.initialized, h.started, overflow, rfl⟩
  · have hedit : editStep l character = (none, l) := by
      rw [editStep, if_neg hbs, if_neg hsubmit, dif_neg hroom]
    rw [hedit]
    -- refused for lack of room, or not a character that can be typed
    by_cases hprintable : isPrintableAscii character = true
    · have hfull : ¬l.text.length < shellLineMax := fun hlt => hroom ⟨hprintable, hlt⟩
      rw [handleChar_event h heditor (feed_full hbs hsubmit hprintable hfull)]
      exact ⟨⟨rfl, rfl, [], .ignored rfl, rfl⟩, h.initialized, h.started, overflow + 1, rfl⟩
    · rw [Bool.not_eq_true] at hprintable
      rw [handleChar_event h heditor (feed_ignored hbs hsubmit hprintable)]
      exact ⟨⟨rfl, rfl, [], .ignored rfl, rfl⟩, h.initialized, h.started, overflow, rfl⟩

/-- **Step lemma**: a character edits the line, or it submits the line. -/
theorem handleChar_cases (h : Running s l) (character : U8) (status : Option SystemStatus) :
    Running (shellRuntimeHandleChar s (character, status)).2 (editStep l character).2 ∧
      (((editStep l character).1 = none ∧
          Edited s l (shellRuntimeHandleChar s (character, status)).1
            (shellRuntimeHandleChar s (character, status)).2 (editStep l character).2) ∨
        (editStep l character = (some l, .empty) ∧
          Submitted s l status (shellRuntimeHandleChar s (character, status)).1
            (shellRuntimeHandleChar s (character, status)).2)) := by
  by_cases hsubmit : character = 0x0A#8 ∨ character = 0x0D#8
  · have hedit : editStep l character = (some l, .empty) := by
      rw [editStep, if_neg (by rcases hsubmit with rfl | rfl <;> decide), if_pos hsubmit]
    obtain ⟨hsubmitted, hrunning⟩ := handleChar_submit h hsubmit status
    rw [hedit]
    exact ⟨hrunning, .inr ⟨rfl, hsubmitted⟩⟩
  · have hedit : (editStep l character).1 = none := by
      unfold editStep
      split_ifs <;> rfl
    obtain ⟨hedited, hrunning⟩ := handleChar_edit h hsubmit status
    exact ⟨hrunning, .inl ⟨hedit, hedited⟩⟩

/-! ## Starting -/

theorem selfTests_pass : (ramfsSelfTest.1 && lineEditorSelfTest && parserSelfTest) = true := by decide +kernel

theorem shellRuntimeInit_eq (s : ShellRuntime) :
    shellRuntimeInit s =
      (true, ⟨editorOf .empty 0#32 false, true, false, ramfsInit, s.console⟩) := by
  have htests := selfTests_pass
  rw [Bool.and_eq_true, Bool.and_eq_true] at htests
  unfold shellRuntimeInit
  rw [htests.1.1, htests.1.2, htests.2]
  rfl

/-- The shell after `shell_runtime_init` and `shell_runtime_start`, from any state. -/
def startedShell (s : ShellRuntime) : ShellRuntime := shellRuntimeStart (shellRuntimeInit s).2

def banner : List U8 := asciiText "TinyShell OS interactive shell (Ring 0)\n"

theorem startedShell_eq (s : ShellRuntime) :
    startedShell s = ⟨editorOf .empty 0#32 false, true, true, ramfsInit,
      (consoleWrite banner ++ printPrompt).foldl consoleStep s.console⟩ := by
  rw [startedShell, shellRuntimeInit_eq]
  rfl

theorem startedShell_running (s : ShellRuntime) : Running (startedShell s) .empty := by
  rw [startedShell_eq]
  exact ⟨rfl, rfl, _, rfl⟩

/-! ## Screen, serial line and buffer -/

def promptText : List U8 := asciiText "tiny> "

/-- `runtime_editor.buffer[0..length)`. -/
def editBuffer (s : ShellRuntime) : List U8 := bytesAt (memoryOf s.editor.buffer) s.editor.length

theorem Running.editBuffer (h : Running s l) : editBuffer s = l.text ∧ s.editor.length = l.text.length := by
  obtain ⟨overflow, heditor⟩ := h.editor
  have hmemory : memoryOf (padded (shellLineMax + 1) l.text) = fun i => l.text.getD i 0#8 :=
    memoryOf_padded (l.length_le.trans (Nat.le_succ _))
  rw [TinyShell.editBuffer, heditor]
  simp only [editorOf]
  rw [hmemory]
  exact ⟨bytesAt_getD _, trivial⟩

/-- The prompt and the line stand before the cursor and at the end of the serial output
since `base`. -/
structure ScreenAgrees (base : List U8) (s : ShellRuntime) : Prop where
  row_lt : s.console.vgaRow < vgaHeight
  column_lt : s.console.vgaColumn < vgaWidth
  room : 6 + s.editor.length ≤ s.console.cursor
  cells : cellsBefore s.console (6 + s.editor.length) = (promptText ++ editBuffer s).map vgaEntry
  serial_prefix : base <+: s.console.serial
  serial : promptText ++ editBuffer s <:+ shownText (s.console.serial.drop base.length)

variable {base : List U8}

theorem Running.screenAgrees (h : Running s l) (hshow : Showing base s.console (promptText ++ l.text)) :
    ScreenAgrees base s := by
  obtain ⟨hbuffer, hlength⟩ := h.editBuffer
  obtain ⟨since, shown, hserial, htranscript⟩ := hshow.serial
  have hlen : (promptText ++ l.text).length = 6 + s.editor.length := by
    rw [List.length_append, hlength]
    rfl
  have hroom := hshow.length_le
  have hcells := hshow.cells
  rw [hlen] at hroom hcells
  refine ⟨hshow.row_lt, hshow.column_lt, hroom, by rw [hbuffer, hcells], ⟨since, hserial.symm⟩, ?_⟩
  rw [hbuffer, hserial, List.drop_left, htranscript.shownText]
  exact List.suffix_append _ _

theorem isPrintableAscii_iff (x : U8) : isPrintableAscii x = true ↔ 0x20#8 ≤ x ∧ x ≤ 0x7E#8 := by
  simp [isPrintableAscii]

/-- Whatever was printed before, the prompt is shown. -/
theorem Showing.prompt {c : Console} {t : List U8} (h : Showing base c t) (calls : List ConsoleCall) :
    Showing base ((calls ++ printPrompt).foldl consoleStep c) promptText := by
  rw [List.foldl_append]
  exact (h.steps calls).write (by decide) (by decide)

/-- **Step lemma**: an edit does to the screen what it does to the line. -/
theorem Showing.echo {l' : LineText} {c : Console} {calls : List ConsoleCall} (hecho : Echo l l' calls)
    (h : Showing base c (promptText ++ l.text)) :
    Showing base (calls.foldl consoleStep c) (promptText ++ l'.text) := by
  cases hecho with
  | typed hprintable htext =>
    have hle := l.length_le
    change l.text.length ≤ 127 at hle
    rw [isPrintableAscii_iff] at hprintable
    rw [htext, ← List.append_assoc]
    refine h.putc_printable hprintable.1 hprintable.2 ?_
    rw [List.length_append]
    change 6 + l.text.length < 1920
    omega
  | erased htext =>
    rw [htext, ← List.append_assoc] at h
    exact h.putc_backspace
  | ignored htext =>
    rw [htext]
    exact h

/-- **What the user sees is what will be executed**, after every sequence of
characters. -/
theorem screen_agrees (s : ShellRuntime) (hrow : s.console.vgaRow < vgaHeight)
    (hcolumn : s.console.vgaColumn < vgaWidth) (inputs : List (U8 × Option SystemStatus)) :
    ScreenAgrees s.console.serial (exec shellRuntimeHandleChar (startedShell s) inputs) := by
  have hinv : ∃ l, Running (exec shellRuntimeHandleChar (startedShell s) inputs) l ∧
      Showing s.console.serial (exec shellRuntimeHandleChar (startedShell s) inputs).console
        (promptText ++ l.text) := by
    refine exec_inv (I := fun t => ∃ l, Running t l ∧ Showing s.console.serial t.console (promptText ++ l.text))
      ?_ ⟨.empty, startedShell_running s, ?_⟩ inputs
    · rintro t ⟨character, status⟩ ⟨l, hrunning, hshow⟩
      obtain ⟨hnext, ⟨-, hedited⟩ | ⟨hsubmit, hsubmitted⟩⟩ := handleChar_cases hrunning character status
      · obtain ⟨calls, hecho, hconsole⟩ := hedited.console
        exact ⟨_, hnext, hconsole ▸ hshow.echo hecho⟩
      · obtain ⟨calls, hconsole⟩ := hsubmitted.console
        rw [hsubmit] at hnext
        exact ⟨.empty, hnext, hconsole ▸ hshow.prompt calls⟩
    · rw [startedShell_eq]
      exact (Showing.start hrow hcolumn).prompt (consoleWrite banner)
  obtain ⟨l, hrunning, hshow⟩ := hinv
  exact hrunning.screenAgrees hshow

/-- A shell before it is started, with the cursor at the last cell of the screen. -/
def cornerShell : ShellRuntime :=
  ⟨⟨fun _ => 0#8, 0, 0#32, false⟩, false, false, ramfsInit, ⟨fun _ => 0#16, 24, 79, []⟩⟩

theorem screen_agrees_corner : cornerShell.console.vgaRow < vgaHeight ∧ cornerShell.console.vgaColumn < vgaWidth ∧
    ScreenAgrees [] (exec shellRuntimeHandleChar (startedShell cornerShell) [(0x61#8, none), (0x08#8, none)]) :=
  ⟨by decide, by decide, screen_agrees cornerShell (by decide) (by decide) _⟩

end TinyShell
