import TinyShell.Machine.Run
import TinyShell.Spec.LineEditor

/-!
# The line editor edits a list

A `LineText` is a line as the user has typed it: at most 127 printable characters.
`editorOf` is the one state of the editor that holds it, and `editStep` the editing
rules.

* `feed_backspace`, `feed_submit`, `feed_ignored`, `feed_full`, `feed_echo`: one
  character, by cases.
* `take_editorOf`: taking the line gives it back and empties the editor.
* `line_editor_refines`: every run answers as the edited list does.
-/

namespace TinyShell

open Machine

structure LineText where
  text : List U8
  length_le : text.length ≤ shellLineMax
  printable : ∀ character ∈ text, isPrintableAscii character = true

namespace LineText

def empty : LineText := ⟨[], Nat.zero_le _, by simp⟩

def erase (l : LineText) : LineText :=
  ⟨l.text.dropLast, (List.length_dropLast ▸ Nat.sub_le _ _).trans l.length_le,
    fun character h => l.printable character (List.mem_of_mem_dropLast h)⟩

def push (l : LineText) (character : U8)
    (h : isPrintableAscii character = true ∧ l.text.length < shellLineMax) : LineText where
  text := l.text ++ [character]
  length_le := by rw [List.length_append]; exact h.2
  printable := by
    intro x hx
    rcases List.mem_append.1 hx with hx | hx
    · exact l.printable x hx
    · rw [List.mem_singleton.1 hx]
      exact h.1

theorem zero_notMem (l : LineText) : 0#8 ∉ l.text := fun h0 => absurd (l.printable _ h0) (by decide)

end LineText

/-- The editing rules: backspace takes the last character away, carriage return and line
feed submit the line, a printable character is added if there is room, and everything
else is ignored. -/
def editStep (l : LineText) (character : U8) : Option LineText × LineText :=
  if character = 0x08#8 then (none, l.erase)
  else if character = 0x0A#8 ∨ character = 0x0D#8 then (some l, .empty)
  else if h : isPrintableAscii character = true ∧ l.text.length < shellLineMax then (none, l.push character h)
  else (none, l)

/-- The editor that holds a line. -/
def editorOf (l : LineText) (overflowCount : U32) (ready : Bool) : ShellLineEditor :=
  ⟨padded _ l.text, l.text.length, overflowCount, ready⟩

variable {l : LineText} {overflow : U32} {character : U8}

/-! ## One character -/

theorem feed_backspace (l : LineText) (overflow : U32) :
    shellLineEditorFeed (editorOf l overflow false) 0x08#8 =
      (if l.text = [] then .none else .erase, editorOf l.erase overflow false) := by
  rw [shellLineEditorFeed, if_neg (by simp [editorOf]), if_pos rfl]
  rcases List.eq_nil_or_concat l.text with hnil | ⟨text, x, hl⟩
  · rw [if_pos (by rw [editorOf, hnil]; rfl), if_pos hnil]
    simp [editorOf, LineText.erase, hnil]
  · have hlength : (editorOf l overflow false).length = text.length + 1 := by
      rw [editorOf, hl, List.length_concat]
    rw [if_neg (by omega), if_neg (by rw [hl]; simp)]
    simp only [hlength, Nat.add_sub_cancel]
    rw [editorOf, editorOf, hl, List.concat_eq_append, store_padded_pop]
    simp [LineText.erase, hl]

theorem feed_submit (h : character = 0x0A#8 ∨ character = 0x0D#8) :
    shellLineEditorFeed (editorOf l overflow false) character = (.ready, editorOf l overflow true) := by
  have hbs : character ≠ 0x08#8 := by rcases h with rfl | rfl <;> decide
  rw [shellLineEditorFeed, if_neg (by simp [editorOf]), if_neg hbs, if_pos h]
  rfl

/-- The tests before the one for a printable character. -/
theorem feed_typed (hbs : character ≠ 0x08#8) (hsubmit : ¬(character = 0x0A#8 ∨ character = 0x0D#8)) :
    shellLineEditorFeed (editorOf l overflow false) character =
      if !isPrintableAscii character then (.none, editorOf l overflow false)
      else if l.text.length ≥ shellLineMax then (.full, editorOf l (overflow + 1) false)
      else (.echo, { editorOf l overflow false with
        length := l.text.length + 1
        buffer := store (store (padded _ l.text) l.text.length character) (l.text.length + 1) 0#8 }) := by
  rw [shellLineEditorFeed, if_neg (by simp [editorOf]), if_neg hbs, if_neg hsubmit]
  rfl

theorem feed_ignored (hbs : character ≠ 0x08#8) (hsubmit : ¬(character = 0x0A#8 ∨ character = 0x0D#8))
    (h : isPrintableAscii character = false) :
    shellLineEditorFeed (editorOf l overflow false) character = (.none, editorOf l overflow false) := by
  rw [feed_typed hbs hsubmit, if_pos (by rw [h]; rfl)]

theorem feed_full (hbs : character ≠ 0x08#8) (hsubmit : ¬(character = 0x0A#8 ∨ character = 0x0D#8))
    (h : isPrintableAscii character = true) (hfull : ¬l.text.length < shellLineMax) :
    shellLineEditorFeed (editorOf l overflow false) character = (.full, editorOf l (overflow + 1) false) := by
  rw [feed_typed hbs hsubmit, if_neg (by rw [h]; decide), if_pos (Nat.not_lt.1 hfull)]

theorem feed_echo (hbs : character ≠ 0x08#8) (hsubmit : ¬(character = 0x0A#8 ∨ character = 0x0D#8))
    (h : isPrintableAscii character = true ∧ l.text.length < shellLineMax) :
    shellLineEditorFeed (editorOf l overflow false) character =
      (.echo, editorOf (l.push character h) overflow false) := by
  rw [feed_typed hbs hsubmit, if_neg (by rw [h.1]; decide), if_neg (Nat.not_le.2 h.2), store_padded_push,
    store_padded_nul (by simp)]
  simp [editorOf, LineText.push]

/-! ## Taking the line -/

/-- The caller's line with a text and its terminator in it. -/
def lineWith (text : List U8) (line : ℕ → U8) : ℕ → U8 :=
  fun index => if index ≤ text.length then text.getD index 0#8 else line index

theorem cString_lineWith (l : LineText) (line : ℕ → U8) :
    cString (shellLineMax + 1) (lineWith l.text line) = l.text := by
  refine cString_eq l.zero_notMem (Nat.lt_succ_of_le l.length_le) (fun i hi => if_pos hi.le) ?_
  rw [lineWith, if_pos le_rfl, List.getD_eq_default _ _ le_rfl]

theorem take_editorOf (l : LineText) (overflow : U32) (line : ℕ → U8) {capacity : U32}
    (hcapacity : l.text.length < capacity.toNat) :
    shellLineEditorTake (editorOf l overflow true) (some line) capacity =
      (true, some (lineWith l.text line), editorOf .empty overflow false) := by
  have hmemory : memoryOf (editorOf l overflow true).buffer = fun i => l.text.getD i 0#8 :=
    memoryOf_padded (l.length_le.trans (Nat.le_succ _))
  rw [shellLineEditorTake, if_neg]
  · dsimp only
    rw [hmemory]
    rfl
  · simp only [Bool.or_eq_true, decide_eq_true_eq, not_or]
    exact ⟨⟨Bool.false_ne_true, Nat.not_lt.2 l.length_le⟩, Nat.not_le.2 hcapacity⟩

theorem take_refused (l : LineText) (overflow : U32) {ready : Bool} (line : ℕ → U8) {capacity : U32}
    (h : ¬(ready = true ∧ l.text.length < capacity.toNat)) :
    shellLineEditorTake (editorOf l overflow ready) (some line) capacity =
      (false, some line, editorOf l overflow ready) := by
  rw [shellLineEditorTake, if_pos]
  simp only [Bool.or_eq_true, decide_eq_true_eq]
  by_cases hready : ready = true
  · exact .inr (Nat.not_lt.1 fun hlt => h ⟨hready, hlt⟩)
  · exact .inl (.inl (by simpa [editorOf] using hready))

/-! ## Runs -/

/-- A line, whether it has been submitted, and how many characters did not fit. -/
structure EditState where
  line : LineText
  ready : Bool
  overflow : ℕ

def EditState.init : EditState := ⟨.empty, false, 0⟩

/-- One character, by the editing rules. -/
def listFeed (s : EditState) (character : U8) : ShellLineEvent × EditState :=
  if s.ready then (.none, s)
  else if character = 0x08#8 then
    (if s.line.text = [] then .none else .erase, { s with line := s.line.erase })
  else if character = 0x0A#8 ∨ character = 0x0D#8 then (.ready, { s with ready := true })
  else if !isPrintableAscii character then (.none, s)
  else if h : isPrintableAscii character = true ∧ s.line.text.length < shellLineMax then
    (.echo, { s with line := s.line.push character h })
  else (.full, { s with overflow := s.overflow + 1 })

/-- One call of the abstract editor. -/
def listStep (s : EditState) : EditorCall → EditorAnswer × EditState
  | .init => (.initialized, .init)
  | .feed character => (.event (listFeed s character).1, (listFeed s character).2)
  | .take none _ => (.taken false none, s)
  | .take (some line) capacity =>
    if s.ready = true ∧ s.line.text.length < capacity.toNat then
      (.taken true (some (lineWith s.line.text line)), { s with line := .empty, ready := false })
    else (.taken false (some line), s)

/-- The one editor that represents an abstract state. -/
def EditState.editor (s : EditState) : ShellLineEditor := editorOf s.line (word s.overflow) s.ready

theorem feed_ready (l : LineText) (overflow : U32) (character : U8) :
    shellLineEditorFeed (editorOf l overflow true) character = (.none, editorOf l overflow true) := if_pos rfl

theorem feed_editor (s : EditState) (character : U8) :
    shellLineEditorFeed s.editor character = ((listFeed s character).1, (listFeed s character).2.editor) := by
  obtain ⟨l, ready, overflow⟩ := s
  unfold listFeed
  cases ready with
  | true => exact feed_ready l (word overflow) character
  | false =>
    rw [if_neg Bool.false_ne_true]
    by_cases hbs : character = 0x08#8
    · rw [if_pos hbs, hbs]
      exact feed_backspace l (word overflow)
    rw [if_neg hbs]
    by_cases hsubmit : character = 0x0A#8 ∨ character = 0x0D#8
    · rw [if_pos hsubmit]
      exact feed_submit hsubmit
    rw [if_neg hsubmit]
    by_cases hprintable : isPrintableAscii character = true
    · rw [if_neg (by rw [hprintable]; decide)]
      by_cases hroom : isPrintableAscii character = true ∧ l.text.length < shellLineMax
      · rw [dif_pos hroom]
        exact feed_echo hbs hsubmit hroom
      · rw [dif_neg hroom]
        have hfull : ¬l.text.length < shellLineMax := fun hlt => hroom ⟨hprintable, hlt⟩
        rw [EditState.editor, feed_full hbs hsubmit hprintable hfull, EditState.editor, word_succ]
    · rw [Bool.not_eq_true] at hprintable
      rw [if_pos (by rw [hprintable]; rfl)]
      exact feed_ignored hbs hsubmit hprintable

/-- **Step lemma**: every call answers as the list does and leaves its editor. -/
theorem editorStep_editor (s : EditState) (call : EditorCall) :
    editorStep s.editor call = ((listStep s call).1, (listStep s call).2.editor) := by
  cases call with
  | init => rfl
  | feed character => rw [editorStep, feed_editor]; rfl
  | take line capacity =>
    cases line with
    | none => rfl
    | some line =>
      rw [editorStep, listStep]
      by_cases h : s.ready = true ∧ s.line.text.length < capacity.toNat
      · rw [if_pos h, EditState.editor, h.1, take_editorOf _ _ _ h.2]
        rfl
      · rw [if_neg h, EditState.editor, take_refused _ _ _ h]

/-- The editor's fields, for an abstract state. -/
structure EditorHolds (editor : ShellLineEditor) (s : EditState) : Prop where
  length : editor.length = s.line.text.length
  text : bytesAt (memoryOf editor.buffer) editor.length = s.line.text
  tail_zero : ∀ i, editor.length ≤ i.val → editor.buffer i = 0#8
  ready : editor.ready = s.ready
  overflow : editor.overflowCount = word s.overflow

theorem EditState.holds (s : EditState) : EditorHolds s.editor s where
  length := rfl
  text := by
    have hmemory : memoryOf s.editor.buffer = fun i => s.line.text.getD i 0#8 :=
      memoryOf_padded (s.line.length_le.trans (Nat.le_succ _))
    rw [hmemory]
    exact bytesAt_getD _
  tail_zero i hi := List.getD_eq_default _ _ hi
  ready := rfl
  overflow := rfl

/-- What the events mean: the line has grown, shrunk or been submitted, or a printable
character has been refused for lack of room. -/
structure EventsExact (s : EditState) (character : U8) : Prop where
  echo : (listFeed s character).1 = .echo ↔
    (listFeed s character).2.line.text.length = s.line.text.length + 1
  erase : (listFeed s character).1 = .erase ↔
    (listFeed s character).2.line.text.length + 1 = s.line.text.length
  ready : (listFeed s character).1 = .ready ↔ s.ready = false ∧ (listFeed s character).2.ready = true
  full : (listFeed s character).1 = .full ↔ (listFeed s character).2.overflow = s.overflow + 1
  refused : (listFeed s character).1 = .full ↔
    s.ready = false ∧ isPrintableAscii character = true ∧ s.line.text.length = shellLineMax

theorem LineText.length_erase (l : LineText) : l.erase.text.length = l.text.length - 1 := List.length_dropLast

theorem LineText.length_push (l : LineText) (character : U8)
    (h : isPrintableAscii character = true ∧ l.text.length < shellLineMax) :
    (l.push character h).text.length = l.text.length + 1 := List.length_append

theorem listFeed_events (s : EditState) (character : U8) : EventsExact s character := by
  obtain ⟨l, ready, overflow⟩ := s
  have hle := l.length_le
  cases ready with
  | true =>
    have hfeed : listFeed ⟨l, true, overflow⟩ character = (.none, ⟨l, true, overflow⟩) := if_pos rfl
    constructor <;> rw [hfeed] <;> simp
  | false =>
    by_cases hbs : character = 0x08#8
    · have hprintable : isPrintableAscii character = false := by rw [hbs]; decide
      have hfeed : listFeed ⟨l, false, overflow⟩ character =
          (if l.text = [] then .none else .erase, ⟨l.erase, false, overflow⟩) := by
        rw [listFeed, if_neg Bool.false_ne_true, if_pos hbs]
      have hlength := l.length_erase
      by_cases hnil : l.text = []
      · constructor <;> rw [hfeed, if_pos hnil] <;> simp [hlength, hnil, hprintable]
      · have hpos := List.length_pos_of_ne_nil hnil
        constructor <;> rw [hfeed, if_neg hnil] <;> simp [hlength, hprintable]
        all_goals omega
    by_cases hsubmit : character = 0x0A#8 ∨ character = 0x0D#8
    · have hprintable : isPrintableAscii character = false := by rcases hsubmit with rfl | rfl <;> decide
      have hfeed : listFeed ⟨l, false, overflow⟩ character = (.ready, ⟨l, true, overflow⟩) := by
        rw [listFeed, if_neg Bool.false_ne_true, if_neg hbs, if_pos hsubmit]
      constructor <;> rw [hfeed] <;> simp [hprintable]
    by_cases hprintable : isPrintableAscii character = true
    · by_cases hroom : l.text.length < shellLineMax
      · have hfeed : listFeed ⟨l, false, overflow⟩ character =
            (.echo, ⟨l.push character ⟨hprintable, hroom⟩, false, overflow⟩) := by
          rw [listFeed, if_neg Bool.false_ne_true, if_neg hbs, if_neg hsubmit, if_neg (by simp [hprintable]),
            dif_pos ⟨hprintable, hroom⟩]
        have hlength := l.length_push character ⟨hprintable, hroom⟩
        constructor <;> rw [hfeed] <;> simp [hlength, hprintable] <;> omega
      · have hfeed : listFeed ⟨l, false, overflow⟩ character = (.full, ⟨l, false, overflow + 1⟩) := by
          rw [listFeed, if_neg Bool.false_ne_true, if_neg hbs, if_neg hsubmit, if_neg (by simp [hprintable]),
            dif_neg fun h => hroom h.2]
        constructor <;> rw [hfeed] <;> simp [hprintable]
        omega
    · have hfeed : listFeed ⟨l, false, overflow⟩ character = (.none, ⟨l, false, overflow⟩) := by
        rw [listFeed, if_neg Bool.false_ne_true, if_neg hbs, if_neg hsubmit, if_pos (by simpa using hprintable)]
      constructor <;> rw [hfeed] <;> simp [hprintable]

/-- **Run lemma**: so does every run. -/
theorem editorRun_editor (s : EditState) (calls : List EditorCall) :
    trace editorStep s.editor calls = trace listStep s calls ∧
      exec editorStep s.editor calls = (exec listStep s calls).editor := by
  refine trace_sim (R := fun e s => e = EditState.editor s) ?_ rfl calls
  rintro _ s call rfl
  rw [editorStep_editor]
  exact ⟨rfl, rfl⟩

/-- **The line editor refines list editing.** -/
theorem line_editor_refines (editor : ShellLineEditor) (calls : List EditorCall) :
    trace editorStep (shellLineEditorInit editor) calls = trace listStep .init calls ∧
      EditorHolds (exec editorStep (shellLineEditorInit editor) calls) (exec listStep .init calls) ∧
      ∀ character, EventsExact (exec listStep .init calls) character := by
  have hinit : shellLineEditorInit editor = EditState.init.editor := rfl
  obtain ⟨htrace, hrun⟩ := editorRun_editor .init calls
  rw [hinit, hrun]
  exact ⟨htrace, EditState.holds _, fun character => listFeed_events _ character⟩

end TinyShell
