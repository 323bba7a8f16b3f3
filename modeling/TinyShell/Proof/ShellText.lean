import TinyShell.Proof.Command
import TinyShell.Proof.LineEditor
import TinyShell.Spec.Shell

/-!
# The text of a command

`join_arguments` writes the arguments with single spaces between them. Eight arguments of
31 characters and seven spaces are 255 characters, which is what fits.

* `joinArguments_commandWith`: the join, where the text fits.
* `length_joinedText`: the text of a parsed command fits.
* `command_text_fits`: what echo, write and append are given.
-/

namespace TinyShell

open Machine

/-- A buffer with a text and its terminator in it. -/
def TextBuffer.holding (text : List U8) (bytes : ℕ → U8) : TextBuffer := ⟨lineWith text bytes, text.length⟩

variable {capacity : ℕ} {text w : List U8} {bytes : ℕ → U8}

theorem bufferAppendChar_holding (h : text.length + 1 < capacity) (character : U8) :
    bufferAppendChar capacity (.holding text bytes) character = (true, .holding (text ++ [character]) bytes) := by
  have hbytes :
      Function.update (Function.update (lineWith text bytes) text.length character) (text.length + 1) 0#8 =
      lineWith (text ++ [character]) bytes := by
    funext i
    rw [lineWith, getD_concat, List.length_append, List.length_singleton]
    by_cases hnul : i = text.length + 1
    · rw [hnul, Function.update_self, if_pos le_rfl, if_neg (by omega), List.getD_eq_default _ _ (by omega)]
    rw [Function.update_of_ne hnul]
    by_cases hend : i = text.length
    · rw [hend, Function.update_self, if_pos (Nat.le_succ _), if_pos rfl]
    · have hle : i ≤ text.length + 1 ↔ i ≤ text.length := by omega
      simp only [Function.update_of_ne hend, lineWith, if_neg hend, hle]
  rw [bufferAppendChar, TextBuffer.holding, if_neg (Nat.not_le.2 h)]
  dsimp only
  rw [hbytes, TextBuffer.holding, List.length_append, List.length_singleton]

theorem appendText_holding (h : text.length + w.length < capacity) :
    appendText capacity w (.holding text bytes) = (true, .holding (text ++ w) bytes) := by
  induction w generalizing text with
  | nil => rw [appendText, List.append_nil]
  | cons character w ih =>
    rw [List.length_cons] at h
    have hword : (text ++ [character]).length + w.length < capacity := by
      rw [List.length_append, List.length_singleton]
      omega
    have hnext := ih hword
    rw [List.append_assoc, List.singleton_append] at hnext
    rw [appendText, bufferAppendChar_holding (by omega)]
    exact hnext

/-! ## Joining -/

/-- What the parser takes as an argument. -/
structure ArgumentText (w : List U8) : Prop where
  length_le : w.length ≤ 31
  zero_notMem : 0#8 ∉ w
  ne_nil : w ≠ []
  no_separator : ∀ character ∈ w, isSeparator character = false

variable {kind : ShellCommandKind} {name : List U8} {arguments : List (List U8)}

theorem cString_argument (h : ∀ w ∈ arguments, ArgumentText w) (hcount : arguments.length ≤ shellCommandMaxArgs)
    {i : ℕ} (hi : i < arguments.length) :
    cString (shellCommandArgMax + 1) (memoryOf ((commandWith kind name arguments).argument i)) =
      arguments.getD i [] := by
  have hw : ArgumentText (arguments.getD i []) := by
    rw [List.getD_eq_getElem _ _ hi]
    exact h _ (List.getElem_mem hi)
  rw [argument_commandWith _ _ _ _ (hi.trans_le hcount)]
  exact cString_padded hw.zero_notMem (hw.length_le.trans (Nat.le_succ _))

theorem drop_cons {i : ℕ} (hi : i < arguments.length) :
    arguments.drop i = arguments.getD i [] :: arguments.drop (i + 1) := by
  rw [List.getD_eq_getElem _ _ hi]
  exact List.drop_eq_getElem_cons hi

/-- The arguments behind the first one, each with its space. -/
theorem joinLoop_rest (kind : ShellCommandKind) (name : List U8) (h : ∀ w ∈ arguments, ArgumentText w)
    (hcount : arguments.length ≤ shellCommandMaxArgs) {first k n : ℕ} (hk : first < k)
    (hn : k + n = arguments.length) (bytes : ℕ → U8)
    (hroom : (text ++ (arguments.drop k).flatMap (0x20#8 :: ·)).length < capacity) :
    joinLoop (commandWith kind name arguments) first capacity (List.range' k n) (.holding text bytes) =
      (true, .holding (text ++ (arguments.drop k).flatMap (0x20#8 :: ·)) bytes) := by
  induction n generalizing k text with
  | zero =>
    rw [List.drop_of_length_le (by omega), List.flatMap_nil, List.append_nil]
    rfl
  | succ n ih =>
    rw [drop_cons (by omega), List.flatMap_cons] at hroom ⊢
    generalize hw : arguments.getD k [] = w at *
    have hsplit : text ++ (0x20#8 :: w ++ (arguments.drop (k + 1)).flatMap (0x20#8 :: ·)) =
        text ++ [0x20#8] ++ w ++ (arguments.drop (k + 1)).flatMap (0x20#8 :: ·) := by simp
    rw [hsplit] at hroom ⊢
    have hnext := ih (by omega) (by omega) hroom
    simp only [List.length_append, List.length_singleton] at hroom
    have hword : (text ++ [0x20#8]).length + w.length < capacity := by
      rw [List.length_append, List.length_singleton]
      omega
    rw [List.range'_succ, joinLoop, if_pos (by omega), bufferAppendChar_holding (by omega),
      cString_argument h hcount (by omega), hw]
    dsimp only
    rw [appendText_holding hword]
    exact hnext

/-- The words of a text, with a space in front where there is to be one. -/
def joinedText (leadingSpace : Bool) (words : List (List U8)) : List U8 :=
  (if leadingSpace then [0x20#8] else []) ++ [0x20#8].intercalate words

theorem intercalate_cons_flatMap (w : List U8) (ws : List (List U8)) :
    [0x20#8].intercalate (w :: ws) = w ++ ws.flatMap (0x20#8 :: ·) := by
  induction ws generalizing w with
  | nil => simp
  | cons v ws ih => rw [List.intercalate_cons_cons, ih, List.flatMap_cons, List.append_assoc]; rfl

/-- **The join**, where the text fits. -/
theorem joinArguments_commandWith (h : ∀ w ∈ arguments, ArgumentText w)
    (hcount : arguments.length ≤ shellCommandMaxArgs) {first : ℕ} (hfirst : first ≤ arguments.length)
    (leadingSpace : Bool) (buffer : TextBuffer)
    (hroom : (joinedText leadingSpace (arguments.drop first)).length < capacity) :
    joinArguments (commandWith kind name arguments) first leadingSpace buffer capacity =
      (true, .holding (joinedText leadingSpace (arguments.drop first)) buffer.bytes) := by
  have hempty : (⟨Function.update buffer.bytes 0 0#8, 0⟩ : TextBuffer) = .holding [] buffer.bytes := by
    refine congrArg (TextBuffer.mk · 0) (funext fun i => ?_)
    cases i with
    | zero => rfl
    | succ i => simp [lineWith]
  have hlead : (if leadingSpace then bufferAppendChar capacity (.holding [] buffer.bytes) 0x20#8
      else (true, .holding [] buffer.bytes)) =
      (true, .holding (if leadingSpace then [0x20#8] else []) buffer.bytes) := by
    cases leadingSpace with
    | false => rfl
    | true =>
      have hone : ([] : List U8).length + 1 < capacity := by
        simp only [joinedText, if_true, List.length_append, List.length_singleton] at hroom
        rw [List.length_nil]
        omega
      rw [if_pos rfl, bufferAppendChar_holding hone]
      rfl
  rw [joinArguments, if_neg (by simp only [commandWith]; omega), hempty]
  dsimp only
  rw [hlead]
  dsimp only
  have hlength : (commandWith kind name arguments).argumentCount = arguments.length := rfl
  rw [hlength, joinedText] at *
  generalize (if leadingSpace then [0x20#8] else []) = lead at hroom ⊢
  obtain hlast | hmore := Nat.eq_or_lt_of_le hfirst
  · rw [hlast, Nat.sub_self, List.drop_length]
    simp [joinLoop]
  · obtain ⟨n, hn⟩ := Nat.exists_eq_add_of_lt hmore
    rw [drop_cons hmore, intercalate_cons_flatMap, ← List.append_assoc] at hroom ⊢
    have hword : lead.length + (arguments.getD first []).length < capacity := by
      rw [List.length_append, List.length_append] at hroom
      omega
    have hrest := joinLoop_rest kind name h hcount (Nat.lt_succ_self first)
      (by omega : first + 1 + n = arguments.length) buffer.bytes hroom
    have hindices : arguments.length - first = n + 1 := by omega
    rw [hindices, List.range'_succ, joinLoop, if_neg (not_not.2 rfl), cString_argument h hcount hmore]
    dsimp only
    rw [appendText_holding hword]
    exact hrest

/-! ## Parsed commands -/

theorem length_intercalate_le {ws : List (List U8)} (h : ∀ w ∈ ws, w.length ≤ 31) :
    ([0x20#8].intercalate ws).length ≤ 32 * ws.length - 1 := by
  cases ws with
  | nil => simp
  | cons w ws =>
    rw [List.forall_mem_cons] at h
    have hrest : (ws.flatMap (0x20#8 :: ·)).length ≤ 32 * ws.length := by
      rw [List.length_flatMap]
      refine (List.sum_le_card_nsmul _ 32 ?_).trans ?_
      · intro k hk
        obtain ⟨v, hv, rfl⟩ := List.mem_map.1 hk
        exact Nat.succ_le_succ (h.2 v hv)
      · simp [Nat.mul_comm]
    rw [intercalate_cons_flatMap, List.length_append, List.length_cons]
    omega

/-- The text of a command fits: the first argument is not part of it where a space is
put in front. -/
theorem length_joinedText (h : ∀ w ∈ arguments, ArgumentText w) (hcount : arguments.length ≤ shellCommandMaxArgs)
    (first : ℕ) (leadingSpace : Bool) (hlead : leadingSpace = true → 1 ≤ first) :
    (joinedText leadingSpace (arguments.drop first)).length < shellTextCapacity := by
  change arguments.length ≤ 8 at hcount
  change _ < 256
  have hwords := length_intercalate_le fun w (hw : w ∈ arguments.drop first) =>
    (h w (List.mem_of_mem_drop hw)).length_le
  rw [List.length_drop] at hwords
  rw [joinedText, List.length_append]
  cases leadingSpace with
  | false =>
    rw [if_neg Bool.false_ne_true, List.length_nil]
    omega
  | true =>
    have := hlead rfl
    rw [if_pos rfl, List.length_singleton]
    omega

/-- `arguments[0..argument_count)`, as strings. -/
def ShellCommand.words (command : ShellCommand) : List (List U8) :=
  (List.range command.argumentCount).map fun i =>
    cString (shellCommandArgMax + 1) (memoryOf (command.argument i))

theorem words_commandWith (h : ∀ w ∈ arguments, ArgumentText w)
    (hcount : arguments.length ≤ shellCommandMaxArgs) :
    (commandWith kind name arguments).words = arguments := by
  refine List.ext_getElem (by simp [ShellCommand.words, commandWith]) ?_
  intro i _ hi
  simp only [ShellCommand.words, List.getElem_map, List.getElem_range]
  rw [cString_argument h hcount hi, List.getD_eq_getElem _ _ hi]

/-- The tokens of a line that the parser has accepted. -/
theorem argumentText_token {line : List U8} (h0 : 0#8 ∉ line) (hok : grammarResult (lineTokens line) = .ok) :
    ∀ w ∈ lineTokens line, ArgumentText w := by
  intro w hw
  obtain ⟨hne, hseparator, -⟩ := mem_tokens hw
  exact ⟨((grammarResult_ok_iff _).1 hok).2.2 w hw, zero_notMem_token h0 hw, hne, hseparator⟩

/-- A command that the parser has accepted. -/
theorem parsed_commandWith {line : List U8} (h0 : 0#8 ∉ line) {before command : ShellCommand}
    (hparse : shellCommandParse (some line) (some before) = (.ok, some command)) :
    ∃ name arguments, lineTokens line = name :: arguments ∧
      command = commandWith (commandKind name) name arguments ∧ arguments.length ≤ shellCommandMaxArgs ∧
      ∀ w ∈ arguments, ArgumentText w := by
  have hok : grammarResult (lineTokens line) = .ok := by
    rw [parse_eq h0] at hparse
    exact (Prod.mk.inj hparse).1
  rw [parse_eq h0, if_pos hok, Prod.mk.injEq, Option.some.injEq] at hparse
  obtain ⟨hne, hcount, -⟩ := (grammarResult_ok_iff _).1 hok
  obtain ⟨name, arguments, htokens⟩ := List.exists_cons_of_ne_nil hne
  have hwords := argumentText_token h0 hok
  rw [htokens] at hcount hwords hparse
  exact ⟨name, arguments, htokens, hparse.2.symm, Nat.le_of_succ_le_succ hcount,
    fun w hw => hwords w (List.mem_cons_of_mem _ hw)⟩

/-- The text splits into its words again. -/
theorem tokens_joinedText (leadingSpace : Bool) {ws : List (List U8)} (h : ∀ w ∈ ws, ArgumentText w) :
    tokens (· = 0x20#8) (joinedText leadingSpace ws) = ws := by
  have hwords : tokens (· = 0x20#8) ([0x20#8].intercalate ws) = ws := by
    refine tokens_intercalate (by decide) fun w hw => ⟨(h w hw).ne_nil, fun x hx => decide_eq_false ?_⟩
    rintro rfl
    exact absurd ((h w hw).no_separator _ hx) (by decide)
  cases leadingSpace with
  | false => exact hwords
  | true => exact (tokens_separator (by decide) _).trans hwords

/-- What `join_arguments` leaves in a buffer of 256 bytes. -/
structure JoinsText (command : ShellCommand) (first : ℕ) (leadingSpace : Bool) (buffer : TextBuffer)
    (result : Bool × TextBuffer) : Prop where
  succeeds : result.1 = true
  text : cString 256 result.2.bytes = joinedText leadingSpace (command.words.drop first)
  length : result.2.length = (joinedText leadingSpace (command.words.drop first)).length
  terminated : result.2.length < 256 ∧ result.2.bytes result.2.length = 0#8
  /-- Nothing outside the buffer is written. -/
  outside : ∀ i, 256 ≤ i → result.2.bytes i = buffer.bytes i
  splits : tokens (· = 0x20#8) (cString 256 result.2.bytes) = command.words.drop first

/-- The text as a pointer, with zeros behind it. -/
def textAt (text : List U8) : ℕ → U8 := fun i => text.getD i 0#8

/-- What echo, write and append do with the text: none of them finds it too long. -/
structure TextGiven (command : ShellCommand) (s : Ramfs) (status : Option SystemStatus) : Prop where
  echo : command.kind = .echo →
    executeCommand s command status =
      (consoleWrite (joinedText false command.words) ++ [.putc 0x0A#8], s)
  write : command.kind = .write →
    executeCommand s command status =
      (printResult (ramfsWrite s (some (memoryOf (command.argument 0)))
          (some (textAt (joinedText false command.words.tail)))
          (word (joinedText false command.words.tail).length)).1,
        (ramfsWrite s (some (memoryOf (command.argument 0)))
          (some (textAt (joinedText false command.words.tail)))
          (word (joinedText false command.words.tail).length)).2)
  append : command.kind = .append → ∀ leadingSpace,
    leadingSpace = decide ((fileSize s (cString 32 (memoryOf (command.argument 0)))).getD 0#32 ≠ 0#32) →
    executeCommand s command status =
      (printResult (ramfsAppend s (some (memoryOf (command.argument 0)))
          (some (textAt (joinedText leadingSpace command.words.tail)))
          (word (joinedText leadingSpace command.words.tail).length)).1,
        (ramfsAppend s (some (memoryOf (command.argument 0)))
          (some (textAt (joinedText leadingSpace command.words.tail)))
          (word (joinedText leadingSpace command.words.tail).length)).2)

structure TextFits (command : ShellCommand) : Prop where
  joins : ∀ first leadingSpace buffer, first ≤ command.argumentCount → (leadingSpace = true → 1 ≤ first) →
    JoinsText command first leadingSpace buffer
      (joinArguments command first leadingSpace buffer shellTextCapacity)
  given : shellCommandHasValidArity command = true → ∀ s status, TextGiven command s status

theorem lineWith_zero (text : List U8) : lineWith text (fun _ => 0#8) = textAt text := by
  funext i
  unfold lineWith textAt
  split_ifs with hi
  · rfl
  · rw [List.getD_eq_default _ _ (by omega)]

theorem zero_notMem_joinedText (leadingSpace : Bool) {ws : List (List U8)} (h : ∀ w ∈ ws, ArgumentText w) :
    0#8 ∉ joinedText leadingSpace ws := by
  have hwords : 0#8 ∉ [0x20#8].intercalate ws := by
    cases ws with
    | nil => simp
    | cons w ws =>
      rw [List.forall_mem_cons] at h
      rw [intercalate_cons_flatMap, List.mem_append, List.mem_flatMap]
      rintro (hw | ⟨v, hv, h0⟩)
      · exact h.1.zero_notMem hw
      · exact (h.2 v hv).zero_notMem (by simpa using h0)
  rw [joinedText, List.mem_append, not_or]
  exact ⟨by cases leadingSpace <;> decide, hwords⟩

theorem joinsText_commandWith (h : ∀ w ∈ arguments, ArgumentText w)
    (hcount : arguments.length ≤ shellCommandMaxArgs) {first : ℕ} (hfirst : first ≤ arguments.length)
    {leadingSpace : Bool} (hlead : leadingSpace = true → 1 ≤ first) (buffer : TextBuffer) :
    JoinsText (commandWith kind name arguments) first leadingSpace buffer
      (joinArguments (commandWith kind name arguments) first leadingSpace buffer shellTextCapacity) := by
  have hfits := length_joinedText h hcount first leadingSpace hlead
  have hdrop : ∀ w ∈ arguments.drop first, ArgumentText w := fun w hw => h w (List.mem_of_mem_drop hw)
  rw [joinArguments_commandWith h hcount hfirst leadingSpace buffer hfits]
  have hterminator : lineWith (joinedText leadingSpace (arguments.drop first)) buffer.bytes
      (joinedText leadingSpace (arguments.drop first)).length = 0#8 := by
    rw [lineWith, if_pos le_rfl, List.getD_eq_default _ _ le_rfl]
  have htext : cString 256 (lineWith (joinedText leadingSpace (arguments.drop first)) buffer.bytes) =
      joinedText leadingSpace (arguments.drop first) :=
    cString_eq (zero_notMem_joinedText leadingSpace hdrop) hfits (fun i hi => if_pos hi.le) hterminator
  constructor
  case succeeds => rfl
  case text => rw [words_commandWith h hcount]; exact htext
  case length => rw [words_commandWith h hcount]; rfl
  case terminated => exact ⟨hfits, hterminator⟩
  case outside =>
    intro i hi
    exact if_neg (Nat.not_le.2 (hfits.trans_le hi))
  case splits =>
    rw [words_commandWith h hcount]
    exact (congrArg _ htext).trans (tokens_joinedText leadingSpace hdrop)

/-- The join into the local array of `execute_command`. -/
theorem joinArguments_local (kind : ShellCommandKind) (name : List U8) (h : ∀ w ∈ arguments, ArgumentText w)
    (hcount : arguments.length ≤ shellCommandMaxArgs) {first : ℕ} (hfirst : first ≤ arguments.length)
    (leadingSpace : Bool) (hlead : leadingSpace = true → 1 ≤ first) :
    joinArguments (commandWith kind name arguments) first leadingSpace ⟨fun _ => 0#8, 0⟩ shellTextCapacity =
      (true, ⟨textAt (joinedText leadingSpace (arguments.drop first)),
        (joinedText leadingSpace (arguments.drop first)).length⟩) := by
  rw [joinArguments_commandWith h hcount hfirst leadingSpace _
    (length_joinedText h hcount first leadingSpace hlead), TextBuffer.holding, lineWith_zero]

theorem textGiven_commandWith (h : ∀ w ∈ arguments, ArgumentText w)
    (hcount : arguments.length ≤ shellCommandMaxArgs)
    (harity : shellCommandHasValidArity (commandWith kind name arguments) = true) (s : Ramfs)
    (status : Option SystemStatus) : TextGiven (commandWith kind name arguments) s status := by
  have hwords : (commandWith kind name arguments).words = arguments := words_commandWith h hcount
  -- write and append have two arguments at least
  have hfirst : kind = .write ∨ kind = .append → 1 ≤ arguments.length := by
    rintro (rfl | rfl) <;> simp [shellCommandHasValidArity, commandWith] at harity <;> omega
  have hjoin := fun hkind leadingSpace =>
    joinArguments_local kind name h hcount (hfirst hkind) leadingSpace fun _ => le_rfl
  constructor
  case echo =>
    intro hkind
    have hlocal := joinArguments_local kind name h hcount (Nat.zero_le _) false (by simp)
    have htext : cString shellTextCapacity (textAt (joinedText false arguments)) = joinedText false arguments :=
      cString_list (zero_notMem_joinedText false h) (length_joinedText h hcount 0 false (by simp)).le
    simp only [executeCommand, hkind, hlocal, hwords, List.drop_zero, htext]
  case write =>
    intro hkind
    simp only [executeCommand, hkind, hwords, hjoin (.inl hkind) false, List.drop_one]
  case append =>
    intro hkind leadingSpace hlead
    simp only [executeCommand, hkind, hwords, ← hlead, hjoin (.inr hkind) leadingSpace, List.drop_one]

/-- **Command text always fits and is joined exactly.** -/
theorem command_text_fits {line : List U8} (h0 : 0#8 ∉ line) {before command : ShellCommand}
    (hparse : shellCommandParse (some line) (some before) = (.ok, some command)) : TextFits command := by
  obtain ⟨name, arguments, -, rfl, hcount, h⟩ := parsed_commandWith h0 hparse
  exact ⟨fun first leadingSpace buffer hfirst hlead => joinsText_commandWith h hcount hfirst hlead buffer,
    textGiven_commandWith h hcount⟩

/-- The longest text: eight arguments of 31 characters. -/
def longestEcho : List (List U8) := asciiText "echo" :: List.replicate 8 (List.replicate 31 0x78#8)

theorem lineTokens_longestEcho : lineTokens ([0x20#8].intercalate longestEcho) = longestEcho :=
  tokens_intercalate (by decide) (by decide)

theorem command_text_fits_longest : (joinedText false (commandOf longestEcho).words).length = 255 ∧
    TextFits (commandOf longestEcho) := by
  have h0 : 0#8 ∉ [0x20#8].intercalate longestEcho := by decide
  refine ⟨by decide +kernel, @command_text_fits _ h0 commandClear _ ?_⟩
  rw [parse_eq h0, lineTokens_longestEcho]
  rfl

end TinyShell
