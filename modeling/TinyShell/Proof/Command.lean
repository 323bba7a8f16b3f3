import TinyShell.Machine.Tokens
import TinyShell.Spec.Command

/-!
# The grammar of command lines

The parser sees a line as its tokens, the maximal runs of characters other than space
and tab, and nothing else of it.

* `copyToken_word`: copying a token, or failing because it is too long.
* `parseArguments_eq`: the loop over the arguments.
* `parse_eq`: the result as a function of the tokens.
* `command_grammar`: which lines are accepted, and what is made of them.
-/

namespace TinyShell

open Machine

def lineTokens (line : List U8) : List (List U8) := tokens isSeparator line

theorem skipSeparators_eq (l : List U8) : skipSeparators l = l.dropWhile isSeparator := by
  induction l with
  | nil => rfl
  | cons x l ih =>
    unfold skipSeparators
    split_ifs with hx
    · rw [ih, List.dropWhile_cons_of_pos hx]
    · rw [List.dropWhile_cons_of_neg hx]

/-! ## One token -/

/-- Where a token ends. -/
theorem copyToken_stop {rest : List U8} (hrest : rest.dropWhile (!isSeparator ·) = rest) (length : ℕ)
    (destination : Fin (shellCommandArgMax + 1) → U8) :
    copyToken rest length destination = (.ok, rest, store destination length 0#8) := by
  cases rest with
  | nil => rfl
  | cons s rest =>
    rw [copyToken, if_neg (by simp [separator_of_stop hrest])]

/-- A token that fits is copied behind what is there; one that does not fit is refused. -/
theorem copyToken_word {w rest : List U8} (hw : ∀ x ∈ w, isSeparator x = false) (h0 : 0#8 ∉ w)
    (hrest : rest.dropWhile (!isSeparator ·) = rest) (u : List U8) (hu : u.length ≤ shellCommandArgMax) :
    if u.length + w.length ≤ shellCommandArgMax then
      copyToken (w ++ rest) u.length (padded _ u) = (.ok, rest, padded _ (u ++ w))
    else (copyToken (w ++ rest) u.length (padded _ u)).1 = .argumentTooLong := by
  induction w generalizing u with
  | nil =>
    rw [if_pos (by simpa using hu), List.nil_append, copyToken_stop hrest, store_padded_nul le_rfl,
      List.append_nil]
  | cons x w ih =>
    rw [List.forall_mem_cons] at hw
    rw [List.mem_cons, not_or] at h0
    have hx : x ≠ 0#8 ∧ (!isSeparator x) = true := ⟨Ne.symm h0.1, by rw [hw.1]; rfl⟩
    rw [List.cons_append, copyToken, if_pos hx, List.length_cons]
    by_cases hroom : u.length ≥ shellCommandArgMax
    · rw [if_pos hroom, if_neg (by omega)]
    · have hnext := ih hw.2 h0.2 (u ++ [x]) (by rw [List.length_append, List.length_singleton]; omega)
      rw [if_neg hroom, store_padded_push]
      rw [List.length_append, List.length_singleton, List.append_assoc, List.singleton_append] at hnext
      rwa [show u.length + (w.length + 1) = u.length + 1 + w.length by omega]

/-- Copying a token to an empty field. -/
theorem copyToken_fits {w rest : List U8} (hw : ∀ x ∈ w, isSeparator x = false) (h0 : 0#8 ∉ w)
    (hrest : rest.dropWhile (!isSeparator ·) = rest) (hfit : w.length ≤ shellCommandArgMax) :
    copyToken (w ++ rest) 0 (padded _ []) = (.ok, rest, padded _ w) := by
  have hcopy := copyToken_word hw h0 hrest [] (Nat.zero_le _)
  rwa [List.nil_append, List.length_nil, Nat.zero_add, if_pos hfit] at hcopy

theorem copyToken_tooLong {w rest : List U8} (hw : ∀ x ∈ w, isSeparator x = false) (h0 : 0#8 ∉ w)
    (hrest : rest.dropWhile (!isSeparator ·) = rest) (hlong : ¬w.length ≤ shellCommandArgMax) :
    ∃ cursor field, copyToken (w ++ rest) 0 (padded _ []) = (.argumentTooLong, cursor, field) := by
  have hcopy := copyToken_word hw h0 hrest [] (Nat.zero_le _)
  rw [List.nil_append, List.length_nil, Nat.zero_add, if_neg hlong] at hcopy
  exact ⟨_, _, Prod.ext hcopy rfl⟩

/-- What the parser finds behind the separators: the end of the line, or a token. -/
theorem cursor_cases {cursor : List U8} (h0 : 0#8 ∉ cursor) :
    (atEnd (skipSeparators cursor) = true ∧ lineTokens cursor = []) ∨
      ∃ w rest, skipSeparators cursor = w ++ rest ∧ atEnd (w ++ rest) = false ∧ (∀ x ∈ w, isSeparator x = false) ∧
        0#8 ∉ w ∧ 0#8 ∉ rest ∧ rest.dropWhile (!isSeparator ·) = rest ∧
        lineTokens cursor = w :: lineTokens rest := by
  rw [skipSeparators_eq]
  obtain ⟨hend, hnone⟩ | ⟨w, rest, hcursor, hne, hw, hrest, htokens⟩ := tokens_cases isSeparator cursor
  · exact .inl ⟨by rw [hend]; rfl, hnone⟩
  · have hsub : (w ++ rest).Sublist cursor := hcursor ▸ List.dropWhile_sublist isSeparator
    have h0w : 0#8 ∉ w := fun h => h0 (hsub.subset (List.mem_append_left _ h))
    have h0rest : 0#8 ∉ rest := fun h => h0 (hsub.subset (List.mem_append_right _ h))
    refine .inr ⟨w, rest, hcursor, ?_, hw, h0w, h0rest, hrest, htokens⟩
    cases w with
    | nil => exact absurd rfl hne
    | cons x w => exact decide_eq_false fun hx => h0w (List.mem_cons.2 (.inl hx.symm))

/-! ## The arguments -/

/-- A command with some arguments. -/
def commandWith (kind : ShellCommandKind) (name : List U8) (arguments : List (List U8)) : ShellCommand :=
  ⟨kind, padded _ name, arguments.length, fun i => padded _ (arguments.getD i.val [])⟩

/-- The result of reading tokens into as many places as are left. -/
def argumentsResult : ℕ → List (List U8) → ShellParseResult
  | _, [] => .ok
  | 0, _ :: _ => .tooManyArguments
  | room + 1, t :: ts => if t.length > shellCommandArgMax then .argumentTooLong else argumentsResult room ts

theorem commandWith_push (kind : ShellCommandKind) (name : List U8) (arguments : List (List U8)) (t : List U8) :
    { commandWith kind name arguments with
        arguments := store (commandWith kind name arguments).arguments arguments.length (padded _ t)
        argumentCount := arguments.length + 1 } = commandWith kind name (arguments ++ [t]) := by
  refine ShellCommand.ext rfl rfl ?_ ?_
  · simp [commandWith]
  · funext i
    simp only [commandWith, store, getD_concat]
    split_ifs <;> rfl

theorem argument_commandWith (kind : ShellCommandKind) (name : List U8) (arguments : List (List U8)) (i : ℕ)
    (hi : i < shellCommandMaxArgs) :
    (commandWith kind name arguments).argument i = padded _ (arguments.getD i []) := dif_pos hi

/-- **The loop over the arguments**: its result, and the command where that is ok. -/
theorem parseArguments_eq (kind : ShellCommandKind) (name : List U8) (room : ℕ) :
    ∀ (cursor : List U8) (arguments : List (List U8)), 0#8 ∉ cursor →
      arguments.length + room = shellCommandMaxArgs →
      (parseArguments (room + 1) cursor (commandWith kind name arguments)).1 =
          argumentsResult room (lineTokens cursor) ∧
        (argumentsResult room (lineTokens cursor) = .ok →
          (parseArguments (room + 1) cursor (commandWith kind name arguments)).2 =
            commandWith kind name (arguments ++ lineTokens cursor)) := by
  -- on the places that are left: each round fills one
  induction room with
  | zero =>
    intro cursor arguments h0 hcount
    rw [parseArguments]
    obtain ⟨hend, hnone⟩ | ⟨w, rest, hcursor, hmore, -, -, -, -, htokens⟩ := cursor_cases h0
    · rw [hend, hnone, List.append_nil]
      exact ⟨rfl, fun _ => rfl⟩
    · have hfull : (commandWith kind name arguments).argumentCount ≥ shellCommandMaxArgs := hcount.ge
      rw [hcursor, hmore, htokens, if_neg Bool.false_ne_true, if_pos hfull]
      exact ⟨rfl, nofun⟩
  | succ room ih =>
    intro cursor arguments h0 hcount
    rw [parseArguments]
    obtain ⟨hend, hnone⟩ | ⟨w, rest, hcursor, hmore, hw, h0w, h0rest, hrest, htokens⟩ := cursor_cases h0
    · rw [hend, hnone, List.append_nil]
      exact ⟨rfl, fun _ => rfl⟩
    · have hroom : ¬(commandWith kind name arguments).argumentCount ≥ shellCommandMaxArgs := by
        change ¬arguments.length ≥ shellCommandMaxArgs
        omega
      have hplace : (commandWith kind name arguments).argument (commandWith kind name arguments).argumentCount =
          padded _ [] := by
        change (commandWith kind name arguments).argument arguments.length = _
        rw [argument_commandWith _ _ _ _ (by omega), List.getD_eq_default _ _ le_rfl]
      rw [hcursor, hmore, htokens, if_neg Bool.false_ne_true, if_neg hroom, argumentsResult, hplace]
      by_cases hfit : w.length ≤ shellCommandArgMax
      · rw [copyToken_fits hw h0w hrest hfit, if_neg (Nat.not_lt.2 hfit)]
        have hnext := ih rest (arguments ++ [w]) h0rest (by rw [List.length_append, List.length_singleton]; omega)
        rw [← commandWith_push, List.append_assoc] at hnext
        exact hnext
      · obtain ⟨cursor', argument, hcopy⟩ := copyToken_tooLong hw h0w hrest hfit
        rw [hcopy, if_pos (Nat.lt_of_not_le hfit)]
        exact ⟨rfl, nofun⟩

/-! ## The whole line -/

def commandName : ShellCommandKind → List U8
  | .help => asciiText "help"
  | .clear => asciiText "clear"
  | .echo => asciiText "echo"
  | .ls => asciiText "ls"
  | .cat => asciiText "cat"
  | .touch => asciiText "touch"
  | .write => asciiText "write"
  | .append => asciiText "append"
  | .rm => asciiText "rm"
  | .status => asciiText "status"
  | .about => asciiText "about"
  | .unknown => []

theorem stringsEqual_iff {l r : List U8} (hl : 0#8 ∉ l) (hr : 0#8 ∉ r) : stringsEqual l r = true ↔ l = r := by
  induction l generalizing r with
  | nil =>
    cases r with
    | nil => simp [stringsEqual]
    | cons y r =>
      rw [List.mem_cons, not_or] at hr
      simp [stringsEqual, Ne.symm hr.1]
  | cons x l ih =>
    rw [List.mem_cons, not_or] at hl
    cases r with
    | nil => simp [stringsEqual, Ne.symm hl.1]
    | cons y r =>
      rw [List.mem_cons, not_or] at hr
      rw [stringsEqual, List.cons.injEq]
      by_cases hxy : x = y
      · rw [if_neg (not_not.2 hxy), if_neg (Ne.symm hl.1), ih hl.2 hr.2]
        exact (and_iff_right hxy).symm
      · simp [hxy]

/-- The first kind of a list that passes a test. -/
def firstKind (named : ShellCommandKind → Bool) : List ShellCommandKind → ShellCommandKind
  | [] => .unknown
  | kind :: kinds => if named kind then kind else firstKind named kinds

/-- The kinds in the order in which `command_kind` tries them. -/
def allKinds : List ShellCommandKind :=
  [.help, .clear, .echo, .ls, .cat, .touch, .write, .append, .rm, .status, .about]

theorem commandKind_eq (t : List U8) :
    commandKind t = firstKind (fun kind => stringsEqual t (commandName kind)) allKinds := rfl

theorem firstKind_named (named : ShellCommandKind → Bool) (kinds : List ShellCommandKind)
    (h : firstKind named kinds ≠ .unknown) : named (firstKind named kinds) = true := by
  induction kinds with
  | nil => exact absurd rfl h
  | cons kind kinds ih =>
    rw [firstKind] at h ⊢
    by_cases hkind : named kind = true
    · rwa [if_pos hkind]
    · rw [if_neg hkind] at h ⊢
      exact ih h

/-- The kind of a command is the one with its name. -/
theorem commandKind_iff {t : List U8} (h0 : 0#8 ∉ t) {kind : ShellCommandKind} (hkind : kind ≠ .unknown) :
    commandKind t = kind ↔ t = commandName kind := by
  have hname : 0#8 ∉ commandName kind := by cases kind <;> decide
  constructor
  · intro h
    rw [commandKind_eq] at h
    have hnamed := firstKind_named (fun kind => stringsEqual t (commandName kind)) allKinds (h ▸ hkind)
    rw [h] at hnamed
    exact (stringsEqual_iff h0 hname).1 hnamed
  · rintro rfl
    cases kind <;> decide

/-- The result for a list of tokens. -/
def grammarResult : List (List U8) → ShellParseResult
  | [] => .empty
  | t :: ts => if t.length > shellCommandArgMax then .argumentTooLong else argumentsResult shellCommandMaxArgs ts

/-- The command that a list of tokens makes. -/
def commandOf (ts : List (List U8)) : ShellCommand :=
  commandWith (commandKind (ts.headD [])) (ts.headD []) ts.tail

/-- **The parse of a line is a function of its tokens.** -/
theorem parse_eq {line : List U8} (h0 : 0#8 ∉ line) (command : ShellCommand) :
    shellCommandParse (some line) (some command) =
      (grammarResult (lineTokens line),
        some (if grammarResult (lineTokens line) = .ok then commandOf (lineTokens line) else command)) := by
  rw [shellCommandParse]
  obtain ⟨hend, hnone⟩ | ⟨w, rest, hcursor, hmore, hw, h0w, h0rest, hrest, htokens⟩ := cursor_cases h0
  · rw [hend, hnone]
    rfl
  · have hplace : commandClear.name = padded _ [] := rfl
    rw [hcursor, hmore, htokens, if_neg Bool.false_ne_true, grammarResult]
    dsimp only
    rw [hplace]
    by_cases hfit : w.length ≤ shellCommandArgMax
    · rw [if_neg (Nat.not_lt.2 hfit)]
      have hname : cString (shellCommandArgMax + 1) (memoryOf (padded (shellCommandArgMax + 1) w)) = w :=
        cString_padded h0w (hfit.trans (Nat.le_succ _))
      have hparsed : { commandClear with name := padded _ w, kind := commandKind w } =
          commandWith (commandKind w) w [] := rfl
      obtain ⟨hresult, hcommand⟩ := parseArguments_eq (commandKind w) w shellCommandMaxArgs rest [] h0rest rfl
      simp only [copyToken_fits hw h0w hrest hfit, hname, hparsed, ne_eq, not_true_eq_false, if_false]
      generalize parseArguments (shellCommandMaxArgs + 1) rest (commandWith (commandKind w) w []) = out
        at hresult hcommand
      obtain ⟨result, parsed⟩ := out
      dsimp only at hresult hcommand ⊢
      rw [← hresult] at hcommand ⊢
      cases result with
      | ok => rw [hcommand rfl]; rfl
      | _ => rfl
    · obtain ⟨cursor', argument, hcopy⟩ := copyToken_tooLong hw h0w hrest hfit
      rw [hcopy, if_pos (Nat.lt_of_not_le hfit)]
      rfl

theorem argumentsResult_eq (room : ℕ) (ts : List (List U8)) :
    argumentsResult room ts =
      if ∃ t ∈ ts.take room, 31 < t.length then .argumentTooLong
      else if room < ts.length then .tooManyArguments else .ok := by
  induction ts generalizing room with
  | nil => cases room <;> simp [argumentsResult]
  | cons t ts ih =>
    cases room with
    | zero => simp [argumentsResult]
    | succ room =>
      rw [argumentsResult, ih]
      by_cases ht : 31 < t.length
      · simp [ht]
      · simp [ht]

/-- The limits: the length of the first nine tokens is checked before their number. -/
theorem grammarResult_eq (ts : List (List U8)) :
    grammarResult ts =
      if ts = [] then .empty
      else if ∃ t ∈ ts.take 9, 31 < t.length then .argumentTooLong
      else if 9 < ts.length then .tooManyArguments else .ok := by
  cases ts with
  | nil => rfl
  | cons t ts =>
    rw [grammarResult, argumentsResult_eq]
    change (if 31 < t.length then _
      else if ∃ t ∈ ts.take 8, 31 < t.length then _ else if 8 < ts.length then _ else _) = _
    by_cases ht : 31 < t.length
    · simp [ht]
    · simp [ht, Nat.succ_le_iff]

/-- The lines that are accepted. -/
theorem grammarResult_ok_iff (ts : List (List U8)) :
    grammarResult ts = .ok ↔ ts ≠ [] ∧ ts.length ≤ 9 ∧ ∀ t ∈ ts, t.length ≤ 31 := by
  have hshort : ts.length ≤ 9 → ts.take 9 = ts := List.take_of_length_le
  rw [grammarResult_eq]
  split_ifs with hnil hany hmany
  · simp [hnil]
  · refine iff_of_false (by decide) ?_
    rintro ⟨-, hle, hall⟩
    obtain ⟨t, ht, hlt⟩ := hany
    exact absurd (hall t (hshort hle ▸ ht)) (Nat.not_le.2 hlt)
  · exact iff_of_false (by decide) fun h => absurd h.2.1 (Nat.not_le.2 hmany)
  · refine iff_of_true rfl ⟨hnil, Nat.not_lt.1 hmany, fun t ht => Nat.not_lt.1 fun hlt => hany ⟨t, ?_, hlt⟩⟩
    rwa [hshort (Nat.not_lt.1 hmany)]

/-- What is made of a line, with the caller's command before the call. -/
structure CommandGrammar (line : List U8) (command : ShellCommand) : Prop where
  empty_iff : (shellCommandParse (some line) (some command)).1 = .empty ↔ lineTokens line = []
  too_long_iff : (shellCommandParse (some line) (some command)).1 = .argumentTooLong ↔
    ∃ t ∈ (lineTokens line).take 9, 31 < t.length
  too_many_iff : (shellCommandParse (some line) (some command)).1 = .tooManyArguments ↔
    9 < (lineTokens line).length ∧ ∀ t ∈ (lineTokens line).take 9, t.length ≤ 31
  ok_iff : (shellCommandParse (some line) (some command)).1 = .ok ↔
    lineTokens line ≠ [] ∧ (lineTokens line).length ≤ 9 ∧ ∀ t ∈ lineTokens line, t.length ≤ 31
  /-- The name and the arguments are the tokens, with zeros behind them and in the places
  that are not used. -/
  parsed : (shellCommandParse (some line) (some command)).1 = .ok →
    ∃ c name arguments, (shellCommandParse (some line) (some command)).2 = some c ∧
      lineTokens line = name :: arguments ∧ c.name = padded _ name ∧ c.argumentCount = arguments.length ∧
      (∀ i, c.arguments i = padded _ (arguments.getD i.val [])) ∧
      ∀ kind, kind ≠ .unknown → (c.kind = kind ↔ name = commandName kind)
  unchanged : (shellCommandParse (some line) (some command)).1 ≠ .ok →
    (shellCommandParse (some line) (some command)).2 = some command
  /-- Nothing but the tokens matters. -/
  tokens_only : ∀ line', 0#8 ∉ line' → lineTokens line' = lineTokens line →
    shellCommandParse (some line') (some command) = shellCommandParse (some line) (some command)

theorem zero_notMem_token {line t : List U8} (h0 : 0#8 ∉ line) (ht : t ∈ lineTokens line) : 0#8 ∉ t :=
  fun h => h0 ((mem_tokens ht).2.2 _ h)

/-- **The parser accepts exactly its grammar.** -/
theorem command_grammar {line : List U8} (h0 : 0#8 ∉ line) (command : ShellCommand) :
    CommandGrammar line command := by
  have hparse := parse_eq h0 command
  have hresult : (shellCommandParse (some line) (some command)).1 = grammarResult (lineTokens line) := by
    rw [hparse]
  have hlimits := hresult.trans (grammarResult_eq _)
  have hlong : (∃ t ∈ (lineTokens line).take 9, 31 < t.length) → lineTokens line ≠ [] := by
    rintro ⟨t, ht, -⟩ hnil
    simp [hnil] at ht
  refine ⟨?_, ?_, ?_, by rw [hresult, grammarResult_ok_iff], ?_, ?_, ?_⟩
  · rw [hlimits]
    split_ifs <;> simp_all
  · rw [hlimits]
    split_ifs <;> simp_all
  · rw [hlimits]
    split_ifs <;> simp_all
  · intro hok
    rw [hparse] at hok ⊢
    change grammarResult (lineTokens line) = .ok at hok
    rw [if_pos hok]
    cases htokens : lineTokens line with
    | nil => rw [htokens] at hok; exact absurd hok (by decide)
    | cons name arguments =>
      have hname : name ∈ lineTokens line := htokens ▸ List.mem_cons_self
      exact ⟨_, name, arguments, rfl, rfl, rfl, rfl, fun i => rfl,
        fun kind hkind => commandKind_iff (zero_notMem_token h0 hname) hkind⟩
  · intro hok
    rw [hparse] at hok ⊢
    rw [if_neg hok]
  · intro line' h0' htokens
    rw [parse_eq h0' command, hparse, htokens]

theorem command_grammar_write : 0#8 ∉ asciiText " write\tnote  hello " ∧
    CommandGrammar (asciiText " write\tnote  hello ") commandClear :=
  ⟨by decide, command_grammar (by decide) commandClear⟩

end TinyShell
