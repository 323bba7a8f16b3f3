import TinyShell.Proof.RamfsList
import TinyShell.Proof.Shell
import TinyShell.Proof.ShellText

/-!
# What the shell does to the files

Beside the file system stands a `FileLedger`: the words of every file, as the lines answered
with `ok` have left them. The content of a file is the join of its words.

* `fileSize_table`: `file_size` finds the size of a file.
* `executeLine_edit`, `executeLine_other`: a line is one call of the file system, or none.
* `mapStep_edit`: what a call that succeeds does to the files.
* `shell_files`: the lines, the files and the editor after every sequence of characters.
-/

namespace TinyShell

open Machine

/-! ## The size of a file -/

theorem sizeScan_table (T : FileTable) {name : List U8} (h0 : 0#8 ∉ name) {k m : ℕ}
    (hm : k + m = T.entries.length) :
    sizeScan (ramfsOf T) name (List.range' k m) =
      ((T.entries.drop k).find? fun file => decide (file.1.val = name)).map fun file =>
        word file.2.val.length := by
  induction m generalizing k with
  | zero =>
    rw [List.drop_of_length_le (by omega)]
    rfl
  | succ m ih =>
    have hk : k < T.entries.length := by omega
    rw [List.range'_succ, sizeScan, getInfo_entry hk, List.drop_eq_getElem_cons hk, List.find?_cons]
    generalize T.entries[k] = file
    have hequal : stringsEqual (cString (ramfsNameMax + 1) (memoryOf (infoOf file).name)) name =
        decide (file.1.val = name) := by
      rw [Bool.eq_iff_iff, decide_eq_true_eq]
      refine (stringsEqual_iff (zero_notMem_cString _ _) h0).trans ?_
      rw [infoOf_name]
    simp only [hequal]
    by_cases hsame : file.1.val = name
    · simp [hsame, infoOf]
    · simp only [hsame, decide_false, Bool.false_eq_true, if_false]
      exact ih (by omega)

/-- `file_size` finds the size of a file. -/
theorem fileSize_table (T : FileTable) (n : FileName) :
    fileSize (ramfsOf T) n.val = (T.toMap.lookup n).map fun content => word content.val.length := by
  have hscan := sizeScan_table T n.property.zero_notMem (Nat.zero_add _)
  have hsame : (fun file : FileName × Content => decide (file.1.val = n.val)) = fun file => decide (file.1 = n) :=
    funext fun file => decide_eq_decide.2 Subtype.ext_iff.symm
  rw [List.drop_zero, hsame] at hscan
  rw [fileSize, ramfsCount_table, List.range_eq_range', hscan]
  change _ = (T.lookup n).map _
  rw [← Table.find?_entries, Option.map_map]
  rfl

/-! ## Lines that name a file -/

/-- What a line can do to the file that it names. -/
inductive FileEdit
  | touch
  | write (words : List (List U8))
  | append (words : List (List U8))
  | rm
  deriving DecidableEq

/-- The file that a line of tokens names, and what is to be done to it. -/
def fileEdit : List (List U8) → Option (List U8 × FileEdit)
  | command :: name :: words =>
    if command = asciiText "touch" ∧ words = [] then some (name, .touch)
    else if command = asciiText "write" ∧ words ≠ [] then some (name, .write words)
    else if command = asciiText "append" ∧ words ≠ [] then some (name, .append words)
    else if command = asciiText "rm" ∧ words = [] then some (name, .rm)
    else none
  | _ => none

/-- The call of the file system that an edit is. -/
def editCall (leadingSpace : Bool) (name : List U8) : FileEdit → FileCall
  | .touch => .create (some (textAt name))
  | .write words =>
    .write (some (textAt name)) (some (textAt (joinedText false words))) (word (joinedText false words).length)
  | .append words =>
    .append (some (textAt name)) (some (textAt (joinedText leadingSpace words)))
      (word (joinedText leadingSpace words).length)
  | .rm => .remove (some (textAt name))

/-- The test of `execute_command` before an append. -/
def hasContent (s : Ramfs) (name : List U8) : Bool := decide ((fileSize s name).getD 0#32 ≠ 0#32)

/-- A line as `fileEdit` sees it. -/
theorem fileEdit_eq_some {ts : List (List U8)} {name : List U8} {edit : FileEdit}
    (h : fileEdit ts = some (name, edit)) :
    (ts = [asciiText "touch", name] ∧ edit = .touch) ∨
      (∃ words, ts = asciiText "write" :: name :: words ∧ words ≠ [] ∧ edit = .write words) ∨
      (∃ words, ts = asciiText "append" :: name :: words ∧ words ≠ [] ∧ edit = .append words) ∨
      ts = [asciiText "rm", name] ∧ edit = .rm := by
  match ts with
  | [] | [_] => cases h
  | command :: n :: words =>
    rw [fileEdit] at h
    split_ifs at h with h1 h2 h3 h4
    · cases h
      exact .inl ⟨by rw [h1.1, h1.2], rfl⟩
    · cases h
      exact .inr (.inl ⟨words, by rw [h2.1], h2.2, rfl⟩)
    · cases h
      exact .inr (.inr (.inl ⟨words, by rw [h3.1], h3.2, rfl⟩))
    · cases h
      exact .inr (.inr (.inr ⟨by rw [h4.1, h4.2], rfl⟩))

variable {line : List U8} {s : Ramfs} {status : Option SystemStatus}

/-- A line that is parsed. -/
theorem executeLine_parsed (h0 : 0#8 ∉ line) (hok : grammarResult (lineTokens line) = .ok) :
    executeLine s line status =
      if (commandOf (lineTokens line)).kind = .unknown then
        (consoleWrite (asciiText "error: unknown command\n"), s)
      else if !shellCommandHasValidArity (commandOf (lineTokens line)) then
        (consoleWrite (asciiText "error: usage: ") ++
          consoleWrite ((shellCommandUsage (commandOf (lineTokens line)).kind).getD []) ++ [.putc 0x0A#8], s)
      else executeCommand s (commandOf (lineTokens line)) status := by
  rw [executeLine, parse_eq h0, hok]
  rfl

def okAnswer : List ConsoleCall := consoleWrite (asciiText "ok\n")

/-- A line that is not parsed. -/
theorem executeLine_refused (s : Ramfs) (status : Option SystemStatus) (h0 : 0#8 ∉ line)
    (hok : grammarResult (lineTokens line) ≠ .ok) :
    (executeLine s line status).1 ≠ okAnswer ∧ (executeLine s line status).2 = s := by
  rw [executeLine, parse_eq h0]
  cases hresult : grammarResult (lineTokens line) with
  | ok => exact absurd hresult hok
  | _ =>
    refine ⟨?_, rfl⟩
    dsimp only
    decide

/-- Commands other than touch, write, append and rm do not touch the files. -/
theorem executeCommand_other {command : ShellCommand}
    (h : command.kind ≠ .touch ∧ command.kind ≠ .write ∧ command.kind ≠ .append ∧ command.kind ≠ .rm) :
    (executeCommand s command status).2 = s := by
  unfold executeCommand
  cases hkind : command.kind with
  | touch => exact absurd hkind h.1
  | write => exact absurd hkind h.2.1
  | append => exact absurd hkind h.2.2.1
  | rm => exact absurd hkind h.2.2.2
  | echo =>
    dsimp only
    split <;> rfl
  | _ => rfl

theorem fileEdit_touch (n : List U8) : fileEdit [commandName .touch, n] = some (n, .touch) := by
  rw [fileEdit, if_pos ⟨rfl, rfl⟩]

theorem fileEdit_write (n : List U8) {words : List (List U8)} (h : words ≠ []) :
    fileEdit (commandName .write :: n :: words) = some (n, .write words) := by
  rw [fileEdit, if_neg (by simp [h]), if_pos ⟨rfl, h⟩]

theorem fileEdit_append (n : List U8) {words : List (List U8)} (h : words ≠ []) :
    fileEdit (commandName .append :: n :: words) = some (n, .append words) := by
  rw [fileEdit, if_neg (by simp [h]), if_neg fun hw => absurd hw.1 (by decide), if_pos ⟨rfl, h⟩]

theorem fileEdit_rm (n : List U8) : fileEdit [commandName .rm, n] = some (n, .rm) := by
  rw [fileEdit, if_neg fun h => absurd h.1 (by decide), if_neg (by simp), if_neg (by simp), if_pos ⟨rfl, rfl⟩]

/-- A command on a file with as many arguments as it takes is an edit. -/
theorem fileEdit_of_arity {t : List U8} {arguments : List (List U8)} (h0 : 0#8 ∉ t)
    (harity : shellCommandHasValidArity (commandOf (t :: arguments)) = true)
    (hedit : fileEdit (t :: arguments) = none) :
    (commandOf (t :: arguments)).kind ≠ .touch ∧ (commandOf (t :: arguments)).kind ≠ .write ∧
      (commandOf (t :: arguments)).kind ≠ .append ∧ (commandOf (t :: arguments)).kind ≠ .rm := by
  have hcount : (commandOf (t :: arguments)).argumentCount = arguments.length := rfl
  have hname : ∀ kind, kind ≠ .unknown → (commandOf (t :: arguments)).kind = kind → t = commandName kind :=
    fun kind hkind h => (commandKind_iff h0 hkind).1 h
  rw [shellCommandHasValidArity, hcount] at harity
  -- one argument, or two and more
  have hone : decide (arguments.length = 1) = true → ∃ n, arguments = [n] :=
    fun h => List.length_eq_one_iff.1 (of_decide_eq_true h)
  have htwo : (decide (arguments.length ≥ 2) && decide (arguments.length ≤ shellCommandMaxArgs)) = true →
      ∃ n words, arguments = n :: words ∧ words ≠ [] := by
    intro h
    rcases arguments with _ | ⟨n, _ | ⟨w, ws⟩⟩
    · simp at h
    · simp at h
    · exact ⟨n, w :: ws, rfl, by simp⟩
  refine ⟨fun hkind => ?_, fun hkind => ?_, fun hkind => ?_, fun hkind => ?_⟩
  all_goals
    rw [hkind] at harity
    rw [hname _ (by decide) hkind] at hedit
  · obtain ⟨n, rfl⟩ := hone harity
    exact absurd hedit (by simp [fileEdit_touch])
  · obtain ⟨n, words, rfl, hwords⟩ := htwo harity
    exact absurd hedit (by simp [fileEdit_write n hwords])
  · obtain ⟨n, words, rfl, hwords⟩ := htwo harity
    exact absurd hedit (by simp [fileEdit_append n hwords])
  · obtain ⟨n, rfl⟩ := hone harity
    exact absurd hedit (by simp [fileEdit_rm])

/-- **A line that names no edit** leaves the file system as it is. -/
theorem executeLine_other (s : Ramfs) (status : Option SystemStatus) (h0 : 0#8 ∉ line)
    (hedit : fileEdit (lineTokens line) = none) : (executeLine s line status).2 = s := by
  by_cases hok : grammarResult (lineTokens line) = .ok
  · rw [executeLine_parsed h0 hok]
    have hwords := argumentText_token h0 hok
    obtain ⟨hne, -⟩ := (grammarResult_ok_iff _).1 hok
    obtain ⟨t, arguments, htokens⟩ := List.exists_cons_of_ne_nil hne
    rw [htokens] at hedit hwords ⊢
    split_ifs with hunknown harity
    · rfl
    · rfl
    · rw [Bool.not_eq_true, Bool.not_eq_false'] at harity
      exact executeCommand_other (fileEdit_of_arity (hwords t List.mem_cons_self).zero_notMem harity hedit)
  · exact (executeLine_refused s status h0 hok).2

theorem cString_textAt {name : List U8} (hname : ArgumentText name) : cString 32 (textAt name) = name :=
  cString_list hname.zero_notMem (hname.length_le.trans (Nat.le_succ _))

theorem memoryOf_argument {t name : List U8} (words : List (List U8)) (hname : ArgumentText name) :
    memoryOf ((commandOf (t :: name :: words)).argument 0) = textAt name :=
  memoryOf_padded (hname.length_le.trans (Nat.le_succ _))

/-- A line that is parsed and has as many arguments as its command takes. -/
theorem executeLine_command (h0 : 0#8 ∉ line) (hok : grammarResult (lineTokens line) = .ok)
    (harity : shellCommandHasValidArity (commandOf (lineTokens line)) = true) :
    executeLine s line status = executeCommand s (commandOf (lineTokens line)) status := by
  have hknown : (commandOf (lineTokens line)).kind ≠ .unknown := by
    intro hkind
    rw [shellCommandHasValidArity, hkind] at harity
    exact Bool.false_ne_true harity
  rw [executeLine_parsed h0 hok, if_neg hknown, if_neg (by rw [harity]; decide)]

def FileEdit.kind : FileEdit → ShellCommandKind
  | .touch => .touch
  | .write _ => .write
  | .append _ => .append
  | .rm => .rm

/-- A command that takes a name and a text. -/
theorem textCommand_arity {t name : List U8} {words : List (List U8)}
    (hkind : (commandOf (t :: name :: words)).kind = .write ∨ (commandOf (t :: name :: words)).kind = .append)
    (hne : words ≠ []) (hcount : (t :: name :: words).length ≤ 9) :
    shellCommandHasValidArity (commandOf (t :: name :: words)) = true := by
  have hargs : (commandOf (t :: name :: words)).argumentCount = words.length + 1 := rfl
  have hpos := List.length_pos_of_ne_nil hne
  have hvalid : (decide (words.length + 1 ≥ 2) && decide (words.length + 1 ≤ shellCommandMaxArgs)) = true := by
    rw [Bool.and_eq_true, decide_eq_true_eq, decide_eq_true_eq]
    exact ⟨Nat.succ_le_succ hpos, Nat.le_of_succ_le_succ hcount⟩
  rw [shellCommandHasValidArity, hargs]
  rcases hkind with hkind | hkind
  · rw [hkind]
    exact hvalid
  · rw [hkind]
    exact hvalid

/-- An edit is a command with as many arguments as it takes. -/
theorem fileEdit_command {ts : List (List U8)} {name : List U8} {edit : FileEdit}
    (h : fileEdit ts = some (name, edit)) (hcount : ts.length ≤ 9) :
    (commandOf ts).kind = edit.kind ∧ shellCommandHasValidArity (commandOf ts) = true := by
  obtain ⟨rfl, rfl⟩ | ⟨words, rfl, hne, rfl⟩ | ⟨words, rfl, hne, rfl⟩ | ⟨rfl, rfl⟩ := fileEdit_eq_some h
  · have hkind : (commandOf [asciiText "touch", name]).kind = .touch :=
      (by decide : commandKind (asciiText "touch") = .touch)
    refine ⟨hkind, ?_⟩
    rw [shellCommandHasValidArity, hkind]
    rfl
  · have hkind : (commandOf (asciiText "write" :: name :: words)).kind = .write :=
      (by decide : commandKind (asciiText "write") = .write)
    exact ⟨hkind, textCommand_arity (.inl hkind) hne hcount⟩
  · have hkind : (commandOf (asciiText "append" :: name :: words)).kind = .append :=
      (by decide : commandKind (asciiText "append") = .append)
    exact ⟨hkind, textCommand_arity (.inr hkind) hne hcount⟩
  · have hkind : (commandOf [asciiText "rm", name]).kind = .rm := (by decide : commandKind (asciiText "rm") = .rm)
    refine ⟨hkind, ?_⟩
    rw [shellCommandHasValidArity, hkind]
    rfl

/-- **A line that names an edit** is one call of the file system. -/
theorem executeLine_edit {name : List U8} {edit : FileEdit} (h0 : 0#8 ∉ line)
    (hok : grammarResult (lineTokens line) = .ok) (hedit : fileEdit (lineTokens line) = some (name, edit)) :
    executeLine s line status =
      (printResult (fileStep s (editCall (hasContent s name) name edit)).1.result,
        (fileStep s (editCall (hasContent s name) name edit)).2) := by
  have hwords := argumentText_token h0 hok
  obtain ⟨-, hcount, -⟩ := (grammarResult_ok_iff _).1 hok
  obtain ⟨hkind, harity⟩ := fileEdit_command hedit hcount
  rw [executeLine_command h0 hok harity]
  obtain ⟨t, words, htokens⟩ : ∃ t words, lineTokens line = t :: name :: words := by
    obtain ⟨h, -⟩ | ⟨words, h, -⟩ | ⟨words, h, -⟩ | ⟨h, -⟩ := fileEdit_eq_some hedit
    all_goals exact ⟨_, _, h⟩
  rw [htokens] at hwords hcount hkind harity hedit ⊢
  have hname := memoryOf_argument (t := t) words (hwords name (by simp))
  have harguments : ∀ w ∈ name :: words, ArgumentText w := fun w hw => hwords w (List.mem_cons_of_mem _ hw)
  have hmax : (name :: words).length ≤ shellCommandMaxArgs := Nat.le_of_succ_le_succ hcount
  have hgiven := textGiven_commandWith harguments hmax harity s status
  have htext : (commandOf (t :: name :: words)).words = name :: words := words_commandWith harguments hmax
  change TextGiven (commandOf (t :: name :: words)) s status at hgiven
  obtain ⟨-, rfl⟩ | ⟨ws, htail, -, rfl⟩ | ⟨ws, htail, -, rfl⟩ | ⟨-, rfl⟩ := fileEdit_eq_some hedit
  · rw [executeCommand, hkind, hname]
    rfl
  · obtain ⟨-, rfl⟩ : t = asciiText "write" ∧ words = ws := by simpa using htail
    rw [hgiven.write hkind, hname, htext]
    rfl
  · obtain ⟨-, rfl⟩ : t = asciiText "append" ∧ words = ws := by simpa using htail
    rw [hgiven.append hkind _ rfl, hname, htext, cString_textAt (hwords name (by simp))]
    rfl
  · rw [executeCommand, hkind, hname]
    rfl

/-! ## What an edit does -/

/-- The content of the file after an edit; an append to a file with content puts a space
between. -/
def FileEdit.content : FileEdit → Option (List U8) → Option (List U8)
  | .touch, _ => some []
  | .write words, _ => some (joinedText false words)
  | .append words, old => old.map fun content => content ++ joinedText (content ≠ []) words
  | .rm, _ => none

/-- The texts of an edit are short. -/
def FileEdit.Fits : FileEdit → Prop
  | .write words | .append words => ∀ leadingSpace, (joinedText leadingSpace words).length < 2 ^ 32
  | _ => True

theorem given_textAt {text : List U8} (h : text.length < 2 ^ 32) :
    given (some (textAt text)) (word text.length) = text := by
  rw [given, toNat_word h]
  exact bytesAt_getD text

theorem fileName_textAt {name : List U8} (hname : ArgumentText name) {n : FileName}
    (h : fileName (textAt name) = some n) : n.val = name := by
  rw [fileName_eq_some, cString_textAt hname] at h
  exact h.symm

/-- What a map holds under a name, as bytes. -/
def FileMap.content (m : FileMap) (n : FileName) : Option (List U8) := (m.lookup n).map Subtype.val

theorem setContent_ok {m : FileMap} {n : FileName} {content : List U8} {h : m.lookup n ≠ none}
    (hok : (m.setContent n content h).1.result = .ok) (n' : FileName) :
    FileMap.content (m.setContent n content h).2 n' = if n' = n then some content else FileMap.content m n' := by
  unfold FileMap.setContent at hok ⊢
  split_ifs at hok ⊢ with hle hn hn
  · subst hn
    simp [FileMap.content, BoundedMap.insert]
  · simp [FileMap.content, BoundedMap.insert, hn]
  all_goals exact absurd hok (by simp [FileAnswer.plain])

/-- What is in the map after an edit that has succeeded. -/
theorem mapStep_edit {m : FileMap} {name : List U8} (hname : ArgumentText name) {edit : FileEdit}
    (hfits : edit.Fits) {leadingSpace : Bool} (hok : (mapStep m (editCall leadingSpace name edit)).1.result = .ok)
    (hlead : ∀ n : FileName, n.val = name → ∀ content, FileMap.content m n = some content →
      leadingSpace = decide (content ≠ [])) :
    ∃ n : FileName, n.val = name ∧ (edit = .touch ↔ FileMap.content m n = none) ∧
      ∀ n', FileMap.content (mapStep m (editCall leadingSpace name edit)).2 n' =
        if n' = n then edit.content (FileMap.content m n) else FileMap.content m n' := by
  cases hn : fileName (textAt name) with
  | none =>
    cases edit <;> simp [editCall, mapStep, hn, FileAnswer.plain] at hok
  | some n =>
    have hval := fileName_textAt hname hn
    refine ⟨n, hval, ?_⟩
    cases edit with
    | touch =>
      simp only [editCall, mapStep, hn] at hok ⊢
      by_cases hfile : m.lookup n = none
      · have hroom : m.keys.card < ramfsMaxFiles := by
          by_contra hfull
          simp [hfile, hfull, FileAnswer.plain] at hok
        refine ⟨by simp [FileMap.content, hfile], fun n' => ?_⟩
        simp only [hfile, ne_eq, not_true_eq_false, if_false, dif_pos hroom]
        by_cases hn' : n' = n
        · simp [hn', FileMap.content, BoundedMap.insert, FileEdit.content, emptyContent]
        · simp [hn', FileMap.content, BoundedMap.insert]
      · simp [hfile, FileAnswer.plain] at hok
    | write words =>
      simp only [editCall, mapStep, hn, given_textAt (hfits false)] at hok ⊢
      by_cases hfile : m.lookup n = none
      · simp [hfile, FileAnswer.plain] at hok
      · simp only [reduceCtorEq, false_and, if_false, dif_neg hfile] at hok ⊢
        exact ⟨by simp [FileMap.content, hfile], setContent_ok hok⟩
    | append words =>
      simp only [editCall, mapStep, hn, given_textAt (hfits leadingSpace)] at hok ⊢
      by_cases hfile : m.lookup n = none
      · simp [hfile, FileAnswer.plain] at hok
      · obtain ⟨content, hcontent⟩ := Option.ne_none_iff_exists'.1 hfile
        have hbytes : FileMap.content m n = some content.val := by rw [FileMap.content, hcontent]; rfl
        have hold : FileMap.bytes m n = content.val := by rw [FileMap.bytes, hcontent]; rfl
        simp only [reduceCtorEq, false_and, if_false, dif_neg hfile] at hok ⊢
        refine ⟨by simp [hbytes], fun n' => ?_⟩
        rw [setContent_ok hok, hbytes, hold, FileEdit.content, Option.map_some, ← hlead n hval _ hbytes]
    | rm =>
      simp only [editCall, mapStep, hn] at hok ⊢
      by_cases hfile : m.lookup n = none
      · simp [hfile, FileAnswer.plain] at hok
      · simp only [if_neg hfile]
        refine ⟨by simp [FileMap.content, hfile], fun n' => ?_⟩
        by_cases hn' : n' = n
        · simp [hn', FileMap.content, BoundedMap.erase, FileEdit.content]
        · simp [hn', FileMap.content, BoundedMap.erase]

/-- `file_size` tells whether there is content. -/
theorem hasContent_eq {m : FileMap} (hrep : RamfsRep s m) {n : FileName} {content : List U8}
    (h : FileMap.content m n = some content) : hasContent s n.val = decide (content ≠ []) := by
  obtain ⟨T, rfl, rfl⟩ := hrep
  obtain ⟨v, hv, rfl⟩ := Option.map_eq_some_iff.1 h
  have hlength : v.val.length < 2 ^ 32 := v.property.trans_lt (by decide)
  rw [hasContent, fileSize_table, hv]
  exact decide_eq_decide.2 (not_congr ((word_eq_zero hlength).trans List.length_eq_zero_iff))

theorem fits_of_tokens {ts : List (List U8)} {name : List U8} {edit : FileEdit}
    (hwords : ∀ w ∈ ts, ArgumentText w)
    (hcount : ts.length ≤ 9) (h : fileEdit ts = some (name, edit)) : edit.Fits := by
  have key : ∀ t words, ts = t :: name :: words →
      ∀ leadingSpace, (joinedText leadingSpace words).length < 2 ^ 32 := by
    rintro t words rfl leadingSpace
    have hfits := length_joinedText (fun w hw => hwords w (List.mem_cons_of_mem _ hw))
      (Nat.le_of_succ_le_succ hcount) 1 leadingSpace fun _ => le_rfl
    exact hfits.trans (by decide)
  obtain ⟨-, rfl⟩ | ⟨words, hts, -, rfl⟩ | ⟨words, hts, -, rfl⟩ | ⟨-, rfl⟩ := fileEdit_eq_some h
  · trivial
  · exact key _ _ hts
  · exact key _ _ hts
  · trivial

/-- The edit that a line asks for. -/
def Handled.edit (handled : Handled) : Option (List U8 × FileEdit) :=
  handled.line.bind fun line => fileEdit (lineTokens line)

/-- What a character does to the files. -/
structure LineEffect (s : Ramfs) (handled : Handled) (s' : Ramfs) : Prop where
  /-- A line that the parser accepts and that names an edit is answered with the result of its call
  of the file system. -/
  answered : ∀ line name edit, handled.line = some line → grammarResult (lineTokens line) = .ok →
    fileEdit (lineTokens line) = some (name, edit) →
    handled.answer = printResult (fileStep s (editCall (hasContent s name) name edit)).1.result
  unchanged : handled.edit = none ∨ handled.answer ≠ okAnswer → s' = s
  edited : ∀ name edit, handled.edit = some (name, edit) → handled.answer = okAnswer →
    ∃ n : FileName, n.val = name ∧ (edit = .touch ↔ contentOf s name = none) ∧
      contentOf s' name = edit.content (contentOf s name) ∧
      ∀ n' : FileName, n' ≠ n → contentOf s' n'.val = contentOf s n'.val

theorem printResult_ok (result : RamfsResult) : printResult result = okAnswer ↔ result = .ok := by
  cases result <;> decide

/-- **Step lemma**: what a line does to the files. -/
theorem executeLine_effect {m : FileMap} (h0 : 0#8 ∉ line) (hrep : RamfsRep s m) :
    LineEffect s ⟨some line, (executeLine s line status).1⟩ (executeLine s line status).2 ∧
      ∃ m', RamfsRep (executeLine s line status).2 m' := by
  have hline : ∀ answer, Handled.edit ⟨some line, answer⟩ = fileEdit (lineTokens line) := fun _ => rfl
  by_cases hok : grammarResult (lineTokens line) = .ok
  · cases hedit : fileEdit (lineTokens line) with
    | none =>
      have hsame := executeLine_other s status h0 hedit
      refine ⟨⟨?_, fun _ => hsame, fun name edit h => ?_⟩, m, hsame.symm ▸ hrep⟩
      · rintro line' name edit ⟨⟩ - h
        rw [hedit] at h
        cases h
      · rw [hline, hedit] at h
        cases h
    | some file =>
      obtain ⟨name, edit⟩ := file
      obtain ⟨-, hcount, -⟩ := (grammarResult_ok_iff _).1 hok
      have hwords := argumentText_token h0 hok
      have hfits := fits_of_tokens hwords hcount hedit
      have hname : ArgumentText name := by
        obtain ⟨h, -⟩ | ⟨words, h, -⟩ | ⟨words, h, -⟩ | ⟨h, -⟩ := fileEdit_eq_some hedit
        all_goals exact hwords name (by rw [h]; simp)
      rw [executeLine_edit h0 hok hedit]
      obtain ⟨hanswer, hnext⟩ := fileStep_sim hrep (editCall (hasContent s name) name edit)
      refine ⟨⟨?_, ?_, ?_⟩, _, hnext⟩
      · rintro line' name' edit' ⟨⟩ - h
        rw [hedit] at h
        cases h
        rfl
      · rintro (h | h)
        · rw [hline, hedit] at h
          cases h
        · exact (fileStep_failed s _ fun hresult => h ((printResult_ok _).2 hresult)).1
      · intro name' edit' h hprinted
        rw [hline, hedit] at h
        cases h
        rw [printResult_ok, hanswer] at hprinted
        have hlead : ∀ n : FileName, n.val = name → ∀ content, FileMap.content m n = some content →
            hasContent s name = decide (content ≠ []) := by
          rintro n rfl content hcontent
          exact hasContent_eq hrep hcontent
        obtain ⟨n, rfl, htouch, hcontents⟩ := mapStep_edit hname hfits hprinted hlead
        have hbefore := contentOf_eq hrep
        have hafter := contentOf_eq hnext
        refine ⟨n, rfl, by rw [hbefore]; exact htouch, ?_, fun n' hn' => ?_⟩
        · rw [hafter, hbefore]
          exact (hcontents n).trans (if_pos rfl)
        · rw [hafter, hbefore]
          exact (hcontents n').trans (if_neg hn')
  · obtain ⟨hanswer, hsame⟩ := executeLine_refused s status h0 hok
    refine ⟨⟨?_, fun _ => hsame, fun _ _ _ h => absurd h hanswer⟩, m, hsame.symm ▸ hrep⟩
    rintro line' name edit ⟨⟩ h
    exact absurd h hok

/-! ## The ledger -/

/-- The words of every file. -/
abbrev FileLedger := List U8 → Option (List (List U8))

def FileEdit.words : FileEdit → Option (List (List U8)) → Option (List (List U8))
  | .touch, _ => some []
  | .write words, _ => some words
  | .append words, old => old.map (· ++ words)
  | .rm, _ => none

/-- The ledger after a character: an edit answered with `ok` changes the words of its
file. -/
def FileLedger.step (ledger : FileLedger) (handled : Handled) : FileLedger :=
  match handled.edit with
  | some (name, edit) =>
    if handled.answer = okAnswer then Function.update ledger name (edit.words (ledger name)) else ledger
  | none => ledger

def ledgerOf (handled : List Handled) : FileLedger := handled.foldl FileLedger.step fun _ => none

/-- The content of every file is the join of its words. -/
structure FileLedger.Describes (ledger : FileLedger) (s : Ramfs) : Prop where
  content : ∀ n : FileName, contentOf s n.val = (ledger n.val).map [0x20#8].intercalate
  words_ne : ∀ name words, ledger name = some words → [] ∉ words

theorem intercalate_append {ws vs : List (List U8)} (hws : [] ∉ ws) (hvs : vs ≠ []) :
    [0x20#8].intercalate (ws ++ vs) =
      [0x20#8].intercalate ws ++ joinedText ([0x20#8].intercalate ws ≠ []) vs := by
  cases ws with
  | nil => simp [joinedText]
  | cons w ws =>
    obtain ⟨v, vs, rfl⟩ := List.exists_cons_of_ne_nil hvs
    have hw : w ≠ [] := fun h => hws (h ▸ List.mem_cons_self)
    have hne : [0x20#8].intercalate (w :: ws) ≠ [] := by simp [intercalate_cons_flatMap, hw]
    rw [joinedText, decide_eq_true hne, if_pos rfl, List.cons_append, intercalate_cons_flatMap,
      intercalate_cons_flatMap, intercalate_cons_flatMap, List.flatMap_append, List.flatMap_cons]
    simp

/-- An edit does to the content what it does to the words. -/
theorem FileEdit.content_words {ts : List (List U8)} {name : List U8} {edit : FileEdit}
    (h : fileEdit ts = some (name, edit)) {old : Option (List (List U8))}
    (hold : ∀ words, old = some words → [] ∉ words) :
    edit.content (old.map [0x20#8].intercalate) = (edit.words old).map [0x20#8].intercalate := by
  obtain ⟨-, rfl⟩ | ⟨words, -, hne, rfl⟩ | ⟨words, -, hne, rfl⟩ | ⟨-, rfl⟩ := fileEdit_eq_some h
  · rfl
  · rfl
  · cases old with
    | none => rfl
    | some ws => exact congrArg some (intercalate_append (hold ws rfl) hne).symm
  · rfl

theorem FileEdit.words_ne {ts : List (List U8)} (hts : [] ∉ ts) {name : List U8} {edit : FileEdit}
    (h : fileEdit ts = some (name, edit)) {old : Option (List (List U8))}
    (hold : ∀ words, old = some words → [] ∉ words)
    {words : List (List U8)} (hwords : edit.words old = some words) : [] ∉ words := by
  obtain ⟨-, rfl⟩ | ⟨ws, rfl, -, rfl⟩ | ⟨ws, rfl, -, rfl⟩ | ⟨-, rfl⟩ := fileEdit_eq_some h
  · cases hwords
    simp
  · cases hwords
    simp_all
  · obtain ⟨vs, hvs, rfl⟩ := Option.map_eq_some_iff.1 hwords
    have := hold vs hvs
    simp_all
  · cases hwords

/-- **Step lemma**: the ledger goes with the files. -/
theorem FileLedger.Describes.step {ledger : FileLedger} {s' : Ramfs} {handled : Handled} (h : ledger.Describes s)
    (heffect : LineEffect s handled s') : (ledger.step handled).Describes s' := by
  unfold FileLedger.step
  cases hedit : handled.edit with
  | none => rwa [heffect.unchanged (.inl hedit)]
  | some file =>
    obtain ⟨name, edit⟩ := file
    dsimp only
    by_cases hanswer : handled.answer = okAnswer
    · obtain ⟨n, rfl, -, hfile, hothers⟩ := heffect.edited name edit hedit hanswer
      obtain ⟨line, -, hline⟩ := Option.bind_eq_some_iff.1 hedit
      have hold := h.words_ne n.val
      rw [if_pos hanswer]
      constructor
      · intro n'
        by_cases hn : n' = n
        · rw [hn, hfile, h.content, Function.update_self, FileEdit.content_words hline hold]
        · rw [hothers n' hn, h.content, Function.update_of_ne fun hval => hn (Subtype.ext hval)]
      · intro name words hwords
        by_cases hname : name = n.val
        · rw [hname, Function.update_self] at hwords
          exact FileEdit.words_ne (fun hnil => (mem_tokens hnil).1 rfl) hline hold hwords
        · rw [Function.update_of_ne hname] at hwords
          exact h.words_ne name words hwords
    · rw [if_neg hanswer, heffect.unchanged (.inr hanswer)]
      exact h

/-! ## Whole sessions -/

/-- **Step lemma**: what a character does to the files. -/
theorem handleChar_effect {s : ShellRuntime} {l : LineText} {m : FileMap} (h : Running s l)
    (hrep : RamfsRep s.ramfs m) (input : U8 × Option SystemStatus) :
    LineEffect s.ramfs (shellRuntimeHandleChar s input).1 (shellRuntimeHandleChar s input).2.ramfs ∧
      ∃ m', RamfsRep (shellRuntimeHandleChar s input).2.ramfs m' := by
  obtain ⟨character, status⟩ := input
  obtain ⟨-, ⟨-, hedited⟩ | ⟨-, hsubmitted⟩⟩ := handleChar_cases h character status
  · rw [hedited.handled, hedited.ramfs]
    refine ⟨⟨?_, fun _ => rfl, nofun⟩, m, hrep⟩
    rintro line name edit ⟨⟩
  · rw [hsubmitted.handled, hsubmitted.ramfs]
    exact executeLine_effect l.zero_notMem hrep

/-- The lines of a session are those of the editing rules. -/
theorem lines_eq {s : ShellRuntime} {l : LineText} (h : Running s l) (inputs : List (U8 × Option SystemStatus)) :
    (trace shellRuntimeHandleChar s inputs).map (fun call => call.2.line) =
      (trace editStep l (inputs.map Prod.fst)).map fun call => call.2.map LineText.text := by
  induction inputs generalizing s l with
  | nil => rfl
  | cons input inputs ih =>
    obtain ⟨character, status⟩ := input
    obtain ⟨hnext, hcases⟩ := handleChar_cases h character status
    have hline :
        (shellRuntimeHandleChar s (character, status)).1.line = (editStep l character).1.map LineText.text := by
      obtain ⟨hnone, hedited⟩ | ⟨hsubmit, hsubmitted⟩ := hcases
      · rw [hedited.handled, hnone]
        rfl
      · rw [hsubmitted.handled, hsubmit]
        rfl
    simp only [trace, List.map_cons, hline, ih hnext]

/-- What holds between a session and its history. -/
structure SessionFiles (s : ShellRuntime) (handled : List Handled) : Prop where
  /-- The editor takes the next character. -/
  ready : s.editor.ready = false
  content : ∀ n : FileName, contentOf s.ramfs n.val = (ledgerOf handled n.val).map [0x20#8].intercalate
  next : ∀ input, LineEffect s.ramfs (shellRuntimeHandleChar s input).1 (shellRuntimeHandleChar s input).2.ramfs

/-- **Shell sessions have the intended file semantics.** -/
theorem shell_files (s : ShellRuntime) (inputs : List (U8 × Option SystemStatus)) :
    (trace shellRuntimeHandleChar (startedShell s) inputs).map (fun call => call.2.line) =
        (trace editStep .empty (inputs.map Prod.fst)).map (fun call => call.2.map LineText.text) ∧
      SessionFiles (exec shellRuntimeHandleChar (startedShell s) inputs)
        ((trace shellRuntimeHandleChar (startedShell s) inputs).map Prod.snd) := by
  refine ⟨lines_eq (startedShell_running s) inputs, ?_⟩
  have hinv : ∃ l m, Running (exec shellRuntimeHandleChar (startedShell s) inputs) l ∧
      RamfsRep (exec shellRuntimeHandleChar (startedShell s) inputs).ramfs m ∧
      (ledgerOf ((trace shellRuntimeHandleChar (startedShell s) inputs).map Prod.snd)).Describes
        (exec shellRuntimeHandleChar (startedShell s) inputs).ramfs := by
    refine hist_inv (I := fun calls t => ∃ l m, Running t l ∧ RamfsRep t.ramfs m ∧
      (ledgerOf (calls.map Prod.snd)).Describes t.ramfs) ?_ ?_ inputs
    · have hramfs : (startedShell s).ramfs = ramfsInit := by rw [startedShell_eq]
      refine ⟨.empty, BoundedMap.empty, startedShell_running s, hramfs ▸ ramfsInit_rep, ?_, nofun⟩
      intro n
      rw [hramfs, contentOf_eq ramfsInit_rep]
      rfl
    · rintro calls t ⟨character, status⟩ ⟨l, m, hrunning, hrep, hledger⟩
      obtain ⟨heffect, m', hrep'⟩ := handleChar_effect hrunning hrep (character, status)
      refine ⟨_, m', (handleChar_cases hrunning character status).1, hrep', ?_⟩
      rw [ledgerOf, List.map_append, List.foldl_append]
      exact hledger.step heffect
  obtain ⟨l, m, hrunning, hrep, hledger⟩ := hinv
  obtain ⟨overflow, heditor⟩ := hrunning.editor
  exact ⟨by rw [heditor]; rfl, hledger.content, fun input => (handleChar_effect hrunning hrep input).1⟩

end TinyShell
