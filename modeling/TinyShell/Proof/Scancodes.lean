import TinyShell.Proof.Keyboard

/-!
# Decoding scan codes

What a byte means is a matter of the bytes before it. The rule is stated on the whole
sequence of bytes, with the keyboard's layout written out row by row; the decoder keeps
four flags instead, and `Modifiers` says what each of them remembers of the sequence.

* `decode_modifiers`: a byte keeps the flags in step with the sequence.
* `decode_offers`: the decoder gives the character of the rule.
* `scancodes_decoded`: for every sequence of bytes, however `keyboard_pop_char` runs between
  them.
-/

namespace TinyShell

open Machine

/-! ## The rule -/

/-- A byte is swallowed when it is 0xE0 or comes right after a 0xE0. -/
def Swallowed (before : List U8) (byte : U8) : Prop := byte = 0xE0#8 ∨ before.getLast? = some 0xE0#8

instance (before : List U8) (byte : U8) : Decidable (Swallowed before byte) :=
  inferInstanceAs (Decidable (_ ∨ _))

/-- The bytes that are not swallowed. -/
def keptBytes (bytes : List U8) : List U8 :=
  filterMapAfter (fun before byte => if Swallowed before byte then none else some byte) bytes

/-- The last press or release of a key was a press. -/
def Held (press release : U8) (kept : List U8) : Prop :=
  (kept.filter fun byte => byte = press || byte = release).getLast? = some press

instance (press release : U8) (kept : List U8) : Decidable (Held press release kept) :=
  inferInstanceAs (Decidable (_ = _))

/-- One of the shift keys is held. -/
def ShiftHeld (kept : List U8) : Prop := Held 0x2A#8 0xAA#8 kept ∨ Held 0x36#8 0xB6#8 kept

/-- Caps Lock was pressed an odd number of times. -/
def CapsOn (kept : List U8) : Prop := kept.count 0x3A#8 % 2 = 1

instance (kept : List U8) : Decidable (ShiftHeld kept) := inferInstanceAs (Decidable (_ ∨ _))

instance (kept : List U8) : Decidable (CapsOn kept) := inferInstanceAs (Decidable (_ = _))

/-- A row of keys with consecutive codes. -/
def keyRow (first : U8) (keys : String) : List (U8 × Char) :=
  keys.toList.zipIdx.map fun (key, i) => (first + BitVec.ofNat 8 i, key)

def letterKeys : List (U8 × Char) :=
  keyRow 0x10#8 "qwertyuiop" ++ keyRow 0x1E#8 "asdfghjkl" ++ keyRow 0x2C#8 "zxcvbnm"

def digitKeys : List (U8 × Char) := keyRow 0x02#8 "1234567890"

def shiftedDigitKeys : List (U8 × Char) := keyRow 0x02#8 "!@#$%^&*()"

/-- Enter, Backspace and Space. -/
def otherKeys : List (U8 × Char) := [(0x1C#8, '\n'), (0x0E#8, '\x08'), (0x39#8, ' ')]

/-- The character of a make code. -/
def keyCharacter (shift caps : Bool) (code : U8) : Option Char :=
  match letterKeys.lookup code with
  | some letter => some (if shift ≠ caps then letter.toUpper else letter)
  | none => ((if shift then shiftedDigitKeys else digitKeys) ++ otherKeys).lookup code

/-- The character that a byte gives after the bytes before it. -/
def offered (before : List U8) (byte : U8) : Option U8 :=
  if Swallowed before byte then none
  else (keyCharacter (ShiftHeld (keptBytes before)) (CapsOn (keptBytes before)) byte).map ascii

/-- The characters that a sequence of bytes gives. -/
def offeredChars (bytes : List U8) : List U8 := filterMapAfter offered bytes

/-! ## One more byte -/

theorem keptBytes_concat (bytes : List U8) (byte : U8) :
    keptBytes (bytes ++ [byte]) =
      if Swallowed bytes byte then keptBytes bytes else keptBytes bytes ++ [byte] := by
  unfold keptBytes
  rw [filterMapAfter_concat]
  split_ifs with h
  · exact List.append_nil _
  · rfl

theorem held_concat {press release : U8} (hne : press ≠ release) (kept : List U8) (byte : U8) :
    Held press release (kept ++ [byte]) ↔
      if byte = press then True else if byte = release then False else Held press release kept := by
  unfold Held
  rw [List.filter_append]
  split_ifs with h1 h2
  · simp [h1]
  · simp [h2, hne.symm]
  · simp [h1, h2]

theorem capsOn_concat (kept : List U8) (byte : U8) :
    CapsOn (kept ++ [byte]) ↔ if byte = 0x3A#8 then ¬CapsOn kept else CapsOn kept := by
  unfold CapsOn
  rw [List.count_append]
  split_ifs with h
  · rw [h, List.count_singleton_self]
    omega
  · have hnone : [byte].count 0x3A#8 = 0 := List.count_eq_zero_of_not_mem (by simpa using Ne.symm h)
    rw [hnone, Nat.add_zero]

/-! ## The flags -/

/-- The decoder's flags say what the rule asks of the bytes so far. -/
structure Modifiers (bytes : List U8) (s : Keyboard) : Prop where
  left : s.leftShiftDown = true ↔ Held 0x2A#8 0xAA#8 (keptBytes bytes)
  right : s.rightShiftDown = true ↔ Held 0x36#8 0xB6#8 (keptBytes bytes)
  caps : s.capsLockEnabled = true ↔ CapsOn (keptBytes bytes)
  pending : s.extendedPrefixPending = true ↔ bytes.getLast? = some 0xE0#8

variable {bytes : List U8} {s s' : Keyboard}

/-- What the flags are, apart from the queue. -/
theorem Modifiers.congr (h : Modifiers bytes s) (hl : s'.leftShiftDown = s.leftShiftDown)
    (hr : s'.rightShiftDown = s.rightShiftDown) (hc : s'.capsLockEnabled = s.capsLockEnabled)
    (hp : s'.extendedPrefixPending = s.extendedPrefixPending) : Modifiers bytes s' :=
  ⟨hl ▸ h.left, hr ▸ h.right, hc ▸ h.caps, hp ▸ h.pending⟩

theorem Modifiers.swallowed (h : Modifiers bytes s) (byte : U8) :
    byte = keyboardExtendedPrefix ∨ s.extendedPrefixPending = true ↔ Swallowed bytes byte :=
  or_congr_right h.pending

/-- A byte is a release or a make code, and its code decides which key it is. -/
theorem release_code : ∀ byte : U8,
    (byte &&& ~~~keyboardReleaseBit = keyboardLeftShift ↔ byte = 0x2A#8 ∨ byte = 0xAA#8) ∧
    (byte &&& ~~~keyboardReleaseBit = keyboardRightShift ↔ byte = 0x36#8 ∨ byte = 0xB6#8) ∧
    (byte &&& keyboardReleaseBit = 0 → byte &&& ~~~keyboardReleaseBit = byte) := by
  decide +kernel

/-- The code's tables are the layout's. -/
theorem characterForKey_eq (s : Keyboard) (code : U8) :
    characterForKey s code =
      (keyCharacter (s.leftShiftDown || s.rightShiftDown) s.capsLockEnabled code).map ascii := by
  unfold characterForKey
  generalize (s.leftShiftDown || s.rightShiftDown) = shift
  generalize s.capsLockEnabled = caps
  revert shift caps code
  decide +kernel

/-- Releases and the modifier keys have no character. -/
theorem keyCharacter_none : ∀ (shift caps : Bool) (byte : U8),
    byte &&& keyboardReleaseBit ≠ 0 ∨ byte = 0x2A#8 ∨ byte = 0x36#8 ∨ byte = 0x3A#8 →
      keyCharacter shift caps byte = none := by
  decide +kernel

/-! ## Decoding a byte -/

theorem decode_swallowed (h : Modifiers bytes s) {byte : U8} (hsw : Swallowed bytes byte) :
    decodeScancode s byte = (none, { s with extendedPrefixPending := decide (byte = 0xE0#8) }) := by
  unfold decodeScancode
  by_cases hext : byte = keyboardExtendedPrefix
  · rw [if_pos hext]
    simp [hext]
  · have hpending : s.extendedPrefixPending = true := h.pending.2 (hsw.resolve_left hext)
    have hother : decide (byte = 0xE0#8) = false := decide_eq_false hext
    rw [if_neg hext, if_pos hpending, hother]

/-- The character of a byte that is not swallowed. -/
theorem decode_offers (h : Modifiers bytes s) (byte : U8) : (decodeScancode s byte).1 = offered bytes byte := by
  unfold offered
  by_cases hsw : Swallowed bytes byte
  · rw [if_pos hsw, decode_swallowed h hsw]
  · rw [if_neg hsw]
    have hshift : decide (ShiftHeld (keptBytes bytes)) = (s.leftShiftDown || s.rightShiftDown) := by
      rw [Bool.eq_iff_iff, decide_eq_true_eq, Bool.or_eq_true, h.left, h.right]
      rfl
    have hcaps : decide (CapsOn (keptBytes bytes)) = s.capsLockEnabled := by
      rw [Bool.eq_iff_iff, decide_eq_true_eq, h.caps]
    rw [hshift, hcaps]
    obtain ⟨hext, hpending⟩ := not_or.1 (mt (h.swallowed byte).1 hsw)
    obtain ⟨hleft, hright, hcode⟩ := release_code byte
    unfold decodeScancode
    rw [if_neg hext, if_neg hpending]
    dsimp only
    -- in the order of the source: the shift keys, any other release, caps lock, and the keys with a character
    split_ifs with h1 h2 h3 h4
    · rcases hleft.1 h1 with rfl | rfl <;> rw [keyCharacter_none _ _ _ (by decide)] <;> rfl
    · rcases hright.1 h2 with rfl | rfl <;> rw [keyCharacter_none _ _ _ (by decide)] <;> rfl
    · rw [keyCharacter_none _ _ _ (.inl (by simpa using h3))]
      rfl
    · have hmake : byte = 0x3A#8 := (hcode (by simpa using h3)).symm.trans h4
      rw [keyCharacter_none _ _ _ (by simp [hmake])]
      rfl
    · rw [hcode (by simpa using h3)]
      exact characterForKey_eq s byte

/-- The flags after a byte that is not swallowed. -/
theorem decode_flags {byte : U8} (hext : byte ≠ keyboardExtendedPrefix)
    (hpending : ¬s.extendedPrefixPending = true) :
    let s' := (decodeScancode s byte).2
    s'.leftShiftDown = (if byte = 0x2A#8 then true else if byte = 0xAA#8 then false else s.leftShiftDown) ∧
    s'.rightShiftDown = (if byte = 0x36#8 then true else if byte = 0xB6#8 then false else s.rightShiftDown) ∧
    s'.capsLockEnabled = (if byte = 0x3A#8 then !s.capsLockEnabled else s.capsLockEnabled) ∧
    s'.extendedPrefixPending = false := by
  obtain ⟨hleft, hright, hcode⟩ := release_code byte
  unfold decodeScancode
  rw [if_neg hext, if_neg hpending]
  dsimp only
  by_cases h1 : byte &&& ~~~keyboardReleaseBit = keyboardLeftShift
  · rw [if_pos h1]
    rcases hleft.1 h1 with rfl | rfl <;> simp [hpending]
  rw [if_neg h1]
  by_cases h2 : byte &&& ~~~keyboardReleaseBit = keyboardRightShift
  · rw [if_pos h2]
    rcases hright.1 h2 with rfl | rfl <;> simp [hpending]
  rw [if_neg h2]
  obtain ⟨hpressLeft, hreleaseLeft⟩ := not_or.1 (mt hleft.2 h1)
  obtain ⟨hpressRight, hreleaseRight⟩ := not_or.1 (mt hright.2 h2)
  by_cases h3 : byte &&& keyboardReleaseBit = 0
  · rw [if_neg (by simpa using h3), hcode h3]
    by_cases h4 : byte = keyboardCapsLock
    · rw [if_pos h4]
      simp [h4, hpending]
    · rw [if_neg h4]
      simp_all
  · -- the release of any other key
    have hcaps : byte ≠ 0x3A#8 := by
      rintro rfl
      exact h3 (by decide)
    rw [if_pos (by simpa using h3)]
    simp_all

/-- **Step lemma**: a byte keeps the flags in step with the sequence. -/
theorem decode_modifiers (h : Modifiers bytes s) (byte : U8) :
    Modifiers (bytes ++ [byte]) (decodeScancode s byte).2 := by
  have hlast : (bytes ++ [byte]).getLast? = some 0xE0#8 ↔ byte = 0xE0#8 := by simp
  have hkept := keptBytes_concat bytes byte
  by_cases hsw : Swallowed bytes byte
  · rw [if_pos hsw] at hkept
    rw [decode_swallowed h hsw]
    refine ⟨?_, ?_, ?_, ?_⟩
    · rw [hkept]
      exact h.left
    · rw [hkept]
      exact h.right
    · rw [hkept]
      exact h.caps
    · rw [hlast]
      exact decide_eq_true_iff
  · rw [if_neg hsw] at hkept
    obtain ⟨hext, hpending⟩ := not_or.1 (mt (h.swallowed byte).1 hsw)
    obtain ⟨hleft, hright, hcaps, hnone⟩ := decode_flags hext hpending
    refine ⟨?_, ?_, ?_, ?_⟩
    · rw [hkept, held_concat (by decide), hleft]
      split_ifs
      · simp
      · simp
      · exact h.left
    · rw [hkept, held_concat (by decide), hright]
      split_ifs
      · simp
      · simp
      · exact h.right
    · rw [hkept, capsOn_concat, hcaps]
      split_ifs
      · rw [← h.caps]
        simp
      · exact h.caps
    · rw [hlast, hnone]
      simpa using hext

/-! ## Runs -/

/-- The bytes that the decoder was given. -/
def fedBytes (es : List KeyboardEvent) : List U8 :=
  es.filterMap fun
    | .feed scancode => some scancode
    | .irq status data => if status &&& keyboardStatusOutputFull = 0 then none else some data
    | _ => none

/-- The characters for which `queue_push` was called. -/
def pushedChars (history : List (KeyboardEvent × KeyboardResult)) : List U8 :=
  history.filterMap fun
    | (_, .pushed (some (character, _))) => some character
    | _ => none

/-- The push does not touch the flags. -/
theorem feed_modifiers (h : Modifiers bytes s) (byte : U8) :
    Modifiers (bytes ++ [byte]) (keyboardFeedScancode s byte).2 := by
  have hdecode := decode_modifiers h byte
  unfold keyboardFeedScancode
  generalize decodeScancode s byte = d at hdecode ⊢
  obtain ⟨c, s'⟩ := d
  cases c with
  | none => exact hdecode
  | some c =>
    change Modifiers _ (queuePush s' c).2
    unfold queuePush
    dsimp only
    split_ifs
    · exact hdecode.congr rfl rfl rfl rfl
    · exact hdecode.congr rfl rfl rfl rfl

/-- The result of a byte depends on the ring only through the number of characters in it. -/
theorem feed_returns {q : List U8} (h : RingOK s q) (byte : U8) :
    (keyboardFeedScancode s byte).1 = true ↔ (decodeScancode s byte).1.isSome = true ∧ q.length < 64 := by
  obtain ⟨hqueue, hread, hwrite, -⟩ := decode_frame s byte
  unfold keyboardFeedScancode
  generalize decodeScancode s byte = d at hqueue hread hwrite ⊢
  obtain ⟨c, s'⟩ := d
  have hring : RingOK s' q := by
    rw [RingOK, hqueue, hread, hwrite]
    exact h
  cases c with
  | none => simp
  | some c =>
    by_cases hroom : q.length < 64
    · simp [(queuePush_room hring hroom c).1, hroom]
    · have hfull : q.length = 64 := by
        have := hring.bound
        omega
      simp [queuePush_full hring hfull c, hroom]

/-- The flags and the pushes of a run are those of its bytes. -/
structure DecodeOK (tr : List (KeyboardEvent × KeyboardResult)) (sys : KeyboardSystem) : Prop where
  modifiers : Modifiers (fedBytes (tr.map Prod.fst)) sys.keyboard
  pushed : pushedChars tr = offeredChars (fedBytes (tr.map Prod.fst))

variable {tr : List (KeyboardEvent × KeyboardResult)} {sys sys' : KeyboardSystem}

theorem fedBytes_concat (tr : List (KeyboardEvent × KeyboardResult)) (e : KeyboardEvent) (r : KeyboardResult) :
    fedBytes ((tr ++ [(e, r)]).map Prod.fst) = fedBytes (tr.map Prod.fst) ++ fedBytes [e] := by
  rw [List.map_append, fedBytes, List.filterMap_append]
  rfl

/-- A step that gives the decoder a byte. -/
theorem DecodeOK.feed (h : DecodeOK tr sys) {e : KeyboardEvent} {byte : U8} (he : fedBytes [e] = [byte]) :
    DecodeOK (tr ++ [(e, feedResult sys.keyboard byte)])
      { sys with keyboard := (keyboardFeedScancode sys.keyboard byte).2 } := by
  have hbytes := fedBytes_concat tr e (feedResult sys.keyboard byte)
  rw [he] at hbytes
  refine ⟨?_, ?_⟩
  · rw [hbytes]
    exact feed_modifiers h.modifiers byte
  · have hone :
        pushedChars [(e, feedResult sys.keyboard byte)] = (offered (fedBytes (tr.map Prod.fst)) byte).toList := by
      rw [← decode_offers h.modifiers byte, feedResult]
      cases (decodeScancode sys.keyboard byte).1 <;> rfl
    rw [hbytes, offeredChars, filterMapAfter_concat, ← hone]
    rw [pushedChars, List.filterMap_append]
    exact congrArg (· ++ _) h.pushed

/-- A step that gives it none. -/
theorem DecodeOK.quiet (h : DecodeOK tr sys) {e : KeyboardEvent} {r : KeyboardResult} (he : fedBytes [e] = [])
    (hr : pushedChars [(e, r)] = []) (hl : sys'.keyboard.leftShiftDown = sys.keyboard.leftShiftDown)
    (hright : sys'.keyboard.rightShiftDown = sys.keyboard.rightShiftDown)
    (hc : sys'.keyboard.capsLockEnabled = sys.keyboard.capsLockEnabled)
    (hp : sys'.keyboard.extendedPrefixPending = sys.keyboard.extendedPrefixPending) :
    DecodeOK (tr ++ [(e, r)]) sys' := by
  have hbytes := fedBytes_concat tr e r
  rw [he, List.append_nil] at hbytes
  refine ⟨?_, ?_⟩
  · rw [hbytes]
    exact h.modifiers.congr hl hright hc hp
  · rw [hbytes, ← h.pushed]
    rw [pushedChars, List.filterMap_append]
    exact (congrArg (_ ++ ·) hr).trans (List.append_nil _)

theorem decodeStep_ok (h : DecodeOK tr sys) (e : KeyboardEvent) :
    DecodeOK (tr ++ [(e, (keyboardStep sys e).1)]) (keyboardStep sys e).2 := by
  cases e with
  | feed byte => exact h.feed rfl
  | irq status data =>
    unfold keyboardStep keyboardHandleIrq
    -- without the output flag no byte is read
    by_cases hstatus : status &&& keyboardStatusOutputFull = 0
    · simp only [if_pos hstatus]
      exact h.quiet (List.filterMap_cons_none (if_pos hstatus)) rfl rfl rfl rfl rfl
    · simp only [if_neg hstatus]
      exact h.feed (List.filterMap_cons_some (if_neg hstatus))
  | call character =>
    obtain ⟨s, k⟩ := sys
    cases k with
    | idle => cases character <;> exact h.quiet rfl rfl rfl rfl rfl rfl
    | _ => exact h.quiet rfl rfl rfl rfl rfl rfl
  | advance =>
    obtain ⟨s, k⟩ := sys
    cases k with
    | loadWrite character read =>
      unfold keyboardStep consumerStep
      dsimp only
      split_ifs
      · exact h.quiet rfl rfl rfl rfl rfl rfl
      · exact h.quiet rfl rfl rfl rfl rfl rfl
    | _ => exact h.quiet rfl rfl rfl rfl rfl rfl

theorem keyboardInit_modifiers (s₀ : Keyboard) : DecodeOK [] ⟨keyboardInit s₀, .idle⟩ :=
  ⟨⟨by simp [keyboardInit]; decide, by simp [keyboardInit]; decide, by simp [keyboardInit]; decide,
    by simp [keyboardInit]; decide⟩, rfl⟩

/-- **Scan-code decoding follows its rule.** After any bytes, with `keyboard_pop_char` and its
accesses in between as they may: the next byte is swallowed exactly as the rule says, the character
for `queue_push` is the rule's, and `keyboard_feed_scancode` returns true exactly when there is one
and fewer than 64 are queued. The characters offered so far are those of the bytes, whatever
happened to the queue. -/
theorem scancodes_decoded (s₀ : Keyboard) (es : List KeyboardEvent) :
    let s := (exec keyboardStep ⟨keyboardInit s₀, .idle⟩ es).keyboard
    (∀ byte, byte = keyboardExtendedPrefix ∨ s.extendedPrefixPending = true ↔ Swallowed (fedBytes es) byte) ∧
    (∀ byte, (decodeScancode s byte).1 = offered (fedBytes es) byte) ∧
    (∀ byte, (keyboardFeedScancode s byte).1 = true ↔
      (offered (fedBytes es) byte).isSome = true ∧ (queuedChars s).length < 64) ∧
    pushedChars (trace keyboardStep ⟨keyboardInit s₀, .idle⟩ es) = offeredChars (fedBytes es) := by
  have hdecode : DecodeOK (trace keyboardStep ⟨keyboardInit s₀, .idle⟩ es)
      (exec keyboardStep ⟨keyboardInit s₀, .idle⟩ es) :=
    hist_inv (I := DecodeOK) (keyboardInit_modifiers s₀) (fun tr sys e h => decodeStep_ok h e) es
  obtain ⟨q, hq⟩ := keyboardRun_ok s₀ es
  intro s
  have hmod : Modifiers (fedBytes es) s := by
    have := hdecode.modifiers
    rwa [trace_fst] at this
  refine ⟨hmod.swallowed, decode_offers hmod, ?_, ?_⟩
  · intro byte
    have hqueued : queuedChars s = q := hq.ring.contents_eq
    rw [← decode_offers hmod byte, hqueued]
    exact feed_returns hq.ring byte
  · have := hdecode.pushed
    rwa [trace_fst] at this

/-- The bytes of `keyboard_self_test`. -/
example : offeredChars [0x2A#8, 0x1E#8, 0x9E#8, 0xAA#8] = [ascii 'A'] := by decide +kernel

end TinyShell
