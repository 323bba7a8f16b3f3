import TinyShell.Machine.Ring
import TinyShell.Machine.Run
import TinyShell.Spec.Keyboard

/-!
# The keyboard queue under interrupts

Scan codes arrive between any two memory accesses of `keyboard_pop_char`. The
invariant ties the accepted characters to those returned and those in the ring, and
says at each access what the consumer's locals still mean: its copy of the read
number is current, once it has seen a character the ring stays non-empty, and the
character it loaded stays the oldest.

* `keyboardStep_ok`: every step of either side keeps the invariant.
* `popChar_sequential`: without interrupts the accesses make up `keyboard_pop_char`.
* `keyboard_no_loss`: no interleaving loses, repeats, reorders or tears a character.
-/

namespace TinyShell

open Machine

/-! ## Histories -/

/-- The characters for which `queue_push` returned true. -/
def acceptedChars (history : List (KeyboardEvent × KeyboardResult)) : List U8 :=
  history.filterMap fun
    | (_, .pushed (some (character, true))) => some character
    | _ => none

/-- The characters that `keyboard_pop_char` returned. -/
def returnedChars (history : List (KeyboardEvent × KeyboardResult)) : List U8 :=
  history.filterMap fun
    | (_, .popped (some (true, character))) => character
    | _ => none

/-- The number of pushes that returned false. -/
def refusedPushes (history : List (KeyboardEvent × KeyboardResult)) : ℕ :=
  history.countP fun
    | (_, .pushed (some (_, false))) => true
    | _ => false

/-- The characters in the ring, oldest first. -/
def queuedChars (s : Keyboard) : List U8 :=
  contents keyboardQueueCapacity s.characterQueue s.readSequence s.writeSequence

/-! ## The invariant -/

variable {s : Keyboard} {q : List U8} {tr : List (KeyboardEvent × KeyboardResult)}

theorem keyboardCapacity : Capacity 64 32 := ⟨by decide, ⟨2 ^ 26, by norm_num⟩, by norm_num⟩

theorem toNat_slot (x : U32) : (x &&& keyboardQueueMask).toNat = x.toNat % 64 :=
  toNat_and_low x (k := 6) (by decide)

abbrev RingOK (s : Keyboard) (q : List U8) : Prop :=
  Holds 64 s.characterQueue s.readSequence s.writeSequence q

/-- What the consumer's locals mean while the ring holds `q`. -/
def ConsumerOK (s : Keyboard) (q : List U8) : Consumer → Prop
  | .idle => True
  | .loadRead _ => True
  | .loadWrite _ read => read = s.readSequence
  | .loadSlot read => read = s.readSequence ∧ q ≠ []
  | .storeRead character read => read = s.readSequence ∧ ∃ rest, q = character :: rest

structure KeyboardOK (tr : List (KeyboardEvent × KeyboardResult)) (sys : KeyboardSystem) (q : List U8) :
    Prop where
  balance : acceptedChars tr = returnedChars tr ++ q
  ring : RingOK sys.keyboard q
  consumer : ConsumerOK sys.keyboard q sys.consumer
  dropped : sys.keyboard.droppedCharacters = word (refusedPushes tr)

/-- What the producer does, with or without a push, does not disturb the consumer: it
leaves the read number alone and adds behind the oldest character. -/
theorem ConsumerOK.append {s' : Keyboard} {k : Consumer} (h : ConsumerOK s q k)
    (hread : s'.readSequence = s.readSequence) (more : List U8) : ConsumerOK s' (q ++ more) k := by
  cases k with
  | idle => trivial
  | loadRead _ => trivial
  | loadWrite _ read => exact Eq.trans h hread.symm
  | loadSlot read => exact ⟨h.1.trans hread.symm, List.append_ne_nil_of_left_ne_nil h.2 more⟩
  | storeRead character read =>
    obtain ⟨hcopy, rest, rfl⟩ := h
    exact ⟨hcopy.trans hread.symm, rest ++ more, rfl⟩

/-- What one more step adds to the histories and to the queue. -/
theorem KeyboardOK.snoc {sys sys' : KeyboardSystem} {q' : List U8} {e : KeyboardEvent} {r : KeyboardResult}
    (h : KeyboardOK tr sys q) (hbalance : q ++ acceptedChars [(e, r)] = returnedChars [(e, r)] ++ q')
    (hring : RingOK sys'.keyboard q') (hconsumer : ConsumerOK sys'.keyboard q' sys'.consumer)
    (hdropped : sys'.keyboard.droppedCharacters =
      sys.keyboard.droppedCharacters + word (refusedPushes [(e, r)])) :
    KeyboardOK (tr ++ [(e, r)]) sys' q' := by
  refine ⟨?_, hring, hconsumer, ?_⟩
  · calc acceptedChars (tr ++ [(e, r)]) = acceptedChars tr ++ acceptedChars [(e, r)] := List.filterMap_append
      _ = returnedChars tr ++ (q ++ acceptedChars [(e, r)]) := by rw [h.balance, List.append_assoc]
      _ = (returnedChars tr ++ returnedChars [(e, r)]) ++ q' := by rw [hbalance, List.append_assoc]
      _ = returnedChars (tr ++ [(e, r)]) ++ q' := by
        rw [returnedChars, returnedChars, returnedChars, List.filterMap_append]
  · have hcount : refusedPushes (tr ++ [(e, r)]) = refusedPushes tr + refusedPushes [(e, r)] := List.countP_append
    rw [hdropped, h.dropped, hcount]
    exact (BitVec.ofNat_add _ _).symm

/-! ## The producer -/

/-- The decoder does not touch the ring. -/
theorem decode_frame (s : Keyboard) (scancode : U8) :
    (decodeScancode s scancode).2.characterQueue = s.characterQueue ∧
      (decodeScancode s scancode).2.readSequence = s.readSequence ∧
      (decodeScancode s scancode).2.writeSequence = s.writeSequence ∧
      (decodeScancode s scancode).2.droppedCharacters = s.droppedCharacters := by
  unfold decodeScancode
  simp only
  split_ifs <;> exact ⟨rfl, rfl, rfl, rfl⟩

theorem queuePush_full (h : RingOK s q) (hfull : q.length = 64) (c : U8) :
    queuePush s c = (false, { s with droppedCharacters := s.droppedCharacters + 1 }) := by
  have hge : (s.writeSequence - s.readSequence).toNat ≥ 64 := h.full_iff.2 hfull
  unfold queuePush
  simp only [if_pos hge]

theorem queuePush_room (h : RingOK s q) (hroom : q.length < 64) (c : U8) :
    (queuePush s c).1 = true ∧ RingOK (queuePush s c).2 (q ++ [c]) ∧
      (queuePush s c).2.readSequence = s.readSequence ∧
      (queuePush s c).2.droppedCharacters = s.droppedCharacters := by
  have hlt : ¬(s.writeSequence - s.readSequence).toNat ≥ 64 := by
    rw [ge_iff_le, h.full_iff]
    omega
  unfold queuePush
  simp only [if_neg hlt]
  refine ⟨trivial, ?_, trivial, trivial⟩
  rw [toNat_slot]
  exact h.push keyboardCapacity hroom c

/-- A refused push leaves the queued characters alone. -/
theorem queuePush_false (s : Keyboard) (c : U8) (h : (queuePush s c).1 = false) :
    queuedChars (queuePush s c).2 = queuedChars s := by
  unfold queuePush at h ⊢
  simp only at h ⊢
  split_ifs at h ⊢
  rfl

/-- So does a scan code whose push was refused. -/
theorem feed_refused (s : Keyboard) (scancode c : U8) (h : feedResult s scancode = .pushed (some (c, false))) :
    queuedChars (keyboardFeedScancode s scancode).2 = queuedChars s := by
  obtain ⟨hqueue, hread, hwrite, -⟩ := decode_frame s scancode
  unfold feedResult at h
  unfold keyboardFeedScancode at h ⊢
  generalize decodeScancode s scancode = d at hqueue hread hwrite h ⊢
  obtain ⟨character, s'⟩ := d
  have hsame : queuedChars s' = queuedChars s := by rw [queuedChars, hqueue, hread, hwrite, queuedChars]
  cases character with
  | none => exact hsame
  | some character =>
    have hfalse := (Prod.mk.inj (Option.some.inj (KeyboardResult.pushed.inj h))).2
    exact (queuePush_false s' character hfalse).trans hsame

/-- **A scan code** is pushed, refused or swallowed by the decoder. -/
theorem feed_ok {k : Consumer} (h : KeyboardOK tr ⟨s, k⟩ q) (e : KeyboardEvent) (scancode : U8) :
    ∃ q', KeyboardOK (tr ++ [(e, feedResult s scancode)]) ⟨(keyboardFeedScancode s scancode).2, k⟩ q' := by
  obtain ⟨hqueue, hread, hwrite, hdrop⟩ := decode_frame s scancode
  unfold feedResult keyboardFeedScancode
  generalize decodeScancode s scancode = d at hqueue hread hwrite hdrop ⊢
  obtain ⟨c, s'⟩ := d
  have hring : RingOK s' q := by
    rw [RingOK, hqueue, hread, hwrite]
    exact h.ring
  have hsame : ConsumerOK s' q k := by
    have := h.consumer.append hread []
    rwa [List.append_nil] at this
  cases c with
  | none =>
    refine ⟨q, h.snoc (List.append_nil q) hring hsame ?_⟩
    exact hdrop.trans (BitVec.add_zero _).symm
  | some c =>
    by_cases hroom : q.length < 64
    · obtain ⟨htrue, hpush, hread', hdrop'⟩ := queuePush_room hring hroom c
      simp only [Option.map_some, htrue]
      refine ⟨q ++ [c], h.snoc rfl hpush (h.consumer.append (hread'.trans hread) [c]) ?_⟩
      exact (hdrop'.trans hdrop).trans (BitVec.add_zero _).symm
    · have hfull : q.length = 64 := by
        have := hring.bound
        omega
      simp only [Option.map_some, queuePush_full hring hfull c]
      refine ⟨q, h.snoc (List.append_nil q) hring hsame ?_⟩
      exact congrArg (· + 1) hdrop

/-! ## The consumer -/

/-- **An access** of `keyboard_pop_char`: only the last one takes a character. -/
theorem advance_ok {k : Consumer} (h : KeyboardOK tr ⟨s, k⟩ q) (e : KeyboardEvent) :
    ∃ q', KeyboardOK (tr ++ [(e, (consumerStep s k).1)]) (consumerStep s k).2 q' := by
  have hsame : s.droppedCharacters = s.droppedCharacters + word 0 := (BitVec.add_zero _).symm
  cases k with
  | idle => exact ⟨q, h.snoc (List.append_nil q) h.ring trivial hsame⟩
  | loadRead character => exact ⟨q, h.snoc (List.append_nil q) h.ring rfl hsame⟩
  | loadWrite character read =>
    have hcopy : read = s.readSequence := h.consumer
    unfold consumerStep
    by_cases hempty : read = s.writeSequence
    · simp only [if_pos hempty]
      exact ⟨q, h.snoc (List.append_nil q) h.ring trivial hsame⟩
    · simp only [if_neg hempty]
      -- what the ring holds now can only be taken by this consumer
      have hne : q ≠ [] := by
        intro hq
        rw [hcopy, h.ring.empty_iff] at hempty
        exact hempty hq
      exact ⟨q, h.snoc (List.append_nil q) h.ring ⟨hcopy, hne⟩ hsame⟩
  | loadSlot read =>
    obtain ⟨hcopy, hne⟩ := h.consumer
    obtain ⟨c, rest, rfl⟩ := List.exists_cons_of_ne_nil hne
    have hfront : s.characterQueue (read &&& keyboardQueueMask).toNat = c := by
      rw [toNat_slot, hcopy]
      exact h.ring.front
    refine ⟨c :: rest, h.snoc (List.append_nil _) h.ring ⟨hcopy, rest, ?_⟩ hsame⟩
    rw [hfront]
  | storeRead character read =>
    obtain ⟨hcopy, rest, rfl⟩ := h.consumer
    refine ⟨rest, h.snoc (List.append_nil _) ?_ trivial hsame⟩
    rw [hcopy]
    exact h.ring.pop keyboardCapacity

/-- `keyboard_pop_char` takes the oldest character of the ring, and says so if there is none. -/
theorem popChar_queued (h : RingOK s q) (character : U8) :
    (keyboardPopChar s (some character)).1 = decide (q ≠ []) ∧
      (keyboardPopChar s (some character)).2.1 = some (q.headD character) ∧
      queuedChars (keyboardPopChar s (some character)).2.2 = q.tail := by
  unfold keyboardPopChar
  cases q with
  | nil =>
    have hempty : s.readSequence = s.writeSequence := h.empty_iff.2 rfl
    simp only [Option.isNone_some, Bool.false_eq_true, if_false, if_pos hempty]
    exact ⟨rfl, rfl, h.contents_eq⟩
  | cons c rest =>
    have hnonempty : ¬s.readSequence = s.writeSequence := by
      rw [h.empty_iff]
      exact List.cons_ne_nil c rest
    simp only [Option.isNone_some, Bool.false_eq_true, if_false, if_neg hnonempty, toNat_slot]
    exact ⟨rfl, congrArg some h.front, (h.pop keyboardCapacity).contents_eq⟩

/-- Without an interrupt inside, the accesses of a call make up `keyboard_pop_char`. -/
theorem popChar_sequential (s : Keyboard) (character : U8) :
    exec keyboardStep ⟨s, .idle⟩ [.call (some character), .advance, .advance, .advance, .advance] =
        ⟨(keyboardPopChar s (some character)).2.2, .idle⟩ ∧
      (.popped (some ((keyboardPopChar s (some character)).1, (keyboardPopChar s (some character)).2.1))) ∈
        (trace keyboardStep ⟨s, .idle⟩
          [.call (some character), .advance, .advance, .advance, .advance]).map Prod.snd := by
  by_cases hempty : s.readSequence = s.writeSequence
  · simp [exec, trace, keyboardStep, consumerStep, keyboardPopChar, hempty]
  · simp [exec, trace, keyboardStep, consumerStep, keyboardPopChar, hempty]

/-! ## Whole runs -/

/-- **Step lemma.** -/
theorem keyboardStep_ok {sys : KeyboardSystem} (h : KeyboardOK tr sys q) (e : KeyboardEvent) :
    ∃ q', KeyboardOK (tr ++ [(e, (keyboardStep sys e).1)]) (keyboardStep sys e).2 q' := by
  have hsame : sys.keyboard.droppedCharacters = sys.keyboard.droppedCharacters + word 0 :=
    (BitVec.add_zero _).symm
  cases e with
  | feed scancode => exact feed_ok h _ scancode
  | irq status data =>
    unfold keyboardStep keyboardHandleIrq
    by_cases hstatus : status &&& keyboardStatusOutputFull = 0
    · simp only [if_pos hstatus]
      exact ⟨q, h.snoc (List.append_nil q) h.ring h.consumer hsame⟩
    · simp only [if_neg hstatus]
      exact feed_ok h _ data
  | call character =>
    obtain ⟨s, k⟩ := sys
    cases k with
    | idle =>
      cases character with
      | none => exact ⟨q, h.snoc (List.append_nil q) h.ring trivial hsame⟩
      | some character => exact ⟨q, h.snoc (List.append_nil q) h.ring trivial hsame⟩
    | _ => exact ⟨q, h.snoc (List.append_nil q) h.ring h.consumer hsame⟩
  | advance => exact advance_ok h _

theorem keyboardInit_ok (s₀ : Keyboard) : KeyboardOK [] ⟨keyboardInit s₀, .idle⟩ [] :=
  ⟨rfl, Holds.nil .., trivial, rfl⟩

/-- **Run lemma.** -/
theorem keyboardRun_ok (s₀ : Keyboard) (es : List KeyboardEvent) :
    ∃ q, KeyboardOK (trace keyboardStep ⟨keyboardInit s₀, .idle⟩ es)
      (exec keyboardStep ⟨keyboardInit s₀, .idle⟩ es) q := by
  refine hist_inv (I := fun tr sys => ∃ q, KeyboardOK tr sys q) ⟨[], keyboardInit_ok s₀⟩ ?_ es
  intro tr sys e h
  obtain ⟨q, hq⟩ := h
  exact keyboardStep_ok hq e

/-- **No lost, repeated, reordered or torn character.** For every interleaving of scan
codes with the accesses of `keyboard_pop_char` since `keyboard_init`: the returned
characters are the beginning of the accepted ones and the ring holds the rest, at most
64; `keyboard_dropped_count` counts the refused pushes; a push is refused exactly when 64
characters are queued, which then stay as they are; and a call of `keyboard_pop_char`
without an interrupt inside takes the oldest character, if there is one. -/
theorem keyboard_no_loss (s₀ : Keyboard) (es : List KeyboardEvent) :
    let history := trace keyboardStep ⟨keyboardInit s₀, .idle⟩ es
    let s := (exec keyboardStep ⟨keyboardInit s₀, .idle⟩ es).keyboard
    returnedChars history <+: acceptedChars history ∧
    acceptedChars history = returnedChars history ++ queuedChars s ∧
    (queuedChars s).length ≤ 64 ∧
    keyboardDroppedCount s = word (refusedPushes history) ∧
    (∀ c, (queuePush s c).1 = false ↔ (queuedChars s).length = 64) ∧
    (∀ c, (queuePush s c).1 = false → queuedChars (queuePush s c).2 = queuedChars s) ∧
    (∀ scancode c, feedResult s scancode = .pushed (some (c, false)) →
      queuedChars (keyboardFeedScancode s scancode).2 = queuedChars s) ∧
    ∀ character,
      let call := [.call (some character), .advance, .advance, .advance, .advance]
      .popped (some (decide (queuedChars s ≠ []), some ((queuedChars s).headD character))) ∈
          (trace keyboardStep ⟨s, .idle⟩ call).map Prod.snd ∧
        (exec keyboardStep ⟨s, .idle⟩ call).consumer = .idle ∧
        queuedChars (exec keyboardStep ⟨s, .idle⟩ call).keyboard = (queuedChars s).tail := by
  intro history s
  obtain ⟨q, hq⟩ := keyboardRun_ok s₀ es
  have hcontents : queuedChars s = q := hq.ring.contents_eq
  refine ⟨?_, ?_, ?_, hq.dropped, ?_, fun c => queuePush_false s c, feed_refused s, ?_⟩
  · rw [hq.balance]
    exact List.prefix_append _ _
  · rw [hcontents]
    exact hq.balance
  · rw [hcontents]
    exact hq.ring.bound
  · intro c
    rw [hcontents]
    constructor
    · intro hfalse
      by_contra hne
      have hbound := hq.ring.bound
      have htrue := (queuePush_room hq.ring (by omega) c).1
      rw [hfalse] at htrue
      simp at htrue
    · intro hfull
      rw [queuePush_full hq.ring hfull c]
  · intro character call
    obtain ⟨hanswer, hcharacter, hrest⟩ := popChar_queued hq.ring character
    obtain ⟨hexec, hpopped⟩ := popChar_sequential s character
    rw [hcontents, hexec]
    rw [hanswer, hcharacter] at hpopped
    exact ⟨hpopped, rfl, hrest⟩

end TinyShell
