import TinyShell.Machine.Word

/-!
# Keyboard (`kernel/arch/x86/keyboard.c`)

A decoder of Set 1 scan codes that runs from IRQ1, and a ring of 64 characters
between it and the main loop. The interrupt handler runs to its end once it has
started; it may start between any two memory accesses of `keyboard_pop_char`, so the
consumer is a small machine that makes one access a step.
-/

namespace TinyShell

open Machine

abbrev keyboardStatusOutputFull : U8 := 0x01

abbrev keyboardExtendedPrefix : U8 := 0xE0

abbrev keyboardReleaseBit : U8 := 0x80

abbrev keyboardLeftShift : U8 := 0x2A

abbrev keyboardRightShift : U8 := 0x36

abbrev keyboardCapsLock : U8 := 0x3A

abbrev keyboardEnter : U8 := 0x1C

abbrev keyboardBackspace : U8 := 0x0E

abbrev keyboardSpace : U8 := 0x39

abbrev keyboardQueueCapacity : ℕ := 64

abbrev keyboardQueueMask : U32 := 63

structure Keyboard where
  characterQueue : ℕ → U8
  writeSequence : U32
  readSequence : U32
  droppedCharacters : U32
  leftShiftDown : Bool
  rightShiftDown : Bool
  capsLockEnabled : Bool
  extendedPrefixPending : Bool

/-- A C character constant. -/
def ascii (c : Char) : U8 := BitVec.ofNat 8 c.toNat

def letterForScancode (code : U8) : U8 :=
  match code.toNat with
  | 0x1E => ascii 'a'
  | 0x30 => ascii 'b'
  | 0x2E => ascii 'c'
  | 0x20 => ascii 'd'
  | 0x12 => ascii 'e'
  | 0x21 => ascii 'f'
  | 0x22 => ascii 'g'
  | 0x23 => ascii 'h'
  | 0x17 => ascii 'i'
  | 0x24 => ascii 'j'
  | 0x25 => ascii 'k'
  | 0x26 => ascii 'l'
  | 0x32 => ascii 'm'
  | 0x31 => ascii 'n'
  | 0x18 => ascii 'o'
  | 0x19 => ascii 'p'
  | 0x10 => ascii 'q'
  | 0x13 => ascii 'r'
  | 0x1F => ascii 's'
  | 0x14 => ascii 't'
  | 0x16 => ascii 'u'
  | 0x2F => ascii 'v'
  | 0x11 => ascii 'w'
  | 0x2D => ascii 'x'
  | 0x15 => ascii 'y'
  | 0x2C => ascii 'z'
  | _ => 0

def digitForScancode (code : U8) (shifted : Bool) : U8 :=
  if code < 0x02 || code > 0x0B then 0
  else
    let index := (code - 0x02).toNat
    let digits := if shifted then "!@#$%^&*()" else "1234567890"
    (digits.toList.map ascii).getD index 0

/-- `queue_push`. -/
def queuePush (s : Keyboard) (character : U8) : Bool × Keyboard :=
  let write := s.writeSequence
  let read := s.readSequence
  if (write - read).toNat ≥ keyboardQueueCapacity then
    (false, { s with droppedCharacters := s.droppedCharacters + 1 })
  else
    (true,
      { s with
        characterQueue := Function.update s.characterQueue (write &&& keyboardQueueMask).toNat character
        writeSequence := write + 1 })

/-- `keyboard_init`. -/
def keyboardInit (s : Keyboard) : Keyboard :=
  { s with
    writeSequence := 0
    readSequence := 0
    droppedCharacters := 0
    leftShiftDown := false
    rightShiftDown := false
    capsLockEnabled := false
    extendedPrefixPending := false }

/-- The character of a pressed key, if it has one. -/
def characterForKey (s : Keyboard) (code : U8) : Option U8 :=
  let shifted := s.leftShiftDown || s.rightShiftDown
  let letter := letterForScancode code
  if letter ≠ 0 then
    some (if shifted ≠ s.capsLockEnabled then letter - (ascii 'a' - ascii 'A') else letter)
  else
    let digit := digitForScancode code shifted
    if digit ≠ 0 then some digit
    else if code = keyboardEnter then some (ascii '\n')
    else if code = keyboardBackspace then some 8
    else if code = keyboardSpace then some (ascii ' ')
    else none

/-- `keyboard_feed_scancode` up to its tail call: the character that it passes to
`queue_push`, or `none` where it returns false without a push. -/
def decodeScancode (s : Keyboard) (scancode : U8) : Option U8 × Keyboard :=
  if scancode = keyboardExtendedPrefix then (none, { s with extendedPrefixPending := true })
  else if s.extendedPrefixPending then (none, { s with extendedPrefixPending := false })
  else
    let released := decide (scancode &&& keyboardReleaseBit ≠ 0)
    let code := scancode &&& ~~~keyboardReleaseBit
    if code = keyboardLeftShift then (none, { s with leftShiftDown := !released })
    else if code = keyboardRightShift then (none, { s with rightShiftDown := !released })
    else if released then (none, s)
    else if code = keyboardCapsLock then (none, { s with capsLockEnabled := !s.capsLockEnabled })
    else (characterForKey s code, s)

/-- `keyboard_feed_scancode`. -/
def keyboardFeedScancode (s : Keyboard) (scancode : U8) : Bool × Keyboard :=
  match decodeScancode s scancode with
  | (none, s) => (false, s)
  | (some character, s) => queuePush s character

/-- `keyboard_handle_irq`, on the bytes that the two ports give. -/
def keyboardHandleIrq (s : Keyboard) (status data : U8) : Keyboard :=
  if status &&& keyboardStatusOutputFull = 0 then s else (keyboardFeedScancode s data).2

/-- `keyboard_pop_char` without an interrupt inside: its result, the caller's character
and the state. -/
def keyboardPopChar (s : Keyboard) (character : Option U8) : Bool × Option U8 × Keyboard :=
  if character.isNone then (false, character, s)
  else
    let read := s.readSequence
    let write := s.writeSequence
    if read = write then (false, character, s)
    else
      (true, some (s.characterQueue (read &&& keyboardQueueMask).toNat), { s with readSequence := read + 1 })

def keyboardDroppedCount (s : Keyboard) : U32 := s.droppedCharacters

/-! ## Interrupts between the accesses of the consumer -/

/-- Where the main loop is in `keyboard_pop_char`: the access it makes next, with its
locals and the caller's character. -/
inductive Consumer
  | idle
  | loadRead (character : U8)
  | loadWrite (character : U8) (read : U32)
  | loadSlot (read : U32)
  | storeRead (character : U8) (read : U32)
  deriving DecidableEq

structure KeyboardSystem where
  keyboard : Keyboard
  consumer : Consumer

inductive KeyboardEvent
  | feed (scancode : U8)
  | irq (status data : U8)
  | call (character : Option U8)
  | advance

/-- What a step shows: the `queue_push` that was made with its result, or the call of
`keyboard_pop_char` that returned, with the caller's character. -/
inductive KeyboardResult
  | pushed (push : Option (U8 × Bool))
  | popped (answer : Option (Bool × Option U8))
  deriving DecidableEq

/-- The push that a scan code leads to. -/
def feedResult (s : Keyboard) (scancode : U8) : KeyboardResult :=
  .pushed ((decodeScancode s scancode).1.map fun character => (character, (keyboardFeedScancode s scancode).1))

/-- The next access of the consumer. -/
def consumerStep (s : Keyboard) : Consumer → KeyboardResult × KeyboardSystem
  | .idle => (.popped none, ⟨s, .idle⟩)
  | .loadRead character => (.popped none, ⟨s, .loadWrite character s.readSequence⟩)
  | .loadWrite character read =>
    if read = s.writeSequence then (.popped (some (false, some character)), ⟨s, .idle⟩)
    else (.popped none, ⟨s, .loadSlot read⟩)
  | .loadSlot read =>
    (.popped none, ⟨s, .storeRead (s.characterQueue (read &&& keyboardQueueMask).toNat) read⟩)
  | .storeRead character read =>
    (.popped (some (true, some character)), ⟨{ s with readSequence := read + 1 }, .idle⟩)

/-- One step of the system. There is one consumer, so a call is made only while it is
idle. -/
def keyboardStep (sys : KeyboardSystem) : KeyboardEvent → KeyboardResult × KeyboardSystem
  | .feed scancode =>
    (feedResult sys.keyboard scancode, { sys with keyboard := (keyboardFeedScancode sys.keyboard scancode).2 })
  | .irq status data =>
    (if status &&& keyboardStatusOutputFull = 0 then .pushed none else feedResult sys.keyboard data,
      { sys with keyboard := keyboardHandleIrq sys.keyboard status data })
  | .call character =>
    match sys.consumer, character with
    | .idle, some character => (.popped none, { sys with consumer := .loadRead character })
    | .idle, none => (.popped (some (false, none)), sys)
    | _, _ => (.popped none, sys)
  | .advance => consumerStep sys.keyboard sys.consumer

end TinyShell
