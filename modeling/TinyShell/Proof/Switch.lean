import TinyShell.Proof.Scheduler
import TinyShell.Spec.Switch

/-!
# `task_context_switch`

What the code of `context_switch.S` does to registers and memory
(`taskContextSwitch_eq`), with the frames of the C functions around it
(`callSwitch_eq`, `returnAfter_eq`). A party that has called it is `Suspended`: its stack
holds what belongs to its caller.
-/

namespace TinyShell

open Machine

variable {c : Cpu} {new flags d s b bp f r ret : U32} {old a : ℕ}

/-! ## The code of `context_switch.S` -/

/-- The second half of `task_context_switch` takes a saved context from the new stack. -/
theorem popContext_eq (hesp : c.esp = word a) (h : WordsAt c.mem a [d, s, b, bp, f, r]) (hlt : a + 24 < 2 ^ 32) :
    c.execAll [.pop .edi, .pop .esi, .pop .ebx, .pop .ebp, .popf, .ret] =
      { c with edi := d, esi := s, ebx := b, ebp := bp, esp := word (a + 24), eflags := f, eip := r } := by
  obtain ⟨h0, h1, h2, h3, h4, h5, -⟩ := h
  simp (disch := omega) only [Cpu.execAll, List.foldl_cons, List.foldl_nil, Instr.exec, Cpu.drop, Cpu.top,
    Cpu.set, hesp, word_add, toNat_word, h0, h1, h2, h3, h4, h5, Nat.mul_one, Nat.add_assoc, Nat.reduceAdd]

/-- The first half saves the caller's registers and flags on the old stack. -/
theorem saveContext_eq (hesp : c.esp = word (a + 20)) (hargs : WordsAt c.mem (a + 20) [ret, word old, new, flags])
    (hlt : a + 36 < 2 ^ 32) :
    c.execAll [.load 12 .esp .eax, .push .eax, .push .ebp, .push .ebx, .push .esi, .push .edi] =
      { c with eax := flags, esp := word a, mem := storeWords c.mem a [c.edi, c.esi, c.ebx, c.ebp, flags] } := by
  obtain ⟨-, -, -, hflags, -⟩ := hargs
  have hload : load32 c.mem (c.esp + 12).toNat = flags := by
    rw [hesp, show (12 : U32) = word 12 from rfl, word_add, toNat_word (by omega)]
    exact hflags
  have hpush : c.execAll [.load 12 .esp .eax, .push .eax, .push .ebp, .push .ebx, .push .esi, .push .edi] =
      ({ c with eax := flags }).pushAll [flags, c.ebp, c.ebx, c.esi, c.edi] := by
    rw [← hload]
    rfl
  have hnat : c.esp.toNat = a + 20 := by rw [hesp, toNat_word (by omega)]
  rw [hpush, pushAll_eq (by simp [hnat])]
  simp [hnat]

/-- Then the stack pointer goes to `old` and comes from `new`. -/
theorem swapStacks_eq (hesp : c.esp = word a) (hlt : a + 36 < 2 ^ 32) (hold : old < 2 ^ 32)
    (hload : load32 c.mem (a + 24) = word old) (hnew : load32 (store32 c.mem old (word a)) (a + 28) = new) :
    c.execAll [.load 24 .esp .eax, .store .esp .eax, .load 28 .esp .esp] =
      { c with eax := word old, esp := new, mem := store32 c.mem old (word a) } := by
  have h24 : (24 : U32) = word 24 := rfl
  have h28 : (28 : U32) = word 28 := rfl
  simp (disch := omega) only [Cpu.execAll, List.foldl_cons, List.foldl_nil, Instr.exec, Cpu.get, Cpu.set,
    hesp, h24, h28, word_add, toNat_word, hload, hnew]

/-- **`task_context_switch`** saves the context of its caller on the old stack and its
place in `old`, and goes on with the context that is saved at `new`. -/
theorem taskContextSwitch_eq {m : Memory} (hesp : c.esp = word (a + 20))
    (hargs : WordsAt c.mem (a + 20) [ret, word old, new, flags]) (hlt : a + 36 < 2 ^ 32) (hold : old < 2 ^ 32)
    (hapart : old + 4 ≤ a ∨ a + 36 ≤ old) (hnew : WordsAt c.mem new.toNat [d, s, b, bp, f, r])
    (hnew_lt : new.toNat + 24 < 2 ^ 32) (hnew_stack : new.toNat + 24 ≤ a ∨ a + 20 ≤ new.toNat)
    (hnew_old : new.toNat + 24 ≤ old ∨ old + 4 ≤ new.toNat)
    (hm : m = storeWords c.mem a [c.edi, c.esi, c.ebx, c.ebp, flags]) :
    c.execAll taskContextSwitch =
      ⟨word old, b, s, d, bp, word (new.toNat + 24), f, r, store32 m old (word a)⟩ := by
  have hcode : taskContextSwitch =
      ([.load 12 .esp .eax, .push .eax, .push .ebp, .push .ebx, .push .esi, .push .edi] : List Instr) ++
        (([.load 24 .esp .eax, .store .esp .eax, .load 28 .esp .esp] : List Instr) ++
          ([.pop .edi, .pop .esi, .pop .ebx, .pop .ebp, .popf, .ret] : List Instr)) := rfl
  have hkept : ∀ x, x < a ∨ a + 20 ≤ x → m x = c.mem x := by
    intro x hx
    rw [hm]
    exact storeWords_of_not_mem (by simp only [List.length_cons, List.length_nil]; omega)
  -- the arguments are above the words pushed, and the slot is elsewhere
  have hargs' : WordsAt m (a + 20) [ret, word old, new, flags] :=
    hargs.frame fun x h1 _ => hkept x (.inr h1)
  obtain ⟨-, hload_old, hload_new, -⟩ := hargs'
  have hload : load32 (store32 m old (word a)) (a + 28) = new := by
    rw [load32_store32_of_disjoint (by omega)]
    exact hload_new
  have hnew' : WordsAt (store32 m old (word a)) new.toNat [d, s, b, bp, f, r] := by
    refine hnew.frame fun x h1 h2 => ?_
    simp only [List.length_cons, List.length_nil] at h2
    rw [store32_of_not_mem (by omega), hkept x (by omega)]
  have hswap := swapStacks_eq (c := { c with eax := flags, esp := word a, mem := m }) rfl hlt hold hload_old hload
  have hpop := popContext_eq (c := { c with eax := word old, esp := new, mem := store32 m old (word a) })
    (a := new.toNat) (by simp) hnew' hnew_lt
  rw [hcode, execAll_append, execAll_append, saveContext_eq hesp hargs hlt, ← hm, hswap, hpop]

/-! ## The frames around it -/

variable {image : Image} {site : CallSite} {frame : Frame}

/-- What a party that calls `task_context_switch` leaves on its stack. -/
def savedWords (image : Image) (site : CallSite) (frame : Frame) (c : Cpu) (old : ℕ)
    (new flags : U32) : List U32 :=
  [frame.edi, frame.esi, frame.ebx, frame.ebp, flags] ++ ([image.address (.after site), word old, new, flags] ++
    (((List.range (image.frameWords site)).map frame.locals).reverse ++ [c.edi, c.esi, c.ebx, c.ebp, c.eip]))

theorem length_savedWords :
    (savedWords image site frame c old new flags).length = 14 + image.frameWords site := by
  simp [savedWords]
  omega

theorem callSwitch_eq (hesp : c.esp = word (a + 4 * (14 + image.frameWords site)))
    (hlt : a + 4 * (14 + image.frameWords site) < 2 ^ 32) (hold : old < 2 ^ 32)
    (hapart : old + 4 ≤ a ∨ a + 4 * (14 + image.frameWords site) ≤ old)
    (hnew : WordsAt c.mem new.toNat [d, s, b, bp, f, r]) (hnew_lt : new.toNat + 24 < 2 ^ 32)
    (hnew_stack : new.toNat + 24 ≤ a ∨ a + 4 * (14 + image.frameWords site) ≤ new.toNat)
    (hnew_old : new.toNat + 24 ≤ old ∨ old + 4 ≤ new.toNat) :
    callSwitch image site frame c old new flags =
      ⟨word old, b, s, d, bp, word (new.toNat + 24), f, r,
        store32 (storeWords c.mem a (savedWords image site frame c old new flags)) old (word a)⟩ := by
  have hnat : c.esp.toNat = a + 4 * (14 + image.frameWords site) := by rw [hesp, toNat_word hlt]
  set n := image.frameWords site with hn
  set ws := [c.eip, c.ebp, c.ebx, c.esi, c.edi] ++ (List.range n).map frame.locals with hws
  have hlen : ws.length = 5 + n := by
    simp [hws]
    omega
  have hframe : c.pushAll ws = { c with esp := word (a + 36), mem := storeWords c.mem (a + 36) ws.reverse } := by
    rw [pushAll_eq (by omega), hnat, hlen, show a + 4 * (14 + n) - 4 * (5 + n) = a + 36 by omega]
  -- the function's registers, and its stack with the arguments of the call
  set m := storeWords c.mem (a + 20) ([image.address (.after site), word old, new, flags] ++ ws.reverse) with hm
  let c' : Cpu :=
    ⟨frame.eax, frame.ebx, frame.esi, frame.edi, frame.ebp, word (a + 20), c.eflags, c.eip, m⟩
  have hcall : callSwitch image site frame c old new flags = c'.execAll taskContextSwitch := by
    have hargs :
        Cpu.pushAll ⟨frame.eax, frame.ebx, frame.esi, frame.edi, frame.ebp, word (a + 36), c.eflags, c.eip,
        storeWords c.mem (a + 36) ws.reverse⟩ [flags, new, word old, image.address (.after site)] = c' := by
      have hesp' : (word (a + 36)).toNat = a + 36 := toNat_word (by omega)
      rw [pushAll_eq (by simp [hesp'])]
      simp only [hesp', c', hm, storeWords_append]
      rfl
    rw [callSwitch, hframe]
    exact congrArg (Cpu.execAll · taskContextSwitch) hargs
  have hargs : WordsAt c'.mem (a + 20) [image.address (.after site), word old, new, flags] :=
    (wordsAt_append.1 (wordsAt_storeWords _ _ _)).1
  have hnew' : WordsAt c'.mem new.toNat [d, s, b, bp, f, r] := by
    refine hnew.frame fun x h1 h2 => storeWords_of_not_mem ?_
    simp only [List.length_cons, List.length_nil, List.length_append, List.length_reverse, hlen] at h2 ⊢
    omega
  have hsaved : storeWords c.mem a (savedWords image site frame c old new flags) =
      storeWords c'.mem a [frame.edi, frame.esi, frame.ebx, frame.ebp, flags] := by
    simp only [savedWords, storeWords_append, c', hm, hws, List.reverse_append]
    rfl
  rw [hcall,
    taskContextSwitch_eq (c := c') rfl hargs (by omega) hold (by omega) hnew' hnew_lt (by omega) hnew_old hsaved]

/-- The way back: the function takes what belongs to its caller from its frame. -/
theorem returnAfter_eq {inner : List U32} (hesp : c.esp = word a)
    (hinner : inner.length = 3 + image.frameWords site)
    (h : WordsAt c.mem a (inner ++ [d, s, b, bp, ret])) (hlt : a + 4 * (8 + image.frameWords site) < 2 ^ 32) :
    returnAfter image site c =
      { c with
        edi := d, esi := s, ebx := b, ebp := bp
        esp := word (a + 4 * (8 + image.frameWords site)), eip := ret } := by
  obtain ⟨-, h0, h1, h2, h3, h4, -⟩ := wordsAt_append.1 h
  rw [hinner] at h0 h1 h2 h3 h4
  have hend : a + 4 * (3 + image.frameWords site) + 20 = a + 4 * (8 + image.frameWords site) := by omega
  rw [returnAfter, ← hend]
  simp (disch := omega) only [Cpu.execAll, List.foldl_cons, List.foldl_nil, Instr.exec, Cpu.drop, Cpu.top,
    Cpu.set, hesp, word_add, toNat_word, h0, h1, h2, h3, h4, Nat.mul_one]

/-! ## Nine stacks -/

variable {p q : Party} {m m' : Memory} {view : CallerView}

theorem mem_parties : p ∈ parties ↔ p = .bootstrap ∨ ∃ i < 8, p = .task i := by
  simp only [parties, List.mem_cons, List.mem_map, List.mem_range]
  exact or_congr Iff.rfl (exists_congr fun i => and_congr_right fun _ => eq_comm)

/-- The stacks and the variables that hold the stack pointers are apart. -/
structure Placement (image : Image) (p q : Party) : Prop where
  stack_lt : image.stackLow p + 16384 < 2 ^ 32
  pointer_lt : image.stackPointer p + 4 < 2 ^ 32
  pointer_off : image.stackPointer p + 4 ≤ image.stackLow q ∨ image.stackLow q + 16384 ≤ image.stackPointer p
  stack_apart : p ≠ q → image.stackLow p + 16384 ≤ image.stackLow q ∨ image.stackLow q + 16384 ≤ image.stackLow p
  pointer_apart : p ≠ q → image.stackPointer p + 4 ≤ image.stackPointer q ∨
    image.stackPointer q + 4 ≤ image.stackPointer p
  pointer_table : image.stackPointer p + 4 ≤ image.tasks + 128 ∧ image.tasks ≤ image.stackPointer p ∨
    image.stackPointer p = image.bootstrapStackPointer

theorem placement (image : Image) (hp : p ∈ parties) (hq : q ∈ parties) : Placement image p q := by
  have hfits := image.fits
  have hapart := image.apart
  simp only [List.pairwise_cons, List.forall_mem_cons, List.not_mem_nil, false_implies, implies_true,
    List.Pairwise.nil, and_true] at hapart
  rcases mem_parties.1 hp with rfl | ⟨i, hi, rfl⟩ <;> rcases mem_parties.1 hq with rfl | ⟨j, hj, rfl⟩
  all_goals
    refine ⟨?_, ?_, ?_, ?_, ?_, ?_⟩ <;> simp only [Image.stackLow, Image.stackPointer, taskStackSize, ne_eq,
      Party.task.injEq, not_true_eq_false, false_implies, reduceCtorEq, not_false_eq_true, true_implies,
      or_true] <;> omega

theorem onStack_eq (hp : p ∈ parties) {esp : U32} (hlow : image.stackLow p < esp.toNat)
    (hhigh : esp.toNat ≤ image.stackLow p + 16384) : image.onStack esp = some p := by
  unfold Image.onStack
  cases hfind : parties.find? fun p => image.stackLow p < esp.toNat ∧
    esp.toNat ≤ image.stackLow p + taskStackSize with
  | none => exact absurd (decide_eq_true ⟨hlow, hhigh⟩) (List.find?_eq_none.1 hfind p hp)
  | some q =>
    have hin := List.find?_some hfind
    have hplace := placement image hp (List.mem_of_find?_eq_some hfind)
    simp only [Bool.decide_and, Bool.and_eq_true, decide_eq_true_eq, taskStackSize] at hin
    by_contra hne
    have := hplace.stack_apart fun heq => hne (by rw [heq])
    omega

theorem labelAt_address (image : Image) (label : Label) : image.labelAt (image.address label) = some label := by
  have hmem : label ∈ labels := by
    cases label with
    | trampoline => simp [labels]
    | after site => cases site <;> simp [labels, callSites]
  unfold Image.labelAt
  cases hfind : labels.find? fun l => image.address l = image.address label with
  | none => exact absurd (decide_eq_true rfl) (List.find?_eq_none.1 hfind label hmem)
  | some l =>
    have heq := List.find?_some hfind
    rw [image.injective (of_decide_eq_true heq)]

theorem hasRoom_bounds {esp : U32} (h : image.hasRoom p esp = true) (site : CallSite) :
    image.stackLow p + 4 * (14 + image.frameWords site) ≤ esp.toNat ∧ esp.toNat ≤ image.stackLow p + 16384 := by
  simp only [Image.hasRoom, Bool.and_eq_true, List.all_eq_true, decide_eq_true_eq] at h
  exact ⟨h.1 site (by cases site <;> simp [callSites]), h.2⟩

/-- The stack of a party and the variable with its stack pointer are as before. -/
structure Untouched (image : Image) (p : Party) (m m' : Memory) : Prop where
  stack : ∀ x, image.stackLow p ≤ x → x < image.stackLow p + 16384 → m' x = m x
  pointer : ∀ x, image.stackPointer p ≤ x → x < image.stackPointer p + 4 → m' x = m x

theorem Untouched.load_pointer (h : Untouched image p m m') :
    load32 m' (image.stackPointer p) = load32 m (image.stackPointer p) :=
  load32_congr fun i hi => h.pointer _ (by omega) (by omega)

theorem Untouched.words {l : List U32} (h : Untouched image p m m') (hw : WordsAt m a l)
    (hlow : image.stackLow p ≤ a) (hhigh : a + 4 * l.length ≤ image.stackLow p + 16384) : WordsAt m' a l :=
  hw.frame fun x h1 h2 => h.stack x (by omega) (by omega)

/-- Code on another stack has run. -/
theorem afterCode_untouched {before code : Cpu} (hq : q ∈ parties) (hne : q ≠ p) :
    Untouched image q before.mem (Kernel.afterCode image p before code).mem := by
  have hplace := placement image hq hq
  refine ⟨fun x h1 h2 => if_neg ?_, fun x h1 h2 => if_neg ?_⟩
  · simp only [Image.mayWrite, Bool.and_eq_true, List.all_eq_true, not_and]
    intro _ hall
    have := hall q hq
    simp [hne, h1, h2] at this
  · have htable := hplace.pointer_table
    simp only [Image.mayWrite, Bool.and_eq_true, Bool.not_eq_true', Bool.and_eq_false_imp, decide_eq_true_eq,
      decide_eq_false_iff_not]
    intro hall
    omega

/-! ## Suspended parties -/

/-- A saved context with the registers `[edi, esi, ebx, ebp, eflags, eip]` on a party's
own stack, and what is above it. -/
structure SavedAt (image : Image) (m : Memory) (p : Party) (a : ℕ) (context above : List U32) : Prop where
  pointer : load32 m (image.stackPointer p) = word a
  low : image.stackLow p ≤ a
  high : a + 4 * (context.length + above.length) ≤ image.stackLow p + 16384
  words : WordsAt m a (context ++ above)

theorem SavedAt.untouched {context above : List U32} (h : SavedAt image m p a context above)
    (hm : Untouched image p m m') : SavedAt image m' p a context above := by
  refine ⟨hm.load_pointer.trans h.pointer, h.low, h.high, hm.words h.words h.low ?_⟩
  rw [List.length_append]
  exact h.high

/-- The party has called `task_context_switch` from inside a call made with this view. -/
def Suspended (image : Image) (m : Memory) (p : Party) (site : CallSite) (view : CallerView) : Prop :=
  ∃ a d s b bp flags ret inner, inner.length = 3 + image.frameWords site ∧
    SavedAt image m p a [d, s, b, bp, flags, image.address (.after site)]
      (inner ++ [view.edi, view.esi, view.ebx, view.ebp, ret]) ∧
    view.esp = word (a + 4 * (14 + image.frameWords site)) ∧ view.interrupts = flags.getLsbD 9

theorem Suspended.untouched (h : Suspended image m p site view) (hm : Untouched image p m m') :
    Suspended image m' p site view := by
  obtain ⟨a, d, s, b, bp, flags, ret, inner, hinner, hsaved, hesp, hif⟩ := h
  exact ⟨a, d, s, b, bp, flags, ret, inner, hinner, hsaved.untouched hm, hesp, hif⟩

/-- The words that a call of `task_context_switch` leaves suspend the party. -/
theorem suspended_of_words (hp : p ∈ parties) (hesp : c.esp = word (a + 4 * (14 + image.frameWords site)))
    (hlow : image.stackLow p ≤ a) (hhigh : a + 4 * (14 + image.frameWords site) ≤ image.stackLow p + 16384)
    (hwords : WordsAt m a (savedWords image site frame c old new flags)) :
    Suspended image (store32 m (image.stackPointer p) (word a)) p site
      ⟨c.ebx, c.esi, c.edi, c.ebp, c.esp, flags.getLsbD 9⟩ := by
  have hoff := (placement image hp hp).pointer_off
  have hinner :
      ([word old, new, flags] ++ ((List.range (image.frameWords site)).map frame.locals).reverse).length =
      3 + image.frameWords site := by simp; omega
  refine ⟨a, frame.edi, frame.esi, frame.ebx, frame.ebp, flags, c.eip, _, hinner, ⟨?_, hlow, ?_, ?_⟩, hesp, rfl⟩
  · exact load32_store32 _ _ _
  · rw [List.length_append, hinner]
    simp only [List.length_cons, List.length_nil]
    omega
  · have hsame : savedWords image site frame c old new flags =
        [frame.edi, frame.esi, frame.ebx, frame.ebp, flags, image.address (.after site)] ++
          ([word old, new, flags] ++ ((List.range (image.frameWords site)).map frame.locals).reverse ++
            [c.edi, c.esi, c.ebx, c.ebp, c.eip]) := by simp [savedWords]
    rw [← hsame]
    refine hwords.frame fun x h1 h2 => store32_of_not_mem ?_
    rw [length_savedWords] at h2
    omega

/-- **A switch** from one party to another: the first is suspended, the second goes on
with its context, and no other party is touched. -/
theorem callSwitch_spec (site : CallSite) (frame : Frame) (flags : U32) (hp : p ∈ parties) (hq : q ∈ parties)
    (hne : p ≠ q) (hroom : image.hasRoom p c.esp = true)
    {above : List U32} (hsaved : SavedAt image c.mem q a [d, s, b, bp, f, r] above) :
    ∃ m', callSwitch image site frame c (image.stackPointer p) (load32 c.mem (image.stackPointer q)) flags =
        ⟨word (image.stackPointer p), b, s, d, bp, word (a + 24), f, r, m'⟩ ∧
      (∀ p' ∈ parties, p' ≠ p → Untouched image p' c.mem m') ∧
      Suspended image m' p site ⟨c.ebx, c.esi, c.edi, c.ebp, c.esp, flags.getLsbD 9⟩ := by
  obtain ⟨hlow, hhigh⟩ := hasRoom_bounds hroom site
  have hplace := placement image hp hq
  have hfits := (placement image hq hp).stack_lt
  have hown := (placement image hp hp).pointer_off
  have hpq := hplace.stack_apart hne
  have hpoff := hplace.pointer_off
  have hplt := hplace.stack_lt
  have hptr := hplace.pointer_lt
  obtain ⟨hpointer, halow, hahigh, hwords⟩ := hsaved
  simp only [List.length_cons, List.length_nil] at hahigh
  have ha : (word a).toNat = a := toNat_word (by omega)
  obtain ⟨e, he⟩ : ∃ e, c.esp.toNat = e + 4 * (14 + image.frameWords site) :=
    ⟨c.esp.toNat - 4 * (14 + image.frameWords site), by omega⟩
  have hesp : c.esp = word (e + 4 * (14 + image.frameWords site)) := by
    rw [← he]
    simp
  have hcontext : WordsAt c.mem (word a).toNat [d, s, b, bp, f, r] := by
    rw [ha]
    exact (wordsAt_append.1 hwords).1
  set ws := savedWords image site frame c (image.stackPointer p) (word a) flags with hws
  have hlen : ws.length = 14 + image.frameWords site := length_savedWords
  have hcall : callSwitch image site frame c (image.stackPointer p) (word a) flags =
      ⟨word (image.stackPointer p), b, s, d, bp, word ((word a).toNat + 24), f, r,
        store32 (storeWords c.mem e ws) (image.stackPointer p) (word e)⟩ :=
    callSwitch_eq hesp (by omega) (by omega) (by omega) hcontext (by omega) (by omega) (by omega)
  rw [hpointer, hcall, ha]
  refine ⟨_, rfl, fun p' hp' hne' => ?_, ?_⟩
  · have hplace' := placement image hp' hp
    have hstack' := hplace'.stack_apart hne'
    have hpointer' := hplace'.pointer_apart hne'
    have hoff' := hplace'.pointer_off
    have hoff := (placement image hp hp').pointer_off
    refine ⟨fun x h1 h2 => ?_, fun x h1 h2 => ?_⟩ <;>
      rw [store32_of_not_mem (by omega), storeWords_of_not_mem (by omega)]
  · exact suspended_of_words hp hesp (by omega) (by omega) (wordsAt_storeWords _ _ _)

/-! ## Coming back -/

/-- A call of the running party that did not switch. -/
theorem comeBack_eq (hp : p ∈ parties) (hlow : image.stackLow p < c.esp.toNat)
    (hhigh : c.esp.toNat ≤ image.stackLow p + 16384) (dispatched : Option ℕ) (sch : Scheduler) :
    Kernel.comeBack image dispatched c sch =
      (⟨none, none, dispatched, some (p, callerView c), none⟩, ⟨c, sch, p.control⟩) := by
  rw [Kernel.comeBack, onStack_eq hp hlow hhigh]

theorem interruptStateRestore_bit (c : Cpu) (flags : U32) :
    (interruptStateRestore c flags).eflags.getLsbD 9 = flags.getLsbD 9 := by
  unfold interruptStateRestore
  split_ifs with h
  · rw [(and_bit_ne_zero flags 9).1 h]
    exact (getLsbD_or_bit c.eflags (k := 9) (by decide) 9).trans (by simp)
  · have hbit : flags.getLsbD 9 = false := by
      rw [← Bool.not_eq_true]
      exact fun hset => h ((and_bit_ne_zero flags 9).2 hset)
    rw [hbit]
    exact (getLsbD_and_not_bit c.eflags 9 9).trans (by simp)

/-- Only the flags change. -/
theorem interruptStateRestore_eq (c : Cpu) (flags : U32) :
    interruptStateRestore c flags = { c with eflags := (interruptStateRestore c flags).eflags } := by
  unfold interruptStateRestore
  split_ifs <;> rfl

/-- **The return of a suspended call**: what belongs to its caller is as at the call. -/
theorem comeBack_suspended (hp : p ∈ parties) {flags : U32} {inner : List U32}
    (hinner : inner.length = 3 + image.frameWords site)
    (hsaved : SavedAt image c.mem p a [d, s, b, bp, flags, image.address (.after site)]
      (inner ++ [view.edi, view.esi, view.ebx, view.ebp, ret]))
    (hview : view.esp = word (a + 4 * (14 + image.frameWords site))) (hesp : c.esp = word (a + 24))
    (hif : c.eflags.getLsbD 9 = view.interrupts) (dispatched : Option ℕ) (sch : Scheduler) :
    ∃ c', c'.mem = c.mem ∧ Kernel.comeBack image dispatched (returnAfter image site c) sch =
      (⟨none, none, dispatched, some (p, view), none⟩, ⟨c', sch, p.control⟩) := by
  have hlt := (placement image hp hp).stack_lt
  obtain ⟨-, hlow, hhigh, hwords⟩ := hsaved
  simp only [List.length_cons, List.length_nil, List.length_append, hinner] at hhigh
  have habove := (wordsAt_append.1 hwords).2
  rw [show a + 4 * [d, s, b, bp, flags, image.address (.after site)].length = a + 24 from rfl] at habove
  have hback := returnAfter_eq hesp hinner habove (by omega)
  have hend : a + 24 + 4 * (8 + image.frameWords site) = a + 4 * (14 + image.frameWords site) := by omega
  rw [hend, ← hview] at hback
  have hnat : view.esp.toNat = a + 4 * (14 + image.frameWords site) := by rw [hview, toNat_word (by omega)]
  have hsame : callerView (returnAfter image site c) = view := by rw [hback, callerView, hif]
  have hback_esp : (returnAfter image site c).esp.toNat = a + 4 * (14 + image.frameWords site) := by
    rw [hback, ← hnat]
  refine ⟨returnAfter image site c, by rw [hback], ?_⟩
  rw [comeBack_eq hp (by omega) (by omega), hsame]

/-- `task_context_switch` has returned to a function that has called it. -/
theorem resume_suspended (hp : p ∈ parties) (hs : Suspended image m p site view) (hsite : site ≠ .exitToTask)
    (hsite' : site ≠ .exitToBootstrap) :
    ∃ a d s b bp f above, SavedAt image m p a [d, s, b, bp, f, image.address (.after site)] above ∧
      ∀ (c : Cpu) (dispatched : Option ℕ) (sch : Scheduler), Untouched image p m c.mem → c.esp = word (a + 24) →
        c.eflags = f → c.eip = image.address (.after site) →
        ∃ c', c'.mem = c.mem ∧ Kernel.resume image dispatched c sch =
          (⟨none, none, dispatched, some (p, view), none⟩, ⟨c', sch, p.control⟩) := by
  obtain ⟨a, d, s, b, bp, flags, ret, inner, hinner, hsaved, hesp, hif⟩ := hs
  refine ⟨a, d, s, b, bp, flags, _, hsaved, fun c dispatched sch hm hcesp hflags heip => ?_⟩
  have hsaved' := hsaved.untouched hm
  have hbit : c.eflags.getLsbD 9 = view.interrupts := by rw [hflags, hif]
  rw [Kernel.resume, heip, labelAt_address]
  cases site with
  | run =>
    have hrestore := interruptStateRestore_eq { c with eflags := c.eflags &&& ~~~eflagsInterrupt } c.eflags
    have hbit' := interruptStateRestore_bit { c with eflags := c.eflags &&& ~~~eflagsInterrupt } c.eflags
    generalize hrestored :
      interruptStateRestore { c with eflags := c.eflags &&& ~~~eflagsInterrupt } c.eflags = c₁
      at hrestore hbit'
    simp only [interruptStateSaveAndDisable, hrestored]
    have hmem : c₁.mem = c.mem := by rw [hrestore]
    have hesp₁ : c₁.esp = word (a + 24) := by rw [hrestore, ← hcesp]
    rw [← hmem] at hsaved' ⊢
    generalize (if findNextReady sch sch.roundRobinCursor = taskInvalidId then (1 : U32) else 0) = result
    exact comeBack_suspended (c := { c₁ with eax := result }) hp hinner hsaved' hesp hesp₁
      (hbit'.trans hbit) dispatched sch
  | yieldToTask => exact comeBack_suspended hp hinner hsaved' hesp hcesp hbit dispatched sch
  | yieldToBootstrap => exact comeBack_suspended hp hinner hsaved' hesp hcesp hbit dispatched sch
  | exitToTask => exact absurd rfl hsite
  | exitToBootstrap => exact absurd rfl hsite'

/-! ## New tasks -/

/-- The stack of a task that has not run: the context leads to the trampoline, with
`task_exit` as its return address. -/
def Prepared (image : Image) (m : Memory) (id : ℕ) (creatorFlags : U32) : Prop :=
  SavedAt image m (.task id) (image.stackLow (.task id) + 16356)
    [0, 0, 0, 0, initialTaskEflags creatorFlags, image.address .trampoline] [image.taskExit]

theorem prepareInitialStack_eq {id : ℕ} (hid : id < 8) (image : Image) (m : Memory) (creatorFlags : U32) :
    prepareInitialStack image m id creatorFlags =
      store32 (storeWords m (image.stackLow (.task id) + 16356)
        [0, 0, 0, 0, initialTaskEflags creatorFlags, image.address .trampoline, image.taskExit])
        (image.stackPointer (.task id)) (word (image.stackLow (.task id) + 16356)) := by
  have hlt :=
    (placement image (mem_parties.2 (.inr ⟨id, hid, rfl⟩)) (mem_parties.2 (.inr ⟨id, hid, rfl⟩))).stack_lt
  have htop : word (image.stackLow (.task id) + taskStackSize) &&& ~~~0x0F#32 =
      word (image.stackLow (.task id) + 16384) := by
    apply BitVec.eq_of_toNat_eq
    have haligned := image.aligned
    have hmask : (0x0F#32 : U32) = BitVec.ofNat 32 (2 ^ 4 - 1) := rfl
    rw [hmask, toNat_and_high, toNat_word hlt]
    simp only [Image.stackLow, taskStackSize]
    omega
  have hnat : (word (image.stackLow (.task id) + 16384)).toNat = image.stackLow (.task id) + 16384 :=
    toNat_word hlt
  have hfold :
      [image.taskExit, image.address .trampoline, initialTaskEflags creatorFlags, 0, 0, 0, 0].foldl descend
      (word (image.stackLow (.task id) + 16384), m) = (word (image.stackLow (.task id) + 16356),
        storeWords m (image.stackLow (.task id) + 16356)
          [0, 0, 0, 0, initialTaskEflags creatorFlags, image.address .trampoline, image.taskExit]) := by
    rw [foldl_descend (by simp [hnat]), hnat]
    rfl
  simp only [prepareInitialStack, htop, hfold]

/-- **`prepare_initial_stack`** prepares a task and touches no other party. -/
theorem prepareInitialStack_spec {id : ℕ} (hid : id < 8) (image : Image) (m : Memory) (creatorFlags : U32) :
    Prepared image (prepareInitialStack image m id creatorFlags) id creatorFlags ∧
      ∀ q ∈ parties, q ≠ .task id → Untouched image q m (prepareInitialStack image m id creatorFlags) := by
  have hp : Party.task id ∈ parties := mem_parties.2 (.inr ⟨id, hid, rfl⟩)
  have hoff := (placement image hp hp).pointer_off
  rw [prepareInitialStack_eq hid]
  refine ⟨⟨load32_store32 _ _ _, by omega, by simp only [List.length_cons, List.length_nil]; omega, ?_⟩,
    fun q hq hne => ?_⟩
  · refine (wordsAt_storeWords _ _ _).frame fun x h1 h2 => store32_of_not_mem ?_
    change x < image.stackLow (.task id) + 16356 + 28 at h2
    omega
  · have hplace := placement image hq hp
    have hstack := hplace.stack_apart hne
    have hpointer := hplace.pointer_apart hne
    have hqoff := hplace.pointer_off
    have hpoff := (placement image hp hq).pointer_off
    refine ⟨fun x h1 h2 => ?_, fun x h1 h2 => ?_⟩ <;>
      rw [store32_of_not_mem (by omega), storeWords_of_not_mem ?_] <;>
      simp only [List.length_cons, List.length_nil] <;> omega

/-- How a task first enters `task_trampoline`. -/
structure EntersTrampoline (image : Image) (id : ℕ) (creatorFlags : U32) (c : Cpu) : Prop where
  trampoline : c.eip = image.address .trampoline
  registers : c.ebx = 0 ∧ c.esi = 0 ∧ c.edi = 0 ∧ c.ebp = 0
  aligned : c.esp.toNat % 16 = 12
  own_stack : image.stackLow (.task id) ≤ c.esp.toNat ∧
    c.esp.toNat + 4 ≤ image.stackLow (.task id) + taskStackSize
  return_address : load32 c.mem c.esp.toNat = image.taskExit
  /-- Bit 1 is set, and TF, DF, NT and VM are clear. -/
  flags : ∀ i < 32, c.eflags.getLsbD i =
    if i = 1 then true else if i ∈ [8, 10, 14, 17] then false else creatorFlags.getLsbD i

theorem initialTaskEflags_bit (creatorFlags : U32) {i : ℕ} (hi : i < 32) :
    (initialTaskEflags creatorFlags).getLsbD i =
      if i = 1 then true else if i ∈ [8, 10, 14, 17] then false else creatorFlags.getLsbD i := by
  have hmask : initialTaskEflags creatorFlags = (creatorFlags ||| 2#32) &&& 0xFFFDBAFF#32 := rfl
  rw [hmask, BitVec.getLsbD_and, BitVec.getLsbD_or]
  interval_cases i <;> simp

/-- `task_context_switch` has switched to a task that has not run yet. -/
theorem resume_prepared {id : ℕ} {creatorFlags : U32} (hid : id < 8) (hm : Prepared image c.mem id creatorFlags)
    (hc : c.ebx = 0 ∧ c.esi = 0 ∧ c.edi = 0 ∧ c.ebp = 0)
    (hesp : c.esp = word (image.stackLow (.task id) + 16356 + 24))
    (hflags : c.eflags = initialTaskEflags creatorFlags)
    (heip : c.eip = image.address .trampoline) (dispatched : Option ℕ) (sch : Scheduler) :
    EntersTrampoline image id creatorFlags c ∧ Kernel.resume image dispatched c sch =
      (⟨none, none, dispatched, none, some (sch.currentTaskId, c)⟩, ⟨c, sch, taskTrampoline sch⟩) := by
  have hp : Party.task id ∈ parties := mem_parties.2 (.inr ⟨id, hid, rfl⟩)
  have hlt := (placement image hp hp).stack_lt
  have haligned := image.aligned
  have hnat : c.esp.toNat = image.stackLow (.task id) + 16380 := by rw [hesp, toNat_word (by omega)]
  have hlow : image.stackLow (.task id) = image.taskStacks + 16384 * id := rfl
  refine ⟨⟨heip, hc, by omega, by simp only [taskStackSize]; omega, ?_, fun i hi => ?_⟩, ?_⟩
  · rw [hnat]
    exact (wordsAt_append.1 hm.words).2.1
  · rw [hflags, initialTaskEflags_bit _ hi]
  · rw [Kernel.resume, heip, labelAt_address]

end TinyShell
