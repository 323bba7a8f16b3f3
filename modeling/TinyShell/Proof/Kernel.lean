import TinyShell.Proof.HeapFree
import TinyShell.Proof.Interrupt
import TinyShell.Proof.Irq
import TinyShell.Proof.SelfTests
import TinyShell.Proof.Shell
import TinyShell.Proof.VmmRuns

/-!
# The outcome of boot

`kernel_main` up to `sti`, from any state in which paging is off.

* `managed_iff_safePage`: the pages that the ownership sequence leaves to the allocator are
  all the safe pages of the memory map, not only safe ones.
* One lemma for each phase says what it leaves, or why it stops.
* `boot_outcome`: the four ways in which boot can fail, each by a property of the memory map
  and the kernel range, and the state that every other boot ends in.
-/

namespace TinyShell

open Machine

/-! ## Which pages there are -/

section ownership

variable {m : Memory} {infoAddress kernelStart kernelEnd : U32} {rs : List BootMemoryRegion}

/-- A buffer is a concatenation of records in one way only. -/
theorem Records.unique {stop cursor : ℕ} {rs rs' : List BootMemoryRegion} (h : Records m stop cursor rs)
    (h' : Records m stop cursor rs') : rs = rs' := by
  induction h generalizing rs' with
  | done =>
    have := h'.length_le
    exact (List.eq_nil_of_length_eq_zero (by omega)).symm
  | record _ hle _ _ _ ih =>
    cases h' with
    | done => omega
    | record _ _ _ _ hrest => rw [ih hrest]

/-- A safe page is left managed by the ownership sequence. -/
theorem managed_of_safePage (hmap : MemoryMap m infoAddress rs) (hk : kernelStart < kernelEnd) (s₀ : Pmm)
    {p : ℕ} {a : U32}
    (hp : p < 1048576) (ha : a.toNat = 4096 * p) (hsafe : SafePage m infoAddress kernelStart kernelEnd rs a) :
    managed (exec regionStep (pmmReset s₀)
      (bootCalls rs kernelStart kernelEnd (ownedRanges m infoAddress))) p = true := by
  set cs := bootCalls rs kernelStart kernelEnd (ownedRanges m infoAddress) with hcs
  have hfits := mem_records_fits hmap.records
  have hlow := hsafe.above_low
  refine ((ownedBy_run s₀ cs).managed p hp).2 ⟨by omega, ?_, ?_⟩
  · obtain ⟨r, hr, htype, hbase, hend⟩ := hsafe.inside
    refine ⟨r.base, r.length, (mem_region_trace s₀ cs _ _).2 ⟨?_, iff_of_true rfl (hfits r hr)⟩, ?_⟩
    · rw [hcs, bootCalls, List.mem_append]
      exact .inl (List.mem_map.2 ⟨r, hr, if_pos htype⟩)
    · unfold PageInside
      omega
  · -- a byte of the page in a reserved range is excluded by the field for that range
    rintro ⟨base, length, hcall, x, h1, h2, h3, h4⟩
    have hmem := ((mem_region_trace s₀ cs _ _).1 hcall).1
    simp only [hcs, bootCalls, List.mem_append, List.mem_map, List.mem_cons, List.not_mem_nil, or_false,
      RegionCall.reserve.injEq] at hmem
    have hx1 : a.toNat ≤ x := by omega
    have hx2 : x < a.toNat + 4096 := by omega
    rcases hmem with ⟨r, hr, hcr⟩ | ⟨rfl, rfl⟩ | ⟨rfl, rfl⟩ | ⟨rfl, rfl⟩ | ⟨rfl, rfl⟩
    · unfold importCall at hcr
      split_ifs at hcr with htype
      obtain ⟨rfl, rfl⟩ := RegionCall.reserve.inj hcr
      exact hsafe.off_unusable r hr htype x hx1 hx2 ⟨h1, h2⟩
    · have hlimit : (0 : U64).toNat + lowMemoryLimit.toNat = 0x100000 := by decide
      omega
    · apply hsafe.off_kernel x hx1 hx2
      bv_omega
    · apply hsafe.off_info x hx1 hx2
      simp only [ownedRanges, multibootInfoSize] at h1 h2
      bv_omega
    · apply hsafe.off_map x hx1 hx2
      simp only [ownedRanges] at h1 h2
      bv_omega

theorem managed_iff_safePage (hmap : MemoryMap m infoAddress rs) (hk : kernelStart < kernelEnd) (s₀ : Pmm)
    {p : ℕ} {a : U32} (hp : p < 1048576) (ha : a.toNat = 4096 * p) :
    managed (exec regionStep (pmmReset s₀)
        (bootCalls rs kernelStart kernelEnd (ownedRanges m infoAddress))) p = true ↔
      SafePage m infoAddress kernelStart kernelEnd rs a :=
  ⟨safePage_of_managed hmap hk s₀ hp ha, managed_of_safePage hmap hk s₀ hp ha⟩

/-- No page is in use after the ownership sequence: every managed one is free. -/
theorem isFree_iff_managed (s₀ : Pmm) (cs : List RegionCall) {p : ℕ} (hp : p < 1048576) :
    isFree (exec regionStep (pmmReset s₀) cs) p = true ↔ managed (exec regionStep (pmmReset s₀) cs) p = true := by
  have howned := ownedBy_run s₀ cs
  rw [isFree, Bool.and_eq_true, Bool.not_eq_true']
  refine ⟨fun h => h.1, fun h => ⟨h, ?_⟩⟩
  obtain ⟨hne, -, hres⟩ := (howned.managed p hp).1 h
  rw [← Bool.not_eq_true, howned.allocated p hp]
  rintro (h0 | h0)
  · exact hne h0
  · exact hres h0

end ownership

/-! ## Running the phases -/

section running

variable {α β : Type} {s s' : KernelState}

theorem bind_ok {x : KernelM α} {a : α} (h : x s = .ok a s') (f : α → KernelM β) : (x >>= f) s = f a s' := by
  show EStateM.bind x f s = _
  rw [EStateM.bind, h]

theorem bind_error {x : KernelM α} {stop : BootStop} (h : x s = .error stop s') (f : α → KernelM β) :
    (x >>= f) s = .error stop s' := by
  show EStateM.bind x f s = _
  rw [EStateM.bind, h]

theorem failIf_false {condition : Bool} (h : condition = false) (stage : BootStage) :
    failIf stage condition s = .ok () s := by
  rw [h]
  rfl

theorem require_true {condition : KernelM Bool} (h : condition s = .ok true s') (stage : BootStage) :
    require stage condition s = .ok () s' := by
  rw [require, bind_ok h]
  rfl

theorem require_onPmm {g : Pmm → Bool × Pmm} (h : (g s.pmm).1 = true) (stage : BootStage) :
    require stage (onPmm g) s = .ok () { s with pmm := (g s.pmm).2 } :=
  require_true (show onPmm g s = .ok true _ by rw [← h]; rfl) stage

theorem require_onIrq {g : Irq → Bool × Irq} {irq : Irq} (h : g s.drivers.irq = (true, irq)) (stage : BootStage) :
    require stage (onIrq g) s = .ok () { s with drivers := { s.drivers with irq := irq } } :=
  require_true (show EStateM.Result.ok _ _ = _ by rw [h]) stage

theorem require_onPit {g : Pit → Bool × Pit} {pit : Pit} (h : g s.drivers.pit = (true, pit)) (stage : BootStage) :
    require stage (onPit g) s = .ok () { s with drivers := { s.drivers with pit := pit } } :=
  require_true (show EStateM.Result.ok _ _ = _ by rw [h]) stage

theorem require_onKeyboard {g : Keyboard → Bool × Keyboard} {keyboard : Keyboard}
    (h : g s.drivers.keyboard = (true, keyboard)) (stage : BootStage) :
    require stage (onKeyboard g) s = .ok () { s with drivers := { s.drivers with keyboard := keyboard } } :=
  require_true (show EStateM.Result.ok _ _ = _ by rw [h]) stage

theorem require_onHeap {g : Heap → Bool × Heap} {heap : Heap} (h : g s.heap = (true, heap)) (stage : BootStage) :
    require stage (onHeap g) s = .ok () { s with heap := heap } :=
  require_true (show EStateM.Result.ok _ _ = _ by rw [h]) stage

theorem require_onShell {g : ShellRuntime → Bool × ShellRuntime} {shell : ShellRuntime}
    (h : g s.shell = (true, shell))
    (stage : BootStage) : require stage (onShell g) s = .ok () { s with shell := shell } :=
  require_true (show EStateM.Result.ok _ _ = _ by rw [h]) stage

theorem modifyGet_eq {g : KernelState → α × KernelState} {a : α} (h : g s = (a, s')) :
    (modifyGet g : KernelM α) s = .ok a s' := by
  show (match g s with | (a, s) => EStateM.Result.ok a s) = _
  rw [h]

theorem require_onIpc {endpoint : U32} {ipc : Ipc}
    (h : ipcSelfTest (some s.taskFlowEndpoint) s.ipc = (true, some endpoint, ipc)) (stage : BootStage) :
    require stage onIpc s = .ok () { s with taskFlowEndpoint := endpoint, ipc := ipc } := by
  apply require_true
  unfold onIpc
  apply modifyGet_eq
  simp only [h, Option.getD_some]

/-- What `boot_fail` prints. -/
def failLine (stage : BootStage) : List ConsoleCall :=
  consoleWrite (asciiText "BOOT_FAIL:") ++ consoleWrite (asciiText stage.text) ++ [.putc 0x0A#8]

theorem bootFail_eq (stage : BootStage) (s : KernelState) :
    (bootFail stage : KernelM α) s =
      .error (.failed stage) { s with shell := s.shell.print (failLine stage) } := by
  have hprint : s.shell.print (failLine stage) =
      ((s.shell.print (consoleWrite (asciiText "BOOT_FAIL:"))).print (consoleWrite (asciiText stage.text))).print
        [.putc 0x0A#8] := by
    simp only [failLine, ShellRuntime.print, List.foldl_append]
  rw [hprint]
  rfl

theorem failIf_true {condition : Bool} (h : condition = true) (stage : BootStage) (s : KernelState) :
    failIf stage condition s = .error (.failed stage) { s with shell := s.shell.print (failLine stage) } := by
  rw [h]
  exact bootFail_eq stage s

theorem bind_get (f : KernelState → KernelM β) : (get >>= f) s = f s s := rfl

theorem bind_set (t : KernelState) (f : PUnit → KernelM β) : (set t >>= f) s = f ⟨⟩ t := rfl

theorem bind_modify (g : KernelState → KernelState) (f : PUnit → KernelM β) :
    (modify g >>= f) s = f ⟨⟩ (g s) := rfl

theorem bind_onPmm (g : Pmm → α × Pmm) (f : α → KernelM β) :
    (onPmm g >>= f) s = f (g s.pmm).1 { s with pmm := (g s.pmm).2 } := rfl

theorem bind_onIrq (g : Irq → α × Irq) (f : α → KernelM β) :
    (onIrq g >>= f) s =
      f (g s.drivers.irq).1 { s with drivers := { s.drivers with irq := (g s.drivers.irq).2 } } := rfl

theorem bind_onKeyboard (g : Keyboard → α × Keyboard) (f : α → KernelM β) :
    (onKeyboard g >>= f) s =
      f (g s.drivers.keyboard).1
        { s with drivers := { s.drivers with keyboard := (g s.drivers.keyboard).2 } } := rfl

theorem bind_onShell (g : ShellRuntime → α × ShellRuntime) (f : α → KernelM β) :
    (onShell g >>= f) s = f (g s.shell).1 { s with shell := (g s.shell).2 } := rfl

theorem bind_printCalls (calls : List ConsoleCall) (f : Unit → KernelM β) :
    (printCalls calls >>= f) s = f () { s with shell := s.shell.print calls } := rfl

theorem bind_writeText (text : String) (f : Unit → KernelM β) :
    (writeText text >>= f) s = f () { s with shell := s.shell.print (consoleWrite (asciiText text)) } := rfl

theorem writeText_run (text : String) :
    writeText text s = .ok () { s with shell := s.shell.print (consoleWrite (asciiText text)) } := rfl

theorem print_print (s : ShellRuntime) (first second : List ConsoleCall) :
    (s.print first).print second = s.print (first ++ second) := by
  simp only [ShellRuntime.print, List.foldl_append]

end running

/-! ## The log -/

def lines (texts : List String) : List ConsoleCall := texts.flatMap fun text => consoleWrite (asciiText text)

def tablesLog : List ConsoleCall :=
  lines ["TinyShell OS booting...\n", "Architecture: i386\n", "CONSOLE_OK\n", "GDT_OK\n", "IDT_OK\n"]

def informationLog : List ConsoleCall :=
  lines ["MULTIBOOT_OK\n", "MEMORY_MAP_OK\n", "EXCEPTION vector="] ++ consoleWriteU32Dec 3 ++ [.putc 0x0A#8] ++
    lines ["INT3_TEST_OK\n"]

def pagesLog (freePages : U32) : List ConsoleCall :=
  lines ["PMM_OK\n", "PMM_ALLOC_FREE_OK\n", "PMM_FREE_PAGES="] ++ consoleWriteU32Dec freePages ++ [.putc 0x0A#8]

def interruptsLog : List ConsoleCall :=
  lines ["PIC_OK\n", "PIT_OK\n", "KEYBOARD_DECODE_OK\n", "IRQ_OK\n", "KEYBOARD_READY\n"]

def servicesLog : List ConsoleCall :=
  lines ["PAGING_OK\n", "VMM_MAP_OK\n", "HEAP_OK\n", "HEAP_COALESCE_OK\n", "IPC_OK\n", "RAMFS_OK\n",
    "SHELL_INPUT_OK\n", "SHELL_PARSE_OK\n"]

/-! ## The phases -/

section phases

variable {k : KernelImage} {magic infoAddress : U32} {s : KernelState}

theorem kernelStart_lt_kernelEnd (k : KernelImage) : k.kernelStart < k.kernelEnd := by
  have := k.arenaInside
  bv_omega

def afterTables (k : KernelImage) (s : KernelState) : KernelState :=
  { s with
    gdt := (gdtInit s.gdt).2
    drivers :=
      { s.drivers with irq := { s.drivers.irq with idt := idtInit k.interrupts.isrStubTable s.drivers.irq.idt } }
    shell := { s.shell with console := consoleInit s.shell.console }.print tablesLog }

theorem bootTables_eq (k : KernelImage) (s : KernelState) : bootTables k s = .ok () (afterTables k s) := by
  unfold bootTables
  rw [bind_onShell, bind_writeText, bind_writeText, bind_writeText, bind_modify, bind_writeText, bind_onIrq,
    writeText_run]
  simp only [afterTables, tablesLog, lines, List.flatMap_cons, List.flatMap_nil, List.append_nil, ← print_print]

theorem bootInformation_rejected (frame : InterruptFrame) (input : HardwareInput)
    (h : (multibootParse s.heap.mem magic infoAddress (some ⟨0, 0, 0⟩)).1 = false) :
    bootInformation k magic infoAddress frame input s =
      .error (.failed .multiboot) { s with shell := s.shell.print (failLine .multiboot) } := by
  unfold bootInformation
  rw [bind_get]
  exact bind_error (failIf_true (by rw [h]; rfl) _ _) _

theorem bootInformation_accepted (frame : InterruptFrame) (input : HardwareInput)
    (h : (multibootParse s.heap.mem magic infoAddress (some ⟨0, 0, 0⟩)).1 = true) :
    bootInformation k magic infoAddress frame input s =
      .ok (ownedRanges s.heap.mem infoAddress) { s with shell := s.shell.print informationLog } := by
  obtain ⟨hv, n, hw⟩ := multibootParse_eq_true h
  have howned : multibootGetOwnedRanges s.heap.mem magic infoAddress (some ⟨0, 0, 0, 0⟩) =
      (true, some (ownedRanges s.heap.mem infoAddress)) := by
    simp only [multibootGetOwnedRanges, hv, hw, ownedRanges]
  unfold bootInformation
  rw [bind_get]
  rw [bind_ok (failIf_false (by rw [h]; rfl) _), howned]
  dsimp only
  rw [bind_writeText, bind_writeText, bind_get]
  dsimp only
  -- `int3` comes back, with its line printed and the drivers as they were
  rw [show interruptDispatch k.interrupts input s.drivers { frame with vector := 3, errorCode := 0 } =
    ((.returned, consoleWrite (asciiText "EXCEPTION vector=") ++ consoleWriteU32Dec 3 ++ [.putc 0x0A#8]),
      s.drivers)
    from rfl]
  dsimp only
  rw [bind_set, bind_printCalls, bind_writeText]
  simp only [informationLog, lines, List.flatMap_cons, List.flatMap_nil, List.append_nil, print_print,
    List.append_assoc]
  rfl

theorem bootOwnership_range {owned : BootOwnedRanges} (h : k.kernelEnd > vmmIdentityLimit) :
    bootOwnership k magic infoAddress owned s =
      .error (.failed .kernelRange) { s with shell := s.shell.print (failLine .kernelRange) } := by
  unfold bootOwnership
  exact bind_error (failIf_true (by simp only [h, decide_true, Bool.or_true]) _ _) _

/-- The allocator after the ownership sequence. -/
def ownedPmm (k : KernelImage) (m : Memory) (infoAddress : U32) (rs : List BootMemoryRegion) (s : Pmm) : Pmm :=
  exec regionStep (pmmReset s) (bootCalls rs k.kernelStart k.kernelEnd (ownedRanges m infoAddress))

/-- There is a free page exactly when the map has a safe one. -/
theorem freePages_eq_zero_iff {m : Memory} {rs : List BootMemoryRegion} (hmap : MemoryMap m infoAddress rs)
    (s₀ : Pmm) :
    (ownedPmm k m infoAddress rs s₀).freePages = 0 ↔
      ∀ a, ¬SafePage m infoAddress k.kernelStart k.kernelEnd rs a := by
  have hok : PmmOK (ownedPmm k m infoAddress rs s₀) := (ownedBy_run s₀ _).ok
  have hk := kernelStart_lt_kernelEnd k
  constructor
  · intro hzero a hsafe
    have halign := hsafe.aligned
    have hp : a.toNat / 4096 < 1048576 := by have := a.isLt; omega
    have hman := managed_of_safePage hmap hk s₀ hp (by omega) hsafe
    have hpos := countBelow_pos hp ((isFree_iff_managed s₀ _ hp).2 hman)
    have hcount := hok.free
    rw [hzero] at hcount
    exact absurd hcount.symm hpos.ne'
  · intro hnone
    by_contra hne
    obtain ⟨page, hpage⟩ := exists_lowestFree hok hne
    exact hnone _ (safePage_of_managed hmap hk s₀ hpage.lt (toNat_pageAddress hpage.lt) hpage.managed)

/-- Before any allocation the two counters agree. -/
theorem totalPages_eq_freePages (m : Memory) (rs : List BootMemoryRegion) (s₀ : Pmm) :
    (ownedPmm k m infoAddress rs s₀).totalPages = (ownedPmm k m infoAddress rs s₀).freePages := by
  have hok : PmmOK (ownedPmm k m infoAddress rs s₀) := (ownedBy_run s₀ _).ok
  apply BitVec.eq_of_toNat_eq
  rw [hok.total, hok.free]
  exact countBelow_congr fun p hp => Bool.eq_iff_iff.2 (isFree_iff_managed s₀ _ hp).symm

/-- The ownership sequence in `kernel_main`: no step of it fails, and what is left is the test of the counters. -/
theorem bootOwnership_eq {n : U32} {rs : List BootMemoryRegion}
    (hv : validateMultibootInfo s.heap.mem magic infoAddress = some infoAddress)
    (hw : (walkMemoryMap s.heap.mem infoAddress (none : Option (RegionVisitor Unit)) ()).1 = some n)
    (hmap : MemoryMap s.heap.mem infoAddress rs) (hlimit : ¬k.kernelEnd > vmmIdentityLimit) :
    bootOwnership k magic infoAddress (ownedRanges s.heap.mem infoAddress) s =
      let s' := { s with pmm := ownedPmm k s.heap.mem infoAddress rs s.pmm }
      if s'.pmm.freePages = 0 then
        .error (.failed .pmmReserve) { s' with shell := s.shell.print (failLine .pmmReserve) }
      else .ok () s' := by
  have hk := kernelStart_lt_kernelEnd k
  have hsetup : setupOwnership s.heap.mem magic infoAddress k.kernelStart k.kernelEnd
      (ownedRanges s.heap.mem infoAddress) s.pmm = (_, ownedPmm k s.heap.mem infoAddress rs s.pmm) :=
    setupOwnership_eq hv hw hmap s.pmm
  simp only [setupOwnership, Prod.mk.injEq, OwnershipResults.mk.injEq] at hsetup
  obtain ⟨⟨hwalk, hlow, hkernel, hinfo, hbuffer⟩, hfinal⟩ := hsetup
  unfold bootOwnership
  have hrange : (decide (k.kernelEnd ≤ k.kernelStart) || decide (k.kernelEnd > vmmIdentityLimit)) = false := by
    rw [Bool.or_eq_false_iff, decide_eq_false_iff_not, decide_eq_false_iff_not]
    exact ⟨by bv_omega, hlimit⟩
  rw [bind_ok (failIf_false hrange _), bind_onPmm, bind_get]
  dsimp only
  rw [bind_ok (require_onPmm hwalk _), bind_ok (require_onPmm hlow _), bind_ok (require_onPmm hkernel _),
    bind_ok (require_onPmm hinfo _), bind_ok (require_onPmm hbuffer _), bind_get]
  dsimp only
  rw [hfinal, pmmTotalPageCount, pmmFreePageCount, totalPages_eq_freePages, Bool.or_self]
  by_cases hzero : (ownedPmm k s.heap.mem infoAddress rs s.pmm).freePages = 0
  · rw [if_pos hzero]
    exact failIf_true (decide_eq_true hzero) _ _
  · rw [if_neg hzero]
    exact failIf_false (decide_eq_false hzero) _

theorem bootPages_eq (hs : PmmOK s.pmm) {page : U32} (hpage : LowestFree s.pmm page) {owned : BootOwnedRanges}
    (hsafe : allocationIsReserved (page <<< pmmPageShift) owned k.kernelStart k.kernelEnd = false) :
    bootPages k owned s =
      .ok () { s with
        pmm := { s.pmm with ownershipFrozen := true }, shell := s.shell.print (pagesLog s.pmm.freePages) } := by
  have htest := pmmSelfTest_eq hs hpage hsafe
  unfold bootPages
  rw [bind_ok (require_onPmm (by rw [htest]) _), htest, bind_writeText, bind_writeText, bind_writeText, bind_get,
    bind_printCalls]
  simp only [pagesLog, lines, List.flatMap_cons, List.flatMap_nil, List.append_nil, ← print_print]
  rfl

/-- The drivers when interrupts are switched on. -/
structure DriversReady (image : InterruptImage) (d : Drivers) : Prop where
  timer : d.irq.handlers 0 = image.pitHandleIrq
  keys : d.irq.handlers 1 = image.keyboardHandleIrq
  others : ∀ line : Fin irqCountMax, 2 ≤ line.val → d.irq.handlers line = 0
  counts : ∀ line, d.irq.counts line = 0
  mask : picGetMask d.irq.pic = 0xFFFC
  ticks : pitTicks d.pit = 0
  frequency : pitFrequencyHz d.pit = 100
  keyboard : keyboardInit d.keyboard = d.keyboard

theorem irqRegisterHandler_free {s : Irq} {irq : U8} {handler : U32} (hirq : irq.toNat < irqCountMax)
    (hne : handler ≠ 0) (hfree : s.handlers ⟨irq.toNat, hirq⟩ = 0) :
    irqRegisterHandler s irq handler =
      (true, { s with handlers := Function.update s.handlers ⟨irq.toNat, hirq⟩ handler }) := by
  unfold irqRegisterHandler
  rw [dif_pos hirq, hfree, decide_eq_false hne]
  rfl

/-- The lines with the two handlers registered and let through. -/
def readyIrq (image : InterruptImage) (s : Irq) : Irq :=
  { s with
    handlers := Function.update (Function.update s.handlers 0 image.pitHandleIrq) 1 image.keyboardHandleIrq
    pic := (picSetMask (picSetMask s.pic 0 false).2 1 false).2 }

theorem readyIrq_mask (image : InterruptImage) {s : Irq} (hmaster : s.pic.masterMask = 0xFF)
    (hslave : s.pic.slaveMask = 0xFF) : picGetMask (readyIrq image s).pic = 0xFFFC := by
  have hmaster' :
      (readyIrq image s).pic.masterMask = maskedBit (maskedBit s.pic.masterMask 0 false) 1 false := rfl
  have hslave' : (readyIrq image s).pic.slaveMask = s.pic.slaveMask := rfl
  rw [picGetMask, hmaster', hslave', hmaster, hslave]
  decide

theorem irqInit_masked (stubs : Fin irqCountMax → U32) (s : Irq) :
    (irqInit stubs s).pic.masterMask = 0xFF ∧ (irqInit stubs s).pic.slaveMask = 0xFF := by
  rw [irqInit_pic]
  exact ⟨rfl, rfl⟩

theorem pitConfigure_boot (s : Pit) :
    ∃ pit, pitConfigure s 100 = (true, pit) ∧ pitTicks pit = 0 ∧ pitFrequencyHz pit = 100 :=
  ⟨_, rfl, rfl, show pitInputHz / (pitInputHz / 100) = 100 by decide⟩

/-- From lines without handlers to both drivers registered. -/
theorem bootInterrupts_run {k : KernelImage} {s : KernelState} {irq : Irq} {pit : Pit} {keyboard : Keyboard}
    (hirq : irqInit k.interrupts.irqStubTable s.drivers.irq = irq)
    (hconfigure : pitConfigure s.drivers.pit 100 = (true, pit)) (hfrequency : pitFrequencyHz pit = 100)
    (hkeyboard : keyboardSelfTest s.drivers.keyboard = (true, keyboard)) (hclear : ∀ line, irq.handlers line = 0)
    (hmaster : irq.pic.masterMask = 0xFF) (hslave : irq.pic.slaveMask = 0xFF) :
    bootInterrupts k s =
      .ok () { s with
        drivers := ⟨readyIrq k.interrupts irq, pit, keyboardInit keyboard⟩
        shell := s.shell.print interruptsLog } := by
  obtain ⟨hpit, hkeys, -⟩ := k.interrupts.handlers
  have hmask : picGetMask irq.pic = 0xFFFF := by
    rw [picGetMask, hmaster, hslave]
    decide
  have htimer : irqRegisterHandler irq 0 k.interrupts.pitHandleIrq =
      (true, { irq with handlers := Function.update irq.handlers 0 k.interrupts.pitHandleIrq }) :=
    irqRegisterHandler_free (by decide) hpit (hclear _)
  have hkeys' : irqRegisterHandler
      { irq with handlers := Function.update irq.handlers 0 k.interrupts.pitHandleIrq } 1
        k.interrupts.keyboardHandleIrq =
      (true, { irq with
        handlers :=
          Function.update
            (Function.update irq.handlers 0 k.interrupts.pitHandleIrq) 1 k.interrupts.keyboardHandleIrq }) := by
    apply irqRegisterHandler_free (by decide) hkeys
    show Function.update irq.handlers 0 k.interrupts.pitHandleIrq 1 = 0
    rw [Function.update_of_ne (by decide)]
    exact hclear _
  have hready := readyIrq_mask k.interrupts hmaster hslave
  have hlet : irqSetEnabled { irq with
      handlers :=
        Function.update
          (Function.update irq.handlers 0 k.interrupts.pitHandleIrq) 1 k.interrupts.keyboardHandleIrq } 0 true =
      (true, { irq with
        handlers :=
          Function.update
            (Function.update irq.handlers 0 k.interrupts.pitHandleIrq) 1 k.interrupts.keyboardHandleIrq
        pic := (picSetMask irq.pic 0 false).2 }) := rfl
  have hlet' : irqSetEnabled { irq with
      handlers :=
        Function.update
          (Function.update irq.handlers 0 k.interrupts.pitHandleIrq) 1 k.interrupts.keyboardHandleIrq
      pic := (picSetMask irq.pic 0 false).2 } 1 true = (true, readyIrq k.interrupts irq) := rfl
  unfold bootInterrupts
  rw [bind_onIrq, bind_get, hirq, bind_ok (failIf_false (by rw [hmask]; rfl) _), bind_writeText,
    bind_ok (require_onPit (by exact hconfigure) _), bind_get, bind_ok (failIf_false (by rw [hfrequency]; rfl) _),
    bind_writeText, bind_ok (require_onKeyboard (by exact hkeyboard) _), bind_writeText, bind_onKeyboard,
    bind_ok (require_onIrq (by exact htimer) _), bind_ok (require_onIrq (by exact hkeys') _),
    bind_ok (require_onIrq (by exact hlet) _), bind_ok (require_onIrq (by exact hlet') _), bind_get,
    bind_ok (failIf_false (by rw [hready]; rfl) _), bind_writeText, writeText_run]
  simp only [interruptsLog, lines, List.flatMap_cons, List.flatMap_nil, List.append_nil, ← print_print]

theorem driversReady (image : InterruptImage) {irq : Irq}
    (hclear : ∀ line, irq.handlers line = 0 ∧ irq.counts line = 0)
    (hmaster : irq.pic.masterMask = 0xFF) (hslave : irq.pic.slaveMask = 0xFF) {pit : Pit}
    (hticks : pitTicks pit = 0) (hfrequency : pitFrequencyHz pit = 100) (keyboard : Keyboard) :
    DriversReady image ⟨readyIrq image irq, pit, keyboardInit keyboard⟩ := by
  refine ⟨?_, ?_, ?_, fun line => (hclear line).2, readyIrq_mask _ hmaster hslave, hticks, hfrequency, rfl⟩
  · dsimp only [readyIrq]
    rw [Function.update_of_ne (by decide), Function.update_self]
  · dsimp only [readyIrq]
    rw [Function.update_self]
  · intro line hline
    have h1 : line ≠ 1 := by rintro rfl; exact absurd hline (by decide)
    have h0 : line ≠ 0 := by rintro rfl; exact absurd hline (by decide)
    dsimp only [readyIrq]
    rw [Function.update_of_ne h1, Function.update_of_ne h0]
    exact (hclear line).1

/-- Interrupt set-up never fails. -/
theorem bootInterrupts_ok (k : KernelImage) (s : KernelState) :
    ∃ d, bootInterrupts k s = .ok () { s with drivers := d, shell := s.shell.print interruptsLog } ∧
      DriversReady k.interrupts d ∧ d.irq.idt = (irqInit k.interrupts.irqStubTable s.drivers.irq).idt := by
  have hclear : ∀ line, (irqInit k.interrupts.irqStubTable s.drivers.irq).handlers line = 0 ∧
      (irqInit k.interrupts.irqStubTable s.drivers.irq).counts line = 0 := by
    intro line
    rw [irqInit_eq]
    exact ⟨rfl, rfl⟩
  obtain ⟨hmaster, hslave⟩ := irqInit_masked k.interrupts.irqStubTable s.drivers.irq
  have htest := keyboardSelfTest_passes s.drivers.keyboard
  obtain ⟨pit, hconfigure, hticks, hfrequency⟩ := pitConfigure_boot s.drivers.pit
  generalize hirq : irqInit k.interrupts.irqStubTable s.drivers.irq = irq at hclear hmaster hslave
  generalize hkeyboard : keyboardSelfTest s.drivers.keyboard = tested at htest
  obtain ⟨passed, keyboard⟩ := tested
  obtain rfl : passed = true := htest
  exact ⟨_, bootInterrupts_run hirq hconfigure hfrequency hkeyboard (fun line => (hclear line).1) hmaster hslave,
    driversReady k.interrupts hclear hmaster hslave hticks hfrequency _, rfl⟩

/-- The services start when the lowest free page is identity mapped. -/
theorem bootServices_ok (hvmm : s.vmm.enabled = false) (hs : PmmOK s.pmm) {page : U32}
    (hpage : LowestFree s.pmm page) (hlimit : (page <<< pmmPageShift).toNat < 0x08000000)
    (hoff : ¬(k.kernelStart.toNat ≤ (page <<< pmmPageShift).toNat ∧
      (page <<< pmmPageShift).toNat < k.kernelEnd.toNat)) :
    ∃ vmm heap ipc, bootServices k s =
        .ok () { s with
          pmm := { s.pmm with ownershipFrozen := true }, vmm := vmm, heap := heap
          ipc := ipc, taskFlowEndpoint := 0
          shell := ⟨editorOf .empty 0#32 false, true, false, ramfsInit,
            servicesLog.foldl consoleStep s.shell.console⟩ } ∧
      VmmOK k.layout vmm emptyMap ∧ HeapOK k.arena heap (initialBlocks k.arena) ∧ IpcOK ipc (openBank 1) := by
  obtain ⟨vmm, m, htest, hmap⟩ := vmmSelfTest_passes hvmm hs hpage hlimit hoff
  obtain ⟨heap, hheap, hblocks⟩ := heapSelfTest_ok { s.heap with mem := m } k.foreignOutside
  obtain ⟨ipc, hipc, hbank⟩ := ipcSelfTest_ok s.ipc s.taskFlowEndpoint
  refine ⟨vmm, heap, ipc, ?_, hmap, hblocks, hbank⟩
  unfold bootServices
  rw [bind_get, htest]
  dsimp only
  rw [bind_set, bind_ok (failIf_false (by rfl) _), bind_writeText, bind_writeText,
    bind_ok (require_onHeap (by exact hheap) _), bind_writeText, bind_writeText,
    bind_ok (require_onIpc (by exact hipc) _), bind_writeText,
    bind_ok (require_onShell (by exact shellRuntimeInit_eq _) _), bind_writeText, bind_writeText, writeText_run]
  simp only [servicesLog, lines, List.flatMap_cons, List.flatMap_nil, List.append_nil, ShellRuntime.print,
    List.foldl_append]

theorem bootServices_fails (hvmm : s.vmm.enabled = false) (hs : PmmOK s.pmm) {page : U32}
    (hpage : LowestFree s.pmm page) (hlimit : 0x08000000 ≤ (page <<< pmmPageShift).toNat) :
    ∃ s', bootServices k s = .error (.failed .vmmSelfTest) s' ∧
      s'.shell = s.shell.print (failLine .vmmSelfTest) := by
  obtain ⟨s', htest, hshell⟩ := vmmSelfTest_fails (k := k) hvmm hs hpage hlimit
  refine ⟨{ s' with shell := s'.shell.print (failLine .vmmSelfTest) }, ?_, by rw [hshell]⟩
  unfold bootServices
  rw [bind_get, htest]
  dsimp only
  rw [bind_set, bind_error (failIf_true (by rfl) _ _)]

end phases

/-! ## The outcome -/

section outcome

variable {k : KernelImage} {magic infoAddress : U32} {s : KernelState} {rs : List BootMemoryRegion}

/-- The safe pages of the memory map that boot finds in `s`. -/
def BootSafe (k : KernelImage) (infoAddress : U32) (rs : List BootMemoryRegion) (s : KernelState)
    (a : U32) : Prop :=
  SafePage s.heap.mem infoAddress k.kernelStart k.kernelEnd rs a

/-- The Multiboot information that boot goes on with, and the map in it. -/
def BootAccepts (magic infoAddress : U32) (rs : List BootMemoryRegion) (s : KernelState) : Prop :=
  (multibootParse s.heap.mem magic infoAddress (some ⟨0, 0, 0⟩)).1 = true ∧ MemoryMap s.heap.mem infoAddress rs

/-- Why boot stops at a stage. -/
def BootFails (k : KernelImage) (magic infoAddress : U32) (s : KernelState) : BootStage → Prop
  | .multiboot => (multibootParse s.heap.mem magic infoAddress (some ⟨0, 0, 0⟩)).1 = false
  | .kernelRange => (∃ rs, BootAccepts magic infoAddress rs s) ∧ vmmIdentityLimit < k.kernelEnd
  | .pmmReserve => k.kernelEnd ≤ vmmIdentityLimit ∧
      ∃ rs, BootAccepts magic infoAddress rs s ∧ ∀ a, ¬BootSafe k infoAddress rs s a
  | .vmmSelfTest => k.kernelEnd ≤ vmmIdentityLimit ∧
      ∃ rs, BootAccepts magic infoAddress rs s ∧ (∃ a, BootSafe k infoAddress rs s a) ∧
        ∀ a, BootSafe k infoAddress rs s a → vmmIdentityLimit ≤ a
  | _ => False

/-- What is printed before the line of `boot_fail`. -/
def logBefore (freePages : U32) : BootStage → List ConsoleCall
  | .multiboot => tablesLog
  | .vmmSelfTest => tablesLog ++ informationLog ++ pagesLog freePages ++ interruptsLog
  | _ => tablesLog ++ informationLog

/-- The kernel at `sti`. -/
structure Booted (k : KernelImage) (infoAddress : U32) (rs : List BootMemoryRegion) (s s' : KernelState) :
    Prop where
  pmm : PmmOK s'.pmm
  frozen : s'.pmm.ownershipFrozen = true
  count : s'.pmm.freePages.toNat = {a | BootSafe k infoAddress rs s a}.ncard
  pages : ∀ page : U32, page.toNat < 1048576 →
    (isFree s'.pmm page.toNat = true ↔ BootSafe k infoAddress rs s (page <<< pmmPageShift))
  paging : VmmOK k.layout s'.vmm emptyMap
  heap : HeapOK k.arena s'.heap (initialBlocks k.arena)
  endpoints : IpcOK s'.ipc (openBank 1) ∧ s'.taskFlowEndpoint = 0
  gates : GatesOK k.interrupts (gdtInit s.gdt).1 (idtTable s'.drivers.irq.idt)
  drivers : DriversReady k.interrupts s'.drivers
  shell : s'.shell.editor = editorOf .empty 0#32 false ∧ s'.shell.initialized = true ∧ s'.shell.started = false ∧
    s'.shell.ramfs = ramfsInit
  log : s'.shell.console =
    (tablesLog ++ informationLog ++ pagesLog s'.pmm.freePages ++ interruptsLog ++ servicesLog).foldl consoleStep
      (consoleInit s.shell.console)

/-- The lowest free page after the ownership sequence is a safe page, and no safe page is below it. -/
theorem lowestFree_safe (hmap : MemoryMap s.heap.mem infoAddress rs) {page : U32}
    (hpage : LowestFree (ownedPmm k s.heap.mem infoAddress rs s.pmm) page) :
    BootSafe k infoAddress rs s (page <<< pmmPageShift) ∧
      ∀ a, BootSafe k infoAddress rs s a → page <<< pmmPageShift ≤ a := by
  have hk := kernelStart_lt_kernelEnd k
  have haddr := toNat_pageAddress hpage.lt
  refine ⟨safePage_of_managed hmap hk s.pmm hpage.lt haddr hpage.managed, fun a hsafe => ?_⟩
  have halign := hsafe.aligned
  have hp : a.toNat / 4096 < 1048576 := by have := a.isLt; omega
  have hfree := (isFree_iff_managed s.pmm _ hp).2 (managed_of_safePage hmap hk s.pmm hp (by omega) hsafe)
  by_contra hlt
  have hbelow : a.toNat / 4096 < page.toNat := by
    rw [BitVec.not_le, BitVec.lt_def] at hlt
    omega
  exact Bool.false_ne_true ((hpage.lowest _ hbelow).symm.trans hfree)

/-- The counter after the ownership sequence is the number of safe pages. -/
theorem freePages_eq_ncard (hmap : MemoryMap s.heap.mem infoAddress rs) :
    (ownedPmm k s.heap.mem infoAddress rs s.pmm).freePages.toNat = {a | BootSafe k infoAddress rs s a}.ncard := by
  have hok : PmmOK (ownedPmm k s.heap.mem infoAddress rs s.pmm) := (ownedBy_run s.pmm _).ok
  have hk := kernelStart_lt_kernelEnd k
  have haddr : ∀ p < 1048576, (word (4096 * p)).toNat = 4096 * p := fun p hp => toNat_word (by omega)
  rw [hok.free, countBelow, ← Set.ncard_coe_finset]
  refine Set.ncard_congr (fun p _ => word (4096 * p)) ?_ ?_ ?_
  · intro p hp
    obtain ⟨hlt, hfree⟩ := Finset.mem_filter.1 (Finset.mem_coe.1 hp)
    rw [Finset.mem_range] at hlt
    exact safePage_of_managed hmap hk s.pmm hlt (haddr p hlt) ((isFree_iff_managed s.pmm _ hlt).1 hfree)
  · intro p q hp hq heq
    have hp' := Finset.mem_range.1 (Finset.mem_filter.1 (Finset.mem_coe.1 hp)).1
    have hq' := Finset.mem_range.1 (Finset.mem_filter.1 (Finset.mem_coe.1 hq)).1
    have := congrArg BitVec.toNat heq
    rw [haddr p hp', haddr q hq'] at this
    omega
  · intro a hsafe
    have halign := SafePage.aligned hsafe
    have hp : a.toNat / 4096 < 1048576 := by have := a.isLt; omega
    have hman := managed_of_safePage hmap hk s.pmm hp (by omega) hsafe
    refine ⟨a.toNat / 4096, Finset.mem_coe.2 (Finset.mem_filter.2 ⟨Finset.mem_range.2 hp, ?_⟩), ?_⟩
    · exact (isFree_iff_managed s.pmm _ hp).2 hman
    · apply BitVec.eq_of_toNat_eq
      rw [haddr _ hp]
      omega

/-- The phases behind the ownership sequence. -/
def bootRest (k : KernelImage) (owned : BootOwnedRanges) : KernelM Unit := do
  bootPages k owned
  bootInterrupts k
  bootServices k

section rest

variable {t : KernelState} {page : U32} {owned : BootOwnedRanges}

theorem bootRest_ok (hvmm : t.vmm.enabled = false) (hs : PmmOK t.pmm) (hpage : LowestFree t.pmm page)
    (hreserved : allocationIsReserved (page <<< pmmPageShift) owned k.kernelStart k.kernelEnd = false)
    (hlimit : (page <<< pmmPageShift).toNat < 0x08000000)
    (hoff : ¬(k.kernelStart.toNat ≤ (page <<< pmmPageShift).toNat ∧
      (page <<< pmmPageShift).toNat < k.kernelEnd.toNat)) :
    ∃ s', bootRest k owned t = .ok () s' ∧ s'.pmm = { t.pmm with ownershipFrozen := true } ∧
      VmmOK k.layout s'.vmm emptyMap ∧ HeapOK k.arena s'.heap (initialBlocks k.arena) ∧
      (IpcOK s'.ipc (openBank 1) ∧ s'.taskFlowEndpoint = 0) ∧ DriversReady k.interrupts s'.drivers ∧
      s'.drivers.irq.idt = (irqInit k.interrupts.irqStubTable t.drivers.irq).idt ∧
      s'.shell = ⟨editorOf .empty 0#32 false, true, false, ramfsInit,
        (pagesLog t.pmm.freePages ++ interruptsLog ++ servicesLog).foldl consoleStep t.shell.console⟩ := by
  obtain ⟨d, hinterrupts, hready, hidt⟩ := bootInterrupts_ok k { t with
    pmm := { t.pmm with ownershipFrozen := true }, shell := t.shell.print (pagesLog t.pmm.freePages) }
  obtain ⟨vmm, heap, ipc, hservices, hmap, hblocks, hbank⟩ :=
    bootServices_ok (k := k) (s := { t with
      pmm := { t.pmm with ownershipFrozen := true }, drivers := d
      shell := (t.shell.print (pagesLog t.pmm.freePages)).print interruptsLog }) hvmm hs.frozen
        hpage.frozen hlimit hoff
  have hrun :=
    (bind_ok (bootPages_eq hs hpage hreserved) fun _ => bootInterrupts k >>= fun _ => bootServices k).trans
    ((bind_ok hinterrupts fun _ => bootServices k).trans hservices)
  refine ⟨_, hrun, rfl, hmap, hblocks, ⟨hbank, rfl⟩, hready, hidt, ?_⟩
  simp only [ShellRuntime.print, List.foldl_append]

theorem bootRest_fails (hvmm : t.vmm.enabled = false) (hs : PmmOK t.pmm) (hpage : LowestFree t.pmm page)
    (hreserved : allocationIsReserved (page <<< pmmPageShift) owned k.kernelStart k.kernelEnd = false)
    (hlimit : 0x08000000 ≤ (page <<< pmmPageShift).toNat) :
    ∃ s', bootRest k owned t = .error (.failed .vmmSelfTest) s' ∧
      s'.shell.console =
        (pagesLog t.pmm.freePages ++ interruptsLog ++ failLine .vmmSelfTest).foldl consoleStep
          t.shell.console := by
  obtain ⟨d, hinterrupts, -, -⟩ := bootInterrupts_ok k { t with
    pmm := { t.pmm with ownershipFrozen := true }, shell := t.shell.print (pagesLog t.pmm.freePages) }
  obtain ⟨s', hservices, hshell⟩ :=
    bootServices_fails (k := k) (s := { t with
      pmm := { t.pmm with ownershipFrozen := true }, drivers := d
      shell := (t.shell.print (pagesLog t.pmm.freePages)).print interruptsLog }) hvmm hs.frozen
        hpage.frozen hlimit
  refine ⟨s', ?_, ?_⟩
  · unfold bootRest
    rw [bind_ok (bootPages_eq hs hpage hreserved), bind_ok hinterrupts]
    exact hservices
  · rw [hshell]
    simp only [ShellRuntime.print, List.foldl_append]

end rest

/-- The state behind the ownership sequence. -/
def ownedState (k : KernelImage) (infoAddress : U32) (rs : List BootMemoryRegion)
    (s : KernelState) : KernelState :=
  { afterTables k s with
    pmm := ownedPmm k s.heap.mem infoAddress rs s.pmm
    shell := (afterTables k s).shell.print informationLog }

theorem kernelSetup_rejected (frame : InterruptFrame) (input : HardwareInput)
    (hparse : (multibootParse s.heap.mem magic infoAddress (some ⟨0, 0, 0⟩)).1 = false) :
    kernelSetup k magic infoAddress frame input s =
      .error (.failed .multiboot) { afterTables k s with
        shell := (afterTables k s).shell.print (failLine .multiboot) } := by
  unfold kernelSetup
  rw [bind_ok (bootTables_eq k s), bind_error (bootInformation_rejected frame input (by exact hparse))]

theorem kernelSetup_range (frame : InterruptFrame) (input : HardwareInput)
    (hparse : (multibootParse s.heap.mem magic infoAddress (some ⟨0, 0, 0⟩)).1 = true)
    (hlimit : k.kernelEnd > vmmIdentityLimit) :
    kernelSetup k magic infoAddress frame input s =
      .error (.failed .kernelRange) { afterTables k s with
        shell := ((afterTables k s).shell.print informationLog).print (failLine .kernelRange) } := by
  unfold kernelSetup
  rw [bind_ok (bootTables_eq k s), bind_ok (bootInformation_accepted frame input (by exact hparse)),
    bind_error (bootOwnership_range hlimit)]

/-- Accepted information takes boot to the ownership sequence, and a free page takes it behind that. -/
theorem kernelSetup_accepted (frame : InterruptFrame) (input : HardwareInput)
    (h : BootAccepts magic infoAddress rs s) (hlimit : ¬k.kernelEnd > vmmIdentityLimit) :
    kernelSetup k magic infoAddress frame input s =
      if (ownedPmm k s.heap.mem infoAddress rs s.pmm).freePages = 0 then
        .error (.failed .pmmReserve) { ownedState k infoAddress rs s with
          shell := (ownedState k infoAddress rs s).shell.print (failLine .pmmReserve) }
      else bootRest k (ownedRanges s.heap.mem infoAddress) (ownedState k infoAddress rs s) := by
  obtain ⟨hparse, hmap⟩ := h
  obtain ⟨hv, n, hw⟩ := multibootParse_eq_true hparse
  have hownership : bootOwnership k magic infoAddress (ownedRanges s.heap.mem infoAddress)
      { afterTables k s with shell := (afterTables k s).shell.print informationLog } = _ :=
    bootOwnership_eq hv hw hmap hlimit
  unfold kernelSetup
  rw [bind_ok (bootTables_eq k s), bind_ok (bootInformation_accepted frame input (by exact hparse))]
  split_ifs with hzero
  · exact bind_error (hownership.trans (if_pos hzero)) _
  · exact bind_ok (hownership.trans (if_neg hzero)) _

/-- What `kernel_main` ends in: `sti` with everything set up, or a stage with its reason. -/
theorem kernelSetup_cases (k : KernelImage) (magic infoAddress : U32) (frame : InterruptFrame)
    (input : HardwareInput) (hvmm : s.vmm.enabled = false) :
    (∃ s' rs, kernelSetup k magic infoAddress frame input s = .ok () s' ∧ k.kernelEnd ≤ vmmIdentityLimit ∧
      BootAccepts magic infoAddress rs s ∧ (∃ a, BootSafe k infoAddress rs s a ∧ a < vmmIdentityLimit) ∧
      Booted k infoAddress rs s s') ∨
    ∃ stage freePages s', kernelSetup k magic infoAddress frame input s = .error (.failed stage) s' ∧
      BootFails k magic infoAddress s stage ∧
      (stage = .vmmSelfTest → ∃ rs, MemoryMap s.heap.mem infoAddress rs ∧
        freePages.toNat = {a | BootSafe k infoAddress rs s a}.ncard) ∧
      s'.shell.console =
        (logBefore freePages stage ++ failLine stage).foldl consoleStep (consoleInit s.shell.console) := by
  cases hparse : (multibootParse s.heap.mem magic infoAddress (some ⟨0, 0, 0⟩)).1 with
  | false =>
    refine .inr ⟨.multiboot, 0, _, kernelSetup_rejected frame input hparse, hparse, nofun, ?_⟩
    simp only [afterTables, logBefore, ShellRuntime.print, List.foldl_append]
  | true =>
    obtain ⟨hv, n, hw⟩ := multibootParse_eq_true hparse
    obtain ⟨-, -, -, -, hz, hlength, hfit⟩ := validateMultibootInfo_eq_some hv
    obtain ⟨rs, hmap⟩ := memoryMap_of_walk hz hfit hw
    have haccept : BootAccepts magic infoAddress rs s := ⟨hparse, hmap⟩
    by_cases hlimit : k.kernelEnd > vmmIdentityLimit
    · refine .inr ⟨.kernelRange, 0, _, kernelSetup_range frame input hparse hlimit,
        ⟨⟨rs, haccept⟩, hlimit⟩, nofun, ?_⟩
      simp only [afterTables, logBefore, ShellRuntime.print, List.foldl_append]
    have hend : k.kernelEnd ≤ vmmIdentityLimit := BitVec.not_lt.1 hlimit
    rw [kernelSetup_accepted frame input haccept hlimit]
    by_cases hzero : (ownedPmm k s.heap.mem infoAddress rs s.pmm).freePages = 0
    · rw [if_pos hzero]
      refine .inr
        ⟨.pmmReserve, 0, _, rfl, ⟨hend, rs, haccept, (freePages_eq_zero_iff hmap s.pmm).1 hzero⟩, nofun, ?_⟩
      simp only [ownedState, afterTables, logBefore, ShellRuntime.print, List.foldl_append]
    rw [if_neg hzero]
    have hk := kernelStart_lt_kernelEnd k
    have hok : PmmOK (ownedPmm k s.heap.mem infoAddress rs s.pmm) := (ownedBy_run s.pmm _).ok
    obtain ⟨page, hpage⟩ := exists_lowestFree hok hzero
    obtain ⟨hsafe, hlowest⟩ := lowestFree_safe hmap hpage
    have hreserved := allocationIsReserved_safe hsafe hk (by bv_omega)
    have hcount := freePages_eq_ncard (k := k) hmap
    -- the lowest free page decides whether the test of paging can reach it
    by_cases hhigh : 0x08000000 ≤ (page <<< pmmPageShift).toNat
    · obtain ⟨s', hrest, hconsole⟩ :=
        bootRest_fails (t := ownedState k infoAddress rs s) hvmm hok hpage hreserved hhigh
      rw [hrest]
      refine .inr ⟨.vmmSelfTest, _, s', rfl, ⟨hend, rs, haccept, ⟨_, hsafe⟩, fun a ha => ?_⟩,
        fun _ => ⟨rs, hmap, hcount⟩, ?_⟩
      · have hle : page <<< pmmPageShift ≤ a := hlowest a ha
        rw [BitVec.le_def] at hle ⊢
        exact hhigh.trans hle
      · rw [hconsole]
        simp only [ownedState, afterTables, logBefore, ShellRuntime.print, List.foldl_append]
    · have hoff := hsafe.off_kernel _ le_rfl (by omega)
      have hlow : page <<< pmmPageShift < vmmIdentityLimit := by
        rw [BitVec.lt_def, show vmmIdentityLimit.toNat = 0x08000000 by decide]
        exact not_le.1 hhigh
      obtain ⟨s', hrest, hpmm, hpaging, hheap, hipc, hdrivers, hidt, hshell⟩ :=
        bootRest_ok (t := ownedState k infoAddress rs s) hvmm hok hpage hreserved (not_le.1 hhigh) hoff
      have hgates := gatesOK_boot k.interrupts s.gdt s.drivers.irq.idt s.drivers.irq []
      rw [exec] at hgates
      rw [hrest]
      refine .inl ⟨s', rs, rfl, hend, haccept, ⟨_, hsafe, hlow⟩,
        { pmm := by rw [hpmm]; exact hok.frozen
          frozen := by rw [hpmm]
          count := by rw [hpmm]; exact hcount
          pages := fun p hp => ?_
          paging := hpaging
          heap := hheap
          endpoints := hipc
          gates := by rw [hidt]; exact hgates
          drivers := hdrivers
          shell := by rw [hshell]; exact ⟨rfl, rfl, rfl, rfl⟩
          log := ?_ }⟩
      · rw [hpmm]
        exact (isFree_iff_managed s.pmm _ hp).trans (managed_iff_safePage hmap hk s.pmm hp (toNat_pageAddress hp))
      · rw [hshell, hpmm]
        simp only [ownedState, afterTables, ShellRuntime.print, List.foldl_append]

/-- A boot that fails at a stage has no other reason to fail, and no way to `sti`. -/
theorem BootFails.unique {stage stage' : BootStage} (h : BootFails k magic infoAddress s stage)
    (h' : BootFails k magic infoAddress s stage') : stage = stage' := by
  have hmaps : ∀ {rs rs'}, BootAccepts magic infoAddress rs s → BootAccepts magic infoAddress rs' s → rs = rs' :=
    fun h h' => h.2.records.unique h'.2.records
  cases stage <;> cases stage' <;> simp only [BootFails] at h h' <;> first | rfl | exfalso
  -- rejected information against accepted
  · obtain ⟨⟨rs, haccept⟩, -⟩ := h'; exact Bool.false_ne_true (h.symm.trans haccept.1)
  · obtain ⟨-, rs, haccept, -⟩ := h'; exact Bool.false_ne_true (h.symm.trans haccept.1)
  · obtain ⟨-, rs, haccept, -⟩ := h'; exact Bool.false_ne_true (h.symm.trans haccept.1)
  · obtain ⟨⟨rs, haccept⟩, -⟩ := h; exact Bool.false_ne_true (h'.symm.trans haccept.1)
  -- the kernel range
  · exact absurd h.2 (BitVec.not_lt.2 h'.1)
  · exact absurd h.2 (BitVec.not_lt.2 h'.1)
  · obtain ⟨-, rs, haccept, -⟩ := h; exact Bool.false_ne_true (h'.symm.trans haccept.1)
  · exact absurd h'.2 (BitVec.not_lt.2 h.1)
  -- no safe page against some
  · obtain ⟨-, rs, haccept, hnone⟩ := h
    obtain ⟨-, rs', haccept', ⟨a, ha⟩, -⟩ := h'
    obtain rfl := hmaps haccept haccept'
    exact hnone a ha
  · obtain ⟨-, rs, haccept, -⟩ := h; exact Bool.false_ne_true (h'.symm.trans haccept.1)
  · exact absurd h'.2 (BitVec.not_lt.2 h.1)
  · obtain ⟨-, rs, haccept, ⟨a, ha⟩, -⟩ := h
    obtain ⟨-, rs', haccept', hnone⟩ := h'
    obtain rfl := hmaps haccept haccept'
    exact hnone a ha

theorem BootFails.not_booted {stage : BootStage} (h : BootFails k magic infoAddress s stage)
    (hend : k.kernelEnd ≤ vmmIdentityLimit) (haccept : BootAccepts magic infoAddress rs s) {a : U32}
    (hsafe : BootSafe k infoAddress rs s a) (hlow : a < vmmIdentityLimit) : False := by
  cases stage <;> simp only [BootFails] at h
  · exact Bool.false_ne_true (h.symm.trans haccept.1)
  · exact absurd h.2 (BitVec.not_lt.2 hend)
  · obtain ⟨-, rs', haccept', hnone⟩ := h
    obtain rfl := haccept.2.records.unique haccept'.2.records
    exact hnone a hsafe
  · obtain ⟨-, rs', haccept', -, hhigh⟩ := h
    obtain rfl := haccept.2.records.unique haccept'.2.records
    exact absurd hlow (BitVec.not_lt.2 (hhigh a hsafe))

/-- **The outcome of boot.** `kernel_main` stops in `boot_fail` at a stage exactly for the reason of that
stage, of which there are four, all about the memory map and the kernel range; no other check of it ever
fails. The log then names the stage. Otherwise it gets to `sti`, with every component set up and exactly the
safe pages of the map free. -/
theorem boot_outcome (k : KernelImage) (magic infoAddress : U32) (frame : InterruptFrame) (input : HardwareInput)
    (s : KernelState) (hvmm : s.vmm.enabled = false) :
    (∀ stage, BootFails k magic infoAddress s stage ↔
      ∃ s', kernelSetup k magic infoAddress frame input s = .error (.failed stage) s') ∧
    match kernelSetup k magic infoAddress frame input s with
    | .ok _ s' => ∃ rs, MemoryMap s.heap.mem infoAddress rs ∧ Booted k infoAddress rs s s'
    | .error stop s' => ∃ stage freePages, stop = .failed stage ∧
        (stage = .vmmSelfTest → ∃ rs, MemoryMap s.heap.mem infoAddress rs ∧
          freePages.toNat = {a | BootSafe k infoAddress rs s a}.ncard) ∧
        s'.shell.console =
          (logBefore freePages stage ++ failLine stage).foldl consoleStep (consoleInit s.shell.console) := by
  rcases kernelSetup_cases k magic infoAddress frame input hvmm with
    ⟨s', rs, hrun, hend, haccept, ⟨a, hsafe, hlow⟩, hbooted⟩ | ⟨stage, freePages, s', hrun, hfails, hcount, hlog⟩
  · rw [hrun]
    refine ⟨fun stage => ⟨fun h => (h.not_booted hend haccept hsafe hlow).elim, ?_⟩, rs, haccept.2, hbooted⟩
    rintro ⟨s'', heq⟩
    cases heq
  · rw [hrun]
    refine ⟨fun stage' => ⟨fun h => ?_, ?_⟩, stage, freePages, rfl, hcount, hlog⟩
    · rw [h.unique hfails]
      exact ⟨s', rfl⟩
    · rintro ⟨s'', heq⟩
      obtain ⟨heq, -⟩ := EStateM.Result.error.inj heq
      rwa [← BootStop.failed.inj heq]

/-- A kernel of 512 KiB at 1 MiB, with the heap first and the page tables behind it. -/
def sampleKernel : KernelImage where
  interrupts := sampleStubs
  layout := contiguousLayout 0x140000 (by decide) (by decide)
  arena := lowArena
  foreign := 0x90000
  kernelStart := 0x100000
  kernelEnd := 0x180000
  arenaInside := by decide
  tablesInside := by
    intro t ht
    show 0x100000 ≤ (word (0x140000 + 4096 * t)).toNat ∧ (word (0x140000 + 4096 * t)).toNat + 4096 ≤ 0x180000
    rw [toNat_word (by omega)]
    omega
  foreignOutside := by decide

def sampleKernelState : KernelState where
  gdt := sampleGdt
  pmm := ⟨fun _ => 0, fun _ => 0, 0, 0, false⟩
  vmm := bssVmm
  heap := ⟨sampleMap, 0, false⟩
  ipc := fun _ => ⟨false, 0, 0, 0, fun _ => messageClear⟩
  taskFlowEndpoint := 0
  drivers := ⟨sampleIrq, ⟨0, 0, []⟩, ⟨fun _ => 0, 0, 0, 0, false, false, false, false⟩⟩
  shell := ⟨editorOf .empty 0#32 false, false, false, ramfsInit, ⟨fun _ => 0, 0, 0, []⟩⟩

/-- The first page of the usable megabyte is safe. -/
theorem sampleKernel_safe : BootSafe sampleKernel 4 [⟨0x200000, 0x100000, 1⟩] sampleKernelState 0x200000 where
  aligned := by decide
  inside := ⟨_, List.mem_singleton_self _, rfl, by decide, by decide⟩
  above_low := by decide
  off_kernel := by
    intro x h1 h2
    have : (sampleKernel.kernelEnd).toNat = 0x180000 := rfl
    have : (0x200000 : U32).toNat = 0x200000 := rfl
    omega
  off_info := by
    intro x h1 h2
    have : (0x200000 : U32).toNat = 0x200000 := rfl
    have : (4 : U32).toNat = 4 := rfl
    omega
  off_map := by
    intro x h1 h2
    have : (0x200000 : U32).toNat = 0x200000 := rfl
    have : (infoMmapAddr sampleMap 4).toNat = 56 := by decide
    have : (infoMmapLength sampleMap 4).toNat = 24 := by decide
    show ¬((infoMmapAddr sampleMap 4).toNat ≤ x ∧
        x < (infoMmapAddr sampleMap 4).toNat + (infoMmapLength sampleMap 4).toNat)
    omega
  off_unusable := by
    intro r hr htype
    rw [List.mem_singleton.1 hr] at htype
    exact absurd rfl htype

/-- The sample kernel gets to `sti`. -/
theorem boot_outcome_sample :
    ∃ s', kernelSetup sampleKernel multibootBootloaderMagic 4 ⟨0, 0, 0, 0, 0, 0, 0, 0, 0, 0, 0, 0, 0⟩ ⟨0, 0, 0⟩
        sampleKernelState = .ok () s' ∧ ∃ rs, MemoryMap sampleMap 4 rs ∧
          Booted sampleKernel 4 rs sampleKernelState s' := by
  obtain ⟨hfails, houtcome⟩ := boot_outcome sampleKernel multibootBootloaderMagic 4
    ⟨0, 0, 0, 0, 0, 0, 0, 0, 0, 0, 0, 0, 0⟩ ⟨0, 0, 0⟩ sampleKernelState rfl
  revert hfails houtcome
  cases hrun : kernelSetup sampleKernel multibootBootloaderMagic 4
      ⟨0, 0, 0, 0, 0, 0, 0, 0, 0, 0, 0, 0, 0⟩ ⟨0, 0, 0⟩ sampleKernelState with
  | ok _ s' => exact fun _ houtcome => ⟨s', rfl, houtcome⟩
  | error stop s' =>
    rintro hfails ⟨stage, -, rfl, -⟩
    exact (((hfails stage).2 ⟨s', rfl⟩).not_booted (show (0x180000 : U32) ≤ 0x08000000 by decide)
      ⟨sampleMap_parse, sampleMap_memoryMap⟩ sampleKernel_safe (by decide)).elim

end outcome

end TinyShell
