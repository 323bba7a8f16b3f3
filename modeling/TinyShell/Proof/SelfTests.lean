import TinyShell.Spec.Kernel
import TinyShell.Proof.Boot
import TinyShell.Proof.HeapAlloc
import TinyShell.Proof.Ipc
import TinyShell.Proof.VmmRuns

/-!
# The self tests of the kernel

What each self test of `kernel_main` does from any state that it can be run in. All of them
pass but that of the page tables, which needs a free page below 128 MiB, and all of them
leave their component as if they had not been run: the pages are free again, nothing is
mapped, the heap is one block and the endpoints are new.
-/

namespace TinyShell

open Machine

theorem runTests_cons {σ : Type*} {test : σ → Bool × σ} {s s' : σ} (h : test s = (true, s'))
    (rest : List (σ → Bool × σ)) : runTests (test :: rest) s = runTests rest s' := by
  simp only [runTests, h, Bool.not_true, Bool.false_eq_true, if_false]

/-! ## Pages -/

section pages

variable {s : Pmm} {page : U32}

/-- The pages of a bitmap determine it. -/
theorem bitmap_ext {f g : ℕ → U32} (h : ∀ p, pageBit f p = pageBit g p) : f = g := by
  funext w
  apply BitVec.eq_of_getLsbD_eq
  intro k hk
  have hbit := h (32 * w + k)
  have hword : (32 * w + k) / 32 = w := by omega
  have hoffset : (32 * w + k) % 32 = k := by omega
  rwa [pageBit, pageBit, hword, hoffset] at hbit

/-- A page that is taken and given back leaves no trace but the freeze. -/
theorem afterFree_afterAlloc (hfree : isFree s page.toNat = true) :
    afterFree (afterAlloc s page) page = { s with ownershipFrozen := true } := by
  have hbits : assignBit (assignBit s.allocatedPages page true) page false = s.allocatedPages := by
    apply bitmap_ext
    intro p
    rw [pageBit_assignBit, pageBit_assignBit]
    by_cases hp : p = page.toNat
    · rw [isFree, Bool.and_eq_true, Bool.not_eq_true'] at hfree
      rw [if_pos hp, hp]
      exact hfree.2.symm
    · rw [if_neg hp, if_neg hp]
  have hcount : s.freePages - 1 + 1 = s.freePages := by bv_omega
  simp only [afterFree, afterAlloc, setAllocated, hbits, hcount]

/-- A page that was taken can be given back once. -/
theorem free_allocated (hs : PmmOK s) (hp : page.toNat < 1048576) (hm : managed s page.toNat = true)
    (ha : allocated s page.toNat = true) : pmmFreePage s (page <<< pmmPageShift) = (true, afterFree s page) := by
  have haddr := toNat_pageAddress hp
  rcases free_cases hs (page <<< pmmPageShift) with ⟨-, hno⟩ | ⟨page', -, haddr', -, -, hcall⟩
  · exact absurd ⟨_, hp, haddr, hm, ha⟩ hno
  · have hpage : page' = page := by bv_omega
    rw [hcall, hpage]

theorem free_refused (hs : PmmOK s) (hp : page.toNat < 1048576) (ha : allocated s page.toNat = false) :
    pmmFreePage s (page <<< pmmPageShift) = (false, s) := by
  have haddr := toNat_pageAddress hp
  rcases free_cases hs (page <<< pmmPageShift) with ⟨hcall, -⟩ | ⟨page', -, haddr', -, ha', -⟩
  · exact hcall
  · have hpage : page' = page := by bv_omega
    rw [hpage, ha] at ha'
    simp at ha'

/-- The lowest free page. -/
structure LowestFree (s : Pmm) (page : U32) : Prop where
  lt : page.toNat < 1048576
  free : isFree s page.toNat = true
  lowest : ∀ q < page.toNat, isFree s q = false

theorem LowestFree.managed (h : LowestFree s page) : managed s page.toNat = true := by
  have hfree := h.free
  rw [isFree, Bool.and_eq_true] at hfree
  exact hfree.1

theorem LowestFree.unique {page' : U32} (h : LowestFree s page) (h' : LowestFree s page') : page = page' := by
  have h1 : ¬page.toNat < page'.toNat := fun hlt => by simpa [h.free] using h'.lowest _ hlt
  have h2 : ¬page'.toNat < page.toNat := fun hlt => by simpa [h'.free] using h.lowest _ hlt
  bv_omega

/-- The freeze does not change which page is the lowest. -/
theorem LowestFree.frozen (h : LowestFree s page) : LowestFree { s with ownershipFrozen := true } page :=
  ⟨h.lt, h.free, h.lowest⟩

theorem exists_lowestFree (hs : PmmOK s) (hfree : s.freePages ≠ 0) : ∃ page, LowestFree s page := by
  rcases alloc_cases hs with ⟨-, hnone⟩ | ⟨page, hlt, hpage, hlowest, -⟩
  · have hzero : s.freePages.toNat = 0 := by
      rw [hs.free]
      exact countBelow_eq_zero hnone
    exact absurd (BitVec.eq_of_toNat_eq hzero) hfree
  · exact ⟨page, hlt, hpage, hlowest⟩

theorem alloc_lowestFree (hs : PmmOK s) (h : LowestFree s page) :
    pmmAllocPage s = (page <<< pmmPageShift, afterAlloc s page) := by
  rcases alloc_cases hs with ⟨-, hnone⟩ | ⟨page', hlt, hpage, hlowest, hcall⟩
  · exact absurd h.free (by simp [hnone _ h.lt])
  · rw [hcall, LowestFree.unique ⟨hlt, hpage, hlowest⟩ h]

theorem rangesOverlap_iff {a b c d : U64} (h1 : a.toNat + b.toNat < 2 ^ 64) (h2 : c.toNat + d.toNat < 2 ^ 64) :
    rangesOverlap a b c d = true ↔ a.toNat < c.toNat + d.toNat ∧ c.toNat < a.toNat + b.toNat := by
  rw [rangesOverlap, Bool.and_eq_true, decide_eq_true_eq, decide_eq_true_eq, BitVec.lt_def, BitVec.lt_def,
    BitVec.toNat_add_of_lt h2, BitVec.toNat_add_of_lt h1]

/-- A page that boot ownership left managed is in none of the ranges that the test looks at. -/
theorem allocationIsReserved_safe {m : Memory} {infoAddress kernelStart kernelEnd a : U32}
    {rs : List BootMemoryRegion}
    (hsafe : SafePage m infoAddress kernelStart kernelEnd rs a) (hk : kernelStart < kernelEnd)
    (hmap : 0 < (infoMmapLength m infoAddress).toNat) :
    allocationIsReserved a (ownedRanges m infoAddress) kernelStart kernelEnd = false := by
  -- an overlap has a first byte, which is in the page and in the range
  have hapart : ∀ base length : U32, 0 < length.toNat →
      (∀ x, a.toNat ≤ x → x < a.toNat + 4096 → ¬(base.toNat ≤ x ∧ x < base.toNat + length.toNat)) →
      rangesOverlap (a.setWidth 64) pmmPageSize (base.setWidth 64) (length.setWidth 64) = false := by
    intro base length hpos hno
    rw [← Bool.not_eq_true, rangesOverlap_iff (by bv_omega) (by bv_omega)]
    rintro ⟨h1, h2⟩
    have h1' : a.toNat < base.toNat + length.toNat := by bv_omega
    have h2' : base.toNat < a.toNat + 4096 := by bv_omega
    exact hno (max a.toNat base.toNat) (by omega) (by omega) (by omega)
  have hlow : rangesOverlap (a.setWidth 64) pmmPageSize 0 lowMemoryLimit = false := by
    have habove := hsafe.above_low
    rw [← Bool.not_eq_true, rangesOverlap_iff (by bv_omega) (by decide)]
    rintro ⟨h1, -⟩
    bv_omega
  have hkernel := hapart kernelStart (kernelEnd - kernelStart) (by bv_omega) fun x h1 h2 hx =>
    hsafe.off_kernel x h1 h2 (by bv_omega)
  have hinfo := hapart infoAddress multibootInfoSize (by decide) hsafe.off_info
  have hbuffer := hapart _ _ hmap hsafe.off_map
  rw [allocationIsReserved]
  simp only [ownedRanges, hlow, hkernel, hinfo, hbuffer, Bool.or_false]

/-- **The page test** passes, and leaves every page as it was. -/
theorem pmmSelfTest_eq (hs : PmmOK s) (hpage : LowestFree s page) {owned : BootOwnedRanges}
    {kernelStart kernelEnd : U32}
    (hsafe : allocationIsReserved (page <<< pmmPageShift) owned kernelStart kernelEnd = false) :
    pmmSelfTest owned kernelStart kernelEnd s = (true, { s with ownershipFrozen := true }) := by
  have hman := hpage.managed
  have hne := pageAddress_ne_zero hs hpage.lt hman
  have haddr := toNat_pageAddress hpage.lt
  have halign : page <<< pmmPageShift &&& 0xFFF = 0 := (offset_eq_zero _).2 (by omega)
  have hok := afterAlloc_ok hs hpage.lt hpage.free
  have hfree := free_allocated hok hpage.lt (by simpa using hman) (by simp)
  have hagain : pmmFreePage { s with ownershipFrozen := true } (page <<< pmmPageShift) =
      (false, { s with ownershipFrozen := true }) := by
    have hclear := hpage.free
    rw [isFree, Bool.and_eq_true, Bool.not_eq_true'] at hclear
    exact free_refused hs.frozen hpage.lt hclear.2
  have hadd := (region_frozen (s := afterAlloc s page) rfl 0 pmmPageSize).1
  have hreserve :=
    (region_frozen (s := afterAlloc s page) rfl ((page <<< pmmPageShift).setWidth 64) pmmPageSize).2
  rw [afterFree_afterAlloc hpage.free] at hfree
  have hcount : pmmFreePageCount (afterAlloc s page) = pmmFreePageCount s - 1 := rfl
  have hback : pmmFreePageCount { s with ownershipFrozen := true } = pmmFreePageCount s := rfl
  unfold pmmSelfTest
  simp only [alloc_lowestFree hs hpage, hne, halign, hcount, hsafe, hadd, hreserve, hfree, hback, hagain,
    ne_eq, not_true, decide_false, Bool.or_false, Bool.false_eq_true, if_false, Bool.not_true, Bool.not_false]

end pages

/-! ## Keyboard and endpoints -/

/-- **The keyboard test** passes. -/
theorem keyboardSelfTest_passes (s : Keyboard) : (keyboardSelfTest s).1 = true := by with_unfolding_all rfl

section endpoints

variable {s : Ipc} {B : FifoBank} {e : U32} {F : Fifo} {m : IpcMessage}

/-- A send to a queue with room. -/
theorem send_queued (h : IpcOK s B) (hF : B e.toNat = some F) (hlen : m.length.toNat ≤ 32)
    (hroom : F.queue.length < 8) :
    ∃ s', ipcSend s e (some m) = (true, s') ∧
      IpcOK s' (Function.update B e.toNat (some { F with queue := F.queue ++ [delivered m] })) := by
  obtain ⟨hresult, hok⟩ := send_sim h e (some m)
  simp only [fifoStep, hF, if_neg (Nat.not_lt.2 hlen), if_pos hroom] at hresult hok
  exact ⟨_, Prod.ext (IpcResult.sent.inj hresult) rfl, hok⟩

theorem send_full (h : IpcOK s B) (hF : B e.toNat = some F) (hlen : m.length.toNat ≤ 32)
    (hfull : ¬F.queue.length < 8) :
    ∃ s', ipcSend s e (some m) = (false, s') ∧
      IpcOK s' (Function.update B e.toNat (some { F with refused := F.refused + 1 })) := by
  obtain ⟨hresult, hok⟩ := send_sim h e (some m)
  simp only [fifoStep, hF, if_neg (Nat.not_lt.2 hlen), if_neg hfull] at hresult hok
  exact ⟨_, Prod.ext (IpcResult.sent.inj hresult) rfl, hok⟩

theorem send_long (h : IpcOK s B) (hF : B e.toNat = some F) (hlen : m.length.toNat > 32) :
    ∃ s', ipcSend s e (some m) = (false, s') ∧ IpcOK s' B := by
  obtain ⟨hresult, hok⟩ := send_sim h e (some m)
  simp only [fifoStep, hF, if_pos hlen] at hresult hok
  exact ⟨_, Prod.ext (IpcResult.sent.inj hresult) rfl, hok⟩

/-- A receive takes the front of the queue. -/
theorem receive_next {q : List IpcMessage} {refused : ℕ} (h : IpcOK s B) (hF : B e.toNat = some ⟨m :: q, refused⟩)
    (out : IpcMessage) :
    ∃ s', ipcReceive s e (some out) = (true, some m, s') ∧
      IpcOK s' (Function.update B e.toNat (some ⟨q, refused⟩)) := by
  obtain ⟨hresult, hok⟩ := receive_sim h e (some out)
  simp only [fifoStep, hF] at hresult hok
  obtain ⟨h1, h2⟩ := IpcResult.received.inj hresult
  exact ⟨_, Prod.ext h1 (Prod.ext h2 rfl), hok⟩

theorem receive_empty {refused : ℕ} (h : IpcOK s B) (hF : B e.toNat = some ⟨[], refused⟩) (out : IpcMessage) :
    ∃ s', ipcReceive s e (some out) = (false, some out, s') ∧ IpcOK s' B := by
  obtain ⟨hresult, hok⟩ := receive_sim h e (some out)
  simp only [fifoStep, hF] at hresult hok
  obtain ⟨h1, h2⟩ := IpcResult.received.inj hresult
  exact ⟨_, Prod.ext h1 (Prod.ext h2 rfl), hok⟩

/-- The bank with the first `n` endpoints open. -/
def openBank (n : ℕ) : FifoBank := fun i => if i < n then some ⟨[], 0⟩ else none

theorem ipcInit_open (s : Ipc) : IpcOK (ipcInit s) (openBank 0) := by
  have hempty : openBank 0 = emptyBank := by
    funext i
    simp [openBank, emptyBank]
  rw [hempty]
  exact ipcInit_ok s

theorem create_open {n : ℕ} (h : IpcOK s (openBank n)) (hn : n < 8) :
    ∃ s', ipcEndpointCreate s = (word n, s') ∧ IpcOK s' (openBank (n + 1)) := by
  have hfind : ((List.range 8).find? fun i => (openBank n i).isNone) = some n := by
    rw [List.find?_range_eq_some]
    refine ⟨by simp [openBank], List.mem_range.2 hn, fun j hj => by simp [openBank, hj]⟩
  have hbank : Function.update (openBank n) n (some ⟨[], 0⟩) = openBank (n + 1) := by
    funext i
    by_cases hi : i = n
    · rw [hi, Function.update_self, openBank, if_pos (by omega)]
    · rw [Function.update_of_ne hi, openBank, openBank]
      exact if_congr (by omega) rfl rfl
  obtain ⟨hresult, hok⟩ := create_sim h
  simp only [fifoStep, hfind, hbank] at hresult hok
  exact ⟨_, Prod.ext (IpcResult.created.inj hresult) rfl, hok⟩

theorem create_none (h : IpcOK s (openBank 8)) :
    ∃ s', ipcEndpointCreate s = (ipcInvalidEndpoint, s') ∧ IpcOK s' (openBank 8) := by
  have hfind : ((List.range 8).find? fun i => (openBank 8 i).isNone) = none := by decide
  obtain ⟨hresult, hok⟩ := create_sim h
  simp only [fifoStep, hfind] at hresult hok
  exact ⟨_, Prod.ext (IpcResult.created.inj hresult) rfl, hok⟩

/-- The first loop opens the endpoints that are left, in order. -/
theorem createEndpoints_ok {n left : ℕ} (h : IpcOK s (openBank n)) (hn : n + left = 8) :
    ∃ s', createEndpoints left ((List.range n).map word) s = (some ((List.range 8).map word), s') ∧
      IpcOK s' (openBank 8) := by
  induction left generalizing n s with
  | zero =>
    obtain rfl : n = 8 := hn
    exact ⟨s, rfl, h⟩
  | succ left ih =>
    obtain ⟨s₁, hcall, h₁⟩ := create_open h (by omega)
    have hvalid : word n ≠ ipcInvalidEndpoint := by
      intro heq
      have hnat := congrArg BitVec.toNat heq
      rw [toNat_word (by omega)] at hnat
      simp at hnat
      omega
    have hnew : ((List.range n).map word).contains (word n) = false := by
      rw [← Bool.not_eq_true, List.contains_iff_mem, List.mem_map]
      rintro ⟨i, hi, heq⟩
      have hi := List.mem_range.1 hi
      have hnat := congrArg BitVec.toNat heq
      rw [toNat_word (by omega), toNat_word (by omega)] at hnat
      omega
    obtain ⟨s', hrest, hok⟩ := ih h₁ (by omega)
    refine ⟨s', ?_, hok⟩
    rw [List.range_succ, List.map_append] at hrest
    simp only [createEndpoints, hcall, hvalid, hnew, decide_false, Bool.or_false, Bool.false_eq_true, if_false]
    exact hrest

/-- Writing back what a bank holds. -/
theorem update_back (hF : B e.toNat = some F) (F' : Option Fifo) :
    Function.update (Function.update B e.toNat F') e.toNat (some F) = B := by
  rw [Function.update_idem, ← hF, Function.update_eq_self]

theorem messageTest_ok (h : IpcOK s B) (hF : B e.toNat = some ⟨[], 0⟩) :
    ∃ s', messageTest e s = (true, s') ∧ IpcOK s' B := by
  obtain ⟨s₁, hsend, h₁⟩ := send_queued (m := prepareMessage 7 9 3 0x20) h hF (by decide) (by decide)
  obtain ⟨s₂, hreceive, h₂⟩ := receive_next h₁ (Function.update_self ..) messageClear
  rw [update_back hF] at h₂
  obtain ⟨s₃, hempty, h₃⟩ := receive_empty h₂ hF (prepareMessage 0x11 0x22 32 0x33)
  obtain ⟨s₄, hlong, h₄⟩ := send_long (m := prepareMessage 1 2 33 0x40) h₃ hF (by decide)
  obtain ⟨s₅, hsend', h₅⟩ := send_queued (m := prepareMessage 3 4 0 0x70) h₄ hF (by decide) (by decide)
  obtain ⟨s₆, hreceive', h₆⟩ := receive_next h₅ (Function.update_self ..) (prepareMessage 0x11 0x22 32 0x33)
  rw [update_back hF] at h₆
  have hrejected : ipcRejectedCount s₄ e = 0 := by
    rw [h₄.rejected, fifoAt_some hF]
    rfl
  refine ⟨s₆, ?_, h₆⟩
  unfold messageTest
  simp only [receiveInto, hsend, hreceive, hempty, hlong, hsend', hreceive', hrejected, Option.getD_some]
  rfl

/-- The messages of the loop that fills a queue. -/
def fillMessage (index : ℕ) : IpcMessage := prepareMessage 5 (word index) 1 (BitVec.ofNat 8 index)

theorem fillQueue_ok {l : List ℕ} (h : IpcOK s B) (hF : B e.toNat = some F)
    (hroom : F.queue.length + l.length ≤ 8) :
    ∃ s', fillQueue e l s = (true, s') ∧
      IpcOK s'
        (Function.update B e.toNat (some { F with queue := F.queue ++ l.map (delivered ∘ fillMessage) })) := by
  induction l generalizing s B F with
  | nil =>
    refine ⟨s, rfl, ?_⟩
    rw [List.map_nil, List.append_nil, ← hF, Function.update_eq_self]
    exact h
  | cons index rest ih =>
    rw [List.length_cons] at hroom
    have hlen : (fillMessage index).length.toNat ≤ 32 := by
      show (1 : U32).toNat ≤ 32
      decide
    obtain ⟨s₁, hsend, h₁⟩ := send_queued h hF hlen (by omega)
    obtain ⟨s', hrest, hok⟩ := ih h₁ (Function.update_self ..) (by simp; omega)
    refine ⟨s', ?_, ?_⟩
    · rw [fillMessage] at hsend
      simp only [fillQueue, hsend, Bool.not_true, Bool.false_eq_true, if_false]
      exact hrest
    · rw [Function.update_idem] at hok
      simpa using hok

theorem payloadTailIsZero_delivered (m : IpcMessage) : payloadTailIsZero (delivered m) m.length.toNat = true := by
  rw [payloadTailIsZero, List.all_eq_true]
  intro index _
  by_cases hlt : index.val < m.length.toNat
  · simp [hlt]
  · simp [delivered, hlt]

theorem drainQueue_ok {l : List ℕ} {refused : ℕ} (h : IpcOK s B)
    (hF : B e.toNat = some ⟨l.map (delivered ∘ fillMessage), refused⟩) :
    ∃ s', drainQueue e l s = (true, s') ∧ IpcOK s' (Function.update B e.toNat (some ⟨[], refused⟩)) := by
  induction l generalizing s B with
  | nil =>
    refine ⟨s, rfl, ?_⟩
    rw [List.map_nil] at hF
    rw [← hF, Function.update_eq_self]
    exact h
  | cons index rest ih =>
    obtain ⟨s₁, hreceive, h₁⟩ := receive_next h hF messageClear
    obtain ⟨s', hrest, hok⟩ := ih h₁ (Function.update_self ..)
    have htail := payloadTailIsZero_delivered (fillMessage index)
    have hfront : (delivered (fillMessage index)).byteAt 0 = BitVec.ofNat 8 index := by
      show BitVec.ofNat 8 index + BitVec.ofNat 8 0 = _
      simp
    have hlength : (fillMessage index).length.toNat = 1 := rfl
    rw [hlength] at htail
    refine ⟨s', ?_, ?_⟩
    · simp only [drainQueue, receiveInto, hreceive, Option.getD_some, Function.comp_apply, hfront, htail]
      simpa [delivered, fillMessage, prepareMessage] using hrest
    · rwa [Function.update_idem] at hok

/-- A bank in which the messages of the loop are waiting. -/
def filledQueue : List IpcMessage := (List.range ipcQueueDepth).map (delivered ∘ fillMessage)

theorem fillTest_ok {first second : U32} (h : IpcOK s B) (hfirst : B first.toNat = some ⟨[], 0⟩)
    (hsecond : B second.toNat = some ⟨[], 0⟩) (hne : second.toNat ≠ first.toNat) :
    ∃ s', fillTest first second s = (true, s') ∧
      IpcOK s' (Function.update B first.toNat (some ⟨filledQueue, 1⟩)) := by
  obtain ⟨s₁, hfill, h₁⟩ := fillQueue_ok (l := List.range ipcQueueDepth) h hfirst (by decide)
  have hlen : filledQueue.length = 8 := by simp [filledQueue]
  rw [List.nil_append, ← filledQueue] at h₁
  have hpending : ipcPending s₁ first = word ipcQueueDepth := by
    rw [h₁.pending, fifoAt_update, hlen]
  obtain ⟨s₂, hfull, h₂⟩ :=
    send_full (m := prepareMessage 5 7 1 7) h₁ (Function.update_self ..) (by decide) (by rw [hlen]; decide)
  simp only [Function.update_idem, Nat.zero_add] at h₂
  have hrejected : ipcRejectedCount s₂ first = 1 := by
    rw [h₂.rejected, fifoAt_update]
    rfl
  have hidle : ipcPending s₂ second = 0 := by
    rw [h₂.pending, fifoAt_some ((Function.update_of_ne hne ..).trans hsecond)]
    rfl
  refine ⟨s₂, ?_, h₂⟩
  simp only [fillTest, hfill, hpending, hfull, hrejected, hidle, ne_eq, not_true, decide_false, decide_true,
    Bool.not_true, Bool.not_false,
    Bool.or_false, Bool.and_true, Bool.false_eq_true, if_false]

theorem lengthTest_ok (h : IpcOK s B) (hF : B e.toNat = some ⟨[], 0⟩) : ∃ s', lengthTest e s = (true, s') := by
  obtain ⟨s₁, hsend, h₁⟩ := send_queued (m := prepareMessage 8 10 32 0x10) h hF (by decide) (by decide)
  obtain ⟨s₂, hreceive, -⟩ := receive_next h₁ (Function.update_self ..) messageClear
  have hlength : (delivered (prepareMessage 8 10 32 0x10)).length = 32 := rfl
  have hpayload : ((List.finRange ipcPayloadMax).all fun index =>
      decide ((delivered (prepareMessage 8 10 32 0x10)).payload index = 0x10 + BitVec.ofNat 8 index)) = true := by
    decide
  refine ⟨s₂, ?_⟩
  simp only [lengthTest, hsend, hreceive, hlength, hpayload, decide_true, Bool.not_true, Bool.and_true,
    Bool.false_eq_true, if_false]

theorem exhaustedTest_ok (h : IpcOK s (openBank 8)) (he : e.toNat < 8) :
    ∃ s', exhaustedTest e s = (true, s') ∧ IpcOK s' (openBank 8) := by
  obtain ⟨s', hnone, h'⟩ := create_none h
  have hpending : ipcPending s' e = 0 := by
    rw [h'.pending, fifoAt_some (if_pos he)]
    rfl
  refine ⟨s', ?_, h'⟩
  simp only [exhaustedTest, hnone, hpending, decide_true, Bool.and_true]

theorem endpointTests_ok (h : IpcOK s (openBank 8)) (flowEndpoint : Option U32) :
    ∃ s', endpointTests flowEndpoint 0 1 s = (true, some 0, s') ∧ IpcOK s' (openBank 1) := by
  have hzero : openBank 8 (0 : U32).toNat = some ⟨[], 0⟩ := rfl
  have hone : openBank 8 (1 : U32).toNat = some ⟨[], 0⟩ := rfl
  have hne : (1 : U32).toNat ≠ (0 : U32).toNat := by decide
  obtain ⟨s₁, hexhausted, h₁⟩ := exhaustedTest_ok (e := 1) h (by decide)
  obtain ⟨s₂, hmessages, h₂⟩ := messageTest_ok h₁ hzero
  obtain ⟨s₃, hfill, h₃⟩ := fillTest_ok h₂ hzero hone hne
  obtain ⟨s₄, hdrain, h₄⟩ := drainQueue_ok (e := 0) h₃ (Function.update_self ..)
  rw [Function.update_idem] at h₄
  obtain ⟨s₅, hlength⟩ := lengthTest_ok (e := 1) h₄ ((Function.update_of_ne hne ..).trans hone)
  obtain ⟨s₆, hflow, h₆⟩ := create_open (ipcInit_open s₅) (by decide)
  have hpending : ipcPending s₆ (word 0) = 0 := by
    rw [h₆.pending, fifoAt_some (show openBank 1 (word 0).toNat = some ⟨[], 0⟩ from rfl)]
    rfl
  have hrejected : ipcRejectedCount s₆ (word 0) = 0 := by
    rw [h₆.rejected, fifoAt_some (show openBank 1 (word 0).toNat = some ⟨[], 0⟩ from rfl)]
    rfl
  have hvalid : word 0 ≠ ipcInvalidEndpoint := by decide
  refine ⟨s₆, ?_, h₆⟩
  rw [endpointTests, runTests_cons hexhausted, runTests_cons hmessages, runTests_cons hfill, runTests_cons hdrain,
    runTests_cons hlength, runTests]
  simp only [hflow, hpending, hrejected, hvalid, ne_eq, not_false_eq_true, decide_true, Bool.and_true]
  rfl

/-- **The endpoint test** passes, and leaves one new endpoint. -/
theorem ipcSelfTest_ok (s : Ipc) (flowEndpoint : U32) :
    ∃ s', ipcSelfTest (some flowEndpoint) s = (true, some 0, s') ∧ IpcOK s' (openBank 1) := by
  obtain ⟨s₁, hcreate, h₁⟩ := createEndpoints_ok (ipcInit_open s) (Nat.zero_add 8)
  obtain ⟨s', htests, h'⟩ := endpointTests_ok h₁ (some flowEndpoint)
  have hlist : (List.range 8).map word = [0, 1, 2, 3, 4, 5, 6, 7] := by decide
  rw [List.range_zero, List.map_nil, hlist] at hcreate
  refine ⟨s', ?_, h'⟩
  rw [ipcSelfTest, Option.isNone_some, if_neg Bool.false_ne_true, hcreate]
  exact htests

end endpoints

/-! ## Heap -/

section heap

variable {arena : Arena} {h : Heap} {bs bs' : List Block} {b : Block}

theorem kheapValidate_ok (hok : HeapOK arena h bs) : kheapValidate arena h = true := by
  rw [kheapValidate, inspectHeap_ok hok, Option.isSome_some]

theorem kmalloc_next (hok : HeapOK arena h bs) (size : U32) (hsize : size ≠ 0) (a : ℕ) (bs' : List Block)
    (halloc : alloc 32 16 (roundUp size.toNat) bs = some (a, bs')) :
    ∃ h', kmalloc arena h size = (word (a + 32), h') ∧ HeapOK arena h' bs' := by
  obtain ⟨m', hcall, hok', -⟩ := kmalloc_some hok hsize halloc
  exact ⟨_, hcall, hok'⟩

/-- A pointer that is freed takes its block from the allocated ones. -/
theorem kfree_next (hok : HeapOK arena h bs) (hb : b ∈ bs) (hfree : b.free = false) :
    ∃ h' bs', kfree arena h (word (b.addr + 32)) = (true, h') ∧ HeapOK arena h' bs' ∧
      ∀ c : Block, c.free = false → (c ∈ bs' ↔ c ∈ bs ∧ c.addr ≠ b.addr) := by
  obtain ⟨m', bs', hcall, hrelease, hok', -⟩ := kfree_true hok hb hfree
  exact ⟨_, bs', hcall, hok', fun c hc => mem_release hrelease hc⟩

/-- A heap without an allocated block is as `kheap_init` leaves it. -/
theorem HeapOK.initial (hok : HeapOK arena h bs) (hnone : ∀ b ∈ bs, ¬b.free = false) :
    HeapOK arena h (initialBlocks arena) := by
  have hall : ∀ b ∈ bs, b.free = true := fun b hb => Bool.not_eq_false _ ▸ hnone b hb
  have hbs : coalesce 32 bs = bs := coalesce_of_coalesced hok.coalesced
  rw [coalesce_all_free hok.cut.tiles hok.ne_nil hall, Nat.add_sub_cancel_left] at hbs
  rw [initialBlocks, hbs]
  exact hok

/-- The pointer of a block in the arena is not null and aligned. -/
theorem payload_aligned (hok : HeapOK arena h bs) (hb : b ∈ bs) :
    word (b.addr + 32) ≠ 0 ∧ word (b.addr + 32) &&& 0x0F = 0 := by
  have hbound := hok.placed.bounds hb
  have haddr := hok.cut.addr_mod rfl arena.aligned hb
  exact ⟨hok.payload_ne_zero hb, (word_aligned (by omega)).2 (by omega)⟩

theorem isValid_ok (hok : HeapOK arena h bs) : isValid arena h = (true, h) := by
  rw [isValid, kheapValidate_ok hok]

theorem refusesFree_ok {pointer : U32} (hcall : kfree arena h pointer = (false, h)) :
    refusesFree arena pointer h = (true, h) := by
  rw [refusesFree, hcall]
  rfl

theorem returnsNull_ok {call : Heap → U32 × Heap} (hcall : call h = (0, h)) : returnsNull call h = (true, h) := by
  rw [returnsNull, hcall]
  rfl

/-- The array of the first part of the test is at the start of the arena, and zero. -/
theorem kcalloc_first (hok : HeapOK arena h (initialBlocks arena)) :
    ∃ h', kcalloc arena h 17 3 = (word (arena.begin.toNat + 32), h') ∧
      HeapOK arena h' [⟨arena.begin.toNat, 64, false⟩, ⟨arena.begin.toNat + 96, 262016, true⟩] ∧
      ∀ i < 51, h'.mem (arena.begin.toNat + 32 + i) = 0 := by
  have hfits := arena.fits
  have hsize : roundUp (17 * 3 : U32).toNat = 64 := by decide
  have halloc : alloc 32 16 (roundUp (17 * 3 : U32).toNat) (initialBlocks arena) =
      some (arena.begin.toNat, [⟨arena.begin.toNat, 64, false⟩, ⟨arena.begin.toNat + 96, 262016, true⟩]) := by
    rw [hsize]
    simp [alloc, carve, initialBlocks]
  obtain ⟨b, m₁, haddr, hmalloc, hout⟩ := kmalloc_handedOut hok (by decide) halloc
  obtain ⟨m₂, hcalloc, hout⟩ :=
    kcalloc_handedOut (show ¬((17 : U32) = 0 ∨ (3 : U32) = 0 ∨ _) by decide) hmalloc hout
  rw [haddr] at hcalloc
  have hpointer : (word (arena.begin.toNat + 32)).toNat = arena.begin.toNat + 32 := toNat_word (by omega)
  refine ⟨_, hcalloc, hout.heap, fun i hi => ?_⟩
  have hne : (kcalloc arena h 17 3).1 ≠ 0 := by
    rw [hcalloc, ne_eq, word_eq_zero (by omega)]
    omega
  have hcleared := (kcalloc_exact hok 17 3).cleared hne i hi
  rw [hcalloc, hpointer] at hcleared
  exact hcleared

/-- The first part of the test leaves no block allocated. -/
theorem heapZeroTest_ok (hok : HeapOK arena h (initialBlocks arena)) {foreign : U32}
    (hforeign : foreign.toNat < arena.begin.toNat ∨ arena.begin.toNat + 262144 ≤ foreign.toNat) :
    ∃ h', heapZeroTest arena foreign h = (true, h') ∧ HeapOK arena h' (initialBlocks arena) := by
  have hfits := arena.fits
  obtain ⟨h₁, hcalloc, hok₁, hzero⟩ := kcalloc_first hok
  obtain ⟨hne, halign⟩ := payload_aligned hok₁ (b := ⟨arena.begin.toNat, 64, false⟩) (by simp)
  generalize arena.begin.toNat = a at *
  -- the payload of the new block is the only pointer that can be freed
  have hrefuse : ∀ pointer : U32, pointer ≠ word (a + 32) → refusesFree arena pointer h₁ = (true, h₁) := by
    intro pointer hp
    apply refusesFree_ok
    apply kfree_false hok₁
    simpa using hp
  have hread :
      ((List.range 51).all fun index => decide (h₁.mem (word (a + 32) + word index).toNat = 0)) = true := by
    rw [List.all_eq_true]
    intro index hindex
    have hlt := List.mem_range.1 hindex
    have hpointer : (word (a + 32) + word index).toNat = a + 32 + index := by bv_omega
    rw [hpointer, hzero index hlt]
    rfl
  obtain ⟨h₂, bs₂, hfree, hok₂, hlive⟩ := kfree_next hok₁ (b := ⟨a, 64, false⟩) (by simp) rfl
  have hnone : ∀ b ∈ bs₂, ¬b.free = false := by
    intro b hb hbfree
    obtain ⟨hmem, haddr⟩ := (hlive b hbfree).1 hb
    rcases List.mem_cons.1 hmem with rfl | hmem
    · exact haddr rfl
    · rw [List.mem_singleton.1 hmem] at hbfree
      exact absurd hbfree (by simp)
  have hagain : kfree arena h₂ (word (a + 32)) = (false, h₂) :=
    kfree_false hok₂ fun b hb hbfree => absurd hbfree (hnone b hb)
  refine ⟨h₂, ?_, hok₂.initial hnone⟩
  rw [heapZeroTest, hcalloc]
  dsimp only
  have hfirst : (decide (word (a + 32) ≠ 0) && decide (word (a + 32) &&& 0x0F = 0)) = true := by
    rw [decide_eq_true hne, decide_eq_true halign]
    rfl
  rw [runTests_cons (by rw [hfirst]), runTests_cons (hrefuse 0 (Ne.symm hne)),
    runTests_cons (hrefuse foreign (by bv_omega)), runTests_cons (hrefuse _ (by bv_omega)),
    runTests_cons (by rw [hread]), runTests_cons hfree, runTests_cons (refusesFree_ok hagain),
    runTests_cons (isValid_ok hok₂), runTests]

theorem kheapGetStats_ok (hok : HeapOK arena h bs) (stats : HeapStats) :
    kheapGetStats arena h (some stats) = (true, some (blockStats bs)) := by
  simp only [kheapGetStats, inspectHeap_ok hok]

theorem statsMatch_ok (hok : HeapOK arena h bs) : statsMatch arena (blockStats bs) h = (true, h) := by
  simp [statsMatch, kheapGetStats_ok hok, heapStatsMatch]

/-- The second part frees what it has allocated in another order, and finds the statistics of its start. -/
theorem heapCoalesceTest_ok (hok : HeapOK arena h (initialBlocks arena)) :
    ∃ h', heapCoalesceTest arena (blockStats (initialBlocks arena)) h = (true, h') ∧
      HeapOK arena h' (initialBlocks arena) := by
  set a := arena.begin.toNat with ha
  let first : Block := ⟨a, 64, false⟩
  let middle : Block := ⟨a + 96, 96, false⟩
  let last : Block := ⟨a + 224, 128, false⟩
  obtain ⟨h₁, hmalloc₁, hok₁⟩ := kmalloc_next hok 64 (by decide) a [first, ⟨a + 96, 262016, true⟩]
    (by simp [alloc, carve, initialBlocks, roundUp, first, ha])
  obtain ⟨h₂, hmalloc₂, hok₂⟩ :=
    kmalloc_next hok₁ 96 (by decide) (a + 96) [first, middle, ⟨a + 224, 261888, true⟩]
    (by simp [alloc, carve, roundUp, first, middle])
  obtain ⟨h₃, hmalloc₃, hok₃⟩ := kmalloc_next hok₂ 128 (by decide) (a + 224)
    [first, middle, last, ⟨a + 384, 261728, true⟩] (by simp [alloc, carve, roundUp, first, middle, last])
  obtain ⟨hne₁, halign₁⟩ := payload_aligned hok₃ (b := first) (by simp)
  obtain ⟨hne₂, halign₂⟩ := payload_aligned hok₃ (b := middle) (by simp)
  obtain ⟨hne₃, halign₃⟩ := payload_aligned hok₃ (b := last) (by simp)
  -- each free takes its own block only, so the next one is still there
  obtain ⟨h₄, bs₄, hfree₄, hok₄, hlive₄⟩ := kfree_next hok₃ (b := middle) (by simp) rfl
  have hfirst₄ : first ∈ bs₄ := (hlive₄ first rfl).2 ⟨by simp, by simp [first, middle]⟩
  obtain ⟨h₅, bs₅, hfree₅, hok₅, hlive₅⟩ := kfree_next hok₄ hfirst₄ rfl
  have hlast₅ : last ∈ bs₅ :=
    (hlive₅ last rfl).2 ⟨(hlive₄ last rfl).2 ⟨by simp, by simp [last, middle]⟩, by simp [last, first]⟩
  obtain ⟨h₆, bs₆, hfree₆, hok₆, hlive₆⟩ := kfree_next hok₅ hlast₅ rfl
  have hnone : ∀ b ∈ bs₆, ¬b.free = false := by
    intro b hb hbfree
    obtain ⟨hb, hne⟩ := (hlive₆ b hbfree).1 hb
    obtain ⟨hb, hne'⟩ := (hlive₅ b hbfree).1 hb
    obtain ⟨hb, hne''⟩ := (hlive₄ b hbfree).1 hb
    simp only [List.mem_cons, List.not_mem_nil, or_false] at hb
    rcases hb with rfl | rfl | rfl | rfl
    · exact hne' rfl
    · exact hne'' rfl
    · exact hne rfl
    · exact absurd hbfree (by simp)
  have hok₆' := hok₆.initial hnone
  have hcheck : (decide (word (first.addr + 32) ≠ 0) && decide (word (middle.addr + 32) ≠ 0) &&
      decide (word (last.addr + 32) ≠ 0) && decide (word (first.addr + 32) &&& 0x0F = 0) &&
      decide (word (middle.addr + 32) &&& 0x0F = 0) && decide (word (last.addr + 32) &&& 0x0F = 0)) = true := by
    simp only [Bool.and_eq_true, decide_eq_true_eq]
    exact ⟨⟨⟨⟨⟨hne₁, hne₂⟩, hne₃⟩, halign₁⟩, halign₂⟩, halign₃⟩
  refine ⟨h₆, ?_, hok₆'⟩
  rw [heapCoalesceTest, hmalloc₁]
  dsimp only
  rw [hmalloc₂]
  dsimp only
  rw [hmalloc₃]
  dsimp only
  rw [runTests_cons (by exact Prod.ext hcheck (Eq.refl h₃)), runTests_cons hfree₄,
    runTests_cons (isValid_ok hok₄), runTests_cons hfree₅, runTests_cons (isValid_ok hok₅), runTests_cons hfree₆,
    runTests_cons (isValid_ok hok₆), runTests_cons (statsMatch_ok hok₆'), runTests]

/-- **The heap test** passes, and leaves one free block. -/
theorem heapSelfTest_ok (h : Heap) {foreign : U32}
    (hforeign : foreign.toNat < arena.begin.toNat ∨ arena.begin.toNat + 262144 ≤ foreign.toNat) :
    ∃ h', heapSelfTest arena foreign h = (true, h') ∧ HeapOK arena h' (initialBlocks arena) := by
  obtain ⟨hinit, hok⟩ := kheapInit_ok arena h
  generalize hstart : kheapInit arena h = start at hinit hok
  obtain ⟨initialised, h₀⟩ := start
  obtain rfl : initialised = true := hinit
  dsimp only at hok
  have hstats : blockStats (initialBlocks arena) = ⟨totalCapacity, totalCapacity, totalCapacity, 0⟩ := by
    have hget := hok.initialHeap.stats ⟨0, 0, 0, 0⟩
    rw [kheapGetStats_ok hok] at hget
    exact Option.some.inj (Prod.mk.inj hget).2
  have hnull : kmalloc arena h₀ 0 = (0, h₀) := kmalloc_none hok (Or.inl rfl)
  have hnone : kcalloc arena h₀ 0 16 = (0, h₀) := kcalloc_none (Or.inl (by decide))
  have hhuge : kcalloc arena h₀ 0xFFFFFFFF 2 = (0, h₀) := kcalloc_none (Or.inl (by decide))
  obtain ⟨h₁, hzero, hok₁⟩ := heapZeroTest_ok hok hforeign
  obtain ⟨h₂, hcoalesce, hok₂⟩ := heapCoalesceTest_ok hok₁
  have hget := kheapGetStats_ok hok ⟨0, 0, 0, 0⟩
  rw [hstats] at hget hcoalesce
  refine ⟨h₂, ?_, hok₂⟩
  rw [heapSelfTest, hstart]
  dsimp only
  rw [kheapValidate_ok hok, hget, if_neg (by decide)]
  dsimp only
  rw [if_neg (by decide), runTests_cons (by exact returnsNull_ok hnull),
    runTests_cons (by exact returnsNull_ok hnone),
    runTests_cons (by exact returnsNull_ok hhuge), runTests_cons hzero, runTests_cons hcoalesce, runTests]

end heap

/-! ## Paging -/

section paging

variable {k : KernelImage} {s : KernelState} {M : PageMap}

/-- A store to a mapped page that is off the kernel. -/
theorem store_mapped (hok : VmmOK k.layout s.vmm M) {address value : U32} {t : Translation}
    (ht : mapTranslate M address = some t) (hw : t.writable = true)
    (hoff : ¬(k.kernelStart.toNat ≤ t.physicalAddress.toNat ∧ t.physicalAddress.toNat < k.kernelEnd.toNat)) :
    s.store k address value =
      some { s with heap := { s.heap with mem := store32 s.heap.mem t.physicalAddress.toNat value } } := by
  have hcheck :
      (!t.writable || decide (k.kernelStart ≤ t.physicalAddress) && decide (t.physicalAddress < k.kernelEnd)) =
      false := by
    rw [hw, Bool.not_true, Bool.false_or, ← Bool.not_eq_true, Bool.and_eq_true, decide_eq_true_eq,
      decide_eq_true_eq]
    exact hoff
  rw [KernelState.store, hardwareWalk_eq hok, ht]
  simp only [Option.bind_eq_bind, Option.bind_some, hcheck, Bool.false_eq_true, if_false]

/-- A load from a mapped page that is off the kernel, and so off the page tables. -/
theorem load_mapped (hok : VmmOK k.layout s.vmm M) {address : U32} {t : Translation}
    (ht : mapTranslate M address = some t)
    (hoff : ¬(k.kernelStart.toNat ≤ t.physicalAddress.toNat ∧ t.physicalAddress.toNat < k.kernelEnd.toNat)) :
    s.load k address = some (load32 s.heap.mem t.physicalAddress.toNat) := by
  have htable : ((List.range pageTableCount).find? fun n =>
      decide (k.layout.address n = t.physicalAddress &&& pageAddressMask)) = none := by
    rw [List.find?_eq_none]
    intro n hn heq
    have hinside := k.tablesInside n (List.mem_range.1 hn)
    have hnat := congrArg BitVec.toNat (of_decide_eq_true heq)
    rw [toNat_page] at hnat
    omega
  rw [KernelState.load, hardwareWalk_eq hok, ht]
  simp only [Option.bind_eq_bind, Option.bind_some, physicalWord, htable]
  rfl

theorem mapTranslate_identity {address : U32} (hnone : M (address &&& pageAddressMask) = none)
    (hlow : 4096 ≤ address.toNat) (hlimit : address.toNat < 0x08000000) :
    mapTranslate M address = some ⟨address, true, false⟩ := by
  simp only [mapTranslate, hnone, if_pos (And.intro hlow hlimit)]

/-- The page that the test maps. -/
def testMap (physicalAddress : U32) : PageMap :=
  Function.update emptyMap vmmTestAddress (some ⟨physicalAddress, vmmWritable⟩)

theorem testMap_allowed {physicalAddress : U32} (halign : physicalAddress.toNat % 4096 = 0) :
    MapAllowed emptyMap vmmTestAddress physicalAddress vmmWritable := by
  have hempty : regions emptyMap = ∅ := by
    ext r
    simp [regions, emptyMap]
  refine ⟨by decide, by decide, halign, by decide, rfl, Or.inr ?_⟩
  rw [hempty, Set.ncard_empty]
  decide

theorem testMap_unmapped (physicalAddress : U32) :
    Function.update (testMap physicalAddress) vmmTestAddress none = emptyMap := by
  rw [testMap, Function.update_idem]
  exact Function.update_eq_self vmmTestAddress emptyMap

theorem testMap_translate (physicalAddress : U32) {offset : U32} (h : offset.toNat < 4096) :
    mapTranslate (testMap physicalAddress) (vmmTestAddress + offset) =
      some ⟨physicalAddress + offset, true, false⟩ := by
  have hnat : (vmmTestAddress + offset).toNat = 0xD0000000 + offset.toNat := by
    rw [BitVec.toNat_add]
    show (0xD0000000 + offset.toNat) % 2 ^ 32 = _
    omega
  have hpage : (vmmTestAddress + offset) &&& pageAddressMask = vmmTestAddress := by
    apply BitVec.eq_of_toNat_eq
    rw [toNat_page, hnat]
    show _ = 0xD0000000
    omega
  have hoffset : (vmmTestAddress + offset) &&& pageOffsetMask = offset := by
    apply BitVec.eq_of_toNat_eq
    rw [toNat_offset, hnat]
    omega
  have hwritable : decide (vmmWritable &&& vmmWritable ≠ 0) = true := by decide
  have huser : decide (vmmWritable &&& vmmUser ≠ 0) = false := by decide
  simp only [mapTranslate, hpage, hoffset, testMap, Function.update_self, hwritable, huser]

/-- **The paging test** passes where the lowest free page is below 128 MiB and off the kernel. It
leaves nothing mapped but the identity, and the pages as they were. -/
theorem vmmSelfTest_passes (hvmm : s.vmm.enabled = false) (hs : PmmOK s.pmm) {page : U32}
    (hpage : LowestFree s.pmm page) (hlimit : (page <<< pmmPageShift).toNat < 0x08000000)
    (hoff : ¬(k.kernelStart.toNat ≤ (page <<< pmmPageShift).toNat ∧
      (page <<< pmmPageShift).toNat < k.kernelEnd.toNat)) :
    ∃ vmm m, vmmSelfTest k s =
        some (true, { s with
          pmm := { s.pmm with ownershipFrozen := true }, vmm := vmm, heap := { s.heap with mem := m } }) ∧
      VmmOK k.layout vmm emptyMap := by
  have hman := hpage.managed
  have hne := pageAddress_ne_zero hs hpage.lt hman
  have haddr := toNat_pageAddress hpage.lt
  have hfree := free_allocated (afterAlloc_ok hs hpage.lt hpage.free) hpage.lt (by simpa using hman) (by simp)
  rw [afterFree_afterAlloc hpage.free] at hfree
  have hcount : pmmFreePageCount (afterAlloc s.pmm page) = pmmFreePageCount s.pmm - 1 := rfl
  have halloc := alloc_lowestFree hs hpage
  generalize page <<< pmmPageShift = a at *
  have hlow : ¬a ≥ vmmIdentityLimit := by
    rw [ge_iff_le, BitVec.not_le]
    exact hlimit
  obtain ⟨hinit, hok₁⟩ := vmmInit_ok k.layout hvmm
  generalize hstart : vmmInit k.layout s.vmm = start at hinit hok₁
  obtain ⟨initialised, v₁⟩ := start
  obtain rfl : initialised = true := hinit
  obtain ⟨hmap, hok₂⟩ := vmmMapPage_true hok₁ (testMap_allowed (show a.toNat % 4096 = 0 by omega))
  generalize hmapped : vmmMapPage k.layout v₁ vmmTestAddress a vmmWritable = result at hmap hok₂
  obtain ⟨mapped, v₂⟩ := result
  obtain rfl : mapped = true := hmap
  dsimp only at hok₁ hok₂
  rw [← testMap] at hok₂
  -- the page is written under its new address and read under its own
  have hvirtual := testMap_translate a (show (0#32).toNat < 4096 by decide)
  have hoffset := testMap_translate a (show (3 : U32).toNat < 4096 by decide)
  rw [BitVec.add_zero, BitVec.add_zero] at hvirtual
  have hown : testMap a (a &&& pageAddressMask) = none := by
    have hne' : a &&& pageAddressMask ≠ vmmTestAddress := by
      intro heq
      have hnat := congrArg BitVec.toNat heq
      rw [toNat_page] at hnat
      have htest : (vmmTestAddress : U32).toNat = 0xD0000000 := rfl
      omega
    rw [testMap, Function.update_of_ne hne']
    rfl
  have hpos : a.toNat ≠ 0 := fun hz => hne (BitVec.eq_of_toNat_eq hz)
  have hidentity := mapTranslate_identity hown (by omega) hlimit
  obtain ⟨v₃, hunmap, hok₃⟩ :=
    vmmUnmapPage_true hok₂ (show testMap a vmmTestAddress = some ⟨a, vmmWritable⟩ from rfl) 0
  rw [testMap_unmapped] at hok₃
  have hgone : mapTranslate emptyMap vmmTestAddress = none := rfl
  have htranslate := vmmTranslate_eq hok₂ (vmmTestAddress + 3) 0xA5A5A5A5
  rw [hoffset] at htranslate
  have htranslate' := vmmTranslate_eq hok₃ vmmTestAddress 0xA5A5A5A5
  rw [hgone] at htranslate'
  have hen : vmmIsEnabled v₁ = true := hok₁.enabled
  let s₂ : KernelState := { s with pmm := afterAlloc s.pmm page, vmm := v₂ }
  let s₃ : KernelState := { s₂ with heap := { s.heap with mem := store32 s.heap.mem a.toNat vmmTestSentinel } }
  have hstore : s₂.store k vmmTestAddress vmmTestSentinel = some s₃ :=
    store_mapped (s := s₂) hok₂ hvirtual rfl hoff
  have hload : s₃.load k a = some vmmTestSentinel := by
    rw [load_mapped (s := s₃) hok₂ hidentity hoff]
    exact congrArg some (load32_store32 _ _ _)
  have hback : pmmFreePageCount { s.pmm with ownershipFrozen := true } = pmmFreePageCount s.pmm := rfl
  refine ⟨v₃, store32 s.heap.mem a.toNat vmmTestSentinel, ?_, hok₃⟩
  unfold vmmSelfTest
  simp only [hstart, hen, halloc, hne, hlow, hcount, hmapped, ne_eq, not_true, decide_false,
    Bool.not_true, Bool.or_false, Bool.false_eq_true, if_false]
  rw [show KernelState.store k _ vmmTestAddress vmmTestSentinel = some s₃ from hstore]
  have hvmm₃ : s₃.vmm = v₂ := rfl
  have hpmm₃ : s₃.pmm = afterAlloc s.pmm page := rfl
  simp only [Option.bind_eq_bind, Option.bind_some, hload, hvmm₃, hpmm₃, htranslate, hunmap, htranslate',
    hfree, hback, not_true, decide_false, Bool.not_true, Bool.or_false, Bool.false_eq_true, if_false]
  rfl

/-- It fails where there is none. -/
theorem vmmSelfTest_fails (hvmm : s.vmm.enabled = false) (hs : PmmOK s.pmm) {page : U32}
    (hpage : LowestFree s.pmm page) (hlimit : 0x08000000 ≤ (page <<< pmmPageShift).toNat) :
    ∃ s', vmmSelfTest k s = some (false, s') ∧ s'.shell = s.shell := by
  obtain ⟨hinit, hok₁⟩ := vmmInit_ok k.layout hvmm
  generalize hstart : vmmInit k.layout s.vmm = start at hinit hok₁
  obtain ⟨initialised, v₁⟩ := start
  obtain rfl : initialised = true := hinit
  dsimp only at hok₁
  have hen : vmmIsEnabled v₁ = true := hok₁.enabled
  have hhigh : page <<< pmmPageShift ≥ vmmIdentityLimit := hlimit
  refine ⟨{ s with pmm := afterAlloc s.pmm page, vmm := v₁ }, ?_, rfl⟩
  unfold vmmSelfTest
  simp only [hstart, hen, alloc_lowestFree hs hpage, hhigh, decide_true, Bool.not_true, Bool.or_true,
    Bool.true_or, Bool.or_false,
    Bool.false_eq_true, if_false, if_true]

end paging

end TinyShell
