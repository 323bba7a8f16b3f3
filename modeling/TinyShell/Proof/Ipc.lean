import TinyShell.Machine.Ring
import TinyShell.Machine.Run
import TinyShell.Spec.Ipc

/-!
# Endpoints are independent bounded queues

The abstract model is a bank of queues: a created endpoint has a list of messages and
a count of refused sends. The rings of the code simulate it for ever, the wrap of the
sequence numbers included.

* `ipcStep_sim`, `ipcRun_sim`: every call, and every run, answers as the bank does.
* `ledger_ok`: what a history accepted is what it received and what is still queued.
* `ipc_endpoint_fifo`: the behaviour of each endpoint after any run.
-/

namespace TinyShell

open Machine

/-! ## The abstract model -/

/-- A created endpoint: the queued messages, oldest first, and the refused sends. -/
structure Fifo where
  queue : List IpcMessage
  refused : ℕ

abbrev FifoBank := ℕ → Option Fifo

def emptyBank : FifoBank := fun _ => none

/-- A message as it is delivered: the payload behind its length is zero. -/
def delivered (m : IpcMessage) : IpcMessage :=
  { m with payload := fun index => if index.val < m.length.toNat then m.payload index else 0 }

/-- One call of the abstract model. -/
def fifoStep (B : FifoBank) : IpcCall → IpcResult × FifoBank
  | .create =>
    match (List.range 8).find? fun i => (B i).isNone with
    | none => (.created ipcInvalidEndpoint, B)
    | some i => (.created (word i), Function.update B i (some ⟨[], 0⟩))
  | .send e message =>
    match B e.toNat, message with
    | some F, some m =>
      if m.length.toNat > 32 then (.sent false, B)
      else if F.queue.length < 8 then
        (.sent true, Function.update B e.toNat (some { F with queue := F.queue ++ [delivered m] }))
      else (.sent false, Function.update B e.toNat (some { F with refused := F.refused + 1 }))
    | _, _ => (.sent false, B)
  | .receive e message =>
    match B e.toNat, message with
    | some ⟨m :: q, refused⟩, some _ =>
      (.received true (some m), Function.update B e.toNat (some ⟨q, refused⟩))
    | _, message => (.received false message, B)

/-! ## The rings simulate the queues -/

variable {s : Ipc} {B : FifoBank}

theorem ipcCapacity : Capacity 8 32 := ⟨by decide, ⟨2 ^ 29, by norm_num⟩, by norm_num⟩

/-- An endpoint represents a queue, or it is not allocated. -/
def EndpointOK (state : IpcEndpointState) : Option Fifo → Prop
  | none => state.allocated = false
  | some F => state.allocated = true ∧ Holds 8 state.queue state.readSequence state.writeSequence F.queue ∧
      state.rejectedMessages = word F.refused

structure IpcOK (s : Ipc) (B : FifoBank) : Prop where
  endpoint : ∀ i < 8, EndpointOK (s i) (B i)
  outside : ∀ i, 8 ≤ i → B i = none

theorem EndpointOK.allocated {state : IpcEndpointState} {F : Option Fifo} (h : EndpointOK state F) :
    state.allocated = F.isSome := by
  cases F with
  | none => exact h
  | some F => exact h.1

theorem IpcOK.valid (h : IpcOK s B) (e : U32) : endpointIsValid s e = (B e.toNat).isSome := by
  unfold endpointIsValid
  by_cases he : e.toNat < 8
  · rw [decide_eq_true he, Bool.true_and, (h.endpoint _ he).allocated]
  · rw [decide_eq_false he, Bool.false_and, h.outside _ (by omega)]
    rfl

theorem IpcOK.lt (h : IpcOK s B) {i : ℕ} {F : Fifo} (hF : B i = some F) : i < 8 := by
  by_contra hge
  rw [h.outside i (by omega)] at hF
  simp at hF

/-- The ring of a created endpoint holds its queue. -/
theorem IpcOK.ring (h : IpcOK s B) {i : ℕ} {F : Fifo} (hF : B i = some F) : EndpointOK (s i) (some F) := by
  have hstate := h.endpoint i (h.lt hF)
  rwa [hF] at hstate

/-- A change to one endpoint keeps the others. -/
theorem IpcOK.update (h : IpcOK s B) {i : ℕ} (hi : i < 8) {state : IpcEndpointState} {F : Fifo}
    (hstate : EndpointOK state (some F)) :
    IpcOK (Function.update s i state) (Function.update B i (some F)) where
  endpoint := by
    intro j hj
    by_cases hji : j = i
    · rw [hji, Function.update_self, Function.update_self]
      exact hstate
    · rw [Function.update_of_ne hji, Function.update_of_ne hji]
      exact h.endpoint j hj
  outside := by
    intro j hj
    rw [Function.update_of_ne (by omega)]
    exact h.outside j hj

theorem ipcInit_ok (s₀ : Ipc) : IpcOK (ipcInit s₀) emptyBank where
  endpoint := by
    intro i hi
    have hcell : ipcInit s₀ i = _ := fill_of_mem (Nat.zero_le _) hi
    rw [hcell]
    rfl
  outside _ _ := rfl

theorem free_endpoint_eq (h : IpcOK s B) :
    ((List.range ipcMaxEndpoints).find? fun endpoint => !(s endpoint).allocated) =
      (List.range 8).find? fun i => (B i).isNone := by
  refine List.find?_congr ?_
  intro i hi
  rw [(h.endpoint i (List.mem_range.1 hi)).allocated, Option.not_isSome]

/-- `ipc_endpoint_create` opens an empty queue. -/
theorem create_sim (h : IpcOK s B) : (ipcStep s .create).1 = (fifoStep B .create).1 ∧
    IpcOK (ipcStep s .create).2 (fifoStep B .create).2 := by
  simp only [ipcStep, fifoStep, ipcEndpointCreate, free_endpoint_eq h]
  cases hfind : (List.range 8).find? fun i => (B i).isNone with
  | none => exact ⟨rfl, h⟩
  | some i =>
    have hi : i < 8 := List.mem_range.1 (List.mem_of_find?_eq_some hfind)
    exact ⟨rfl, h.update hi ⟨rfl, Holds.nil .., rfl⟩⟩

/-- `ipc_send` appends the delivered message, or counts a refusal. -/
theorem send_sim (h : IpcOK s B) (e : U32) (message : Option IpcMessage) :
    (ipcStep s (.send e message)).1 = (fifoStep B (.send e message)).1 ∧
      IpcOK (ipcStep s (.send e message)).2 (fifoStep B (.send e message)).2 := by
  cases hF : B e.toNat with
  | none =>
    simp only [ipcStep, fifoStep, ipcSend, h.valid, hF]
    exact ⟨rfl, h⟩
  | some F =>
    have hlt := h.lt hF
    obtain ⟨halloc, hring, hcount⟩ := h.ring hF
    cases message with
    | none =>
      simp only [ipcStep, fifoStep, ipcSend, h.valid, hF]
      exact ⟨rfl, h⟩
    | some m =>
      simp only [ipcStep, fifoStep, ipcSend, h.valid, hF, Option.isSome_some, Bool.not_true,
        Bool.false_eq_true, if_false]
      by_cases hlong : m.length.toNat > 32
      · simp only [if_pos hlong]
        exact ⟨trivial, h⟩
      simp only [if_neg hlong]
      -- the test on the sequence numbers is the test on the length of the queue
      by_cases hroom : F.queue.length < 8
      · have hfull : ¬((s e.toNat).writeSequence - (s e.toNat).readSequence).toNat ≥ 8 := by
          rw [ge_iff_le, hring.full_iff]
          omega
        simp only [if_neg hfull, if_pos hroom]
        exact ⟨trivial, h.update hlt ⟨halloc, hring.push ipcCapacity hroom _, hcount⟩⟩
      · have hfull : ((s e.toNat).writeSequence - (s e.toNat).readSequence).toNat ≥ 8 := by
          have := hring.bound
          rw [ge_iff_le, hring.full_iff]
          omega
        simp only [if_pos hfull, if_neg hroom]
        refine ⟨trivial, h.update hlt ⟨halloc, hring, ?_⟩⟩
        simp only
        rw [hcount, word_succ]

/-- `ipc_receive` takes the oldest message. -/
theorem receive_sim (h : IpcOK s B) (e : U32) (message : Option IpcMessage) :
    (ipcStep s (.receive e message)).1 = (fifoStep B (.receive e message)).1 ∧
      IpcOK (ipcStep s (.receive e message)).2 (fifoStep B (.receive e message)).2 := by
  cases hF : B e.toNat with
  | none =>
    simp only [ipcStep, fifoStep, ipcReceive, h.valid, hF]
    exact ⟨rfl, h⟩
  | some F =>
    have hlt := h.lt hF
    obtain ⟨halloc, hring, hcount⟩ := h.ring hF
    obtain ⟨q, refused⟩ := F
    cases message with
    | none =>
      simp only [ipcStep, fifoStep, ipcReceive, h.valid, hF]
      exact ⟨by simp, by simpa using h⟩
    | some out =>
      simp only [ipcStep, fifoStep, ipcReceive, h.valid, hF, Option.isSome_some, Option.isNone_some,
        Bool.not_true, Bool.or_false, Bool.false_eq_true, if_false]
      cases q with
      | nil =>
        have hempty := hring.empty_iff.2 rfl
        simp only [if_pos hempty]
        exact ⟨trivial, h⟩
      | cons m q =>
        have hsome : ¬(s e.toNat).readSequence = (s e.toNat).writeSequence := by
          rw [hring.empty_iff]
          simp
        simp only [if_neg hsome]
        refine ⟨?_, h.update hlt ⟨halloc, hring.pop ipcCapacity, hcount⟩⟩
        rw [hring.front]

/-- **Step lemma**: every call answers as the bank of queues does. -/
theorem ipcStep_sim (h : IpcOK s B) (c : IpcCall) :
    (ipcStep s c).1 = (fifoStep B c).1 ∧ IpcOK (ipcStep s c).2 (fifoStep B c).2 := by
  cases c with
  | create => exact create_sim h
  | send e message => exact send_sim h e message
  | receive e message => exact receive_sim h e message

/-- **Run lemma**: so do whole runs, however long. -/
theorem ipcRun_sim (s₀ : Ipc) (cs : List IpcCall) :
    trace ipcStep (ipcInit s₀) cs = trace fifoStep emptyBank cs ∧
      IpcOK (exec ipcStep (ipcInit s₀) cs) (exec fifoStep emptyBank cs) :=
  trace_sim (R := IpcOK) (fun _ _ c h => ipcStep_sim h c) (ipcInit_ok s₀) cs

/-! ## Histories -/

/-- What a history says of one endpoint: whether it was created, the messages it
accepted, as they are to be delivered, those it gave back, and the valid sends to it
that were refused. -/
structure Ledger where
  created : Bool
  accepted : List IpcMessage
  received : List IpcMessage
  refused : ℕ

/-- One answered call, entered in the ledger of endpoint `e`. -/
def record (e : U32) (L : Ledger) : IpcCall × IpcResult → Ledger
  | (.create, .created e') =>
    if e' = e ∧ e' ≠ ipcInvalidEndpoint then { L with created := true } else L
  | (.send e' (some m), .sent true) =>
    if e' = e then { L with accepted := L.accepted ++ [delivered m] } else L
  | (.send e' (some m), .sent false) =>
    if e' = e ∧ L.created = true ∧ m.length.toNat ≤ 32 then { L with refused := L.refused + 1 } else L
  | (.receive e' _, .received true (some m)) =>
    if e' = e then { L with received := L.received ++ [m] } else L
  | _ => L

def ledger (e : U32) (history : List (IpcCall × IpcResult)) : Ledger :=
  history.foldl (record e) ⟨false, [], [], 0⟩

/-- The queue of an endpoint; that of an endpoint not created yet is empty. -/
def fifoAt (B : FifoBank) (e : U32) : Fifo := (B e.toNat).getD ⟨[], 0⟩

/-- The ledger of an endpoint agrees with its queue. -/
structure LedgerOK (e : U32) (L : Ledger) (B : FifoBank) : Prop where
  created : L.created = (B e.toNat).isSome
  balance : L.accepted = L.received ++ (fifoAt B e).queue
  refused : L.refused = (fifoAt B e).refused

variable {e : U32} {L : Ledger}

theorem fifoAt_none (hF : B e.toNat = none) : fifoAt B e = ⟨[], 0⟩ := by
  rw [fifoAt, hF]
  rfl

theorem fifoAt_some {F : Fifo} (hF : B e.toNat = some F) : fifoAt B e = F := by
  rw [fifoAt, hF]
  rfl

theorem fifoAt_update (F : Fifo) : fifoAt (Function.update B e.toNat (some F)) e = F :=
  fifoAt_some (Function.update_self ..)

/-- A ledger is left alone by what happens at other endpoints. -/
theorem LedgerOK.update_of_ne (h : LedgerOK e L B) {i : ℕ} (hi : i ≠ e.toNat) (F : Option Fifo) :
    LedgerOK e L (Function.update B i F) := by
  have hsame : Function.update B i F e.toNat = B e.toNat := Function.update_of_ne hi.symm _ _
  have hfifo : fifoAt (Function.update B i F) e = fifoAt B e := by rw [fifoAt, hsame, fifoAt]
  exact ⟨by rw [hsame, h.created], by rw [hfifo, h.balance], by rw [hfifo, h.refused]⟩

theorem toNat_ne {e e' : U32} (h : e' ≠ e) : e'.toNat ≠ e.toNat := fun heq => h (BitVec.eq_of_toNat_eq heq)

theorem record_create (h : LedgerOK e L B) :
    LedgerOK e (record e L (.create, (fifoStep B .create).1)) (fifoStep B .create).2 := by
  simp only [fifoStep]
  cases hfind : (List.range 8).find? fun i => (B i).isNone with
  | none =>
    simp only [record, ne_eq, not_true, and_false, if_false]
    exact h
  | some i =>
    have hi : i < 8 := List.mem_range.1 (List.mem_of_find?_eq_some hfind)
    have hnone := List.find?_some hfind
    have hfree : B i = none := Option.isNone_iff_eq_none.1 hnone
    have hword : (word i).toNat = i := toNat_word (by omega)
    have hvalid : word i ≠ ipcInvalidEndpoint := by
      intro heq
      have := congrArg BitVec.toNat heq
      rw [hword] at this
      simp at this
      omega
    simp only [record]
    by_cases hie : word i = e
    · -- the endpoint had nothing yet, and starts with an empty queue
      obtain rfl : i = e.toNat := by rw [← hie, hword]
      have hempty := fifoAt_none hfree
      rw [if_pos ⟨hie, hvalid⟩]
      refine ⟨by simp, ?_, ?_⟩
      · rw [fifoAt_update, h.balance, hempty]
      · rw [fifoAt_update, h.refused, hempty]
    · rw [if_neg (fun hand => hie hand.1)]
      refine h.update_of_ne ?_ _
      intro heq
      exact hie (BitVec.eq_of_toNat_eq (hword.trans heq))

theorem record_send (h : LedgerOK e L B) (e' : U32) (message : Option IpcMessage) :
    LedgerOK e (record e L (.send e' message, (fifoStep B (.send e' message)).1))
      (fifoStep B (.send e' message)).2 := by
  cases message with
  | none =>
    have hstep : fifoStep B (.send e' none) = (.sent false, B) := by
      cases hF : B e'.toNat <;> simp only [fifoStep, hF]
    rw [hstep]
    exact h
  | some m =>
    cases hF : B e'.toNat with
    | none =>
      simp only [fifoStep, hF, record]
      -- a send to an endpoint that was never created is not a refusal
      rw [if_neg]
      · exact h
      · rintro ⟨rfl, hcreated, -⟩
        rw [h.created, hF] at hcreated
        simp at hcreated
    | some F =>
      simp only [fifoStep, hF]
      by_cases hlong : m.length.toNat > 32
      · -- nor is a message that is too long
        simp only [if_pos hlong, record]
        rw [if_neg (by omega)]
        exact h
      simp only [if_neg hlong]
      by_cases hee : e' = e
      · subst hee
        have hL : L.created = true := by rw [h.created, hF]; rfl
        have hq := fifoAt_some hF
        by_cases hroom : F.queue.length < 8
        · simp only [if_pos hroom, record, if_true]
          refine ⟨by simp [hL], ?_, ?_⟩
          · rw [fifoAt_update, h.balance, hq, List.append_assoc]
          · rw [fifoAt_update, h.refused, hq]
        · simp only [if_neg hroom, record]
          rw [if_pos ⟨trivial, hL, by omega⟩]
          refine ⟨by simp [hL], ?_, ?_⟩
          · rw [fifoAt_update, h.balance, hq]
          · rw [fifoAt_update, h.refused, hq]
      · by_cases hroom : F.queue.length < 8
        · simp only [if_pos hroom, record, if_neg hee]
          exact h.update_of_ne (toNat_ne hee) _
        · simp only [if_neg hroom, record]
          rw [if_neg (fun hand => hee hand.1)]
          exact h.update_of_ne (toNat_ne hee) _

theorem record_receive (h : LedgerOK e L B) (e' : U32) (message : Option IpcMessage) :
    LedgerOK e (record e L (.receive e' message, (fifoStep B (.receive e' message)).1))
      (fifoStep B (.receive e' message)).2 := by
  rcases message with _ | out
  · have hstep : fifoStep B (.receive e' none) = (.received false none, B) := by
      rcases hF : B e'.toNat with _ | ⟨_ | ⟨m, q⟩, refused⟩ <;> simp only [fifoStep, hF]
    rw [hstep]
    exact h
  · rcases hF : B e'.toNat with _ | ⟨_ | ⟨m, q⟩, refused⟩
    · simp only [fifoStep, hF, record]
      exact h
    · simp only [fifoStep, hF, record]
      exact h
    · simp only [fifoStep, hF, record]
      by_cases hee : e' = e
      · subst hee
        have hq := fifoAt_some hF
        rw [if_pos rfl]
        refine ⟨by simp [h.created, hF], ?_, ?_⟩
        · rw [fifoAt_update, h.balance, hq, List.append_assoc]
          rfl
        · rw [fifoAt_update, h.refused, hq]
      · rw [if_neg hee]
        exact h.update_of_ne (toNat_ne hee) _

/-- **Histories balance**: after every run the ledger of every endpoint agrees with its
queue. -/
theorem ledger_ok (cs : List IpcCall) (e : U32) :
    LedgerOK e (ledger e (trace fifoStep emptyBank cs)) (exec fifoStep emptyBank cs) := by
  refine hist_inv (I := fun tr B => LedgerOK e (ledger e tr) B) ⟨rfl, rfl, rfl⟩ ?_ cs
  intro tr B c h
  rw [ledger, List.foldl_append]
  change LedgerOK e (record e (ledger e tr) _) _
  cases c with
  | create => exact record_create h
  | send e' message => exact record_send h e' message
  | receive e' message => exact record_receive h e' message

/-! ## Each endpoint after any run -/

/-- The endpoint that an answered call is about. -/
def target : IpcCall → IpcResult → U32
  | .send e _, _ => e
  | .receive e _, _ => e
  | .create, .created e => e
  | .create, _ => ipcInvalidEndpoint

/-- Endpoint `e` of the state `s` is the bounded queue that the ledger `L` of its
history describes. -/
structure EndpointFifo (e : U32) (L : Ledger) (s : Ipc) : Prop where
  /-- A send succeeds exactly with a valid message and room. -/
  send_iff : ∀ message, (ipcSend s e message).1 = true ↔ L.created = true ∧
    ∃ m, message = some m ∧ m.length.toNat ≤ 32 ∧ L.accepted.length - L.received.length < 8
  /-- What came out is the beginning of what went in. -/
  fifo : L.received <+: L.accepted
  bounded : L.accepted.length ≤ L.received.length + 8
  /-- A receive gives the oldest accepted message that was not received yet. -/
  receive_next : ∀ out, L.created = true →
    (ipcReceive s e (some out)).1 = (L.accepted[L.received.length]?).isSome ∧
    (ipcReceive s e (some out)).2.1 = some ((L.accepted[L.received.length]?).getD out)
  receive_failed : ∀ message, (ipcReceive s e message).1 = false → ipcReceive s e message = (false, message, s)
  pending : ipcPending s e = word (L.accepted.length - L.received.length)
  rejected : ipcRejectedCount s e = word L.refused
  /-- Only calls about this endpoint change it, and it is created only once. -/
  isolated : ∀ c, target c (ipcStep s c).1 ≠ e → (ipcStep s c).2 e.toNat = s e.toNat
  created_once : L.created = true → (ipcStep s .create).1 ≠ .created e

theorem receive_failed (s : Ipc) (e : U32) (message : Option IpcMessage)
    (h : (ipcReceive s e message).1 = false) : ipcReceive s e message = (false, message, s) := by
  unfold ipcReceive at h ⊢
  simp only at h ⊢
  split_ifs at h ⊢
  · rfl
  · rfl

theorem step_isolated (s : Ipc) (e : U32) (c : IpcCall) (h : target c (ipcStep s c).1 ≠ e) :
    (ipcStep s c).2 e.toNat = s e.toNat := by
  cases c with
  | create =>
    simp only [ipcStep, ipcEndpointCreate] at h ⊢
    cases hfind : (List.range ipcMaxEndpoints).find? fun endpoint => !(s endpoint).allocated with
    | none => rfl
    | some i =>
      have hi : i < 8 := List.mem_range.1 (List.mem_of_find?_eq_some hfind)
      rw [hfind] at h
      refine Function.update_of_ne ?_ _ _
      intro heq
      refine h (BitVec.eq_of_toNat_eq ?_)
      rw [heq]
      exact toNat_word (by omega)
  | send e' message =>
    have hne : e.toNat ≠ e'.toNat := (toNat_ne h).symm
    simp only [ipcStep, ipcSend]
    cases message with
    | none => split_ifs <;> rfl
    | some m => simp only; split_ifs <;> first | rfl | exact Function.update_of_ne hne _ _
  | receive e' message =>
    have hne : e.toNat ≠ e'.toNat := (toNat_ne h).symm
    simp only [ipcStep, ipcReceive]
    split_ifs <;> first | rfl | exact Function.update_of_ne hne _ _

theorem IpcOK.bounded (h : IpcOK s B) (e : U32) : (fifoAt B e).queue.length ≤ 8 := by
  cases hF : B e.toNat with
  | none =>
    rw [fifoAt_none hF]
    exact Nat.zero_le _
  | some F =>
    rw [fifoAt_some hF]
    exact (h.ring hF).2.1.bound

/-- `ipc_pending` is the length of the queue. -/
theorem IpcOK.pending (h : IpcOK s B) (e : U32) : ipcPending s e = word (fifoAt B e).queue.length := by
  unfold ipcPending
  rw [h.valid]
  cases hF : B e.toNat with
  | none =>
    rw [fifoAt_none hF]
    rfl
  | some F =>
    obtain ⟨-, hring, -⟩ := h.ring hF
    have hbound := hring.bound
    rw [fifoAt_some hF]
    apply BitVec.eq_of_toNat_eq
    rw [toNat_word (by omega)]
    exact hring.size

/-- `ipc_rejected_count` is the number of refusals, up to the wrap. -/
theorem IpcOK.rejected (h : IpcOK s B) (e : U32) : ipcRejectedCount s e = word (fifoAt B e).refused := by
  unfold ipcRejectedCount
  rw [h.valid]
  cases hF : B e.toNat with
  | none =>
    rw [fifoAt_none hF]
    rfl
  | some F =>
    rw [fifoAt_some hF]
    exact (h.ring hF).2.2

theorem send_true_iff (h : IpcOK s B) (e : U32) (message : Option IpcMessage) :
    (ipcSend s e message).1 = true ↔ (B e.toNat).isSome = true ∧
      ∃ m, message = some m ∧ m.length.toNat ≤ 32 ∧ (fifoAt B e).queue.length < 8 := by
  have hanswer : IpcResult.sent (ipcSend s e message).1 = (fifoStep B (.send e message)).1 :=
    (send_sim h e message).1
  have hiff : (ipcSend s e message).1 = true ↔ (fifoStep B (.send e message)).1 = .sent true := by
    rw [← hanswer, IpcResult.sent.injEq]
  rw [hiff]
  rcases hF : B e.toNat with _ | F
  · simp [fifoStep, hF]
  · rw [fifoAt_some hF]
    rcases message with _ | m
    · simp [fifoStep, hF]
    · simp only [fifoStep, hF, Option.isSome_some, true_and, Option.some.injEq, exists_eq_left']
      split_ifs with hlong hroom
      · simp only [IpcResult.sent.injEq, Bool.false_eq_true, false_iff]
        omega
      · simp only [true_iff]
        omega
      · simp only [IpcResult.sent.injEq, Bool.false_eq_true, false_iff]
        omega

/-- A receive from a created endpoint gives the front of its queue. -/
theorem receive_front (h : IpcOK s B) {F : Fifo} (hF : B e.toNat = some F) (out : IpcMessage) :
    (ipcReceive s e (some out)).1 = F.queue[0]?.isSome ∧
      (ipcReceive s e (some out)).2.1 = some (F.queue[0]?.getD out) := by
  have hanswer : IpcResult.received (ipcReceive s e (some out)).1 (ipcReceive s e (some out)).2.1 =
      (fifoStep B (.receive e (some out))).1 := (receive_sim h e (some out)).1
  obtain ⟨_ | ⟨m, q⟩, refused⟩ := F
  · simp only [fifoStep, hF] at hanswer
    exact IpcResult.received.inj hanswer
  · simp only [fifoStep, hF] at hanswer
    exact IpcResult.received.inj hanswer

/-- A created endpoint is not created again. -/
theorem create_fresh (h : IpcOK s B) (hsome : (B e.toNat).isSome = true) :
    (ipcStep s .create).1 ≠ .created e := by
  obtain ⟨F, hF⟩ := Option.isSome_iff_exists.1 hsome
  have hlt := h.lt hF
  rw [(create_sim h).1]
  simp only [fifoStep]
  cases hfind : (List.range 8).find? fun i => (B i).isNone with
  | none =>
    intro heq
    have := congrArg BitVec.toNat (IpcResult.created.inj heq)
    simp at this
    omega
  | some i =>
    have hi : i < 8 := List.mem_range.1 (List.mem_of_find?_eq_some hfind)
    have hnone := List.find?_some hfind
    intro heq
    have hie := congrArg BitVec.toNat (IpcResult.created.inj heq)
    rw [toNat_word (by omega)] at hie
    rw [hie, hF] at hnone
    simp at hnone

/-- The ledger of an endpoint describes its ring. -/
theorem endpoint_fifo (h : IpcOK s B) (hL : LedgerOK e L B) : EndpointFifo e L s := by
  have hlen : L.accepted.length = L.received.length + (fifoAt B e).queue.length := by
    rw [hL.balance, List.length_append]
  have hpending : L.accepted.length - L.received.length = (fifoAt B e).queue.length := by omega
  have hbound := h.bounded e
  refine ⟨?_, ?_, by omega, ?_, receive_failed s e, ?_, ?_, step_isolated s e, ?_⟩
  · intro message
    rw [hL.created, hpending]
    exact send_true_iff h e message
  · rw [hL.balance]
    exact List.prefix_append _ _
  · intro out hcreated
    rw [hL.created] at hcreated
    obtain ⟨F, hF⟩ := Option.isSome_iff_exists.1 hcreated
    have hnext : L.accepted[L.received.length]? = F.queue[0]? := by
      rw [hL.balance, List.getElem?_append_right le_rfl, Nat.sub_self, fifoAt_some hF]
    rw [hnext]
    exact receive_front h hF out
  · rw [hpending]
    exact h.pending e
  · rw [hL.refused]
    exact h.rejected e
  · intro hcreated
    rw [hL.created] at hcreated
    exact create_fresh h hcreated

/-- **Every endpoint is a bounded queue of its own**, after `ipc_init` and any list of
calls, the wrap of the sequence numbers included. -/
theorem ipc_endpoint_fifo (s₀ : Ipc) (cs : List IpcCall) (e : U32) :
    EndpointFifo e (ledger e (trace ipcStep (ipcInit s₀) cs)) (exec ipcStep (ipcInit s₀) cs) := by
  obtain ⟨htrace, hs⟩ := ipcRun_sim s₀ cs
  rw [htrace]
  exact endpoint_fifo hs (ledger_ok cs e)

end TinyShell
