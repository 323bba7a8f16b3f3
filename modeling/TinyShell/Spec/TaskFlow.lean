import TinyShell.Spec.Ipc
import TinyShell.Spec.Task

/-!
# The boot task flow (`kernel/kernel.c`)

`run_task_flow` lets a producer, a consumer and a timer observer run over the scheduler
and the message endpoint. The timer interrupt may come between any two steps; a step
is the code of whoever has control up to its next call of the scheduler or its next
load of a timer counter, which are the points where an interrupt can make a difference.
-/

namespace TinyShell

open Machine

abbrev pitTestTicks : ℕ := 3

abbrev taskFlowMessages : ℕ := 6

abbrev taskFlowType : U32 := 0x54494E59

abbrev taskFlowBudget : U32 := 256

/-- `2 * (TASK_FLOW_MESSAGES + 1) + PIT_TEST_TICKS`. -/
abbrev taskFlowMinSwitches : ℕ := 2 * (taskFlowMessages + 1) + pitTestTicks

/-! The entries of the three tasks: any three different addresses. -/

abbrev producerTask : U32 := 1

abbrev consumerTask : U32 := 2

abbrev timerObserverTask : U32 := 3

/-- Where `producer_task` goes on. -/
inductive ProducerPc
  | next (sequence : U32)
  | send (sequence : U32) (message : IpcMessage)
  deriving DecidableEq

/-- Where `consumer_task` goes on. -/
inductive ConsumerPc
  | next (sequence : U32)
  | receive (sequence : U32)
  deriving DecidableEq

/-- Where `timer_observer_task` goes on. -/
inductive ObserverPc
  | startTicks
  | startIrqs
  | testTicks
  | testIrqs
  | halt
  | woken
  | leave
  deriving DecidableEq

/-- Where `run_task_flow` goes on. -/
inductive FlowPc
  | start
  | run
  | running
  | ran (complete : Bool)
  | checkTicks
  | checkIrqs
  | returned (result : Bool)
  deriving DecidableEq

structure Flow where
  system : TaskSystem
  ipc : Ipc
  taskFlowEndpoint : U32
  producerTaskId : ℕ
  taskFlowTickStart : U32
  taskFlowIrqStart : U32
  producedMessages : U32
  consumedMessages : U32
  producerFinished : Bool
  consumerFinished : Bool
  timerObserverFinished : Bool
  taskFlowFailed : Bool
  /-- `pit_ticks()`. -/
  pitTicks : U32
  /-- `irq_count(0)`. -/
  irqCount : U32
  /-- The processor waits in `hlt`. -/
  halted : Bool
  producer : ProducerPc
  consumer : ConsumerPc
  observer : ObserverPc
  main : FlowPc

/-- What a step shows: the message it sent or received, and a return from `task_run`. -/
structure FlowOutput where
  sent : Option IpcMessage
  received : Option IpcMessage
  returned : Option TaskReturn

def FlowOutput.quiet : FlowOutput := ⟨none, none, none⟩

/-- `prepare_message` and the four payload bytes that `producer_task` sets. -/
def flowMessage (sender sequence : U32) : IpcMessage where
  sender := sender
  type := taskFlowType
  length := 4
  payload index :=
    match index.val with
    | 0 => sequence.setWidth 8
    | 1 => 0xA5
    | 2 => 0x5A
    | 3 => (sequence ^^^ 0xFF).setWidth 8
    | _ => BitVec.ofNat 8 index.val

def payloadTailIsZero (message : IpcMessage) (start : ℕ) : Bool :=
  (List.finRange ipcPayloadMax).all fun index => index.val < start || message.payload index = 0

/-- The test of `consumer_task` on a message. -/
def messageMatches (producerTaskId : ℕ) (sequence : U32) (message : IpcMessage) : Bool :=
  message.sender = word producerTaskId && message.type = taskFlowType && message.length = 4 &&
    message.payload 0 = sequence.setWidth 8 && message.payload 1 = 0xA5 && message.payload 2 = 0x5A &&
    message.payload 3 = (sequence ^^^ 0xFF).setWidth 8 && payloadTailIsZero message 4

/-- A task calls the scheduler; control may go back to `run_task_flow`. -/
def schedulerCall (s : Flow) (call : TaskCall) : Option TaskReturn × Flow :=
  let (out, system) := taskStep s.system (.task call)
  let s := { s with system := system }
  match out.returned with
  | some (.ran complete) => (out.returned, { s with main := .ran complete })
  | _ => (out.returned, s)

def producerTaskStep (s : Flow) : FlowOutput × Flow :=
  match s.producer with
  | .next sequence =>
    if sequence.toNat < taskFlowMessages then
      let message := flowMessage (word (taskCurrentId s.system.scheduler)) sequence
      (.quiet, { s with producer := .send sequence message })
    else
      let (returned, s) := schedulerCall { s with producerFinished := true } .exit
      (⟨none, none, returned⟩, s)
  | .send sequence message =>
    match ipcSend s.ipc s.taskFlowEndpoint (some message) with
    | (true, ipc) =>
      let s :=
        { s with
          ipc := ipc
          producedMessages := s.producedMessages + 1
          producer := .next (sequence + 1) }
      let (returned, s) := schedulerCall s .yield
      (⟨some message, none, returned⟩, s)
    | (false, ipc) =>
      let (returned, s) := schedulerCall { s with ipc := ipc } .yield
      (⟨none, none, returned⟩, s)

def consumerTaskStep (s : Flow) : FlowOutput × Flow :=
  match s.consumer with
  | .next sequence =>
    if sequence.toNat < taskFlowMessages then (.quiet, { s with consumer := .receive sequence })
    else
      let (returned, s) := schedulerCall { s with consumerFinished := true } .exit
      (⟨none, none, returned⟩, s)
  | .receive sequence =>
    match ipcReceive s.ipc s.taskFlowEndpoint (some messageClear) with
    | (true, some message, ipc) =>
      if messageMatches s.producerTaskId sequence message then
        let s :=
          { s with
            ipc := ipc
            consumedMessages := s.consumedMessages + 1
            consumer := .next (sequence + 1) }
        let (returned, s) := schedulerCall s .yield
        (⟨none, some message, returned⟩, s)
      else
        let (returned, s) := schedulerCall { s with ipc := ipc, taskFlowFailed := true } .exit
        (⟨none, some message, returned⟩, s)
    | (_, _, ipc) =>
      let (returned, s) := schedulerCall { s with ipc := ipc } .yield
      (⟨none, none, returned⟩, s)

def timerObserverTaskStep (s : Flow) : FlowOutput × Flow :=
  match s.observer with
  | .startTicks => (.quiet, { s with taskFlowTickStart := s.pitTicks, observer := .startIrqs })
  | .startIrqs => (.quiet, { s with taskFlowIrqStart := s.irqCount, observer := .testTicks })
  | .testTicks =>
    -- the second operand of `||` is evaluated only when the first is false
    if (s.pitTicks - s.taskFlowTickStart).toNat < pitTestTicks then (.quiet, { s with observer := .halt })
    else (.quiet, { s with observer := .testIrqs })
  | .testIrqs =>
    if (s.irqCount - s.taskFlowIrqStart).toNat < pitTestTicks then (.quiet, { s with observer := .halt })
    else (.quiet, { s with observer := .leave })
  | .halt => (.quiet, { s with halted := true, observer := .woken })
  | .woken =>
    let (returned, s) := schedulerCall { s with observer := .testTicks } .yield
    (⟨none, none, returned⟩, s)
  | .leave =>
    let (returned, s) := schedulerCall { s with timerObserverFinished := true } .exit
    (⟨none, none, returned⟩, s)

/-- The last conjunction of `run_task_flow`, up to the loads of the timer counters. -/
def flowChecks (s : Flow) : Bool :=
  let switches := taskSwitchCount s.system.scheduler
  !s.taskFlowFailed && s.producerFinished && s.consumerFinished && s.timerObserverFinished &&
    s.producedMessages = word taskFlowMessages && s.consumedMessages = word taskFlowMessages &&
    ipcPending s.ipc s.taskFlowEndpoint = 0 && ipcRejectedCount s.ipc s.taskFlowEndpoint = 0 &&
    taskFinishedCount s.system.scheduler = 3 && taskCurrentId s.system.scheduler = taskInvalidId &&
    switches.toNat ≥ taskFlowMinSwitches && switches.toNat ≤ taskFlowBudget.toNat

/-- The start of `run_task_flow`, up to `task_run`. -/
def startFlow (s : Flow) : Flow :=
  let scheduler := taskSystemInit s.system.scheduler
  let (producerId, scheduler) := taskCreate scheduler producerTask 0
  let (consumerId, scheduler) := taskCreate scheduler consumerTask 0
  let (observerId, scheduler) := taskCreate scheduler timerObserverTask 0
  let created := producerId ≠ taskInvalidId && consumerId ≠ taskInvalidId && observerId ≠ taskInvalidId &&
    producerId ≠ consumerId && producerId ≠ observerId && consumerId ≠ observerId
  { s with
    system := ⟨scheduler, s.system.control⟩
    producerTaskId := producerId
    producedMessages := 0
    consumedMessages := 0
    producerFinished := false
    consumerFinished := false
    timerObserverFinished := false
    taskFlowFailed := false
    producer := .next 0
    consumer := .next 0
    observer := .startTicks
    main := if created then .run else .returned false }

def runTaskFlowStep (s : Flow) : FlowOutput × Flow :=
  match s.main with
  | .start => (.quiet, startFlow s)
  | .run =>
    let (out, system) := taskStep s.system (.bootstrap (.run taskFlowBudget))
    match out.returned with
    | some (.ran complete) => (⟨none, none, out.returned⟩, { s with system := system, main := .ran complete })
    | _ => (⟨none, none, out.returned⟩, { s with system := system, main := .running })
  | .ran complete =>
    (.quiet, { s with main := if complete && flowChecks s then .checkTicks else .returned false })
  | .checkTicks =>
    if (s.pitTicks - s.taskFlowTickStart).toNat ≥ pitTestTicks then (.quiet, { s with main := .checkIrqs })
    else (.quiet, { s with main := .returned false })
  | .checkIrqs =>
    (.quiet, { s with main := .returned ((s.irqCount - s.taskFlowIrqStart).toNat ≥ pitTestTicks) })
  | _ => (.quiet, s)

inductive FlowEvent
  | tick
  | step
  deriving DecidableEq

/-- A timer interrupt, or a step of the code that has control. -/
def flowStep (s : Flow) : FlowEvent → FlowOutput × Flow
  | .tick => (.quiet, { s with pitTicks := s.pitTicks + 1, irqCount := s.irqCount + 1, halted := false })
  | .step =>
    if s.halted then (.quiet, s)
    else
      match s.system.control with
      | .bootstrap => runTaskFlowStep s
      | .task id =>
        if (s.system.scheduler.tasks id).entry = producerTask then producerTaskStep s
        else if (s.system.scheduler.tasks id).entry = consumerTask then consumerTaskStep s
        else timerObserverTaskStep s
      | .stopped _ => (.quiet, s)

/-- `run_task_flow` is about to be called: `ipc_self_test` has left a fresh endpoint. -/
def initialFlow (endpoints : Ipc) (pitTicks irqCount : U32) : Flow :=
  let (endpoint, ipc) := ipcEndpointCreate (ipcInit endpoints)
  { system := ⟨loadedScheduler, .bootstrap⟩
    ipc := ipc
    taskFlowEndpoint := endpoint
    producerTaskId := taskInvalidId
    taskFlowTickStart := 0
    taskFlowIrqStart := 0
    producedMessages := 0
    consumedMessages := 0
    producerFinished := false
    consumerFinished := false
    timerObserverFinished := false
    taskFlowFailed := false
    pitTicks := pitTicks
    irqCount := irqCount
    halted := false
    producer := .next 0
    consumer := .next 0
    observer := .startTicks
    main := .start }

end TinyShell
