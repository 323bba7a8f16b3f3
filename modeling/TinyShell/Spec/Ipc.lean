import TinyShell.Machine.Loop

/-!
# Message endpoints (`kernel/ipc/ipc.c`)

Eight endpoints, each a ring of eight messages with free-running read and write
sequence numbers. Messages are copied in and out; a caller's message pointer that
may be null is an `Option`.
-/

namespace TinyShell

open Machine

abbrev ipcMaxEndpoints : ℕ := 8

abbrev ipcQueueDepth : ℕ := 8

abbrev ipcPayloadMax : ℕ := 32

abbrev ipcInvalidEndpoint : U32 := 0xFFFFFFFF

structure IpcMessage where
  sender : U32
  type : U32
  length : U32
  payload : Fin ipcPayloadMax → U8
  deriving DecidableEq

structure IpcEndpointState where
  allocated : Bool
  readSequence : U32
  writeSequence : U32
  rejectedMessages : U32
  queue : ℕ → IpcMessage

/-- The array `endpoints`. -/
abbrev Ipc := ℕ → IpcEndpointState

/-- What `message_clear` leaves in a message. -/
def messageClear : IpcMessage := ⟨0, 0, 0, fun _ => 0⟩

def endpointIsValid (s : Ipc) (endpoint : U32) : Bool :=
  endpoint.toNat < ipcMaxEndpoints && (s endpoint.toNat).allocated

/-- `ipc_init`. -/
def ipcInit (s : Ipc) : Ipc :=
  fill s 0 ipcMaxEndpoints fun endpoint =>
    { allocated := false
      readSequence := 0
      writeSequence := 0
      rejectedMessages := 0
      queue := fill (s endpoint).queue 0 ipcQueueDepth fun _ => messageClear }

/-- `ipc_endpoint_create`: the first endpoint that is not allocated. -/
def ipcEndpointCreate (s : Ipc) : U32 × Ipc :=
  match (List.range ipcMaxEndpoints).find? fun endpoint => !(s endpoint).allocated with
  | none => (ipcInvalidEndpoint, s)
  | some endpoint =>
    (word endpoint,
      Function.update s endpoint
        { s endpoint with
          allocated := true
          readSequence := 0
          writeSequence := 0
          rejectedMessages := 0 })

/-- `ipc_send`. -/
def ipcSend (s : Ipc) (endpoint : U32) (message : Option IpcMessage) : Bool × Ipc :=
  if !endpointIsValid s endpoint then (false, s)
  else
    match message with
    | none => (false, s)
    | some message =>
      if message.length.toNat > ipcPayloadMax then (false, s)
      else
        let state := s endpoint.toNat
        if (state.writeSequence - state.readSequence).toNat ≥ ipcQueueDepth then
          (false,
            Function.update s endpoint.toNat
              { state with rejectedMessages := state.rejectedMessages + 1 })
        else
          let destination : IpcMessage :=
            { sender := message.sender
              type := message.type
              length := message.length
              payload := fun index => if index.val < message.length.toNat then message.payload index else 0 }
          (true,
            Function.update s endpoint.toNat
              { state with
                queue := Function.update state.queue (state.writeSequence.toNat % ipcQueueDepth) destination
                writeSequence := state.writeSequence + 1 })

/-- `ipc_receive`: its result, the caller's message and the endpoints. -/
def ipcReceive (s : Ipc) (endpoint : U32) (message : Option IpcMessage) : Bool × Option IpcMessage × Ipc :=
  if !endpointIsValid s endpoint || message.isNone then (false, message, s)
  else
    let state := s endpoint.toNat
    if state.readSequence = state.writeSequence then (false, message, s)
    else
      let source := state.queue (state.readSequence.toNat % ipcQueueDepth)
      (true, some source,
        Function.update s endpoint.toNat { state with readSequence := state.readSequence + 1 })

def ipcPending (s : Ipc) (endpoint : U32) : U32 :=
  if !endpointIsValid s endpoint then 0
  else (s endpoint.toNat).writeSequence - (s endpoint.toNat).readSequence

def ipcRejectedCount (s : Ipc) (endpoint : U32) : U32 :=
  if !endpointIsValid s endpoint then 0 else (s endpoint.toNat).rejectedMessages

/-! ## Calls -/

inductive IpcCall
  | create
  | send (endpoint : U32) (message : Option IpcMessage)
  | receive (endpoint : U32) (message : Option IpcMessage)

inductive IpcResult
  | created (endpoint : U32)
  | sent (ok : Bool)
  | received (ok : Bool) (message : Option IpcMessage)
  deriving DecidableEq

/-- One call after `ipc_init`. -/
def ipcStep (s : Ipc) : IpcCall → IpcResult × Ipc
  | .create => let (endpoint, s) := ipcEndpointCreate s; (.created endpoint, s)
  | .send endpoint message => let (ok, s) := ipcSend s endpoint message; (.sent ok, s)
  | .receive endpoint message =>
    let (ok, message, s) := ipcReceive s endpoint message
    (.received ok message, s)

end TinyShell
