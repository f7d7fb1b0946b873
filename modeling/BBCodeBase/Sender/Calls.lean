import BBCodeBase.Sender.Contract

/-!
# The four calls that receive

What `learn_new_port`, `session_handshake`, `session_send_data` and
`session_finish` wait for, and the array that each of them passes down to
`recvfrom`, which keeps its size during the whole call.
-/

namespace BBCodeBase.Sender

open Reactive

variable {stack : Stack} {data : SessionData} {session : Session} {tasks : Tasks}
  {exchange : Exchange} {history : List Event}

inductive Call where
  | learnNewPort
  | sessionHandshake
  | sessionSendData
  | sessionFinish
  deriving DecidableEq, Repr

def Call.ofPhase : Phase → Call
  | .handshake => .sessionHandshake
  | .data => .sessionSendData
  | .finish => .sessionFinish

def Call.bufferSize : Call → Nat
  | .learnNewPort => pktSizeHello
  | .sessionHandshake => pktSizeHandshake
  | .sessionSendData => pktSizeDataAck
  | .sessionFinish => pktSizeFinish

def Call.awaited : Call → Session → List Byte → Bool
  | .learnNewPort => isHelloResponse
  | .sessionHandshake => isHandshakeAck
  | .sessionSendData => isDataAck
  | .sessionFinish => isFinishAck

/-- The end of the last field that the call tests or uses: `port` or
`exp_frame_number`, and `type` where there is no other. -/
def Call.fieldsEnd : Call → Nat
  | .learnNewPort => 7
  | .sessionHandshake => 1
  | .sessionSendData => 7
  | .sessionFinish => 1

def Transfer.receiving? : Transfer → Option (Call × Exchange)
  | .learning exchange => some (.learnNewPort, exchange)
  | .reading _ _ _ _ => none
  | .handling handle _ => some (.ofPhase handle.phase, handle.exchange)

theorem Call.fieldsEnd_le_bufferSize (call : Call) : call.fieldsEnd ≤ call.bufferSize := by
  cases call <;> decide

theorem Call.bufferSize_lt_pktSizeMax (call : Call) : call.bufferSize < pktSizeMax := by
  cases call <;> decide

/-! ## One reception -/

theorem transportRecvPacket_some_iff {buffer bytes next : List Byte} :
    transportRecvPacket buffer bytes = some next ↔
      (bytes.take pktSizeMax).length ≤ buffer.length ∧
        next = bytes.take pktSizeMax ++ buffer.drop (bytes.take pktSizeMax).length := by
  unfold transportRecvPacket
  dsimp only
  split
  case isTrue hfits =>
      rw [Option.some.injEq, eq_comm]
      exact (and_iff_right hfits).symm
  case isFalse hlong => exact iff_of_false (by simp) fun h => hlong h.1

theorem length_transportRecvPacket {buffer bytes next : List Byte}
    (h : transportRecvPacket buffer bytes = some next) : next.length = buffer.length := by
  obtain ⟨hfits, rfl⟩ := transportRecvPacket_some_iff.mp h
  rw [List.length_append, List.length_drop, Nat.add_sub_cancel' hfits]

def receivedPost (exchange : Exchange) : Post Exchange Event Answer where
  again := fun _ next => ∃ buffer, buffer.length = exchange.buffer.length ∧
    next = { exchange with buffer := buffer }
  done := fun _ last _ => ∃ buffer, buffer.length = exchange.buffer.length ∧
    last = { exchange with buffer := buffer }
  fault := fun _ => True

theorem receiveLoop_received (awaited : Session → List Byte → Bool) (input : Input) :
    (receivedPost exchange).Of history (receiveLoop awaited exchange input) := by
  cases input with
  | recv result =>
      cases result with
      | datagram bytes =>
          cases hstored : transportRecvPacket exchange.buffer bytes with
          | none => simp [receiveLoop, hstored, Post.Of, receivedPost]
          | some buffer =>
              have hlength := length_transportRecvPacket hstored
              simp only [receiveLoop, hstored]
              split
              · exact ⟨buffer, hlength, rfl⟩
              · exact ⟨buffer, hlength, rfl⟩
      | failed errno =>
          simp only [receiveLoop]
          split
          · exact ⟨exchange.buffer, rfl, rfl⟩
          · exact ⟨exchange.buffer, rfl, rfl⟩
  | fgets line => exact ⟨exchange.buffer, rfl, rfl⟩
  | wakeUp task junk => exact ⟨exchange.buffer, rfl, rfl⟩

/-! ## The size of the array over a whole run -/

def sizedPost (call : Call) : Post Exchange Event Int where
  again := fun _ next => next.buffer.length = call.bufferSize
  done := fun _ _ _ => True
  fault := fun _ => True

theorem exchangeLoop_sized {call : Call} {awaited : Session → List Byte → Bool}
    {done : Exchange → Answer → List Event × Exit Exchange Int}
    (hsized : exchange.buffer.length = call.bufferSize) (input : Input)
    (hdone : ∀ events buffer answer, buffer.length = call.bufferSize →
      (sizedPost call).Of events (done { exchange with buffer := buffer } answer)) :
    (sizedPost call).Of history (andThen (receiveLoop awaited exchange input) id done) := by
  rw [Post.of_andThen_iff]
  apply (receiveLoop_received awaited input).weaken
  · rintro events next ⟨buffer, hlength, rfl⟩
    exact hlength.trans hsized
  · rintro events last answer ⟨buffer, hlength, rfl⟩
    exact hdone events buffer answer (hlength.trans hsized)
  · exact fun _ _ => trivial

theorem length_stack_array (created size : Nat) : (stack.array created size).length = size := by
  simp [Stack.array]

theorem learnNewPortLoop_sized (hsized : exchange.buffer.length = Call.learnNewPort.bufferSize)
    (input : Input) :
    (sizedPost .learnNewPort).Of history (learnNewPortLoop stack exchange input) := by
  apply exchangeLoop_sized hsized
  intro events buffer answer _
  cases answer <;> exact trivial

theorem sessionSendNext_sized
    (hsized : exchange.buffer.length = Call.sessionSendData.bufferSize) :
    (sizedPost .sessionSendData).Of history (sessionSendNext stack data exchange) := by
  unfold sessionSendNext
  split
  · exact trivial
  · cases buildPktData exchange.session data (stack.bytes exchange.tasks.created) with
    | none => exact trivial
    | some packet => exact hsized

theorem callLoop_sized (phase : Phase)
    (hsized : exchange.buffer.length = (Call.ofPhase phase).bufferSize) (input : Input) :
    (sizedPost (.ofPhase phase)).Of history
      (callLoop stack data phase exchange input) := by
  cases phase with
  | handshake =>
      apply exchangeLoop_sized hsized
      intro events buffer answer _
      cases answer <;> exact trivial
  | data =>
      apply exchangeLoop_sized hsized
      intro events buffer answer hlength
      cases answer with
      | answered =>
          apply Post.of_emit_iff.mpr
          exact sessionSendNext_sized hlength
      | serverCrash => exact trivial
  | finish =>
      apply exchangeLoop_sized hsized
      intro events buffer answer _
      cases answer <;> exact trivial

def sizedContract : Contract where
  waiting := fun phase _ exchange =>
    exchange.buffer.length = (Call.ofPhase phase).bufferSize
  returned := fun _ _ _ _ => True
  handled := fun _ _ _ => True
  fault := fun _ => True

theorem sizedContract_chained : sizedContract.Chained stack data where
  sendData := by
    intro history exchange ret _ _
    unfold sessionSendData
    apply Post.of_emit_iff.mpr
    exact sessionSendNext_sized (length_stack_array _ _)
  finish := fun _ _ _ _ _ => length_stack_array _ _
  failed := fun _ _ _ _ => trivial
  handled := fun _ _ _ _ _ => trivial

def sizing : TransferContract where
  learning := fun _ exchange => exchange.buffer.length = Call.learnNewPort.bufferSize
  reading := fun _ _ _ => True
  handling := fun _ _ handle =>
    handle.exchange.buffer.length = (Call.ofPhase handle.phase).bufferSize
  fault := fun _ => True

theorem sizing_kept : sizing.Kept stack (fun _ => True) (fun _ _ _ => True) where
  connect := by
    intro history session tasks _
    unfold learnNewPort
    apply Post.of_emit_iff.mpr
    cases buildPktHelloRequest session with
    | none => exact trivial
    | some packet => exact length_stack_array _ _
  learn := fun _ _ input hsized => learnNewPortLoop_sized hsized input
  line := fun _ _ _ _ _ _ => trivial
  timeout := fun _ _ _ _ _ _ _ => trivial
  start := by
    intro text history session tasks data _ _ _ _
    apply sizedContract_chained.sessionHandle
    unfold sessionHandshake
    apply Post.of_emit_iff.mpr
    simp [Post.Of, Contract.call, sizedContract, Call.ofPhase, Stack.array,
      Call.bufferSize]
  handle := by
    intro text history handle data input _ _ _ hsized
    apply sizedContract_chained.sessionHandleLoop
    exact callLoop_sized handle.phase hsized input

theorem Transfer.sized {transfer : Transfer} (h : sizing.Holds history transfer)
    {call : Call} (hreceiving : transfer.receiving? = some (call, exchange)) :
    exchange.buffer.length = call.bufferSize := by
  cases transfer with
  | learning waiting =>
      cases hreceiving
      exact h
  | reading session tasks data numBytes => cases hreceiving
  | handling handle data =>
      obtain ⟨_, _, _, _, hsized⟩ := h
      cases hreceiving
      exact hsized

end BBCodeBase.Sender
