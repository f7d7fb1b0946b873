import BBCodeBase.Sender.Calls

/-!
# What a reception may write and what it may accept

`transport_recv_packet` always asks for `PKT_SIZE_MAX` bytes and forgets how many
it got.  A datagram longer than the caller's array is written behind it, and one
that is too short is completed by whatever the array held before.
-/

namespace BBCodeBase.Sender

open Reactive

variable {exchange : Exchange} {call : Call} {bytes buffer : List Byte}
  {session : Session}

/-- What the pass needs to be in order for every datagram that a call receives. -/
def Transfer.OnReceive (condition : Call → Exchange → List Byte → Prop)
    (transfer : Transfer) (input : Input) : Prop :=
  ∀ call exchange bytes, transfer.receiving? = some (call, exchange) →
    input = .recv (.datagram bytes) → condition call exchange bytes

theorem onReceive_iff {first second : Call → Exchange → List Byte → Prop}
    (hiff : ∀ call exchange bytes, exchange.buffer.length = call.bufferSize →
      (first call exchange bytes ↔ second call exchange bytes))
    (stack : Stack) (hostName : List Byte) (session : Session) (inputs : List Input) :
    AlongFrom (sessionConnect stack hostName session ⟨[], 0⟩)
        (sessionTransferLoop stack hostName) (Transfer.OnReceive first) inputs ↔
      AlongFrom (sessionConnect stack hostName session ⟨[], 0⟩)
        (sessionTransferLoop stack hostName) (Transfer.OnReceive second) inputs := by
  apply sizing_kept.alongFrom_iff _ trivial
  intro history transfer input hholds
  refine forall_congr' fun call => forall_congr' fun exchange => ?_
  refine forall_congr' fun bytes => forall_congr' fun hreceiving => ?_
  refine forall_congr' fun _ => ?_
  exact hiff call exchange bytes (transfer.sized hholds hreceiving)

/-! ## Writes -/

def WritesInside (_ : Call) (exchange : Exchange) (bytes : List Byte) : Prop :=
  ∃ next, transportRecvPacket exchange.buffer bytes = some next

def FitsArray (call : Call) (_ : Exchange) (bytes : List Byte) : Prop :=
  bytes.length ≤ call.bufferSize

theorem receive_inBounds_iff (stack : Stack) (hostName : List Byte) (session : Session)
    (inputs : List Input) :
    AlongFrom (sessionConnect stack hostName session ⟨[], 0⟩)
        (sessionTransferLoop stack hostName) (Transfer.OnReceive WritesInside) inputs ↔
      AlongFrom (sessionConnect stack hostName session ⟨[], 0⟩)
        (sessionTransferLoop stack hostName) (Transfer.OnReceive FitsArray) inputs := by
  apply onReceive_iff
  intro call exchange bytes hsized
  have hmax := call.bufferSize_lt_pktSizeMax
  have hfits : (bytes.take pktSizeMax).length ≤ exchange.buffer.length ↔
      bytes.length ≤ call.bufferSize := by
    rw [hsized, List.length_take]
    omega
  unfold WritesInside FitsArray
  rw [← hfits]
  constructor
  · rintro ⟨next, hnext⟩
    exact (transportRecvPacket_some_iff.mp hnext).1
  · exact fun h => ⟨_, transportRecvPacket_some_iff.mpr ⟨h, rfl⟩⟩

/-- Twenty bytes arrive while a port is learned. -/
theorem receive_beyondArray : ¬ ∀ (stack : Stack) (hostName : List Byte)
    (session : Session) (inputs : List Input),
    AlongFrom (sessionConnect stack hostName session ⟨[], 0⟩)
      (sessionTransferLoop stack hostName) (Transfer.OnReceive WritesInside) inputs := by
  intro hinside
  have hpass := (hinside zeroStack [0x68#8] zeroSession
    [.recv (.datagram (List.replicate 20 0#8))] _ _ rfl).1
  obtain ⟨next, hnext⟩ := hpass _ _ _ rfl rfl
  have hfits := (transportRecvPacket_some_iff.mp hnext).1
  exact absurd hfits (by decide)

/-! ## Acceptance -/

/-- The loop of the call takes the datagram for the awaited response. -/
def Accepts (call : Call) (exchange after : Exchange) (bytes : List Byte) : Prop :=
  receiveLoop call.awaited exchange (.recv (.datagram bytes)) =
    ([], .done after .answered)

theorem accepts_iff {after : Exchange} : Accepts call exchange after bytes ↔
    ∃ next, transportRecvPacket exchange.buffer bytes = some next ∧
      call.awaited exchange.session next ∧ after = { exchange with buffer := next } := by
  unfold Accepts
  cases hstored : transportRecvPacket exchange.buffer bytes with
  | none => simp [receiveLoop, hstored]
  | some next =>
      by_cases hawaited : call.awaited exchange.session next
      · have hpass : receiveLoop call.awaited exchange (.recv (.datagram bytes)) =
            ([], .done { exchange with buffer := next } .answered) := by
          simp [receiveLoop, hstored, hawaited]
        rw [hpass]
        constructor
        · intro hdone
          cases hdone
          exact ⟨next, rfl, hawaited, rfl⟩
        · rintro ⟨other, hother, -, rfl⟩
          cases hother
          rfl
      · simp [receiveLoop, hstored, hawaited]

theorem learning_accepts {stack : Stack} {after : Exchange}
    (haccepts : Accepts .learnNewPort exchange after bytes) :
    ∃ events later, learnNewPortLoop stack exchange (.recv (.datagram bytes)) =
        (events, .done later (stack.learned exchange.tasks.created)) ∧
      later.session.port = field16 after.buffer 5 := by
  obtain ⟨next, hstored, hawaited, rfl⟩ := accepts_iff.mp haccepts
  have hresponse : isHelloResponse exchange.session next = true := hawaited
  simp [learnNewPortLoop, receiveLoop, hstored, hresponse, andThen, emit,
    Exchange.deleteAndReturn, Exchange.return, Exchange.deleteTask, deleteTask]

def answerLoop (awaited : Session → List Byte → Bool)
    (done : Exchange → Answer → List Event × Exit Exchange Int) :
    Body Exchange Input Event Int :=
  fun exchange input => andThen (receiveLoop awaited exchange input) id done

def Call.loop (stack : Stack) (data : SessionData) : Call → Body Exchange Input Event Int
  | .learnNewPort => learnNewPortLoop stack
  | .sessionHandshake => sessionHandshakeLoop
  | .sessionSendData => sessionSendDataLoop stack data
  | .sessionFinish => sessionFinishLoop

/-- All four loops are a receive loop, and what follows the response is not silent. -/
theorem Call.loop_eq (stack : Stack) (data : SessionData) (call : Call) :
    ∃ done, call.loop stack data = answerLoop call.awaited done ∧
      ∀ exchange, (done exchange .answered).1 ≠ [] := by
  cases call <;>
    exact ⟨_, rfl, fun _ => by
      simp [emit, Exchange.deleteAndReturn, Exchange.return, Exchange.deleteTask, deleteTask]⟩

/-- On a datagram a call does something if and only if it takes it for the response. -/
theorem Call.loop_answers_iff (stack : Stack) (data : SessionData) (call : Call)
    (exchange : Exchange) (bytes : List Byte) :
    (call.loop stack data exchange (.recv (.datagram bytes))).1 ≠ [] ↔
      ∃ after, Accepts call exchange after bytes := by
  obtain ⟨done, hloop, hanswers⟩ := call.loop_eq stack data
  rw [hloop, answerLoop]
  constructor
  · intro hevents
    by_contra hnone
    apply hevents
    cases hstored : transportRecvPacket exchange.buffer bytes with
    | none => simp [receiveLoop, hstored, andThen]
    | some buffer =>
        have hwaits : ¬ call.awaited exchange.session buffer := fun hawaited =>
          hnone ⟨_, accepts_iff.mpr ⟨buffer, hstored, hawaited, rfl⟩⟩
        simp [receiveLoop, hstored, hwaits, andThen]
  · rintro ⟨after, haccepts⟩
    rw [haccepts]
    exact hanswers after

/--
The datagram has all the fields that are tested or used, with the awaited
values, and these are the fields that the call goes on with.
-/
structure Complete (call : Call) (session : Session) (bytes buffer : List Byte) :
    Prop where
  fields : call.fieldsEnd ≤ bytes.length
  awaited : call.awaited session bytes
  used : buffer.take call.fieldsEnd = bytes.take call.fieldsEnd

def OnlyComplete (call : Call) (exchange : Exchange) (bytes : List Byte) : Prop :=
  ∀ after, Accepts call exchange after bytes →
    Complete call exchange.session bytes after.buffer

/--
Put over the front of what the array holds, a datagram too short for the fields
does not spell the awaited response.
-/
def NotCompleted (call : Call) (exchange : Exchange) (bytes : List Byte) : Prop :=
  bytes.length < call.fieldsEnd →
    ¬ call.awaited exchange.session (bytes ++ exchange.buffer.drop bytes.length)

theorem getD_take_of_lt {packet : List Byte} {count index : Nat} (h : index < count) :
    (packet.take count).getD index 0#8 = packet.getD index 0#8 := by
  rw [List.getD_eq_getElem?_getD, List.getElem?_take_of_lt h, List.getD_eq_getElem?_getD]

theorem field16_take {packet : List Byte} {count index : Nat} (h : index + 1 < count) :
    field16 (packet.take count) index = field16 packet index := by
  simp only [field16, getD_take_of_lt h, getD_take_of_lt (Nat.lt_of_succ_lt h)]

theorem Complete.port (h : Complete .learnNewPort session bytes buffer) :
    field16 buffer 5 = field16 bytes 5 := by
  rw [← field16_take (show 5 + 1 < Call.fieldsEnd .learnNewPort by decide), h.used,
    field16_take (by decide)]

/-- A call looks at nothing behind its last field. -/
theorem Call.awaited_take (call : Call) (session : Session) (packet : List Byte) :
    call.awaited session (packet.take call.fieldsEnd) = call.awaited session packet := by
  cases call <;>
    simp only [Call.awaited, Call.fieldsEnd, isHelloResponse, isHandshakeAck, isDataAck,
      isFinishAck, packetType, getD_take_of_lt (show 0 < 1 by decide),
      getD_take_of_lt (show 0 < 7 by decide), field16_take (show 5 + 1 < 7 by decide)]

theorem onlyComplete_of_long {after : Exchange} (hlong : call.fieldsEnd ≤ bytes.length)
    (haccepts : Accepts call exchange after bytes) :
    Complete call exchange.session bytes after.buffer := by
  obtain ⟨next, hstored, hawaited, rfl⟩ := accepts_iff.mp haccepts
  obtain ⟨-, rfl⟩ := transportRecvPacket_some_iff.mp hstored
  have hmax := call.bufferSize_lt_pktSizeMax
  have hfields := call.fieldsEnd_le_bufferSize
  have hused : (bytes.take pktSizeMax ++
      exchange.buffer.drop (bytes.take pktSizeMax).length).take call.fieldsEnd =
        bytes.take call.fieldsEnd := by
    rw [List.take_append_of_le_length (by rw [List.length_take]; omega), List.take_take,
      Nat.min_eq_left (by omega)]
  refine ⟨hlong, ?_, hused⟩
  rw [← Call.awaited_take, ← hused, Call.awaited_take]
  exact hawaited

theorem accepts_short_iff (hsized : exchange.buffer.length = call.bufferSize)
    (hshort : bytes.length < call.fieldsEnd) :
    (∃ after, Accepts call exchange after bytes) ↔
      call.awaited exchange.session (bytes ++ exchange.buffer.drop bytes.length) := by
  have hmax := call.bufferSize_lt_pktSizeMax
  have hfields := call.fieldsEnd_le_bufferSize
  have htake : bytes.take pktSizeMax = bytes := List.take_of_length_le (by omega)
  have hstored : transportRecvPacket exchange.buffer bytes =
      some (bytes ++ exchange.buffer.drop bytes.length) := by
    apply transportRecvPacket_some_iff.mpr
    rw [htake]
    exact ⟨by omega, rfl⟩
  constructor
  · rintro ⟨after, haccepts⟩
    obtain ⟨next, hnext, hawaited, -⟩ := accepts_iff.mp haccepts
    obtain rfl := Option.some.inj (hstored.symm.trans hnext)
    exact hawaited
  · exact fun hawaited => ⟨_, accepts_iff.mpr ⟨_, hstored, hawaited, rfl⟩⟩

theorem complete_responses_iff (stack : Stack) (hostName : List Byte) (session : Session)
    (inputs : List Input) :
    AlongFrom (sessionConnect stack hostName session ⟨[], 0⟩)
        (sessionTransferLoop stack hostName) (Transfer.OnReceive OnlyComplete) inputs ↔
      AlongFrom (sessionConnect stack hostName session ⟨[], 0⟩)
        (sessionTransferLoop stack hostName) (Transfer.OnReceive NotCompleted) inputs := by
  apply onReceive_iff
  intro call exchange bytes hsized
  constructor
  · intro hcomplete hshort hawaited
    obtain ⟨after, haccepts⟩ := (accepts_short_iff hsized hshort).mpr hawaited
    exact absurd (hcomplete after haccepts).fields (Nat.not_le_of_lt hshort)
  · intro hnot after haccepts
    by_cases hlong : call.fieldsEnd ≤ bytes.length
    · exact onlyComplete_of_long hlong haccepts
    · have hshort := Nat.lt_of_not_le hlong
      exact absurd ((accepts_short_iff hsized hshort).mp ⟨after, haccepts⟩) (hnot hshort)

/-- Nothing is received, and the array happens to begin like a HELLO_RESPONSE. -/
theorem complete_responses_leftover : ¬ ∀ (stack : Stack) (hostName : List Byte)
    (session : Session) (inputs : List Input),
    AlongFrom (sessionConnect stack hostName session ⟨[], 0⟩)
      (sessionTransferLoop stack hostName) (Transfer.OnReceive OnlyComplete) inputs := by
  intro hcomplete
  have hpass := (hcomplete ⟨fun _ _ => 2#8, fun _ => 0, 0#8⟩ [0x68#8] zeroSession
    [.recv (.datagram [])] _ _ rfl).1
  exact absurd (hpass _ _ _ rfl rfl _ rfl).fields (by decide)

end BBCodeBase.Sender
