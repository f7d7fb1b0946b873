import BBCodeBase.Sender.Frames
import BBCodeBase.Sender.Receives

/-!
# What the four calls return

The calls are compared with what they are for: to go on once all responses have
come, and to give up when the server crashes before.  `learn_new_port` ends
without a return statement when its response has come, and its caller looks at
whatever it returns.
-/

namespace BBCodeBase.Sender

open Reactive

/-! ## Outcomes of receptions -/

/-- What `session_receive_packet` returns, with the content of the array. -/
inductive Outcome where
  | properPacket (content : List Byte)
  | wirelessDown
  | serverCrash
  deriving DecidableEq, Repr

/-- The outcomes of the receptions until one of them leaves the array. -/
def outcomes (buffer : List Byte) : List Input → List Outcome
  | [] => []
  | .recv (.datagram bytes) :: rest =>
      match transportRecvPacket buffer bytes with
      | none => []
      | some buffer => .properPacket buffer :: outcomes buffer rest
  | .recv (.failed errno) :: rest =>
      (if checkWirelessConnectivity errno then .wirelessDown else .serverCrash) ::
        outcomes buffer rest
  | .fgets _ :: rest => outcomes buffer rest
  | .wakeUp _ _ :: rest => outcomes buffer rest

/--
What comes first, the last of the `remaining` responses or a crash; `answered` of
them have come already.
-/
def verdict (response : Nat → List Byte → Bool) :
    Nat → Nat → List Outcome → Option Answer
  | 0, _, _ => some .answered
  | _ + 1, _, [] => none
  | _ + 1, _, .serverCrash :: _ => some .serverCrash
  | remaining + 1, answered, .wirelessDown :: rest =>
      verdict response (remaining + 1) answered rest
  | remaining + 1, answered, .properPacket content :: rest =>
      if response answered content then verdict response remaining (answered + 1) rest
      else verdict response (remaining + 1) answered rest

/-! ## Whole calls -/

section

variable (stack : Stack) (data : SessionData)

def Call.start (session : Session) (tasks : Tasks) : Call → List Event × Exit Exchange Int
  | .learnNewPort =>
      andThen (Sender.learnNewPort stack session tasks) id fun _ value => nomatch value
  | .sessionHandshake => Sender.sessionHandshake stack session tasks
  | .sessionSendData => Sender.sessionSendData stack data session tasks
  | .sessionFinish => Sender.sessionFinish stack session tasks

end

/--
A call as `session_transfer` makes it: the host name has room in the hello
packet, and the counters are those of the text in `session_data`.
-/
structure Setting (call : Call) where
  session : Session
  tasks : Tasks
  data : SessionData
  text : List Byte
  named : call = .learnNewPort → session.hostNameLen ≤ 10
  held : HoldsText data text
  size : text.length < sessionSize + maxRecordSize
  counted : call = .sessionSendData → Counters session.sessionId text.length 0 session

variable {call : Call}

def Setting.result? (setting : Setting call) (stack : Stack) (inputs : List Input) :
    Option Int :=
  (enter (call.start stack setting.data setting.session setting.tasks)
    (call.loop stack setting.data) inputs).2.value?

def Setting.buffer (setting : Setting call) (stack : Stack) : List Byte :=
  match call with
  | .sessionHandshake => (stack.array setting.tasks.created (pktSizeHandshake + 2)).drop 2
  | call => stack.array setting.tasks.created call.bufferSize

def Setting.required (setting : Setting call) : Nat :=
  match call with
  | .sessionSendData => setting.text.length ⌈/⌉ maxFrameSize
  | _ => 1

def Call.response (answered : Nat) (content : List Byte) : Call → Bool
  | .learnNewPort => packetType content == PacketType.helloResponse.code
  | .sessionHandshake => packetType content == PacketType.handshakeAck.code
  | .sessionSendData =>
      packetType content == PacketType.dataAck.code &&
        (field16 content 5).toNat == answered + 1
  | .sessionFinish => packetType content == PacketType.finishAck.code

def Setting.verdict (setting : Setting call) (stack : Stack) (inputs : List Input) :
    Option Answer :=
  Sender.verdict (fun answered content => call.response answered content)
    setting.required 0 (outcomes (setting.buffer stack) inputs)

/-! ## The value of a run -/

section

variable {σ ι ε ρ : Type} {body : Body σ ι ε ρ} {state next : σ} {input : ι}
  {events : List ε}

theorem value?_run_again (h : body state input = (events, .again next)) (rest : List ι) :
    (run body state (input :: rest)).2.value? = (run body next rest).2.value? := by
  rw [run_cons_again h]

theorem value?_run_some {value : ρ} (h : (body state input).2.value? = some value)
    (rest : List ι) : (run body state (input :: rest)).2.value? = some value := by
  cases hbody : body state input with
  | mk events exit =>
      rw [hbody] at h
      cases exit with
      | again next => cases h
      | done last result =>
          rw [run_cons_done hbody]
          exact h
      | fault => cases h

end

section

variable {awaited : Session → List Byte → Bool}
  {done : Exchange → Answer → List Event × Exit Exchange Int}
  {response : Nat → List Byte → Bool} {value : Answer → Int}
  {ready : Nat → Nat → Exchange → Prop}

/--
A loop that receives, counted down: `ready remaining answered` holds while it
waits for the first of the `remaining` responses.
-/
structure Counts (awaited : Session → List Byte → Bool)
    (done : Exchange → Answer → List Event × Exit Exchange Int)
    (response : Nat → List Byte → Bool) (value : Answer → Int)
    (ready : Nat → Nat → Exchange → Prop) : Prop where
  buffer : ∀ {remaining answered exchange} buffer, ready remaining answered exchange →
    ready remaining answered { exchange with buffer := buffer }
  awaited : ∀ {remaining answered exchange} content,
    ready (remaining + 1) answered exchange →
    awaited exchange.session content = response answered content
  crash : ∀ {remaining answered exchange}, ready (remaining + 1) answered exchange →
    (done exchange .serverCrash).2.value? = some (value .serverCrash)
  last : ∀ {answered exchange}, ready 1 answered exchange →
    (done exchange .answered).2.value? = some (value .answered)
  next : ∀ {remaining answered exchange}, ready (remaining + 2) answered exchange →
    ∃ events later, done exchange .answered = (events, .again later) ∧
      later.buffer = exchange.buffer ∧ ready (remaining + 1) (answered + 1) later

theorem Counts.answered (h : Counts awaited done response value ready)
    {remaining answered : Nat} {before exchange : Exchange} {input : Input}
    {inputs : List Input} (hready : ready (remaining + 1) answered exchange)
    (hpass : answerLoop awaited done before input = done exchange .answered)
    (hrest : ∀ {remaining answered : Nat} {later : Exchange},
      ready (remaining + 1) answered later →
      (Reactive.run (answerLoop awaited done) later inputs).2.value? =
        (Sender.verdict response (remaining + 1) answered
          (outcomes later.buffer inputs)).map value) :
    (Reactive.run (answerLoop awaited done) before (input :: inputs)).2.value? =
      (Sender.verdict response remaining (answered + 1)
        (outcomes exchange.buffer inputs)).map value := by
  cases remaining with
  | zero =>
      have hvalue := h.last hready
      rw [← hpass] at hvalue
      rw [value?_run_some hvalue]
      simp [Sender.verdict]
  | succ remaining =>
      obtain ⟨events, later, hdone, hbuffer, hlater⟩ := h.next hready
      rw [value?_run_again (hpass.trans hdone), hrest hlater, hbuffer]

/-- The induction over the inputs: each outcome does to the count what the call does. -/
theorem Counts.run (h : Counts awaited done response value ready)
    {remaining answered : Nat} {exchange : Exchange}
    (hready : ready (remaining + 1) answered exchange) (inputs : List Input) :
    (Reactive.run (answerLoop awaited done) exchange inputs).2.value? =
      (Sender.verdict response (remaining + 1) answered
        (outcomes exchange.buffer inputs)).map value := by
  induction inputs generalizing remaining answered exchange with
  | nil => rfl
  | cons input inputs ih =>
      cases input with
      | recv result =>
          cases result with
          | datagram bytes =>
              cases hstored : transportRecvPacket exchange.buffer bytes with
              | none =>
                  have hpass : answerLoop awaited done exchange (.recv (.datagram bytes)) =
                      ([], .fault) := by
                    simp [answerLoop, receiveLoop, hstored, andThen]
                  rw [run_cons_fault hpass]
                  simp [outcomes, hstored, Sender.verdict, Exit.value?]
              | some buffer =>
                  have hstill := h.buffer buffer hready
                  have hresponse := h.awaited buffer hready
                  simp only [outcomes, hstored, Sender.verdict]
                  cases hawaited : awaited exchange.session buffer with
                  | true =>
                      rw [← hresponse, hawaited, if_pos rfl]
                      have hpass : answerLoop awaited done exchange
                          (.recv (.datagram bytes)) =
                            done { exchange with buffer := buffer } .answered := by
                        simp [answerLoop, receiveLoop, hstored, hawaited, andThen, emit]
                      exact h.answered hstill hpass ih
                  | false =>
                      have hpass : answerLoop awaited done exchange
                          (.recv (.datagram bytes)) =
                            ([], .again { exchange with buffer := buffer }) := by
                        simp [answerLoop, receiveLoop, hstored, hawaited, andThen]
                      rw [← hresponse, hawaited, value?_run_again hpass]
                      exact ih hstill
          | failed errno =>
              simp only [outcomes]
              cases hwireless : checkWirelessConnectivity errno with
              | true =>
                  have hpass : answerLoop awaited done exchange (.recv (.failed errno)) =
                      ([], .again exchange) := by
                    simp [answerLoop, receiveLoop, hwireless, andThen]
                  rw [value?_run_again hpass]
                  exact ih hready
              | false =>
                  have hpass : answerLoop awaited done exchange (.recv (.failed errno)) =
                      done exchange .serverCrash := by
                    simp [answerLoop, receiveLoop, hwireless, andThen, emit]
                  have hvalue := h.crash hready
                  rw [← hpass] at hvalue
                  rw [value?_run_some hvalue]
                  rfl
      | fgets line =>
          have hpass : answerLoop awaited done exchange (.fgets line) =
              ([], .again exchange) := rfl
          rw [value?_run_again hpass]
          exact ih hready
      | wakeUp task junk =>
          have hpass : answerLoop awaited done exchange (.wakeUp task junk) =
              (sessionPacketTimeout exchange.session exchange.tasks task junk,
                .again exchange) := rfl
          rw [value?_run_again hpass]
          exact ih hready

end

/-! ## The value of each call -/

/-- `learn_new_port` returns what happens to be where its value would be. -/
def Setting.value (setting : Setting call) (stack : Stack) : Answer → Int
  | .serverCrash => -1
  | .answered =>
      match call with
      | .learnNewPort => stack.learned (setting.tasks.created + 1)
      | .sessionHandshake => 1
      | .sessionSendData => 0
      | .sessionFinish => 1

def waitsOnce (start : Exchange) (remaining answered : Nat) (exchange : Exchange) : Prop :=
  remaining = 1 ∧ answered = 0 ∧ ∃ buffer, exchange = { start with buffer := buffer }

theorem counts_once {awaited : Session → List Byte → Bool}
    {done : Exchange → Answer → List Event × Exit Exchange Int}
    {response : Nat → List Byte → Bool} {value : Answer → Int} {start : Exchange}
    (hawaited : ∀ content, awaited start.session content = response 0 content)
    (hdone : ∀ buffer answer,
      (done { start with buffer := buffer } answer).2.value? = some (value answer)) :
    Counts awaited done response value (waitsOnce start) where
  buffer := by
    rintro remaining answered exchange buffer ⟨hone, hnone, other, rfl⟩
    exact ⟨hone, hnone, buffer, rfl⟩
  awaited := by
    rintro remaining answered exchange content ⟨_, rfl, other, rfl⟩
    exact hawaited content
  crash := by
    rintro remaining answered exchange ⟨_, _, other, rfl⟩
    exact hdone other .serverCrash
  last := by
    rintro answered exchange ⟨_, _, other, rfl⟩
    exact hdone other .answered
  next := by
    rintro remaining answered exchange ⟨hone, _, _⟩
    omega

theorem value?_enter {σ ι ε ρ : Type} {start : List ε × Exit σ ρ} {body : Body σ ι ε ρ}
    {events : List ε} {state : σ} (h : start = (events, .again state)) (inputs : List ι) :
    (enter start body inputs).2.value? = (run body state inputs).2.value? := by
  rw [h]
  rfl

theorem value?_enter_some {σ ι ε ρ : Type} {start : List ε × Exit σ ρ}
    {body : Body σ ι ε ρ} {value : ρ} (h : start.2.value? = some value) (inputs : List ι) :
    (enter start body inputs).2.value? = some value := by
  obtain ⟨events, exit⟩ := start
  cases exit with
  | again state => cases h
  | done last result => exact h
  | fault => cases h

/-- A call that waits for one response. -/
theorem result?_once (setting : Setting call) (stack : Stack)
    {awaited : Session → List Byte → Bool}
    {done : Exchange → Answer → List Event × Exit Exchange Int}
    {events : List Event} {start : Exchange}
    (hstart : call.start stack setting.data setting.session setting.tasks =
      (events, .again start))
    (hloop : call.loop stack setting.data = answerLoop awaited done)
    (hbuffer : start.buffer = setting.buffer stack) (hrequired : setting.required = 1)
    (hawaited : ∀ content, awaited start.session content = call.response 0 content)
    (hdone : ∀ buffer answer, (done { start with buffer := buffer } answer).2.value? =
      some (setting.value stack answer))
    (inputs : List Input) :
    setting.result? stack inputs =
      (setting.verdict stack inputs).map (setting.value stack) := by
  have hcounts := @counts_once awaited done
    (fun answered content => call.response answered content) _ _ hawaited hdone
  unfold Setting.result? Setting.verdict
  rw [value?_enter hstart, hloop, hrequired, ← hbuffer]
  exact hcounts.run ⟨rfl, rfl, start.buffer, rfl⟩ inputs

theorem result?_learnNewPort (setting : Setting .learnNewPort) (stack : Stack)
    (inputs : List Input) :
    setting.result? stack inputs =
      (setting.verdict stack inputs).map (setting.value stack) := by
  have hpacket : ∃ packet, buildPktHelloRequest setting.session = some packet :=
    ⟨_, if_pos (setting.named rfl)⟩
  obtain ⟨packet, hpacket⟩ := hpacket
  let start : Exchange :=
    ⟨setting.session, (sessionSendPacket setting.session setting.tasks packet).2,
      setting.tasks.created, stack.array setting.tasks.created pktSizeHello⟩
  have hstart : Call.start stack setting.data setting.session setting.tasks .learnNewPort =
      ([.called .learnNewPort,
        .send setting.tasks.created setting.session.addressPort packet], .again start) := by
    simp [Call.start, learnNewPort, hpacket, sessionSendPacket, emit, andThen, start]
  refine result?_once setting stack hstart rfl rfl rfl (fun _ => rfl) ?_ inputs
  intro buffer answer
  cases answer <;> rfl

theorem result?_sessionHandshake (setting : Setting .sessionHandshake) (stack : Stack)
    (inputs : List Input) :
    setting.result? stack inputs =
      (setting.verdict stack inputs).map (setting.value stack) := by
  refine result?_once setting stack rfl rfl rfl rfl (fun _ => rfl) ?_ inputs
  intro buffer answer
  cases answer <;> rfl

theorem result?_sessionFinish (setting : Setting .sessionFinish) (stack : Stack)
    (inputs : List Input) :
    setting.result? stack inputs =
      (setting.verdict stack inputs).map (setting.value stack) := by
  refine result?_once setting stack rfl rfl rfl rfl (fun _ => rfl) ?_ inputs
  intro buffer answer
  cases answer <;> rfl

/-! ## The frames of `session_send_data` -/

variable {stack : Stack} {data : SessionData} {text : List Byte}
  {sessionId : BitVec 32}

theorem sessionSendNext_buffer {exchange later : Exchange} {events : List Event}
    (h : sessionSendNext stack data exchange = (events, .again later)) :
    later.buffer = exchange.buffer := by
  unfold sessionSendNext at h
  split at h
  · cases h
  · cases hpacket : buildPktData exchange.session data
      (stack.bytes exchange.tasks.created) with
    | none =>
        rw [hpacket] at h
        cases h
    | some packet =>
        rw [hpacket] at h
        cases h
        rfl

def waitsForAcks (sessionId : BitVec 32) (text : List Byte) (remaining answered : Nat)
    (exchange : Exchange) : Prop :=
  answered + remaining = text.length ⌈/⌉ maxFrameSize ∧
    Counters sessionId text.length answered exchange.session

theorem sessionSendNext_waits (hdata : data.Holds 0 text)
    (hsize : text.length < sessionSize + maxRecordSize) {remaining answered : Nat}
    {exchange : Exchange}
    (hwaits : waitsForAcks sessionId text (remaining + 1) answered exchange) :
    ∃ events later, sessionSendNext stack data exchange = (events, .again later) ∧
      later.buffer = exchange.buffer ∧
      waitsForAcks sessionId text (remaining + 1) answered later := by
  obtain ⟨htotal, hcounters⟩ := hwaits
  cases sessionSendNext_cases stack hdata hsize (by omega) hcounters with
  | inl hlast => omega
  | inr hnext =>
      obtain ⟨-, later, hsession, hsend⟩ := hnext
      refine ⟨_, later, hsend, sessionSendNext_buffer hsend, htotal, ?_⟩
      rw [hsession]
      exact hcounters

theorem sessionSendNext_value (hdata : data.Holds 0 text)
    (hsize : text.length < sessionSize + maxRecordSize) {answered : Nat}
    {exchange : Exchange} (hwaits : waitsForAcks sessionId text 0 answered exchange) :
    (sessionSendNext stack data exchange).2.value? = some 0 := by
  obtain ⟨htotal, hcounters⟩ := hwaits
  cases sessionSendNext_cases stack hdata hsize (by omega) hcounters with
  | inl hlast =>
      rw [hlast.2]
      rfl
  | inr hnext => omega

def Session.acked (session : Session) : Session :=
  { session with
    noOfPackets := session.noOfPackets - 1#16
    noOfBytes := session.noOfBytes - BitVec.ofNat 32 maxFrameSize
    nextFrameNumber := session.nextFrameNumber + 1#16 }

def Exchange.acked (exchange : Exchange) : List Event × Exchange :=
  { exchange with session := exchange.session.acked }.deleteTask

def afterAck (stack : Stack) (data : SessionData) (exchange : Exchange) :
    Answer → List Event × Exit Exchange Int
  | .answered => emit exchange.acked.1 (sessionSendNext stack data exchange.acked.2)
  | .serverCrash => exchange.deleteAndReturn .sessionSendData (-1)

theorem sessionSendDataLoop_eq :
    sessionSendDataLoop stack data = answerLoop isDataAck (afterAck stack data) := by
  funext exchange input
  unfold sessionSendDataLoop answerLoop
  congr 1

theorem waitsForAcks.acked {remaining answered : Nat} {exchange : Exchange}
    (h : waitsForAcks sessionId text (remaining + 1) answered exchange) :
    waitsForAcks sessionId text remaining (answered + 1) exchange.acked.2 := by
  obtain ⟨htotal, hcounters⟩ := h
  exact ⟨by omega, hcounters.advance (by omega)⟩

theorem counts_acks (hdata : data.Holds 0 text)
    (hsize : text.length < sessionSize + maxRecordSize) {value : Answer → Int}
    (hanswered : value .answered = 0) (hcrash : value .serverCrash = -1) :
    Counts isDataAck (afterAck stack data)
      (fun answered content => Call.sessionSendData.response answered content) value
      (waitsForAcks sessionId text) where
  buffer := fun _ hwaits => hwaits
  awaited := by
    rintro remaining answered exchange content ⟨htotal, hcounters⟩
    have hnumber := hcounters.toNat_nextFrameNumber hsize (by omega)
    rw [isDataAck, hnumber]
    rfl
  crash := by
    intro remaining answered exchange _
    rw [hcrash]
    rfl
  last := by
    intro answered exchange hwaits
    rw [hanswered]
    exact sessionSendNext_value hdata hsize hwaits.acked
  next := by
    intro remaining answered exchange hwaits
    obtain ⟨events, later, hsend, hbuffer, hlater⟩ :=
      sessionSendNext_waits hdata hsize hwaits.acked
    exact ⟨_, later, congrArg (emit _) hsend, hbuffer, hlater⟩

theorem result?_sessionSendData (setting : Setting .sessionSendData) (stack : Stack)
    (inputs : List Input) :
    setting.result? stack inputs =
      (setting.verdict stack inputs).map (setting.value stack) := by
  have hdata := setting.held.holds.left
  have hcounters := setting.counted rfl
  let start : Exchange :=
    ⟨setting.session, setting.tasks, 0, stack.array setting.tasks.created pktSizeDataAck⟩
  have hstart : Call.start stack setting.data setting.session setting.tasks
      .sessionSendData =
        emit [.called .sessionSendData] (sessionSendNext stack setting.data start) := rfl
  have hcounts := @counts_acks stack setting.data setting.text setting.session.sessionId
    hdata setting.size (setting.value stack) rfl rfl
  have hframes : setting.required = setting.text.length ⌈/⌉ maxFrameSize := rfl
  unfold Setting.result? Setting.verdict
  cases hrequired : setting.required with
  | zero =>
      have hwaits : waitsForAcks setting.session.sessionId setting.text 0 0 start :=
        ⟨hrequired.symm.trans hframes, hcounters⟩
      have hvalue : (emit [.called .sessionSendData]
          (sessionSendNext stack setting.data start)).2.value? = some 0 :=
        sessionSendNext_value hdata setting.size hwaits
      rw [hstart, value?_enter_some hvalue]
      simp [Sender.verdict, Setting.value]
  | succ remaining =>
      have hwaits : waitsForAcks setting.session.sessionId setting.text (remaining + 1) 0
          start := ⟨by omega, hcounters⟩
      obtain ⟨events, later, hsend, hbuffer, hlater⟩ :=
        @sessionSendNext_waits stack _ _ _ hdata setting.size _ _ _ hwaits
      have hbegun := hstart.trans (congrArg (emit _) hsend)
      rw [value?_enter hbegun]
      have hrun := hcounts.run hlater inputs
      rw [← sessionSendDataLoop_eq, hbuffer] at hrun
      exact hrun

/-- The calls return what the order of the outcomes says. -/
theorem Setting.result?_eq (setting : Setting call) (stack : Stack)
    (inputs : List Input) :
    setting.result? stack inputs =
      (setting.verdict stack inputs).map (setting.value stack) := by
  cases call with
  | learnNewPort => exact result?_learnNewPort setting stack inputs
  | sessionHandshake => exact result?_sessionHandshake setting stack inputs
  | sessionSendData => exact result?_sessionSendData setting stack inputs
  | sessionFinish => exact result?_sessionFinish setting stack inputs

/-! ## Faithful results -/

/--
The call fails when the server crashes before the last response, and otherwise
returns a value that is no failure and does not depend on what memory holds.
-/
def Setting.Faithful (setting : Setting call) (stack : Stack) (inputs : List Input) :
    Prop :=
  (setting.verdict stack inputs = some .serverCrash →
    setting.result? stack inputs = some (-1)) ∧
  (setting.verdict stack inputs = some .answered →
    ∃ value ≠ -1, ∀ learned,
      setting.result? { stack with learned := learned } inputs = some value)

theorem Setting.verdict_learned (setting : Setting call) (stack : Stack)
    (learned : Nat → Int) (inputs : List Input) :
    setting.verdict { stack with learned := learned } inputs =
      setting.verdict stack inputs := by
  cases call <;> rfl

theorem Setting.faithful_iff (setting : Setting call) (stack : Stack)
    (inputs : List Input) :
    setting.Faithful stack inputs ↔
      ¬ (call = .learnNewPort ∧ setting.verdict stack inputs = some .answered) := by
  have hresult : ∀ learned, setting.verdict stack inputs = some .answered →
      setting.result? { stack with learned := learned } inputs =
        some (setting.value { stack with learned := learned } .answered) := by
    intro learned hanswered
    rw [setting.result?_eq, setting.verdict_learned, hanswered]
    rfl
  constructor
  · rintro ⟨-, hdefinite⟩ ⟨rfl, hanswered⟩
    obtain ⟨value, -, hvalue⟩ := hdefinite hanswered
    have hother := hvalue fun _ => value + 1
    rw [hresult _ hanswered] at hother
    have hsame : value + 1 = value := Option.some.inj hother
    omega
  · intro hnot
    constructor
    · intro hcrash
      rw [setting.result?_eq, hcrash]
      rfl
    · intro hanswered
      cases call with
      | learnNewPort => exact absurd ⟨rfl, hanswered⟩ hnot
      | sessionHandshake => exact ⟨1, by decide, fun learned => hresult learned hanswered⟩
      | sessionSendData => exact ⟨0, by decide, fun learned => hresult learned hanswered⟩
      | sessionFinish => exact ⟨1, by decide, fun learned => hresult learned hanswered⟩

/-! ## What `session_transfer` makes of the port -/

variable {hostName : List Byte} {transfer : Transfer} {input : Input}

def Transfer.EntersData (stack : Stack) (hostName : List Byte) (transfer : Transfer)
    (input : Input) (session : Session) : Prop :=
  ∃ events tasks data numBytes, sessionTransferLoop stack hostName transfer input =
    (events, .again (.reading session tasks data numBytes))

/--
While a port is learned, data are read next exactly when the pass accepts a
HELLO_RESPONSE, and they go to the port in it, as far as it is long enough to
have one.
-/
def Transfer.PortFaithful (stack : Stack) (hostName : List Byte) (transfer : Transfer)
    (input : Input) : Prop :=
  ∀ exchange, transfer = .learning exchange →
    (∀ bytes after, input = .recv (.datagram bytes) →
      Accepts .learnNewPort exchange after bytes →
      ∃ session, transfer.EntersData stack hostName input session) ∧
    ∀ session, transfer.EntersData stack hostName input session →
      ∃ bytes after, input = .recv (.datagram bytes) ∧
        Accepts .learnNewPort exchange after bytes ∧
        session.addressPort = field16 after.buffer 5 ∧
        (7 ≤ bytes.length → session.addressPort = field16 bytes 5)

/-- What `learn_new_port` leaves for its value on a HELLO_RESPONSE is not -1. -/
def Transfer.LearnedDefinite (stack : Stack) (transfer : Transfer) (input : Input) : Prop :=
  ∀ exchange bytes after, transfer = .learning exchange →
    input = .recv (.datagram bytes) → Accepts .learnNewPort exchange after bytes →
    stack.learned exchange.tasks.created ≠ -1

/-- A pass that accepts no response is not the end of `learn_new_port`, or returns -1. -/
theorem learning_waits {exchange : Exchange}
    (hnone : ∀ bytes after, input = .recv (.datagram bytes) →
      ¬ Accepts .learnNewPort exchange after bytes) :
    (Post.mk (fun _ _ => True) (fun _ _ value => value = -1) (fun _ => True)).Of []
      (learnNewPortLoop stack exchange input) := by
  apply exchangeLoop_of
  case hwait => exact fun _ _ => trivial
  case hresend => exact fun _ _ _ => trivial
  case hanswered =>
      intro _ bytes buffer hinput hstored hawaited
      have haccepts : Accepts .learnNewPort exchange { exchange with buffer := buffer }
          bytes := accepts_iff.mpr ⟨buffer, hstored, hawaited, rfl⟩
      exact absurd haccepts (hnone bytes _ hinput)
  case hcrash => exact fun _ => rfl
  case hfault => exact fun _ => trivial

theorem sessionConnect_learning {session : Session} {tasks : Tasks}
    {history : List Event} :
    (Post.mk (fun _ transfer => ∃ exchange, transfer = Transfer.learning exchange)
      (fun _ _ _ => True) (fun _ => True)).Of history
        (sessionConnect stack hostName session tasks) := by
  unfold sessionConnect sessionBuildParameters
  rw [Post.of_emit_iff, Post.of_andThen_iff]
  apply Post.of_forall
  · exact fun _ exchange => ⟨exchange, rfl⟩
  · exact fun _ _ value => nomatch value
  · exact fun _ => trivial

theorem sessionConnect_not_reading {session later : Session} {tasks left : Tasks}
    {events before : List Event} {data : SessionData} {numBytes : Nat}
    (h : emit before (sessionConnect stack hostName session tasks) =
      (events, .again (.reading later left data numBytes))) : False := by
  have hlearning := Post.of_emit_iff.mpr
    (@sessionConnect_learning stack hostName session tasks ([] ++ before))
  rw [h] at hlearning
  obtain ⟨exchange, hexchange⟩ := hlearning
  cases hexchange

/-- Whatever else happens while a port is learned, one is learned next. -/
theorem learning_stays {exchange : Exchange}
    (hnone : ∀ bytes after, input = .recv (.datagram bytes) →
      ¬ Accepts .learnNewPort exchange after bytes) :
    (Post.mk (fun _ transfer => ∃ exchange, transfer = Transfer.learning exchange)
      (fun _ _ _ => True) (fun _ => True)).Of []
        (sessionTransferLoop stack hostName (.learning exchange) input) := by
  unfold sessionTransferLoop
  rw [Post.of_andThen_iff]
  apply (@learning_waits stack _ _ hnone).weaken
  · exact fun _ later _ => ⟨later, rfl⟩
  · rintro events later value rfl
    exact sessionConnect_learning
  · exact fun _ _ => trivial

theorem learning_loop {exchange after : Exchange} {bytes : List Byte}
    (haccepts : Accepts .learnNewPort exchange after bytes) :
    ∃ events later, sessionTransferLoop stack hostName (.learning exchange)
        (.recv (.datagram bytes)) =
          emit events (afterLearn stack hostName later
            (stack.learned exchange.tasks.created)) ∧
      later.session.port = field16 after.buffer 5 := by
  obtain ⟨events, later, hpass, hport⟩ := @learning_accepts exchange bytes stack _ haccepts
  refine ⟨events, later, ?_, hport⟩
  simp [sessionTransferLoop, hpass, andThen]

theorem entersData_iff_of_accepts {exchange after : Exchange} {bytes : List Byte}
    (haccepts : Accepts .learnNewPort exchange after bytes) :
    (∃ session, (Transfer.learning exchange).EntersData stack hostName
        (.recv (.datagram bytes)) session) ↔
      stack.learned exchange.tasks.created ≠ -1 := by
  obtain ⟨events, later, hloop, -⟩ := @learning_loop stack hostName _ _ _ haccepts
  unfold Transfer.EntersData
  rw [hloop, afterLearn]
  split
  case isTrue hfailed =>
      refine iff_of_false ?_ (not_not.mpr hfailed)
      rintro ⟨session, _, _, _, _, hreading⟩
      exact sessionConnect_not_reading hreading
  case isFalse hlearned =>
      exact iff_of_true ⟨_, _, _, _, _, rfl⟩ hlearned

theorem accepts_of_entersData {exchange : Exchange} {session : Session}
    (h : (Transfer.learning exchange).EntersData stack hostName input session) :
    ∃ bytes after, input = .recv (.datagram bytes) ∧
      Accepts .learnNewPort exchange after bytes ∧
      session.addressPort = field16 after.buffer 5 := by
  obtain ⟨events, tasks, data, numBytes, hreading⟩ := h
  by_contra hnot
  by_cases hsome : ∃ bytes after, input = .recv (.datagram bytes) ∧
      Accepts .learnNewPort exchange after bytes
  · obtain ⟨bytes, after, rfl, haccepts⟩ := hsome
    obtain ⟨before, later, hloop, hport⟩ := @learning_loop stack hostName _ _ _ haccepts
    rw [hloop, afterLearn] at hreading
    split at hreading
    · exact sessionConnect_not_reading hreading
    · cases hreading
      exact hnot ⟨bytes, after, rfl, haccepts, hport⟩
  · have hstays := @learning_stays stack hostName input exchange
      fun bytes after hinput haccepts => hsome ⟨bytes, after, hinput, haccepts⟩
    rw [hreading] at hstays
    obtain ⟨other, hother⟩ := hstays
    cases hother

theorem portFaithful_iff :
    transfer.PortFaithful stack hostName input ↔ transfer.LearnedDefinite stack input := by
  constructor
  · rintro hfaithful exchange bytes after rfl rfl haccepts
    exact (entersData_iff_of_accepts haccepts).mp
      ((hfaithful exchange rfl).1 bytes after rfl haccepts)
  · rintro hdefinite exchange rfl
    constructor
    · rintro bytes after rfl haccepts
      exact (entersData_iff_of_accepts haccepts).mpr
        (hdefinite exchange bytes after rfl rfl haccepts)
    · intro session henters
      obtain ⟨bytes, after, hinput, haccepts, hport⟩ := accepts_of_entersData henters
      refine ⟨bytes, after, hinput, haccepts, hport, fun hlong => ?_⟩
      have hcomplete : Complete .learnNewPort exchange.session bytes after.buffer :=
        onlyComplete_of_long hlong haccepts
      rw [hport, hcomplete.port]

/--
The results are faithful but for `learn_new_port` when its response comes; and
`session_transfer` goes on with the port unless what it finds then is -1.
-/
theorem results_faithful_iff (stack : Stack) :
    (∀ (call : Call) (setting : Setting call) (inputs : List Input),
      setting.Faithful stack inputs ↔
        ¬ (call = .learnNewPort ∧ setting.verdict stack inputs = some .answered)) ∧
    ∀ (hostName : List Byte) (session : Session) (inputs : List Input),
      AlongFrom (sessionConnect stack hostName session ⟨[], 0⟩)
          (sessionTransferLoop stack hostName)
          (Transfer.PortFaithful stack hostName) inputs ↔
        AlongFrom (sessionConnect stack hostName session ⟨[], 0⟩)
          (sessionTransferLoop stack hostName)
          (Transfer.LearnedDefinite stack) inputs := by
  constructor
  · exact fun call setting inputs => setting.faithful_iff stack inputs
  · intro hostName session inputs
    exact alongFrom_congr (fun _ _ => portFaithful_iff) inputs

def firstSetting : Setting .learnNewPort where
  session := (sessionBuildParameters [0x68#8] zeroSession).2
  tasks := ⟨[], 0⟩
  data := zeroData
  text := []
  named := fun _ => by decide
  held := holdsText_zeroData
  size := by decide
  counted := fun h => absurd h (by decide)

/-- A HELLO_RESPONSE is answered with whatever was left for a value. -/
theorem results_indefinite : ¬ ∀ (stack : Stack) (call : Call) (setting : Setting call)
    (inputs : List Input), setting.Faithful stack inputs := by
  intro hfaithful
  obtain ⟨value, -, hvalue⟩ := (hfaithful zeroStack .learnNewPort firstSetting
    [.packet .helloResponse (le16 5000#16)]).2 rfl
  have hfirst := hvalue fun _ => value + 1
  rw [firstSetting.result?_eq] at hfirst
  have hsame : value + 1 = value := Option.some.inj hfirst
  omega

end BBCodeBase.Sender
