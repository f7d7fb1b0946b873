import BBCodeBase.Foundation.Rules
import BBCodeBase.Sender.Packet

/-!
# Request and answer exchanges

`learn_new_port`, `session_handshake`, `session_send_data` and `session_finish`:
each sends a packet, starts a task that sends it again every three seconds, and
receives until the awaited answer or a crash of the server.  The function up to
its first receive is one definition, a pass of its receive loop another.

A packet array and a receive buffer live in the frame of their function; what
uninitialised memory holds is given by `Stack`.
-/

namespace BBCodeBase.Sender

open Reactive

inductive RecvResult where
  | datagram (bytes : List Byte)
  | failed (errno : Nat)
  deriving DecidableEq, Repr

/-- What `fgets` reads: less than `MAX_RECORD_SIZE` bytes, nothing for NULL. -/
structure Line where
  chars : List Byte
  fits : chars.length < maxRecordSize
  deriving DecidableEq, Repr

/--
What the program waits for: a return of `recvfrom` or of `fgets`.  Meanwhile a
task may wake up; `junk` is what its packet array holds once its frame is gone.
-/
inductive Input where
  | recv (result : RecvResult)
  | fgets (line : Line)
  | wakeUp (task : Nat) (junk : List Byte)
  deriving DecidableEq, Repr

inductive Function where
  | learnNewPort
  | sessionHandshake
  | sessionSendData
  | sessionFinish
  | sessionHandle
  deriving DecidableEq, Repr

/--
`send` is a packet that `session_send_packet` sends and creates the task for,
`resend` one that `session_packet_timeout` sends; `fgets` puts the bytes
`stored` in `session_data`, and `session_handle` is given them as a `batch`.
-/
inductive Event where
  | socket
  | called (function : Function)
  | returned (function : Function) (value : Int)
  | send (task : Nat) (port : BitVec 16) (packet : List Byte)
  | resend (task : Nat) (port : BitVec 16) (packet : List Byte)
  | deleteTask (task : Nat)
  | stored (chars : List Byte)
  | batch (bytes : List Byte)
  deriving DecidableEq, Repr

structure Task where
  id : Nat
  packet : List Byte
  frame : Bool
  deriving DecidableEq, Repr

structure Tasks where
  live : List Task
  created : Nat
  deriving DecidableEq, Repr

structure Exchange where
  session : Session
  tasks : Tasks
  task : Nat
  buffer : List Byte
  deriving DecidableEq, Repr

/--
The bytes of uninitialised memory and the value that `learn_new_port` returns on
its path without a return statement, by the number of tasks created so far, and
the byte behind the string literal `"DATA.txt"`.
-/
structure Stack where
  bytes : Nat → Nat → Byte
  learned : Nat → Int
  behindLiteral : Byte

variable (stack : Stack)

def Stack.array (created size : Nat) : List Byte :=
  (List.range size).map (stack.bytes created)

/-! ## Tasks -/

def sessionSendPacket (session : Session) (tasks : Tasks) (packet : List Byte) :
    List Event × Tasks :=
  ([.send tasks.created session.addressPort packet],
    ⟨tasks.live ++ [⟨tasks.created, packet, true⟩], tasks.created + 1⟩)

def deleteTask (tasks : Tasks) (task : Nat) : List Event × Tasks :=
  ([.deleteTask task], { tasks with live := tasks.live.filter (·.id ≠ task) })

/-- One turn of the loop of `session_packet_timeout`. -/
def sessionPacketTimeout (session : Session) (tasks : Tasks) (task : Nat)
    (junk : List Byte) : List Event :=
  match tasks.live.find? (·.id = task) with
  | none => []
  | some live =>
      let packet :=
        if live.frame then live.packet
        else (List.range live.packet.length).map (junk.getD · 0#8)
      [.resend task session.addressPort packet]

/-- The frame of a function is gone, and with it the packets of its tasks. -/
def Tasks.leaveFrame (tasks : Tasks) : Tasks :=
  { tasks with live := tasks.live.map fun task => { task with frame := false } }

/-! ## Receiving -/

def checkWirelessConnectivity (errno : Nat) : Bool :=
  errno == 113 || errno == 110 || errno == 101

/-- `session_receive_packet` returns `SERVER_CRASH` on this input. -/
def Input.serverCrash : Input → Bool
  | .recv (.failed errno) => !checkWirelessConnectivity errno
  | _ => false

/-- `recvfrom` stores what fits in `PKT_SIZE_MAX` bytes at the start of the buffer. -/
def transportRecvPacket (buffer bytes : List Byte) : Option (List Byte) :=
  let stored := bytes.take pktSizeMax
  if stored.length ≤ buffer.length then some (stored ++ buffer.drop stored.length)
  else none

inductive Answer where
  | answered
  | serverCrash
  deriving DecidableEq, Repr

/--
One pass of a receive loop: `session_receive_packet` and the tests on its result.
The loop goes on after a packet that is not the `awaited` one and after
`WIRELESS_DOWN`.
-/
def receiveLoop (awaited : Session → List Byte → Bool) :
    Body Exchange Input Event Answer := fun exchange input =>
  match input with
  | .recv (.datagram bytes) =>
      match transportRecvPacket exchange.buffer bytes with
      | none => ([], .fault)
      | some buffer =>
          let exchange := { exchange with buffer := buffer }
          if awaited exchange.session buffer then ([], .done exchange .answered)
          else ([], .again exchange)
  | .recv (.failed errno) =>
      if checkWirelessConnectivity errno then ([], .again exchange)
      else ([], .done exchange .serverCrash)
  | .fgets _ => ([], .again exchange)
  | .wakeUp task junk =>
      (sessionPacketTimeout exchange.session exchange.tasks task junk, .again exchange)

theorem receiveLoop_of {awaited : Session → List Byte → Bool} {exchange : Exchange}
    {input : Input} {history : List Event} {post : Post Exchange Event Answer}
    (hwait : ¬ input.serverCrash → ∀ buffer,
      post.again history { exchange with buffer := buffer })
    (hresend : ¬ input.serverCrash → ∀ task junk, post.again
      (history ++ sessionPacketTimeout exchange.session exchange.tasks task junk)
      exchange)
    (hanswered : ¬ input.serverCrash → ∀ bytes buffer, input = .recv (.datagram bytes) →
      transportRecvPacket exchange.buffer bytes = some buffer →
      awaited exchange.session buffer →
      post.done history { exchange with buffer := buffer } .answered)
    (hcrash : input.serverCrash → post.done history exchange .serverCrash)
    (hfault : ¬ input.serverCrash → post.fault history) :
    post.Of history (receiveLoop awaited exchange input) := by
  cases input with
  | recv result =>
      cases result with
      | datagram bytes =>
          have hsafe : ¬ (Input.recv (.datagram bytes)).serverCrash := Bool.false_ne_true
          cases hstored : transportRecvPacket exchange.buffer bytes with
          | none => simpa [receiveLoop, hstored, Post.Of] using hfault hsafe
          | some buffer =>
              cases hawaited : awaited exchange.session buffer with
              | true =>
                  simpa [receiveLoop, hstored, hawaited, Post.Of]
                    using hanswered hsafe bytes buffer rfl hstored hawaited
              | false =>
                  simpa [receiveLoop, hstored, hawaited, Post.Of]
                    using hwait hsafe buffer
      | failed errno =>
          cases hwireless : checkWirelessConnectivity errno with
          | true =>
              simpa [receiveLoop, hwireless, Post.Of, Input.serverCrash]
                using hwait (by simp [Input.serverCrash, hwireless]) exchange.buffer
          | false =>
              simpa [receiveLoop, hwireless, Post.Of]
                using hcrash (by simp [Input.serverCrash, hwireless])
  | fgets line =>
      simpa [receiveLoop, Post.Of] using hwait Bool.false_ne_true exchange.buffer
  | wakeUp task junk => exact hresend Bool.false_ne_true task junk

theorem exchangeLoop_of {awaited : Session → List Byte → Bool} {exchange : Exchange}
    {done : Exchange → Answer → List Event × Exit Exchange Int}
    {input : Input} {history : List Event} {post : Post Exchange Event Int}
    (hwait : ¬ input.serverCrash → ∀ buffer,
      post.again history { exchange with buffer := buffer })
    (hresend : ¬ input.serverCrash → ∀ task junk, post.again
      (history ++ sessionPacketTimeout exchange.session exchange.tasks task junk)
      exchange)
    (hanswered : ¬ input.serverCrash → ∀ bytes buffer, input = .recv (.datagram bytes) →
      transportRecvPacket exchange.buffer bytes = some buffer →
      awaited exchange.session buffer →
      post.Of history (done { exchange with buffer := buffer } .answered))
    (hcrash : input.serverCrash → post.Of history (done exchange .serverCrash))
    (hfault : ¬ input.serverCrash → post.fault history) :
    post.Of history (andThen (receiveLoop awaited exchange input) id done) :=
  Post.of_andThen_iff.mpr (receiveLoop_of hwait hresend hanswered hcrash hfault)

def Exchange.deleteTask (exchange : Exchange) : List Event × Exchange :=
  let (events, tasks) := Sender.deleteTask exchange.tasks exchange.task
  (events, { exchange with tasks := tasks })

def Exchange.return (exchange : Exchange) (function : Function) (value : Int) :
    List Event × Exit Exchange Int :=
  ([.returned function value],
    .done { exchange with tasks := exchange.tasks.leaveFrame } value)

def Exchange.deleteAndReturn (exchange : Exchange) (function : Function) (value : Int) :
    List Event × Exit Exchange Int :=
  let (events, exchange) := exchange.deleteTask
  emit events (exchange.return function value)

theorem deleteAndReturn_of {exchange : Exchange} {function : Function} {value : Int}
    {history : List Event} {post : Post Exchange Event Int}
    (h : post.done (history ++ exchange.deleteTask.1 ++ [.returned function value])
      { exchange.deleteTask.2 with tasks := exchange.deleteTask.2.tasks.leaveFrame }
      value) :
    post.Of history (exchange.deleteAndReturn function value) :=
  Post.of_emit_iff.mpr h

/-! ## `learn_new_port` -/

def learnNewPort (session : Session) (tasks : Tasks) :
    List Event × Exit Exchange Empty :=
  emit [.called .learnNewPort] <|
    match buildPktHelloRequest session with
    | none => ([], .fault)
    | some packet =>
        let (events, later) := sessionSendPacket session tasks packet
        (events,
          .again ⟨session, later, tasks.created, stack.array tasks.created pktSizeHello⟩)

def isHelloResponse (_ : Session) (packet : List Byte) : Bool :=
  packetType packet == PacketType.helloResponse.code

def learnNewPortLoop : Body Exchange Input Event Int := fun exchange input =>
  andThen (receiveLoop isHelloResponse exchange input) id fun exchange answer =>
    match answer with
    | .answered =>
        let exchange :=
          { exchange with
            session := { exchange.session with port := field16 exchange.buffer 5 } }
        exchange.deleteAndReturn .learnNewPort (stack.learned exchange.tasks.created)
    | .serverCrash => exchange.deleteAndReturn .learnNewPort (-1)

/-! ## `session_handshake` -/

def sessionHandshake (session : Session) (tasks : Tasks) :
    List Event × Exit Exchange Int :=
  let frame := stack.array tasks.created (pktSizeHandshake + 2)
  let packet := buildPktHandshake session (frame.getD · 0#8)
  let (events, later) := sessionSendPacket session tasks packet
  emit [.called .sessionHandshake]
    (events, .again ⟨session, later, tasks.created, frame.drop 2⟩)

def isHandshakeAck (_ : Session) (packet : List Byte) : Bool :=
  packetType packet == PacketType.handshakeAck.code

def sessionHandshakeLoop : Body Exchange Input Event Int := fun exchange input =>
  andThen (receiveLoop isHandshakeAck exchange input) id fun exchange answer =>
    match answer with
    | .answered => exchange.deleteAndReturn .sessionHandshake 1
    | .serverCrash => exchange.deleteAndReturn .sessionHandshake (-1)

/-! ## `session_send_data` -/

/-- The head of `while (session->no_of_packets)` and what follows up to the receive. -/
def sessionSendNext (data : SessionData) (exchange : Exchange) :
    List Event × Exit Exchange Int :=
  if exchange.session.noOfPackets = 0#16 then exchange.return .sessionSendData 0
  else
    match buildPktData exchange.session data (stack.bytes exchange.tasks.created) with
    | none => ([], .fault)
    | some packet =>
        let length := minValue (BitVec.ofNat 32 maxFrameSize) exchange.session.noOfBytes
        let (events, later) :=
          sessionSendPacket exchange.session exchange.tasks
            (packet.take (11 + length.toNat))
        (events, .again { exchange with tasks := later, task := exchange.tasks.created })

def sessionSendData (data : SessionData) (session : Session) (tasks : Tasks) :
    List Event × Exit Exchange Int :=
  let buffer := stack.array tasks.created pktSizeDataAck
  emit [.called .sessionSendData] (sessionSendNext stack data ⟨session, tasks, 0, buffer⟩)

/-- The number of the frame sent is compared as an `int`. -/
def isDataAck (session : Session) (packet : List Byte) : Bool :=
  packetType packet == PacketType.dataAck.code &&
    (field16 packet 5).toNat == session.nextFrameNumber.toNat + 1

def sessionSendDataLoop (data : SessionData) : Body Exchange Input Event Int :=
  fun exchange input =>
    andThen (receiveLoop isDataAck exchange input) id fun exchange answer =>
      match answer with
      | .answered =>
          let session := exchange.session
          let exchange :=
            { exchange with
              session :=
                { session with
                  noOfPackets := session.noOfPackets - 1#16
                  noOfBytes := session.noOfBytes - BitVec.ofNat 32 maxFrameSize
                  nextFrameNumber := session.nextFrameNumber + 1#16 } }
          let (events, exchange) := exchange.deleteTask
          emit events (sessionSendNext stack data exchange)
      | .serverCrash => exchange.deleteAndReturn .sessionSendData (-1)

/-! ## `session_finish` -/

def sessionFinish (session : Session) (tasks : Tasks) : List Event × Exit Exchange Int :=
  let (events, later) := sessionSendPacket session tasks (buildPktFinish session)
  emit [.called .sessionFinish]
    (events,
      .again ⟨session, later, tasks.created, stack.array tasks.created pktSizeFinish⟩)

def isFinishAck (_ : Session) (packet : List Byte) : Bool :=
  packetType packet == PacketType.finishAck.code

/-- On the answer the task is kept: the call of `delete_task` is commented out. -/
def sessionFinishLoop : Body Exchange Input Event Int := fun exchange input =>
  andThen (receiveLoop isFinishAck exchange input) id fun exchange answer =>
    match answer with
    | .answered => exchange.return .sessionFinish 1
    | .serverCrash => exchange.deleteAndReturn .sessionFinish (-1)

end BBCodeBase.Sender
