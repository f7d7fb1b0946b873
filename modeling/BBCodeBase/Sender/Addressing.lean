import BBCodeBase.Sender.Payload
import BBCodeBase.Sender.Wire
import Mathlib.Data.List.GetD

/-!
# Where the datagrams go

A run of `session_transfer` has two parts.  Until a port is learned only HELLO
packets are sent, all to `COMMON_CONNECT_PORT`; from then on everything goes to
the port that was learned, what the tasks send again included, and no other port
is ever learned.
-/

namespace BBCodeBase.Sender

open Reactive

variable {stack : Stack} {data : SessionData} {session : Session} {tasks : Tasks}
  {exchange : Exchange} {history : List Event} {packet : List Byte} {port : BitVec 16}

/-! ## The session id in a packet -/

theorem field32_append (first rest : List Byte) {offset : Nat}
    (h : offset + 3 < first.length) :
    field32 (first ++ rest) offset = field32 first offset := by
  simp only [field32]
  rw [List.getD_append _ _ _ _ (by omega), List.getD_append _ _ _ _ (by omega),
    List.getD_append _ _ _ _ (by omega), List.getD_append _ _ _ _ (by omega)]

/-- The field behind the type of every packet. -/
theorem field32_sessionId (type : Byte) (sessionId : BitVec 32) (rest : List Byte) :
    field32 (type :: le32 sessionId ++ rest) 1 = sessionId := by
  rw [field32_append _ _ (by simp)]
  exact field32_le32 sessionId

/-! ## The two parts of a run -/

def Event.Greets : Event → Prop
  | .send _ port packet => port = commonConnectPort ∧
      packetType packet = PacketType.helloRequest.code ∧ field32 packet 1 = commonSessionId
  | .resend _ port _ => port = commonConnectPort
  | _ => True

/-- A packet of the session; the one of FINISH names its port as well. -/
structure Belongs (port : BitVec 16) (packet : List Byte) : Prop where
  type : packetType packet = PacketType.handshake.code ∨
    packetType packet = PacketType.data.code ∨ packetType packet = PacketType.finish.code
  sessionId : field32 packet 1 = commonSessionId
  port : packetType packet = PacketType.finish.code → field16 packet 5 = port

def Event.Converses (port : BitVec 16) : Event → Prop
  | .send _ target packet => target = port ∧ Belongs port packet
  | .resend _ target _ => target = port
  | _ => True

/-- First HELLO packets, and from some moment on the packets of the session. -/
def Connected (port : BitVec 16) (history : List Event) : Prop :=
  ∃ greetings conversation, history = greetings ++ conversation ∧
    (∀ event ∈ greetings, event.Greets) ∧ ∀ event ∈ conversation, event.Converses port

theorem Connected.append (h : Connected port history) {events : List Event}
    (hevents : ∀ event ∈ events, event.Converses port) : Connected port (history ++ events) := by
  obtain ⟨greetings, conversation, rfl, hgreets, hconverses⟩ := h
  exact ⟨greetings, conversation ++ events, List.append_assoc _ _ _, hgreets,
    List.forall_mem_append.mpr ⟨hconverses, hevents⟩⟩

theorem Connected.concat (h : Connected port history) {event : Event}
    (hevent : event.Converses port) : Connected port (history ++ [event]) :=
  h.append (List.forall_mem_singleton.mpr hevent)

/-! ## While a port is learned -/

structure Session.Greeting (session : Session) : Prop where
  sessionId : session.sessionId = commonSessionId
  addressPort : session.addressPort = commonConnectPort

structure Greeting (history : List Event) (session : Session) : Prop where
  events : ∀ event ∈ history, event.Greets
  session : session.Greeting

theorem Greeting.concat (h : Greeting history session) {event : Event}
    (hevent : event.Greets) : Greeting (history ++ [event]) session :=
  ⟨List.forall_mem_append.mpr ⟨h.events, List.forall_mem_singleton.mpr hevent⟩, h.session⟩

theorem Greeting.skip (h : Greeting history session) {event : Event}
    (hevent : event.packet? = none) : Greeting (history ++ [event]) session := by
  apply h.concat
  cases event <;> first | exact trivial | cases hevent

theorem Greeting.timeout (h : Greeting history session) (tasks : Tasks) (task : Nat)
    (junk : List Byte) :
    Greeting (history ++ sessionPacketTimeout session tasks task junk) session := by
  unfold sessionPacketTimeout
  cases tasks.live.find? (·.id = task) with
  | none =>
      rw [List.append_nil]
      exact h
  | some live => exact h.concat h.session.addressPort

/-- The port that the answer names does not matter before the address is changed. -/
theorem Greeting.learned (h : Greeting history session) (port : BitVec 16) :
    Greeting history { session with port := port } :=
  ⟨h.events, ⟨h.session.sessionId, h.session.addressPort⟩⟩

theorem field32_hello (h : buildPktHelloRequest session = some packet) :
    field32 packet 1 = session.sessionId := by
  unfold buildPktHelloRequest at h
  split at h
  · rw [← Option.some.inj h, List.append_assoc]
    exact field32_sessionId _ _ _
  · cases h

theorem learnNewPort_greets (h : ∀ event ∈ history, event.Greets)
    (hsession : session.Greeting) :
    (Post.mk (fun events exchange => Greeting events exchange.session)
      (fun _ _ _ => False) (fun events => ∀ event ∈ events, event.Greets)).Of history
        (learnNewPort stack session tasks) := by
  have hcalled : Greeting (history ++ [.called .learnNewPort]) session :=
    Greeting.skip ⟨h, hsession⟩ rfl
  unfold learnNewPort
  rw [Post.of_emit_iff]
  cases hbuild : buildPktHelloRequest session with
  | none => exact Post.of_fault_iff.mpr hcalled.events
  | some packet =>
      have hid := (field32_hello hbuild).trans hsession.sessionId
      exact hcalled.concat ⟨hsession.addressPort, packetType_hello hbuild, hid⟩

def greetingPost : Post Exchange Event Int where
  again := fun events exchange => Greeting events exchange.session
  done := fun events exchange _ => Greeting events exchange.session
  fault := fun events => ∀ event ∈ events, event.Greets

theorem Greeting.deleteAndReturn (h : Greeting history exchange.session)
    (function : Function) (value : Int) :
    greetingPost.Of history (exchange.deleteAndReturn function value) := by
  apply deleteAndReturn_of
  exact (h.skip rfl).skip rfl

theorem learnNewPortLoop_greets (h : Greeting history exchange.session) (input : Input) :
    greetingPost.Of history (learnNewPortLoop stack exchange input) := by
  unfold learnNewPortLoop
  apply exchangeLoop_of
  case hwait => exact fun _ _ => h
  case hresend => exact fun _ task junk => h.timeout exchange.tasks task junk
  case hanswered =>
      intro _ _ buffer _ _ _
      exact Greeting.deleteAndReturn (h.learned (field16 buffer 5)) _ _
  case hcrash => exact fun _ => h.deleteAndReturn _ _
  case hfault => exact fun _ => h.events

/-! ## While batches are handled -/

structure Session.On (session : Session) (port : BitVec 16) : Prop where
  sessionId : session.sessionId = commonSessionId
  addressPort : session.addressPort = port
  port : session.port = port

structure Conversing (port : BitVec 16) (history : List Event) (session : Session) :
    Prop where
  events : Connected port history
  session : session.On port

theorem Conversing.concat (h : Conversing port history session) {event : Event}
    (hevent : event.Converses port) : Conversing port (history ++ [event]) session :=
  ⟨h.events.concat hevent, h.session⟩

theorem Conversing.skip (h : Conversing port history session) {event : Event}
    (hevent : event.packet? = none) : Conversing port (history ++ [event]) session := by
  apply h.concat
  cases event <;> first | exact trivial | cases hevent

theorem Conversing.timeout (h : Conversing port history session) (tasks : Tasks)
    (task : Nat) (junk : List Byte) :
    Conversing port (history ++ sessionPacketTimeout session tasks task junk) session := by
  unfold sessionPacketTimeout
  cases tasks.live.find? (·.id = task) with
  | none =>
      rw [List.append_nil]
      exact h
  | some live => exact h.concat h.session.addressPort

theorem Conversing.send (h : Conversing port history session) (hpacket : Belongs port packet)
    (tasks : Tasks) :
    Conversing port (history ++ (sessionSendPacket session tasks packet).1) session :=
  h.concat ⟨h.session.addressPort, hpacket⟩

/-- Only these three fields of the session matter. -/
theorem Conversing.of_same {other : Session} (h : Conversing port history session)
    (hid : other.sessionId = session.sessionId) (hport : other.port = session.port)
    (haddress : other.addressPort = session.addressPort) : Conversing port history other :=
  ⟨h.events, ⟨hid.trans h.session.sessionId, haddress.trans h.session.addressPort,
    hport.trans h.session.port⟩⟩

theorem belongs_handshake (hsession : session.On port) (behind : Nat → Byte) :
    Belongs port (buildPktHandshake session behind) where
  type := .inl rfl
  sessionId := by
    rw [buildPktHandshake, List.append_assoc, List.append_assoc, field32_sessionId]
    exact hsession.sessionId
  port := fun htype => absurd htype (by simp [buildPktHandshake, packetType, PacketType.code])

theorem belongs_data (hsession : session.On port) {behind : Nat → Byte}
    (h : buildPktData session data behind = some packet) (length : Nat) :
    Belongs port (packet.take (11 + length)) where
  type := .inr (.inl (buildPktData_header h length).1)
  sessionId := by
    simp only [buildPktData, Option.bind_eq_bind, Option.bind_eq_some_iff] at h
    obtain ⟨content, -, hpacket⟩ := h
    rw [← Option.some.inj hpacket, Nat.add_comm]
    exact (field32_le32 session.sessionId).trans hsession.sessionId
  port := fun htype =>
    absurd ((buildPktData_header h length).1.symm.trans htype) (by decide)

theorem belongs_finish (hsession : session.On port) :
    Belongs port (buildPktFinish session) where
  type := .inr (.inr rfl)
  sessionId := (field32_le32 session.sessionId).trans hsession.sessionId
  port := fun _ => (field16_le16 session.port).trans hsession.port

def conversing (port : BitVec 16) : Contract where
  waiting := fun _ events exchange => Conversing port events exchange.session
  returned := fun _ events exchange _ => Conversing port events exchange.session
  handled := fun events exchange _ => Conversing port events exchange.session
  fault := Connected port

theorem Conversing.deleteAndReturn (h : Conversing port history exchange.session)
    (phase : Phase) (function : Function) (value : Int) :
    ((conversing port).call phase).Of history
      (exchange.deleteAndReturn function value) := by
  apply deleteAndReturn_of
  exact (h.skip rfl).skip rfl

theorem sessionSendNext_converses (h : Conversing port history exchange.session) :
    ((conversing port).call .data).Of history (sessionSendNext stack data exchange) := by
  unfold sessionSendNext
  split
  · exact h.skip rfl
  · cases hbuild : buildPktData exchange.session data
      (stack.bytes exchange.tasks.created) with
    | none => exact Post.of_fault_iff.mpr h.events
    | some packet => exact h.send (belongs_data h.session hbuild _) exchange.tasks

theorem sessionHandshake_converses (h : Conversing port history session) :
    ((conversing port).call .handshake).Of history
      (sessionHandshake stack session tasks) := by
  unfold sessionHandshake
  rw [Post.of_emit_iff]
  have hcalled : Conversing port (history ++ [.called .sessionHandshake]) session :=
    h.skip rfl
  exact hcalled.send (belongs_handshake h.session _) tasks

theorem callLoop_converses (phase : Phase) (h : Conversing port history exchange.session)
    (input : Input) :
    ((conversing port).call phase).Of history (callLoop stack data phase exchange input) := by
  cases phase with
  | handshake =>
      apply exchangeLoop_of
      case hwait => exact fun _ _ => h
      case hresend => exact fun _ task junk => h.timeout exchange.tasks task junk
      case hanswered => exact fun _ _ _ _ _ _ => Conversing.deleteAndReturn h .handshake _ _
      case hcrash => exact fun _ => h.deleteAndReturn _ _ _
      case hfault => exact fun _ => h.events
  | data =>
      apply exchangeLoop_of
      case hwait => exact fun _ _ => h
      case hresend => exact fun _ task junk => h.timeout exchange.tasks task junk
      case hanswered =>
          intro _ _ buffer _ _ _
          apply Post.of_emit_iff.mpr
          apply sessionSendNext_converses
          exact (h.skip rfl).of_same rfl rfl rfl
      case hcrash => exact fun _ => h.deleteAndReturn _ _ _
      case hfault => exact fun _ => h.events
  | finish =>
      apply exchangeLoop_of
      case hwait => exact fun _ _ => h
      case hresend => exact fun _ task junk => h.timeout exchange.tasks task junk
      case hanswered => exact fun _ _ _ _ _ _ => h.skip rfl
      case hcrash => exact fun _ => h.deleteAndReturn _ _ _
      case hfault => exact fun _ => h.events

theorem conversing_chained : (conversing port).Chained stack data where
  sendData := by
    intro history exchange ret h _
    unfold sessionSendData
    rw [Post.of_emit_iff]
    exact sessionSendNext_converses (h.skip rfl)
  finish := by
    intro history exchange ret h _
    unfold sessionFinish
    rw [Post.of_emit_iff]
    have hcalled : Conversing port (history ++ [.called .sessionFinish]) exchange.session :=
      h.skip rfl
    exact hcalled.send (belongs_finish h.session) exchange.tasks
  failed := fun _ _ _ h => h.skip rfl
  handled := fun _ _ _ h _ => h.skip rfl

/-! ## Whole runs -/

def Addressed (history : List Event) : Transfer → Prop
  | .learning exchange => Greeting history exchange.session
  | .reading session _ _ _ => ∃ port, Conversing port history session
  | .handling handle _ => ∃ port, Conversing port history handle.exchange.session

def addressed : Post Transfer Event Empty where
  again := Addressed
  done := fun _ _ _ => True
  fault := fun events => ∃ port, Connected port events

theorem connected_of_greets (h : ∀ event ∈ history, event.Greets) (port : BitVec 16) :
    Connected port history :=
  ⟨history, [], (List.append_nil _).symm, h, fun _ hmem => absurd hmem List.not_mem_nil⟩

variable {hostName : List Byte} {transfer : Transfer}

theorem sessionConnect_addressed (h : ∀ event ∈ history, event.Greets) :
    addressed.Of history (sessionConnect stack hostName session tasks) := by
  unfold sessionConnect sessionBuildParameters
  rw [Post.of_emit_iff, Post.of_andThen_iff]
  have hsocket : ∀ event ∈ history ++ [.socket], event.Greets :=
    List.forall_mem_append.mpr ⟨h, List.forall_mem_singleton.mpr trivial⟩
  apply (learnNewPort_greets hsocket ⟨rfl, rfl⟩).weaken
  · exact fun _ _ hgreets => hgreets
  · exact fun _ _ _ hfalse => hfalse.elim
  · exact fun _ hevents => ⟨commonConnectPort, connected_of_greets hevents _⟩

theorem afterLearn_addressed (h : Greeting history exchange.session) (ret : Int) :
    addressed.Of history (afterLearn stack hostName exchange ret) := by
  unfold afterLearn
  split
  · exact sessionConnect_addressed h.events
  · apply Post.of_again_iff.mpr
    exact ⟨exchange.session.port, connected_of_greets h.events _,
      ⟨h.session.sessionId, rfl, rfl⟩⟩

theorem andThen_addressed {pass : List Event × Exit Handle Int}
    (h : (conversing port).handle.Of history pass) :
    addressed.Of history (andThen pass (Transfer.handling · data) (afterHandle data)) := by
  rw [Post.of_andThen_iff]
  apply h.weaken
  · exact fun _ _ hconverses => ⟨port, hconverses⟩
  · intro events handle ret hconverses
    change addressed.Of events (afterHandle data handle ret)
    exact Post.of_again_iff.mpr ⟨port, hconverses⟩
  · exact fun _ hevents => ⟨port, hevents⟩

theorem sessionReadLine_addressed (h : Conversing port history session) (numBytes : Nat)
    (line : Line) :
    addressed.Of history (sessionReadLine stack data session tasks numBytes line) := by
  have hline : Conversing port (history ++ line.events) session := by
    unfold Line.events
    split
    · rw [List.append_nil]
      exact h
    · exact h.skip rfl
  unfold sessionReadLine
  cases storeLine data numBytes line with
  | none => exact Post.of_fault_iff.mpr ⟨port, h.events⟩
  | some data =>
      dsimp only
      rw [Post.of_emit_iff]
      cases strlen data with
      | none => exact Post.of_fault_iff.mpr ⟨port, hline.events⟩
      | some numBytes =>
          dsimp only
          split
          · exact Post.of_again_iff.mpr ⟨port, hline⟩
          · unfold sessionSendBatch
            split
            · exact Post.of_again_iff.mpr ⟨port, hline⟩
            · rw [Post.of_emit_iff]
              apply andThen_addressed
              apply conversing_chained.sessionHandle
              apply sessionHandshake_converses
              exact ((hline.skip rfl).skip rfl).of_same rfl rfl rfl

theorem Addressed.sessionTransferLoop (h : Addressed history transfer) (input : Input) :
    addressed.Of history (Sender.sessionTransferLoop stack hostName transfer input) := by
  unfold Sender.sessionTransferLoop
  cases transfer with
  | learning exchange =>
      dsimp only
      rw [Post.of_andThen_iff]
      apply (learnNewPortLoop_greets h input).weaken
      · exact fun _ _ hgreets => hgreets
      · exact fun _ _ ret hgreets => afterLearn_addressed hgreets ret
      · exact fun _ hevents => ⟨commonConnectPort, connected_of_greets hevents _⟩
  | reading session tasks data numBytes =>
      obtain ⟨port, hconverses⟩ := h
      cases input with
      | recv result => exact Post.of_again_iff.mpr ⟨port, hconverses⟩
      | fgets line => exact sessionReadLine_addressed hconverses numBytes line
      | wakeUp task junk => exact ⟨port, hconverses.timeout tasks task junk⟩
  | handling handle data =>
      obtain ⟨port, hconverses⟩ := h
      apply andThen_addressed
      exact conversing_chained.sessionHandleLoop (callLoop_converses _ hconverses input)

def Transfer.SendsTo (port : BitVec 16) : Transfer → Prop
  | .learning _ => True
  | .reading session _ _ _ => session.On port
  | .handling handle _ => handle.exchange.session.On port

/--
In every run the datagrams go to `COMMON_CONNECT_PORT` and are HELLO packets
until a port is learned, and from then on all go to this one port, what is sent
again by any task included; every packet carries the session id, and FINISH the
port.
-/
theorem datagrams_addressed (stack : Stack) (hostName : List Byte) (session : Session)
    (inputs : List Input) :
    ∃ port, Connected port (sessionTransfer stack hostName session inputs).1 ∧
      ∀ transfer, (sessionTransfer stack hostName session inputs).2 = .again transfer →
        transfer.SendsTo port := by
  have hrun : addressed.Of [] (sessionTransfer stack hostName session inputs) :=
    Post.Of.enter (sessionConnect_addressed fun _ hmem => absurd hmem List.not_mem_nil)
      (fun _ _ input _ h => h.sessionTransferLoop input)
      fun input (_ : input ∈ inputs) => trivial
  revert hrun
  generalize sessionTransfer stack hostName session inputs = pass
  intro hrun
  obtain ⟨events, exit⟩ := pass
  cases exit with
  | again transfer =>
      cases transfer with
      | learning exchange =>
          refine ⟨commonConnectPort, connected_of_greets hrun.events _, ?_⟩
          rintro _ ⟨⟩
          exact trivial
      | reading session tasks data numBytes =>
          obtain ⟨port, hconverses⟩ := hrun
          refine ⟨port, hconverses.events, ?_⟩
          rintro _ ⟨⟩
          exact hconverses.session
      | handling handle data =>
          obtain ⟨port, hconverses⟩ := hrun
          refine ⟨port, hconverses.events, ?_⟩
          rintro _ ⟨⟩
          exact hconverses.session
  | done last value => nomatch value
  | fault =>
      obtain ⟨port, hevents⟩ := hrun
      exact ⟨port, hevents, fun _ h => nomatch h⟩

end BBCodeBase.Sender
