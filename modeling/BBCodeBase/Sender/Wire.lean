import BBCodeBase.Foundation.Reassembly
import BBCodeBase.Sender.Payload
import BBCodeBase.Sender.Traffic

/-!
# The datagrams on the wire

All that a run sends, retransmissions included, as a receiver sees it who only
goes by the headers of the datagrams.  A task that is live sends the packet of
the exchange under way again.  The tasks that `session_finish` leaves behind send
whatever its frame has become, but no more than the seven bytes of a FINISH
packet, which announce nothing and carry no data.
-/

namespace BBCodeBase.Sender

open Reactive Reassembly

variable {stack : Stack} {data : SessionData} {session : Session} {tasks : Tasks}
  {exchange : Exchange} {history : List Event} {packet : List Byte}

def Event.packet? : Event → Option (List Byte)
  | .send _ _ packet => some packet
  | .resend _ _ packet => some packet
  | _ => none

def wirePackets (history : List Event) : List (List Byte) :=
  history.filterMap Event.packet?

def handshakeLength : Nat := 17

def dataHeaderLength : Nat := 11

/--
What a datagram means to a receiver that trusts its header.  A HANDSHAKE
without all the fields of `handshake_pkt` means nothing to it.
-/
def message (packet : List Byte) : Message Byte :=
  if packetType packet = PacketType.handshake.code ∧ handshakeLength ≤ packet.length then
    .announce (field16 packet 5).toNat
  else if packetType packet = PacketType.data.code ∧
      packet.length = dataHeaderLength + (field32 packet 5).toNat then
    .chunk (field16 packet 9).toNat (payload packet)
  else .other

theorem message_of_short (h : packet.length < dataHeaderLength) :
    message packet = .other := by
  have hdata : dataHeaderLength = 11 := rfl
  have hhandshake : handshakeLength = 17 := rfl
  rw [message, if_neg (by omega), if_neg (by omega)]

/-! ## Retransmissions repeat the last packet -/

def Repeating (history : List Event) : Prop :=
  Repeats ((sentPackets history).map message) ((wirePackets history).map message)

theorem repeating_send (h : Repeating history) (task : Nat) (port : BitVec 16)
    (packet : List Byte) : Repeating (history ++ [.send task port packet]) := by
  have hnext := Repeats.next (message packet) h
  simpa [Repeating, sentPackets, wirePackets, Event.packet?] using hnext

theorem repeating_again {earlier : List (List Byte)} (h : Repeating history)
    (hlast : sentPackets history = earlier ++ [packet]) (task : Nat) (port : BitVec 16) :
    Repeating (history ++ [.resend task port packet]) := by
  have hsame : sentPackets (history ++ [.resend task port packet]) = sentPackets history :=
    sentPackets_skip rfl
  unfold Repeating at h ⊢
  rw [hsame]
  rw [hlast, List.map_append] at h ⊢
  have hagain := Repeats.again h
  simpa [wirePackets, Event.packet?] using hagain

/-- What is sent again and is too short to mean anything. -/
theorem repeating_short (h : Repeating history) (hshort : packet.length < dataHeaderLength)
    (task : Nat) (port : BitVec 16) :
    Repeating (history ++ [.resend task port packet]) := by
  have hsame : sentPackets (history ++ [.resend task port packet]) = sentPackets history :=
    sentPackets_skip rfl
  unfold Repeating at h ⊢
  rw [hsame]
  have hignored := Repeats.ignored h
  simpa [wirePackets, Event.packet?, message_of_short hshort] using hignored

theorem sentPackets_other {event : Event} (hpacket : event.packet? = none) :
    sentPackets (history ++ [event]) = sentPackets history := by
  apply sentPackets_skip
  cases event <;> first | rfl | cases hpacket

theorem repeating_skip (h : Repeating history) {event : Event}
    (hpacket : event.packet? = none) : Repeating (history ++ [event]) := by
  unfold Repeating at h ⊢
  rw [sentPackets_other hpacket]
  simpa [wirePackets, hpacket] using h

/-! ## The tasks during a run -/

/-- A task whose packet array is gone, and which was too short to mean anything. -/
def Task.Leftover (task : Task) (created : Nat) : Prop :=
  task.id < created ∧ task.frame = false ∧ task.packet.length < dataHeaderLength

def Whole (packet : List Byte) : Prop :=
  packetType packet = PacketType.handshake.code → handshakeLength ≤ packet.length

structure Quiescent (history : List Event) (tasks : Tasks) : Prop where
  repeating : Repeating history
  whole : ∀ packet ∈ sentPackets history, Whole packet
  leftover : ∀ task ∈ tasks.live, task.Leftover tasks.created

theorem quiescent_start : Quiescent [] ⟨[], 0⟩ where
  repeating := .start
  whole := fun _ hmem => absurd hmem List.not_mem_nil
  leftover := fun _ hmem => absurd hmem List.not_mem_nil

/-- While a call receives, its task is the youngest and sends its packet again. -/
structure InFlight (packet : List Byte) (history : List Event) (exchange : Exchange) :
    Prop where
  repeating : Repeating history
  whole : ∀ packet ∈ sentPackets history, Whole packet
  last : ∃ earlier, sentPackets history = earlier ++ [packet]
  live : ∃ left, exchange.tasks.live = left ++ [⟨exchange.task, packet, true⟩] ∧
    ∀ task ∈ left, task.Leftover exchange.task
  created : exchange.task < exchange.tasks.created

theorem Quiescent.skip (h : Quiescent history tasks) {event : Event}
    (hpacket : event.packet? = none) : Quiescent (history ++ [event]) tasks where
  repeating := repeating_skip h.repeating hpacket
  whole := by
    rw [sentPackets_other hpacket]
    exact h.whole
  leftover := h.leftover

theorem Task.Leftover.timeout {task : Task} {created : Nat} (h : task.Leftover created)
    (hrepeating : Repeating history) (port : BitVec 16) (junk : List Byte) (id : Nat) :
    Repeating (history ++ [.resend id port
      (if task.frame then task.packet
        else (List.range task.packet.length).map (junk.getD · 0#8))]) := by
  apply repeating_short hrepeating
  rw [h.2.1, if_neg Bool.false_ne_true, List.length_map, List.length_range]
  exact h.2.2

theorem Quiescent.timeout (h : Quiescent history tasks) (session : Session) (task : Nat)
    (junk : List Byte) :
    Quiescent (history ++ sessionPacketTimeout session tasks task junk) tasks where
  leftover := h.leftover
  whole := by
    rw [sentPackets_skip (sentPackets_timeout task junk)]
    exact h.whole
  repeating := by
    unfold sessionPacketTimeout
    cases hfind : tasks.live.find? (·.id = task) with
    | none =>
        rw [List.append_nil]
        exact h.repeating
    | some live =>
        exact (h.leftover live (List.mem_of_find?_eq_some hfind)).timeout h.repeating _ _ _

theorem InFlight.timeout (h : InFlight packet history exchange) (session : Session)
    (task : Nat) (junk : List Byte) :
    InFlight packet (history ++ sessionPacketTimeout session exchange.tasks task junk)
      exchange := by
  obtain ⟨hrepeating, hwhole, ⟨earlier, hlast⟩, ⟨left, hlive, hleft⟩, hcreated⟩ := h
  have hsent := @sentPackets_skip history _ (@sentPackets_timeout session exchange.tasks task junk)
  refine ⟨?_, by rwa [hsent], ⟨earlier, hsent.trans hlast⟩, ⟨left, hlive, hleft⟩, hcreated⟩
  unfold sessionPacketTimeout
  rw [hlive, List.find?_append]
  cases hfind : left.find? (·.id = task) with
  | some live =>
      exact (hleft live (List.mem_of_find?_eq_some hfind)).timeout hrepeating _ _ _
  | none =>
      by_cases hcurrent : exchange.task = task
      · simpa [hcurrent] using repeating_again hrepeating hlast task session.addressPort
      · simpa [hcurrent] using hrepeating

theorem Quiescent.send (h : Quiescent history tasks) (hpacket : Whole packet)
    (session : Session) (buffer : List Byte) :
    InFlight packet (history ++ (sessionSendPacket session tasks packet).1)
      ⟨session, (sessionSendPacket session tasks packet).2, tasks.created, buffer⟩ where
  repeating := repeating_send h.repeating _ _ _
  whole := by
    rw [sentPackets_append, sentPackets_send, List.forall_mem_append]
    exact ⟨h.whole, List.forall_mem_singleton.mpr hpacket⟩
  last := ⟨sentPackets history, by rw [sentPackets_append, sentPackets_send]⟩
  live := ⟨tasks.live, rfl, h.leftover⟩
  created := Nat.lt_succ_self tasks.created

theorem InFlight.delete (h : InFlight packet history exchange) :
    Quiescent (history ++ exchange.deleteTask.1) exchange.deleteTask.2.tasks := by
  obtain ⟨hrepeating, hwhole, -, ⟨left, hlive, hleft⟩, hcreated⟩ := h
  refine ⟨repeating_skip hrepeating rfl, ?_, ?_⟩
  · have hsame := @sentPackets_other history (.deleteTask exchange.task) rfl
    change ∀ packet ∈ sentPackets (history ++ [.deleteTask exchange.task]), Whole packet
    rwa [hsame]
  intro task hmem
  have hmem' : task ∈ exchange.tasks.live ∧ task.id ≠ exchange.task := by
    simpa [Exchange.deleteTask, deleteTask] using hmem
  rw [hlive, List.mem_append, List.mem_singleton] at hmem'
  rcases hmem' with ⟨hold | rfl, hother⟩
  · exact ⟨Nat.lt_trans (hleft task hold).1 hcreated, (hleft task hold).2⟩
  · exact absurd rfl hother

theorem Quiescent.leaveFrame (h : Quiescent history tasks) :
    Quiescent history tasks.leaveFrame where
  repeating := h.repeating
  whole := h.whole
  leftover := by
    intro task hmem
    obtain ⟨before, hbefore, rfl⟩ := List.mem_map.mp hmem
    exact ⟨(h.leftover before hbefore).1, rfl, (h.leftover before hbefore).2.2⟩

/-- The task that `session_finish` does not delete joins those that are left over. -/
theorem InFlight.leave (h : InFlight packet history exchange)
    (hshort : packet.length < dataHeaderLength) :
    Quiescent history exchange.tasks.leaveFrame := by
  obtain ⟨hrepeating, hwhole, -, ⟨left, hlive, hleft⟩, hcreated⟩ := h
  refine ⟨hrepeating, hwhole, ?_⟩
  intro task hmem
  obtain ⟨before, hbefore, rfl⟩ := List.mem_map.mp hmem
  rw [hlive, List.mem_append, List.mem_singleton] at hbefore
  rcases hbefore with hold | rfl
  · exact ⟨Nat.lt_trans (hleft before hold).1 hcreated, rfl, (hleft before hold).2.2⟩
  · exact ⟨hcreated, rfl, hshort⟩

/-! ## The calls -/

/-- The packet is the one that the call sends, `learn_new_port` standing for `none`. -/
def Suits (history : List Event) (session : Session) (packet : List Byte) :
    Option Phase → Prop
  | none => packetType packet = PacketType.helloRequest.code
  | some .handshake => packetType packet = PacketType.handshake.code ∧
      packet.length = pktSizeHandshake
  | some .data => packetType packet = PacketType.data.code ∧
      field16 packet 9 = session.nextFrameNumber ∧
      ⟨(traffic history).batch, packet⟩ ∈ (traffic history).frames
  | some .finish => packetType packet = PacketType.finish.code ∧
      packet.length = pktSizeFinish

theorem Suits.quietly {start : List Event} {phase : Option Phase}
    (h : Suits start session packet phase) (hquiet : Quietly start history) :
    Suits history session packet phase := by
  cases phase with
  | none => exact h
  | some phase =>
      cases phase with
      | handshake => exact h
      | data =>
          obtain ⟨htype, hnumber, hframe⟩ := h
          refine ⟨htype, hnumber, ?_⟩
          rw [(sameBatch_quietly hquiet).batch]
          obtain ⟨events, rfl, -⟩ := hquiet
          exact frames_subset_append events hframe
      | finish => exact h

theorem Suits.whole {phase : Option Phase} (h : Suits history session packet phase) :
    Whole packet := by
  intro htype
  cases phase with
  | none => exact absurd (h.symm.trans htype) (by decide)
  | some phase =>
      cases phase with
      | handshake =>
          rw [h.2]
          decide
      | data => exact absurd (h.1.symm.trans htype) (by decide)
      | finish => exact absurd (h.1.symm.trans htype) (by decide)

def Flying (phase : Option Phase) (history : List Event) (exchange : Exchange) : Prop :=
  ∃ packet, InFlight packet history exchange ∧
    Suits history exchange.session packet phase

theorem Quiescent.fly {phase : Option Phase} (h : Quiescent history tasks)
    (buffer : List Byte)
    (hsuits : Suits (history ++ (sessionSendPacket session tasks packet).1) session packet
      phase) :
    Flying phase (history ++ (sessionSendPacket session tasks packet).1)
      ⟨session, (sessionSendPacket session tasks packet).2, tasks.created, buffer⟩ :=
  ⟨packet, h.send hsuits.whole session buffer, hsuits⟩

def wirePost (phase : Option Phase) : Post Exchange Event Int where
  again := Flying phase
  done := fun events exchange _ => Quiescent events exchange.tasks
  fault := fun _ => True

variable {phase : Option Phase}

theorem Flying.deleteAndReturn (h : Flying phase history exchange) (function : Function)
    (value : Int) :
    (wirePost phase).Of history (exchange.deleteAndReturn function value) := by
  obtain ⟨packet, hflying, -⟩ := h
  apply deleteAndReturn_of
  exact (hflying.delete.skip rfl).leaveFrame

/-- While a call receives, only what its answer leads to has to be shown. -/
theorem exchangeLoop_wire {awaited : Session → List Byte → Bool}
    {done : Exchange → Answer → List Event × Exit Exchange Int}
    (h : Flying phase history exchange) (input : Input)
    (hanswered : ∀ buffer, (wirePost phase).Of history
      (done { exchange with buffer := buffer } .answered))
    (hcrash : (wirePost phase).Of history (done exchange .serverCrash)) :
    (wirePost phase).Of history (andThen (receiveLoop awaited exchange input) id done) := by
  have ⟨packet, hflying, hsuits⟩ := h
  apply exchangeLoop_of
  case hwait =>
      exact fun _ buffer =>
        ⟨packet, ⟨hflying.repeating, hflying.whole, hflying.last, hflying.live,
          hflying.created⟩, hsuits⟩
  case hresend =>
      exact fun _ task junk => ⟨packet, hflying.timeout _ task junk,
        hsuits.quietly ((Quietly.refl history).timeout task junk)⟩
  case hanswered => exact fun _ _ buffer _ _ _ => hanswered buffer
  case hcrash => exact fun _ => hcrash
  case hfault => exact fun _ => trivial

/-- The header of the packet that is sent, which is cut behind its data. -/
theorem buildPktData_header {behind : Nat → Byte}
    (h : buildPktData session data behind = some packet) (length : Nat) :
    packetType (packet.take (11 + length)) = PacketType.data.code ∧
      field16 (packet.take (11 + length)) 9 = session.nextFrameNumber := by
  simp only [buildPktData, Option.bind_eq_bind, Option.bind_eq_some_iff] at h
  obtain ⟨content, -, hpacket⟩ := h
  rw [← Option.some.inj hpacket, Nat.add_comm]
  exact ⟨rfl, field16_le16 _⟩

theorem suits_data (h : packetType packet = PacketType.data.code)
    (hnumber : field16 packet 9 = session.nextFrameNumber) (task : Nat) (port : BitVec 16) :
    Suits (history ++ [.send task port packet]) session packet (some .data) := by
  refine ⟨h, hnumber, ?_⟩
  rw [traffic_concat]
  simp [Traffic.next, h]

theorem learnNewPort_wire (h : Quiescent history tasks) :
    (Post.mk (Flying none) (fun _ _ _ => False) (fun _ => True)).Of history
      (learnNewPort stack session tasks) := by
  unfold learnNewPort
  rw [Post.of_emit_iff]
  cases hbuild : buildPktHelloRequest session with
  | none => exact trivial
  | some packet =>
      have hhello := packetType_hello hbuild
      exact (h.skip rfl).fly _ hhello

theorem learnNewPortLoop_wire (h : Flying none history exchange) (input : Input) :
    (wirePost none).Of history (learnNewPortLoop stack exchange input) := by
  unfold learnNewPortLoop
  apply exchangeLoop_wire h
  · intro buffer
    exact Flying.deleteAndReturn h _ _
  · exact h.deleteAndReturn _ _

theorem sessionSendNext_wire (h : Quiescent history exchange.tasks) :
    (wirePost (some .data)).Of history (sessionSendNext stack data exchange) := by
  unfold sessionSendNext
  split
  · exact (h.skip rfl).leaveFrame
  · cases hbuild : buildPktData exchange.session data
      (stack.bytes exchange.tasks.created) with
    | none => exact trivial
    | some packet =>
        obtain ⟨htype, hnumber⟩ := buildPktData_header hbuild
          (minValue (BitVec.ofNat 32 maxFrameSize) exchange.session.noOfBytes).toNat
        exact h.fly exchange.buffer (suits_data htype hnumber _ _)

theorem sessionFinish_wire (h : Quiescent history tasks) :
    (wirePost (some .finish)).Of history (sessionFinish stack session tasks) := by
  unfold sessionFinish
  rw [Post.of_emit_iff]
  exact (h.skip rfl).fly _ ⟨rfl, rfl⟩

theorem callLoop_wire (phase : Phase) (h : Flying (some phase) history exchange)
    (input : Input) :
    (wirePost (some phase)).Of history (callLoop stack data phase exchange input) := by
  cases phase with
  | handshake =>
      apply exchangeLoop_wire h
      · intro buffer
        exact Flying.deleteAndReturn h _ _
      · exact h.deleteAndReturn _ _
  | data =>
      have ⟨packet, hflying, _⟩ := h
      apply exchangeLoop_wire h
      · intro buffer
        apply Post.of_emit_iff.mpr
        exact sessionSendNext_wire hflying.delete
      · exact h.deleteAndReturn _ _
  | finish =>
      have ⟨packet, hflying, _, hlength⟩ := h
      have hshort : packet.length < dataHeaderLength := by
        rw [hlength]
        decide
      apply exchangeLoop_wire h
      · intro buffer
        have hleft := hflying.leave hshort
        exact hleft.skip rfl
      · exact h.deleteAndReturn _ _

def wireContract : Contract where
  waiting := fun phase => Flying (some phase)
  returned := fun _ events exchange _ => Quiescent events exchange.tasks
  handled := fun events exchange _ => Quiescent events exchange.tasks
  fault := fun _ => True

theorem wireContract_chained : wireContract.Chained stack data where
  sendData := by
    intro history exchange ret h _
    unfold sessionSendData
    apply Post.of_emit_iff.mpr
    exact sessionSendNext_wire (h.skip rfl)
  finish := fun _ _ _ h _ => sessionFinish_wire h
  failed := fun _ _ _ h => h.skip rfl
  handled := fun _ _ _ h _ => h.skip rfl

def repeating : TransferContract where
  learning := Flying none
  reading := fun _ => Quiescent
  handling := fun _ events handle => Flying (some handle.phase) events handle.exchange
  fault := fun _ => True

theorem Quiescent.line (h : Quiescent history tasks) (line : Line) :
    Quiescent (history ++ line.events) tasks := by
  unfold Line.events
  split
  · rwa [List.append_nil]
  · exact h.skip rfl

theorem repeating_kept : repeating.Kept stack (fun _ => True) (fun _ _ _ => True) where
  connect := fun _ _ _ h => learnNewPort_wire (h.skip rfl)
  learn := fun _ _ input h => learnNewPortLoop_wire h input
  line := fun _ _ _ line _ h => h.line line
  timeout := fun _ _ session _ task junk h => h.timeout session task junk
  start := by
    intro text history session tasks data _ _ _ h
    apply wireContract_chained.sessionHandle
    unfold sessionHandshake
    apply Post.of_emit_iff.mpr
    exact (((h.skip rfl).skip rfl).skip rfl).fly _ ⟨rfl, rfl⟩
  handle := by
    intro text history handle data input _ _ _ h
    apply wireContract_chained.sessionHandleLoop
    exact callLoop_wire handle.phase h input

theorem repeating_holds {transfer : Transfer} (h : repeating.Holds history transfer) :
    Repeating history ∧ ∀ packet ∈ sentPackets history, Whole packet := by
  cases transfer with
  | learning exchange =>
      obtain ⟨packet, hflying, -⟩ := h
      exact ⟨hflying.repeating, hflying.whole⟩
  | reading session tasks data numBytes =>
      obtain ⟨_, _, _, _, hquiescent⟩ := h
      exact ⟨hquiescent.repeating, hquiescent.whole⟩
  | handling handle data =>
      obtain ⟨_, _, _, _, packet, hflying, -⟩ := h
      exact ⟨hflying.repeating, hflying.whole⟩

end BBCodeBase.Sender
