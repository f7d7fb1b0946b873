import BBCodeBase.Foundation.Reach
import BBCodeBase.Sender.Calls
import BBCodeBase.Sender.Network
import BBCodeBase.Sender.Tasks
import BBCodeBase.Sender.Wire

/-!
# A batch can always be completed

Wherever sender, peer and network stand while a batch is handled, and even if
every datagram that is under way is lost, the batch can still be completed: the
task of the exchange under way sends its packet again, the packet reaches the
peer, the peer answers it and the answer reaches the sender.
-/

namespace BBCodeBase.Sender

open Reactive Fragments

variable {stack : Stack} {hostName : List Byte} {net : Network} {data : SessionData}
  {handle : Handle} {history : List Event} {exchange : Exchange} {packet : List Byte}

/-! ## Steps with new datagrams only -/

/-- How many datagrams were sent, have arrived and were sent back up to some moment. -/
structure Lost where
  datagrams : Nat
  received : Nat
  answers : Nat

def Network.lost (net : Network) : Lost :=
  ⟨(traffic net.history).datagrams.length, net.received.length, net.answers.length⟩

/--
Tasks wake up, and what was sent later than that arrives, is acknowledged or
answered by a packet with all its fields, and reaches the sender.
-/
def Lost.Fresh (lost : Lost) (net : Network) : Step → Prop
  | .input (.wakeUp _ _) => True
  | .input _ => False
  | .arrive index => lost.datagrams ≤ index
  | .acknowledge batch number =>
      ∃ datagram ∈ net.received.drop lost.received, datagram.batch = batch ∧
        (field16 datagram.packet 9).toNat = number
  | .answer index fields => lost.received ≤ index ∧ 6 ≤ fields.length
  | .deliver index => lost.answers ≤ index

def Lost.Before (lost : Lost) (net : Network) : Prop :=
  lost.datagrams ≤ net.lost.datagrams ∧ lost.received ≤ net.lost.received ∧
    lost.answers ≤ net.lost.answers

/-! ## What holds of every state of the network -/

def TransferContract.network (contract : TransferContract) : Post Network Event Empty where
  again := fun _ net => contract.Holds net.history net.transfer
  done := fun _ _ _ => True
  fault := fun _ => True

variable {contract : TransferContract}

theorem TransferContract.Kept.pass (h : contract.Kept stack (fun _ => True) fun _ _ _ => True)
    (hholds : contract.Holds net.history net.transfer) (input : Input) (events : List Event) :
    contract.network.Of events (net.pass stack hostName input) := by
  have hpass : contract.transfer.Of net.history
      (Sender.sessionTransferLoop stack hostName net.transfer input) := by
    apply h.sessionTransferLoop hholds trivial
    cases net.transfer <;> exact trivial
  unfold Network.pass
  revert hpass
  cases Sender.sessionTransferLoop stack hostName net.transfer input with
  | mk emitted exit =>
      intro hpass
      cases exit with
      | again transfer => exact hpass
      | done last value => nomatch value
      | fault => exact trivial

theorem TransferContract.Kept.networkLoop
    (h : contract.Kept stack (fun _ => True) fun _ _ _ => True)
    (hholds : contract.Holds net.history net.transfer) (step : Step) (events : List Event) :
    contract.network.Of events (Sender.networkLoop stack hostName net step) := by
  cases step with
  | input input =>
      cases input with
      | recv result =>
          cases result with
          | datagram bytes => exact hholds
          | failed errno => exact h.pass hholds _ _
      | fgets line => exact h.pass hholds _ _
      | wakeUp task junk => exact h.pass hholds _ _
  | deliver index =>
      simp only [Sender.networkLoop]
      cases net.answers[index]? with
      | none => exact hholds
      | some answer => exact h.pass hholds _ _
  | arrive index =>
      simp only [Sender.networkLoop]
      cases (traffic net.history).datagrams[index]? <;> exact hholds
  | acknowledge batch number =>
      simp only [Sender.networkLoop]
      split <;> exact hholds
  | answer index fields =>
      simp only [Sender.networkLoop]
      cases net.received[index]? with
      | none => exact hholds
      | some request =>
          dsimp only
          cases answerType request.packet <;> exact hholds

/-- The task of the exchange holds its packet, the counters fit, and the arrays their size. -/
structure Steady (net : Network) : Prop where
  wire : repeating.Holds net.history net.transfer
  counters : (progress fun _ _ => True).Holds net.history net.transfer
  arrays : sizing.Holds net.history net.transfer

def steadily : Post Network Event Empty where
  again := fun _ net => Steady net
  done := fun _ _ _ => True
  fault := fun _ => True

theorem steadily_of {events : List Event} {pass : List Event × Exit Network Empty}
    (hwire : repeating.network.Of events pass)
    (hcounters : (progress fun _ _ => True).network.Of events pass)
    (harrays : sizing.network.Of events pass) : steadily.Of events pass := by
  apply (hwire.and (hcounters.and harrays)).weaken
  · exact fun _ _ ⟨hw, hc, ha⟩ => ⟨hw, hc, ha⟩
  · exact fun _ _ _ _ => trivial
  · exact fun _ _ => trivial

theorem counters_kept :
    (progress fun _ _ => True).Kept stack (fun _ => True) fun _ _ _ => True where
  connect := (progress_kept stack).connect
  learn := (progress_kept stack).learn
  line := (progress_kept stack).line
  timeout := (progress_kept stack).timeout
  start := (progress_kept stack).start
  handle := fun text history handle data input _ =>
    (progress_kept stack).handle text history handle data input fun _ _ => trivial

theorem Steady.networkLoop (h : Steady net) (step : Step) (events : List Event) :
    steadily.Of events (Sender.networkLoop stack hostName net step) := by
  have hwire := @TransferContract.Kept.networkLoop stack hostName net _ repeating_kept
    h.wire step events
  have hcounters := @TransferContract.Kept.networkLoop stack hostName net _ counters_kept
    h.counters step events
  have harrays := @TransferContract.Kept.networkLoop stack hostName net _ sizing_kept
    h.arrays step events
  exact steadily_of hwire hcounters harrays

theorem TransferContract.Kept.networkStart
    (h : contract.Kept stack (fun _ => True) fun _ _ _ => True)
    (hstart : contract.reading [] [] ⟨[], 0⟩) (hostName : List Byte) (session : Session) :
    contract.network.Of [] (Sender.networkStart stack hostName session) := by
  have hconnect : contract.transfer.Of []
      (Sender.sessionConnect stack hostName session ⟨[], 0⟩) := h.sessionConnect hstart
  unfold Sender.networkStart
  revert hconnect
  cases Sender.sessionConnect stack hostName session ⟨[], 0⟩ with
  | mk events exit =>
      intro hconnect
      cases exit with
      | again transfer => exact hconnect
      | done last value => nomatch value
      | fault => exact trivial

theorem networkStart_steady (stack : Stack) (hostName : List Byte) (session : Session) :
    steadily.Of [] (networkStart stack hostName session) := by
  have hwire := (@repeating_kept stack).networkStart quiescent_start hostName session
  have hcounters := (@counters_kept stack).networkStart
    (fun _ hentry => absurd hentry List.not_mem_nil) hostName session
  have harrays := (@sizing_kept stack).networkStart trivial hostName session
  exact steadily_of hwire hcounters harrays

/-- At every moment of the network. -/
theorem network_steady (stack : Stack) (hostName : List Byte) (session : Session)
    (steps : List Step) :
    steadily.Of [] (enter (networkStart stack hostName session)
      (networkLoop stack hostName) steps) :=
  Post.Of.enter (networkStart_steady stack hostName session)
    (fun history _ step _ h => h.networkLoop step history)
    fun step (_ : step ∈ steps) => trivial

/-! ## One round -/

theorem InFlight.resend (h : InFlight packet history exchange) (session : Session)
    (junk : List Byte) :
    sessionPacketTimeout session exchange.tasks exchange.task junk =
      [.resend exchange.task session.addressPort packet] := by
  obtain ⟨left, hlive, hleft⟩ := h.live
  have hnone : left.find? (·.id = exchange.task) = none := by
    rw [List.find?_eq_none]
    intro task hmem
    have := (hleft task hmem).1
    simp only [decide_eq_true_eq]
    omega
  simp [sessionPacketTimeout, hlive, hnone]

theorem sessionHandleLoop_wakeUp (handle : Handle) (task : Nat) (junk : List Byte) :
    sessionHandleLoop stack data handle (.wakeUp task junk) =
      (sessionPacketTimeout handle.exchange.session handle.exchange.tasks task junk,
        .again handle) := by
  obtain ⟨phase, exchange⟩ := handle
  cases phase <;> rfl

def Network.answered (net : Network) (exchange : Exchange) (packet answer : List Byte) :
    Network :=
  { net with
    history := net.history ++ [.resend exchange.task exchange.session.addressPort packet]
    received := net.received ++ [⟨(traffic net.history).batch, packet⟩]
    answers := net.answers ++ [⟨(traffic net.history).batch, answer⟩] }

theorem traffic_resend (task : Nat) (port : BitVec 16) :
    traffic (history ++ [.resend task port packet]) =
      { traffic history with
        datagrams := (traffic history).datagrams ++ [⟨(traffic history).batch, packet⟩] } :=
  traffic_concat _

theorem networkLoop_wakeUp (htransfer : net.transfer = .handling handle data)
    (hflying : InFlight packet net.history handle.exchange) :
    networkLoop stack hostName net (.input (.wakeUp handle.exchange.task [])) =
      ([.resend handle.exchange.task handle.exchange.session.addressPort packet],
        .again { net with
          history := net.history ++
            [.resend handle.exchange.task handle.exchange.session.addressPort packet] }) := by
  simp only [networkLoop, Network.pass, htransfer, sessionTransferLoop,
    sessionHandleLoop_wakeUp, hflying.resend, andThen]

theorem Steady.answered (h : Steady net) (htransfer : net.transfer = .handling handle data)
    (hflying : InFlight packet net.history handle.exchange) (answer : List Byte) :
    Steady (net.answered handle.exchange packet answer) := by
  have hsteady := @Steady.networkLoop zeroStack [] net h
    (.input (.wakeUp handle.exchange.task [])) []
  rw [networkLoop_wakeUp htransfer hflying] at hsteady
  exact ⟨hsteady.wire, hsteady.counters, hsteady.arrays⟩

/-- The packet is sent again, arrives, and is answered in the step `reply`. -/
theorem answered_of {lost : Lost} {goal : Network → Prop} {answer : List Byte} {reply : Step}
    (hlost : lost.Before net) (htransfer : net.transfer = .handling handle data)
    (hflying : InFlight packet net.history handle.exchange)
    (hreply : lost.Fresh
      { net.answered handle.exchange packet answer with answers := net.answers } reply)
    (hanswer : ∀ answers, networkLoop stack hostName
      { net.answered handle.exchange packet answer with answers := answers } reply =
        ([], .again { net.answered handle.exchange packet answer with
          answers := answers ++ [⟨(traffic net.history).batch, answer⟩] }))
    (hgoal : Reaches (networkLoop stack hostName) lost.Fresh
      (net.answered handle.exchange packet answer) goal) :
    Reaches (networkLoop stack hostName) lost.Fresh net goal := by
  have hwakes := @networkLoop_wakeUp stack hostName _ _ _ _ htransfer hflying
  have harrives : networkLoop stack hostName
      { net with
        history := net.history ++
          [.resend handle.exchange.task handle.exchange.session.addressPort packet] }
      (.arrive (traffic net.history).datagrams.length) =
        ([], .again { net.answered handle.exchange packet answer with
          answers := net.answers }) := by
    simp [networkLoop, traffic_resend, Network.answered]
  refine Reaches.step ?_ hwakes (Reaches.step ?_ harrives ?_)
  · exact trivial
  · exact hlost.1
  · exact Reaches.step hreply (hanswer net.answers) hgoal

variable {lost : Lost} {goal : Network → Prop}

/-- A HANDSHAKE or FINISH packet comes back with the type of its answer. -/
theorem answered_request (hlost : lost.Before net)
    (htransfer : net.transfer = .handling handle data)
    (hflying : InFlight packet net.history handle.exchange) {type : PacketType}
    (htype : answerType packet = some type) (hlength : pktSizeFinish ≤ packet.length)
    (hgoal : Reaches (networkLoop stack hostName) lost.Fresh
      (net.answered handle.exchange packet (type.code :: packet.drop 1)) goal) :
    Reaches (networkLoop stack hostName) lost.Fresh net goal := by
  have hlong : pktSizeFinish = 7 := rfl
  have hfields : 6 ≤ (packet.drop 1).length := by
    rw [List.length_drop]
    omega
  have hfresh : lost.Fresh
      { net.answered handle.exchange packet (type.code :: packet.drop 1) with
        answers := net.answers } (.answer net.received.length (packet.drop 1)) :=
    ⟨hlost.2.1, hfields⟩
  apply answered_of hlost htransfer hflying hfresh _ hgoal
  intro answers
  simp [networkLoop, Network.answered, htype]

theorem answered_frame (hlost : lost.Before net)
    (htransfer : net.transfer = .handling handle data)
    (hflying : InFlight packet net.history handle.exchange)
    (hsuits : Suits net.history handle.exchange.session packet (some .data))
    (hgoal : Reaches (networkLoop stack hostName) lost.Fresh
      (net.answered handle.exchange packet (dataAckPkt
        (BitVec.ofNat 16 (handle.exchange.session.nextFrameNumber.toNat + 1)))) goal) :
    Reaches (networkLoop stack hostName) lost.Fresh net goal := by
  obtain ⟨-, hnumber, hframe⟩ := hsuits
  let ack := dataAckPkt (BitVec.ofNat 16 (handle.exchange.session.nextFrameNumber.toNat + 1))
  have hlate : Datagram.mk (traffic net.history).batch packet ∈
      (net.answered handle.exchange packet ack).received.drop lost.received := by
    rw [Network.answered, List.drop_append_of_le_length hlost.2.1]
    simp
  have hfresh : lost.Fresh
      { net.answered handle.exchange packet ack with answers := net.answers }
      (.acknowledge (traffic net.history).batch
        handle.exchange.session.nextFrameNumber.toNat) :=
    ⟨_, hlate, rfl, congrArg BitVec.toNat hnumber⟩
  apply answered_of hlost htransfer hflying hfresh _ hgoal
  intro answers
  have hholds : Network.HoldsFrame { net.answered handle.exchange packet (dataAckPkt
      (BitVec.ofNat 16 (handle.exchange.session.nextFrameNumber.toNat + 1))) with
        answers := answers }
      (traffic net.history).batch handle.exchange.session.nextFrameNumber.toNat := by
    refine ⟨⟨(traffic net.history).batch, packet⟩, ?_, rfl, ?_, ?_⟩
    · simp [Network.answered]
    · exact frames_subset_append _ hframe
    · rw [hnumber]
  rw [networkLoop, if_pos hholds]

theorem deliver_answered (exchange : Exchange) (packet answer : List Byte) :
    networkLoop stack hostName (net.answered exchange packet answer)
        (.deliver net.answers.length) =
      (net.answered exchange packet answer).pass stack hostName (.recv (.datagram answer)) := by
  simp [networkLoop, Network.answered]

/-! ## What the answer does -/

variable {bytes : List Byte} {sessionId : BitVec 32} {text : List Byte}

theorem sessionHandshakeLoop_answered {buffer : List Byte}
    (hstored : transportRecvPacket exchange.buffer bytes = some buffer)
    (hack : packetType buffer = PacketType.handshakeAck.code) :
    ∃ events last, sessionHandshakeLoop exchange (.recv (.datagram bytes)) =
      (events, .done last 1) ∧ last.session = exchange.session := by
  have hawaited : ∀ session, isHandshakeAck session buffer = true := by
    intro session
    simp [isHandshakeAck, hack]
  simp only [sessionHandshakeLoop, receiveLoop, hstored, hawaited, if_true, andThen]
  exact ⟨_, _, rfl, rfl⟩

theorem afterHandshake_sends (hdata : data.Holds 0 text) (hne : text ≠ [])
    (hsize : text.length < sessionSize + maxRecordSize)
    (hcounters : Counters sessionId text.length 0 exchange.session) :
    ∃ events later, afterHandshake stack data exchange 1 =
      (events, .again ⟨.data, later⟩) ∧ later.session = exchange.session := by
  have hpos : 0 < text.length ⌈/⌉ maxFrameSize := by
    rw [lt_ceilDiv_iff (by decide), Nat.zero_mul]
    exact List.length_pos_of_ne_nil hne
  let sending : Exchange := ⟨exchange.session, exchange.tasks, 0,
    stack.array exchange.tasks.created pktSizeDataAck⟩
  rcases @sessionSendNext_cases stack sending sessionId 0 data text hdata hsize
    (Nat.zero_le _) hcounters with hlast | hnext
  · exact absurd hlast.1 (Nat.ne_of_lt hpos)
  · obtain ⟨-, later, hsession, hsend⟩ := hnext
    have hafter : afterHandshake stack data exchange 1 =
        (.called .sessionSendData :: (sessionSendPacket sending.session sending.tasks
          (dataFrame sessionId text 0)).1, .again ⟨.data, later⟩) := by
      rw [afterHandshake, if_neg (by decide), sessionSendData, hsend]
      rfl
    exact ⟨_, later, hafter, hsession⟩

/-- The handshake is over, and the first frame is sent. -/
theorem sessionHandleLoop_shaken (hphase : handle.phase = .handshake)
    (hdata : data.Holds 0 text) (hne : text ≠ [])
    (hsize : text.length < sessionSize + maxRecordSize)
    (hcounters : Counters sessionId text.length 0 handle.exchange.session)
    {buffer : List Byte} (hstored : transportRecvPacket handle.exchange.buffer bytes = some buffer)
    (hack : packetType buffer = PacketType.handshakeAck.code) :
    ∃ events later, sessionHandleLoop stack data handle (.recv (.datagram bytes)) =
        (events, .again ⟨.data, later⟩) ∧
      Counters sessionId text.length 0 later.session := by
  obtain ⟨before, last, hloop, hlast⟩ := sessionHandshakeLoop_answered hstored hack
  rw [← hlast] at hcounters
  obtain ⟨after, later, hsends, hsession⟩ :=
    @afterHandshake_sends stack data last _ _ hdata hne hsize hcounters
  rw [← hsession] at hcounters
  refine ⟨before ++ after, later, ?_, hcounters⟩
  rw [sessionHandleLoop, hphase]
  simp only [hloop, andThen, hsends, emit]

theorem sessionHandleLoop_finished (hphase : handle.phase = .finish)
    {buffer : List Byte} (hstored : transportRecvPacket handle.exchange.buffer bytes = some buffer)
    (hack : packetType buffer = PacketType.finishAck.code) :
    ∃ last, sessionHandleLoop stack data handle (.recv (.datagram bytes)) =
      ([.returned .sessionFinish 1, .returned .sessionHandle 0], .done last 0) := by
  have hanswered : handle.exchange.FinishAnswered (.recv (.datagram bytes)) :=
    ⟨bytes, buffer, rfl, hstored, by simp [isFinishAck, hack]⟩
  obtain ⟨last, hloop⟩ := sessionFinishLoop_answered hanswered
  refine ⟨⟨.finish, last⟩, ?_⟩
  rw [sessionHandleLoop, hphase]
  simp only [hloop, andThen]
  rfl

/-! ## Round by round -/

structure Errand where
  lost : Lost
  completed : List (Nat × List Byte)
  batch : Nat
  text : List Byte

structure Errand.Done (errand : Errand) (net : Network) : Prop where
  reading : ∃ session tasks, net.transfer = .reading session tasks zeroData 0
  completed : (traffic net.history).completed =
    errand.completed ++ [(errand.batch, errand.text)]

structure Errand.Pending (errand : Errand) (net : Network) : Prop where
  steady : Steady net
  before : errand.lost.Before net
  handling : ∃ handle data, net.transfer = .handling handle data
  completed : (traffic net.history).completed = errand.completed
  batch : (traffic net.history).batch = errand.batch
  content : (traffic net.history).content = errand.text

/-- The exchanges that a batch still needs, the one of FINISH left out. -/
def Handle.left (handle : Handle) : Nat :=
  handle.exchange.session.noOfPackets.toNat +
    match handle.phase with
    | .handshake => 1
    | _ => 0

def Network.left (net : Network) : Nat :=
  match net.transfer with
  | .handling handle _ => handle.left
  | _ => 0

def Errand.Closer (errand : Errand) (net next : Network) : Prop :=
  errand.Done next ∨ errand.Pending next ∧ next.left < net.left

theorem datagrams_length_le (history events : List Event) :
    (traffic history).datagrams.length ≤ (traffic (history ++ events)).datagrams.length := by
  induction events using List.reverseRecOn with
  | nil => rw [List.append_nil]
  | append_singleton events event ih =>
      apply Nat.le_trans ih
      rw [← List.append_assoc, traffic_concat]
      generalize traffic (history ++ events) = traffic
      cases event with
      | returned function value =>
          cases function with
          | sessionHandle =>
              simp only [Traffic.next]
              split <;> exact Nat.le_refl _
          | _ => exact Nat.le_refl _
      | send task port packet => simp [Traffic.next]
      | resend task port packet => simp [Traffic.next]
      | _ => exact Nat.le_refl _

theorem pass_again {input : Input} {events : List Event} {later : Handle}
    (htransfer : net.transfer = .handling handle data)
    (hloop : sessionHandleLoop stack data handle input = (events, .again later)) :
    net.pass stack hostName input =
      (events, .again { net with
        history := net.history ++ events
        transfer := .handling later data }) := by
  simp only [Network.pass, htransfer, sessionTransferLoop, hloop, andThen]

theorem pass_done {input : Input} {events : List Event} {last : Handle} {value : Int}
    (htransfer : net.transfer = .handling handle data)
    (hloop : sessionHandleLoop stack data handle input = (events, .done last value)) :
    net.pass stack hostName input =
      (events, .again { net with
        history := net.history ++ events
        transfer := .reading last.exchange.session last.exchange.tasks zeroData 0 }) := by
  simp only [Network.pass, htransfer, sessionTransferLoop, hloop, andThen, afterHandle,
    fill_eq_zeroData, emit, List.append_nil]

variable {errand : Errand} {answer : List Byte} {events : List Event}

theorem answered_quietly (net : Network) (exchange : Exchange) (packet answer : List Byte) :
    Quietly net.history (net.answered exchange packet answer).history :=
  (Quietly.refl net.history).concat rfl

theorem Lost.Before.answered (h : lost.Before net) (exchange : Exchange)
    (packet answer : List Byte) (events : List Event) (transfer : Transfer) :
    lost.Before { net.answered exchange packet answer with
      history := (net.answered exchange packet answer).history ++ events
      transfer := transfer } := by
  obtain ⟨hdatagrams, hreceived, hanswers⟩ := h
  refine ⟨hdatagrams.trans ?_, hreceived.trans ?_, hanswers.trans ?_⟩
  · exact (datagrams_length_le _ _).trans (datagrams_length_le _ events)
  · simp [Network.lost, Network.answered]
  · simp [Network.lost, Network.answered]

/-- The answer leads to the next exchange of the batch. -/
theorem Errand.Pending.again {later : Handle} (h : errand.Pending net)
    (htransfer : net.transfer = .handling handle data)
    (hflying : InFlight packet net.history handle.exchange)
    (hloop : sessionHandleLoop stack data handle (.recv (.datagram answer)) =
      (events, .again later)) (hless : later.left < handle.left) :
    Reaches (networkLoop stack hostName) errand.lost.Fresh
      (net.answered handle.exchange packet answer) (errand.Closer net) := by
  have hpass := @pass_again stack hostName (net.answered handle.exchange packet answer) data
    handle _ _ later htransfer hloop
  have hsteady := @Steady.networkLoop stack hostName _
    (h.steady.answered htransfer hflying answer) (.deliver net.answers.length) []
  rw [deliver_answered, hpass] at hsteady
  have hquiet := @sessionHandleLoop_quiet stack data _ net.history handle
    (answered_quietly net handle.exchange packet answer) (.recv (.datagram answer))
  rw [hloop] at hquiet
  have hsame := sameBatch_quietly hquiet.1
  refine Reaches.step ?_ ((deliver_answered _ _ _).trans hpass) (.refl (.inr ⟨?_, ?_⟩))
  · exact h.before.2.2
  · exact
      { steady := hsteady
        before := h.before.answered _ _ _ _ _
        handling := ⟨later, data, rfl⟩
        completed := hsame.completed.trans h.completed
        batch := hsame.batch.trans h.batch
        content := hsame.content.trans h.content }
  · simpa [Network.left, htransfer] using hless

/-- The answer ends the batch. -/
theorem Errand.Pending.done {last : Handle} (h : errand.Pending net)
    (htransfer : net.transfer = .handling handle data)
    (hloop : sessionHandleLoop stack data handle (.recv (.datagram answer)) =
      ([.returned .sessionFinish 1, .returned .sessionHandle 0], .done last 0)) :
    Reaches (networkLoop stack hostName) errand.lost.Fresh
      (net.answered handle.exchange packet answer) (errand.Closer net) := by
  have hpass := @pass_done stack hostName (net.answered handle.exchange packet answer) data
    handle _ _ last 0 htransfer hloop
  have hquietly : Quietly net.history
      ((net.answered handle.exchange packet answer).history ++ [.returned .sessionFinish 1]) :=
    (answered_quietly net handle.exchange packet answer).concat rfl
  have hsame := sameBatch_quietly hquietly
  refine Reaches.step ?_ ((deliver_answered _ _ _).trans hpass) (.refl (.inl ?_))
  · exact h.before.2.2
  · refine ⟨⟨_, _, rfl⟩, ?_⟩
    have hsplit : ∀ history : List Event, history ++
        [.returned .sessionFinish 1, .returned .sessionHandle 0] =
          history ++ [.returned .sessionFinish 1] ++ [.returned .sessionHandle 0] := by simp
    rw [hsplit, traffic_concat, ← h.completed, ← h.batch, ← h.content, ← hsame.completed,
      ← hsame.batch, ← hsame.content]
    rfl

theorem toNat_noOfPackets {session : Session} {count index : Nat}
    (h : Counters sessionId count index session) (hcount : count < sessionSize + maxRecordSize) :
    session.noOfPackets.toNat = count ⌈/⌉ maxFrameSize - index := by
  have hceil := ceilDiv_le hcount
  rw [h.noOfPackets, BitVec.toNat_ofNat]
  omega

theorem stored_of_fits {buffer : List Byte} (hbytes : bytes.length ≤ buffer.length)
    (hbuffer : buffer.length ≤ pktSizeMax) :
    transportRecvPacket buffer bytes = some (bytes ++ buffer.drop bytes.length) := by
  rw [transportRecvPacket, List.take_of_length_le (hbytes.trans hbuffer), if_pos hbytes]

/-- The acknowledgement of the frame that was sent is taken as such. -/
theorem dataAcked_of_sent (hbuffer : exchange.buffer.length = pktSizeDataAck)
    (hnumber : exchange.session.nextFrameNumber.toNat + 1 < 2 ^ 16) :
    exchange.DataAcked (.recv (.datagram (dataAckPkt
      (BitVec.ofNat 16 (exchange.session.nextFrameNumber.toNat + 1))))) := by
  let ack := dataAckPkt (BitVec.ofNat 16 (exchange.session.nextFrameNumber.toNat + 1))
  have hlength : ack.length = 7 := rfl
  have hstored := @stored_of_fits ack exchange.buffer (by rw [hlength, hbuffer]; decide)
    (by rw [hbuffer]; decide)
  refine ⟨ack, _, rfl, hstored, ?_⟩
  have hfield : field16 (ack ++ exchange.buffer.drop ack.length) 5 =
      BitVec.ofNat 16 (exchange.session.nextFrameNumber.toNat + 1) := field16_le16 _
  have htype : packetType (ack ++ exchange.buffer.drop ack.length) =
      PacketType.dataAck.code := rfl
  simpa [isDataAck, htype, hfield] using hnumber

/-- After an acknowledgement a frame or the end of the batch is sent, but no HANDSHAKE. -/
theorem acked_not_handshake {index : Nat} {later : Handle} {input : Input}
    (htext : HoldsText data text) (hsize : text.length < sessionSize + maxRecordSize)
    (hholds : (progress fun _ _ => True).handling text history handle)
    (hloop : sessionHandleLoop stack data handle input = (events, .again later))
    (hindex : index < text.length ⌈/⌉ maxFrameSize)
    (hcounters : Counters sessionId text.length (index + 1) later.exchange.session) :
    later.phase ≠ .handshake := by
  intro hphase
  have hpass := (@counters_kept stack).handle text history handle data input trivial htext
    hsize hholds
  rw [hloop] at hpass
  obtain ⟨-, -, sessionId, hwaiting⟩ := hpass
  rw [hphase] at hwaiting
  have hzero := hwaiting.2.toNat_nextFrameNumber hsize (Nat.zero_le _)
  have hnext := hcounters.toNat_nextFrameNumber hsize (Nat.succ_le_of_lt hindex)
  omega

/-- Every state with a batch in hand can come closer to its end. -/
theorem Errand.Pending.closer (h : errand.Pending net) :
    Reaches (networkLoop stack hostName) errand.lost.Fresh net (errand.Closer net) := by
  obtain ⟨handle, data, htransfer⟩ := h.handling
  have hwire := h.steady.wire
  have hcounters := h.steady.counters
  have harrays := h.steady.arrays
  rw [htransfer] at hwire hcounters harrays
  obtain ⟨_, _, _, _, packet, hflying, hsuits⟩ := hwire
  obtain ⟨text, htext, hne, hsize, hholds⟩ := hcounters
  obtain ⟨_, _, _, _, hbuffer⟩ := harrays
  have ⟨_, _, sessionId, hwaiting⟩ := hholds
  have hsized : handle.exchange.buffer.length ≤ pktSizeMax := by
    rw [hbuffer]
    exact (Call.bufferSize_lt_pktSizeMax _).le
  cases hphase : handle.phase with
  | handshake =>
      rw [hphase] at hsuits hwaiting
      obtain ⟨htype, hlength⟩ := hsuits
      have hfits : (PacketType.handshakeAck.code :: packet.drop 1).length ≤
          handle.exchange.buffer.length := by
        rw [hbuffer, hphase, List.length_cons, List.length_drop, hlength]
        decide
      obtain ⟨events, later, hloop, hlater⟩ := @sessionHandleLoop_shaken stack data handle _
        sessionId text hphase htext.holds.left hne hsize hwaiting.2 _
        (stored_of_fits hfits hsized) rfl
      have hless : Handle.left ⟨.data, later⟩ < handle.left := by
        rw [Handle.left, Handle.left, hphase, toNat_noOfPackets hlater hsize,
          toNat_noOfPackets hwaiting.2 hsize]
        exact Nat.lt_succ_self _
      have hanswer : answerType packet = some .handshakeAck := by
        simp [answerType, htype]
        decide
      exact answered_request h.before htransfer hflying hanswer (by rw [hlength]; decide)
        (h.again htransfer hflying hloop hless)
  | data =>
      rw [hphase] at hsuits hwaiting
      obtain ⟨index, hindex, -, hcounters⟩ := hwaiting
      have hceil := ceilDiv_le hsize
      have hnumber := hcounters.toNat_nextFrameNumber hsize (Nat.le_of_lt hindex)
      have hacked := @dataAcked_of_sent handle.exchange
        (by rw [hbuffer, hphase]; rfl) (by omega)
      obtain ⟨events, later, hloop, hlater, -⟩ := sessionHandleLoop_acked stack
        htext.holds.left hsize hphase hindex hcounters hacked
      have hshaken := acked_not_handshake htext hsize hholds hloop hindex hlater
      have hless : later.left < handle.left := by
        rw [Handle.left, Handle.left, hphase, toNat_noOfPackets hlater hsize,
          toNat_noOfPackets hcounters hsize]
        cases hlast : later.phase with
        | handshake => exact absurd hlast hshaken
        | data => dsimp only; omega
        | finish => dsimp only; omega
      exact answered_frame h.before htransfer hflying hsuits
        (h.again htransfer hflying hloop hless)
  | finish =>
      rw [hphase] at hsuits hwaiting
      obtain ⟨htype, hlength⟩ := hsuits
      have hfits : (PacketType.finishAck.code :: packet.drop 1).length ≤
          handle.exchange.buffer.length := by
        rw [hbuffer, hphase, List.length_cons, List.length_drop, hlength]
        decide
      obtain ⟨last, hloop⟩ := @sessionHandleLoop_finished stack data handle _ hphase _
        (stored_of_fits hfits hsized) rfl
      have hanswer : answerType packet = some .finishAck := by
        simp [answerType, htype]
        decide
      exact answered_request h.before htransfer hflying hanswer hlength.ge
        (h.done htransfer hloop)

/-- Every state with a batch in hand can come to its end. -/
theorem Errand.Pending.reaches (h : errand.Pending net) :
    Reaches (networkLoop stack hostName) errand.lost.Fresh net errand.Done :=
  Reaches.of_descending Network.left (fun _ hpending => hpending.closer) h

/-! ## Whole runs -/

def Network.inHand (net : Network) : Errand where
  lost := net.lost
  completed := (traffic net.history).completed
  batch := (traffic net.history).batch
  text := (traffic net.history).content

def Completable (stack : Stack) (hostName : List Byte) : Exit Network Empty → Prop
  | .again net => ∀ handle data, net.transfer = .handling handle data →
      sessionText data ≠ [] ∧ net.inHand.text = sessionText data ∧
        Reaches (networkLoop stack hostName) net.lost.Fresh net net.inHand.Done
  | _ => True

/--
From every state in which the steps of sender, peer and network can leave a
batch, it can be completed without any datagram that was under way: only tasks
that wake up, new datagrams and answers to them are needed.
-/
theorem batch_completable (stack : Stack) (hostName : List Byte) (session : Session)
    (steps : List Step) :
    Completable stack hostName
      (enter (networkStart stack hostName session) (networkLoop stack hostName) steps).2 := by
  have hrun := network_steady stack hostName session steps
  generalize enter (networkStart stack hostName session) (networkLoop stack hostName) steps =
    pass at hrun
  obtain ⟨events, exit⟩ := pass
  cases exit with
  | again net =>
      intro handle data htransfer
      have hsteady : Steady net := hrun
      have hcounters := hsteady.counters
      rw [htransfer] at hcounters
      obtain ⟨text, htext, hne, -, -, hcontent, -⟩ := hcounters
      rw [htext.sessionText_eq]
      have hpending : net.inHand.Pending net :=
        { steady := hsteady
          before := ⟨Nat.le_refl _, Nat.le_refl _, Nat.le_refl _⟩
          handling := ⟨handle, data, htransfer⟩
          completed := rfl
          batch := rfl
          content := rfl }
      exact ⟨hne, hcontent, hpending.reaches⟩
  | done last value => exact trivial
  | fault => exact trivial

/-- A port is learned, and a line is read and taken in hand. -/
example : ∃ net, (enter (networkStart zeroStack [0x68#8] zeroSession)
    (networkLoop zeroStack [0x68#8])
    [.arrive 0, .answer 0 (le32 commonSessionId ++ le16 5000#16), .deliver 0,
      .input (.fgets ⟨[0x41#8, 0x0A#8], by decide⟩),
      .input (.fgets ⟨[], by decide⟩)]).2 = .again net ∧
    net.inHand.text = [0x41#8, 0x0A#8] :=
  ⟨_, rfl, by decide +kernel⟩

end BBCodeBase.Sender
