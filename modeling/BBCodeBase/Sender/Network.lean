import BBCodeBase.Sender.Traffic

/-!
# Sender, peer and network

The peer acknowledges a DATA frame only after it has received it, and answers a
HELLO, HANDSHAKE or FINISH request; it sends nothing else.  The network delays,
reorders, duplicates and loses datagrams: whatever was sent can arrive at any
later time, any number of times, or never.  A datagram carries the number of the
batch it belongs to, which neither side can see.

`session_send_data` accepts any acknowledgement with the number it waits for.
The peer holds every frame that was taken as delivered exactly as long as none
of an earlier batch is taken for a frame that has not arrived.
-/

namespace BBCodeBase.Sender

open Reactive Fragments

variable (stack : Stack) {session : Session} {tasks : Tasks} {exchange : Exchange}
  {history : List Event}

/-! ## The network -/

structure Network where
  history : List Event
  transfer : Transfer
  received : List Datagram
  answers : List Datagram

def Network.HoldsFrame (net : Network) (batch number : Nat) : Prop :=
  ∃ datagram ∈ net.received, datagram.batch = batch ∧
    datagram ∈ (traffic net.history).frames ∧
    (field16 datagram.packet 9).toNat = number

instance (net : Network) (batch number : Nat) : Decidable (net.HoldsFrame batch number) :=
  inferInstanceAs (Decidable (∃ datagram ∈ net.received, _))

/--
The sender goes on without a datagram, an answer reaches it, or a datagram
reaches the peer; the peer acknowledges a frame or answers a request.
-/
inductive Step where
  | input (input : Input)
  | deliver (index : Nat)
  | arrive (index : Nat)
  | acknowledge (batch number : Nat)
  | answer (index : Nat) (fields : List Byte)
  deriving DecidableEq, Repr

def dataAckPkt (expFrameNumber : BitVec 16) : List Byte :=
  PacketType.dataAck.code :: le32 commonSessionId ++ le16 expFrameNumber

def answerType (request : List Byte) : Option PacketType :=
  if packetType request = PacketType.helloRequest.code then some .helloResponse
  else if packetType request = PacketType.handshake.code then some .handshakeAck
  else if packetType request = PacketType.finish.code then some .finishAck
  else none

def Network.pass (hostName : List Byte) (net : Network) (input : Input) :
    List Event × Exit Network Empty :=
  match sessionTransferLoop stack hostName net.transfer input with
  | (events, .again transfer) =>
      (events, .again { net with history := net.history ++ events, transfer := transfer })
  | (_, .done _ value) => nomatch value
  | (events, .fault) => (events, .fault)

def networkLoop (hostName : List Byte) : Body Network Step Event Empty := fun net step =>
  match step with
  | .input (.recv (.datagram _)) => ([], .again net)
  | .input input => net.pass stack hostName input
  | .deliver index =>
      match net.answers[index]? with
      | none => ([], .again net)
      | some answer => net.pass stack hostName (.recv (.datagram answer.packet))
  | .arrive index =>
      match (traffic net.history).datagrams[index]? with
      | none => ([], .again net)
      | some datagram => ([], .again { net with received := net.received ++ [datagram] })
  | .acknowledge batch number =>
      if net.HoldsFrame batch number then
        let answer := ⟨batch, dataAckPkt (BitVec.ofNat 16 (number + 1))⟩
        ([], .again { net with answers := net.answers ++ [answer] })
      else ([], .again net)
  | .answer index fields =>
      match net.received[index]? with
      | none => ([], .again net)
      | some request =>
          match answerType request.packet with
          | none => ([], .again net)
          | some type =>
              let answer := ⟨request.batch, type.code :: fields⟩
              ([], .again { net with answers := net.answers ++ [answer] })

def networkStart (hostName : List Byte) (session : Session) :
    List Event × Exit Network Empty :=
  match sessionConnect stack hostName session ⟨[], 0⟩ with
  | (events, .again transfer) => (events, .again ⟨events, transfer, [], []⟩)
  | (_, .done _ value) => nomatch value
  | (events, .fault) => (events, .fault)

def Completed (held : Nat → Nat → Prop) (history : List Event) : Prop :=
  ∀ entry ∈ (traffic history).completed,
    ∀ number < entry.2.length ⌈/⌉ maxFrameSize, held entry.1 number

def Transfer.frameNumber : Transfer → Nat
  | .handling handle _ => handle.exchange.session.nextFrameNumber.toNat
  | _ => 0

def Network.Safe (net : Network) : Prop :=
  (∀ number < net.transfer.frameNumber,
    net.HoldsFrame (traffic net.history).batch number) ∧
  Completed net.HoldsFrame net.history

def SafeExit : Exit Network Empty → Prop
  | .again net => net.Safe
  | _ => True

/--
An acknowledgement of an earlier batch is taken for the frame that
`session_send_data` waits for, and the peer does not hold that frame.
-/
def Network.StaleAck (net : Network) (step : Step) : Prop :=
  ∃ index answer handle data,
    step = .deliver index ∧ net.answers[index]? = some answer ∧
    net.transfer = .handling handle data ∧ handle.phase = .data ∧
    answer.batch < (traffic net.history).batch ∧
    handle.exchange.DataAcked (.recv (.datagram answer.packet)) ∧
    ¬ net.HoldsFrame (traffic net.history).batch
      handle.exchange.session.nextFrameNumber.toNat

/-! ## What the peer holds of a batch -/

variable {held later : Nat → Nat → Prop} {sessionId : BitVec 32} {batch : Nat}
  {text : List Byte}

def heldStages (held : Nat → Nat → Prop) (batch : Nat) (text : List Byte) : Stages where
  begun := fun _ => True
  ready := fun index _ => ∀ number < index, held batch number
  waiting := fun index _ => ∀ number < index, held batch number
  finished := fun _ => ∀ number < text.length ⌈/⌉ maxFrameSize, held batch number

theorem heldStages_kept :
    (heldStages held batch text).Kept sessionId text (held batch) where
  begunSkip := fun _ h => h
  readySkip := fun _ h => h
  waitingSkip := fun _ h => h
  finishedSkip := fun _ h => h
  announce := fun _ _ _ number hnumber => absurd hnumber (Nat.not_lt_zero number)
  send := fun _ h => h
  ack := by
    intro index history hacked h number hnumber
    cases Nat.lt_succ_iff_lt_or_eq.mp hnumber with
    | inl hearlier => exact h number hearlier
    | inr hlast => rwa [hlast]
  finish := fun _ _ h => h

def progress (held : Nat → Nat → Prop) : TransferContract where
  learning := fun events _ => Completed held events
  reading := fun _ events _ => Completed held events
  handling := fun text events handle =>
    Completed held events ∧ (traffic events).content = text ∧
      ∃ sessionId, ((heldStages held (traffic events).batch text).contract sessionId
        text).waiting handle.phase events handle.exchange
  fault := fun _ => True

theorem Completed.quietly {start : List Event} (h : Completed held start)
    (hquiet : Quietly start history) : Completed held history := by
  unfold Completed
  rw [(sameBatch_quietly hquiet).completed]
  exact h

theorem Completed.line (h : Completed held history) (line : Line) :
    Completed held (history ++ line.events) := by
  unfold Line.events
  split
  · rwa [List.append_nil]
  · unfold Completed
    rw [traffic_concat]
    exact h

/-- What `session_handle` does with a batch, in terms of what the peer holds. -/
theorem progress_batch {start : List Event} {crash : Prop}
    {pass : List Event × Exit Handle Int} (hcompleted : Completed held start)
    (hcontent : (traffic start).content = text)
    (hquiet : (quietContract start crash).handle.Of history pass)
    (hstages : ((heldStages held (traffic start).batch text).contract sessionId
      text).handle.Of history pass) :
    ((progress held).batch text).Of history pass := by
  apply (hquiet.and hstages).weaken
  · intro events handle hboth
    have ⟨⟨hquietly, _⟩, hwaiting⟩ := hboth
    have hsame := sameBatch_quietly hquietly
    refine ⟨hcompleted.quietly hquietly, hsame.content.trans hcontent, sessionId, ?_⟩
    rw [hsame.batch]
    exact hwaiting
  · intro events handle ret hboth
    have ⟨⟨⟨before, hquietly, hevents⟩, hvalue⟩, hhandled⟩ := hboth
    have hbefore := hcompleted.quietly hquietly
    have hsame := sameBatch_quietly hquietly
    cases hvalue with
    | inl hfailed =>
        rw [hevents, hfailed.2]
        change Completed held _
        unfold Completed
        rw [traffic_concat]
        exact hbefore
    | inr hdone =>
        rw [hevents, hdone.2]
        change Completed held _
        intro entry hentry
        rw [traffic_concat] at hentry
        cases List.mem_append.mp hentry with
        | inl hold => exact hbefore entry hold
        | inr hlast =>
            rw [List.mem_singleton.mp hlast, hsame.batch, hsame.content, hcontent]
            exact hhandled hdone.2
  · exact fun _ _ => trivial

theorem progress_kept : (progress held).Kept stack (fun _ => True)
    (fun history handle input =>
      handle.phase = .data → handle.exchange.DataAcked input →
        held (traffic history).batch handle.exchange.session.nextFrameNumber.toNat) where
  connect := fun _ _ _ h => learnNewPort_kept fun _ hquiet => h.quietly hquiet
  learn := fun _ _ input h =>
    learnNewPortLoop_kept (fun _ hquiet => h.quietly hquiet) input
  line := fun _ _ _ line _ h => h.line line
  timeout := fun _ history _ _ task junk h =>
    h.quietly ((Quietly.refl history).timeout task junk)
  start := by
    intro text history session tasks data htext _ hlength h
    have htraffic : traffic (history ++ [.batch text]) =
        (traffic history).next (.batch text) := traffic_concat _
    apply progress_batch
    · unfold Completed
      rw [htraffic]
      exact h
    · rw [htraffic]
      rfl
    · exact sessionHandle_quiet (Quietly.refl _) id
    · exact sessionHandle_stages stack heldStages_kept htext.holds.left hlength trivial
        (forBatch_counters stack session hlength)
  handle := by
    intro text history handle data input hacked htext hlength h
    have ⟨hcompleted, hcontent, sessionId, hwaiting⟩ := h
    apply progress_batch hcompleted hcontent
    · exact sessionHandleLoop_quiet (Quietly.refl history) input
    · apply sessionHandleLoop_stages stack heldStages_kept htext.holds.left hlength
        hwaiting
      intro hphase hack index hindex hcounters
      rw [← hcounters.toNat_nextFrameNumber hlength (Nat.le_of_lt hindex)]
      exact hacked hphase hack

theorem heldStages_mono (hlater : ∀ batch number, held batch number → later batch number)
    {phase : Phase}
    (h : ((heldStages held batch text).contract sessionId text).waiting phase history
      exchange) :
    ((heldStages later batch text).contract sessionId text).waiting phase history
      exchange := by
  cases phase with
  | handshake => exact ⟨fun number hnumber => hlater _ _ (h.1 number hnumber), h.2⟩
  | data =>
      obtain ⟨index, hindex, hheld, hcounters⟩ := h
      exact ⟨index, hindex, fun number hnumber => hlater _ _ (hheld number hnumber),
        hcounters⟩
  | finish => exact ⟨fun number hnumber => hlater _ _ (h.1 number hnumber), h.2⟩

theorem progress_mono (hlater : ∀ batch number, held batch number → later batch number)
    {transfer : Transfer} (h : (progress held).Holds history transfer) :
    (progress later).Holds history transfer := by
  have hcompleted : Completed held history → Completed later history :=
    fun hold entry hentry number hnumber => hlater _ _ (hold entry hentry number hnumber)
  cases transfer with
  | learning exchange => exact hcompleted h
  | reading session tasks data numBytes =>
      obtain ⟨text, htext, hnumBytes, hroom, hreading⟩ := h
      exact ⟨text, htext, hnumBytes, hroom, hcompleted hreading⟩
  | handling handle data =>
      obtain ⟨text, htext, hne, hlength, hold, hcontent, sessionId, hwaiting⟩ := h
      exact ⟨text, htext, hne, hlength, hcompleted hold, hcontent, sessionId,
        heldStages_mono hlater hwaiting⟩

theorem heldStages_waiting {phase : Phase}
    (hlength : text.length < sessionSize + maxRecordSize)
    (h : ((heldStages held batch text).contract sessionId text).waiting phase history
      exchange) :
    ∀ number < exchange.session.nextFrameNumber.toNat, held batch number := by
  intro number hnumber
  cases phase with
  | handshake =>
      rw [h.2.toNat_nextFrameNumber hlength (Nat.zero_le _)] at hnumber
      exact absurd hnumber (Nat.not_lt_zero number)
  | data =>
      obtain ⟨index, hindex, hheld, hcounters⟩ := h
      rw [hcounters.toNat_nextFrameNumber hlength (Nat.le_of_lt hindex)] at hnumber
      exact hheld number hnumber
  | finish =>
      rw [h.2.toNat_nextFrameNumber hlength (Nat.le_refl _)] at hnumber
      exact h.1 number hnumber

theorem progress_safe {transfer : Transfer}
    (h : (progress held).Holds history transfer) :
    (∀ number < transfer.frameNumber, held (traffic history).batch number) ∧
      Completed held history := by
  cases transfer with
  | learning exchange =>
      exact ⟨fun number hnumber => absurd hnumber (Nat.not_lt_zero number), h⟩
  | reading session tasks data numBytes =>
      obtain ⟨_, _, _, _, hcompleted⟩ := h
      exact ⟨fun number hnumber => absurd hnumber (Nat.not_lt_zero number), hcompleted⟩
  | handling handle data =>
      obtain ⟨text, _, _, hlength, hcompleted, _, sessionId, hwaiting⟩ := h
      exact ⟨heldStages_waiting hlength hwaiting, hcompleted⟩

/-! ## The runs of the network -/

/-- The peer acknowledges frames that it holds, and no other answer looks like that. -/
def Network.Honest (net : Network) (answer : Datagram) : Prop :=
  answer.packet ≠ [] ∧
    (packetType answer.packet = PacketType.dataAck.code →
      ∃ number, answer.packet = dataAckPkt (BitVec.ofNat 16 (number + 1)) ∧
        net.HoldsFrame answer.batch number)

structure Network.Invariant (net : Network) : Prop where
  transfer : (progress net.HoldsFrame).Holds net.history net.transfer
  answers : ∀ answer ∈ net.answers, net.Honest answer

variable {net next : Network} {hostName : List Byte}

theorem Network.HoldsFrame.mono {number : Nat} (h : net.HoldsFrame batch number)
    (hreceived : net.received ⊆ next.received)
    (hframes : (traffic net.history).frames ⊆ (traffic next.history).frames) :
    next.HoldsFrame batch number := by
  have ⟨datagram, hmem, hbatch, hframe, hnumber⟩ := h
  exact ⟨datagram, hreceived hmem, hbatch, hframes hframe, hnumber⟩

theorem Network.Honest.mono {answer : Datagram} (h : net.Honest answer)
    (hholds : ∀ batch number, net.HoldsFrame batch number →
      next.HoldsFrame batch number) :
    next.Honest answer := by
  constructor
  · exact h.1
  · intro htype
    have ⟨number, hpacket, hheld⟩ := h.2 htype
    exact ⟨number, hpacket, hholds _ _ hheld⟩

theorem Network.HoldsFrame.lt {number : Nat} (h : net.HoldsFrame batch number) :
    number < 2 ^ 16 := by
  have ⟨datagram, _, _, _, hnumber⟩ := h
  rw [← hnumber]
  exact BitVec.isLt _

theorem Network.HoldsFrame.batch_le {number : Nat} (h : net.HoldsFrame batch number) :
    batch ≤ (traffic net.history).batch := by
  have ⟨datagram, _, hbatch, hframe, _⟩ := h
  rw [← hbatch]
  exact frames_batch_le net.history datagram hframe

/-- An answer taken for an acknowledgement acknowledges a frame with the number awaited. -/
theorem Network.Honest.of_dataAcked {answer : Datagram} (h : net.Honest answer)
    (hacked : exchange.DataAcked (.recv (.datagram answer.packet))) :
    net.HoldsFrame answer.batch exchange.session.nextFrameNumber.toNat := by
  have ⟨bytes, buffer, hinput, hstored, hack⟩ := hacked
  cases hinput
  have hbuffer : buffer = answer.packet.take pktSizeMax ++
      exchange.buffer.drop (answer.packet.take pktSizeMax).length := by
    simp only [transportRecvPacket] at hstored
    split at hstored
    case isTrue => exact (Option.some.inj hstored).symm
    case isFalse => cases hstored
  have ⟨htype, hnumber⟩ : packetType buffer = PacketType.dataAck.code ∧
      (field16 buffer 5).toNat = exchange.session.nextFrameNumber.toNat + 1 := by
    simpa [isDataAck] using hack
  have hanswer : packetType answer.packet = PacketType.dataAck.code := by
    rw [← htype, hbuffer]
    cases hpacket : answer.packet with
    | nil => exact absurd hpacket h.1
    | cons type fields => rfl
  have ⟨number, hpacket, hheld⟩ := h.2 hanswer
  have hfield : field16 buffer 5 = BitVec.ofNat 16 (number + 1) := by
    rw [hbuffer, hpacket]
    exact field16_le16 _
  have hbound := hheld.lt
  rw [hfield, BitVec.toNat_ofNat] at hnumber
  have hsame : number = exchange.session.nextFrameNumber.toNat := by omega
  rwa [← hsame]

theorem Network.Honest.of_not_stale {answer : Datagram} (h : net.Honest answer)
    (hacked : exchange.DataAcked (.recv (.datagram answer.packet)))
    (hstale : answer.batch < (traffic net.history).batch →
      net.HoldsFrame (traffic net.history).batch
        exchange.session.nextFrameNumber.toNat) :
    net.HoldsFrame (traffic net.history).batch
      exchange.session.nextFrameNumber.toNat := by
  have hheld := h.of_dataAcked hacked
  cases Nat.lt_or_eq_of_le hheld.batch_le with
  | inl hearlier => exact hstale hearlier
  | inr hsame => rwa [← hsame]

def SafeExit.post : Post Network Event Empty :=
  Post.keeping (fun _ net => net.Invariant) (fun _ exit => SafeExit exit)

def Network.Confirms (net : Network) (handle : Handle) (input : Input) : Prop :=
  handle.phase = .data → handle.exchange.DataAcked input →
    net.HoldsFrame (traffic net.history).batch
      handle.exchange.session.nextFrameNumber.toNat

theorem Network.Invariant.pass {events : List Event} (h : net.Invariant) {input : Input}
    (hmeets : net.transfer.Meets net.Confirms input) :
    SafeExit.post.Of events (net.pass stack hostName input) := by
  have hpass : (progress net.HoldsFrame).transfer.Of net.history
      (sessionTransferLoop stack hostName net.transfer input) :=
    (progress_kept stack).sessionTransferLoop h.transfer trivial hmeets
  unfold Network.pass
  revert hpass
  cases sessionTransferLoop stack hostName net.transfer input with
  | mk emitted exit =>
      intro hpass
      cases exit with
      | done last value => nomatch value
      | fault => exact trivial
      | again transfer =>
          have hlater : ∀ batch number, net.HoldsFrame batch number →
              Network.HoldsFrame
                { net with history := net.history ++ emitted, transfer := transfer }
                batch number :=
            fun _ _ hheld => hheld.mono (List.Subset.refl _) (frames_subset_append _)
          constructor
          · exact progress_mono hlater hpass
          · exact fun answer hanswer => (h.answers answer hanswer).mono hlater

theorem Network.meets_of_not_datagram {input : Input}
    (h : ∀ bytes, input ≠ .recv (.datagram bytes)) :
    net.transfer.Meets net.Confirms input := by
  cases net.transfer with
  | handling handle data =>
      intro _ hacked
      have ⟨bytes, _, hinput, _⟩ := hacked
      exact absurd hinput (h bytes)
  | _ => exact trivial

theorem Network.Invariant.receive (h : net.Invariant) (datagram : Datagram) :
    Network.Invariant { net with received := net.received ++ [datagram] } := by
  have hlater : ∀ batch number, net.HoldsFrame batch number →
      Network.HoldsFrame { net with received := net.received ++ [datagram] }
        batch number :=
    fun _ _ hheld => hheld.mono (List.subset_append_left _ _) (List.Subset.refl _)
  constructor
  · exact progress_mono hlater h.transfer
  · exact fun answer hanswer => (h.answers answer hanswer).mono hlater

theorem Network.Invariant.answer (h : net.Invariant) {answer : Datagram}
    (hhonest : net.Honest answer) :
    Network.Invariant { net with answers := net.answers ++ [answer] } := by
  constructor
  · exact h.transfer
  · intro other hother
    cases List.mem_append.mp hother with
    | inl hold => exact h.answers other hold
    | inr hnew =>
        rw [List.mem_singleton.mp hnew]
        exact hhonest

theorem answerType_ne_dataAck {request : List Byte} {type : PacketType}
    (h : answerType request = some type) : type.code ≠ PacketType.dataAck.code := by
  unfold answerType at h
  split at h
  · cases h; decide
  · split at h
    · cases h; decide
    · split at h
      · cases h; decide
      · cases h

theorem Network.Invariant.step {events : List Event} (h : net.Invariant) {step : Step}
    (hstale : ¬ net.StaleAck step) :
    SafeExit.post.Of events (networkLoop stack hostName net step) := by
  cases step with
  | input input =>
      cases input with
      | recv result =>
          cases result with
          | datagram bytes => exact h
          | failed errno => exact h.pass stack (meets_of_not_datagram nofun)
      | fgets line => exact h.pass stack (meets_of_not_datagram nofun)
      | wakeUp task junk => exact h.pass stack (meets_of_not_datagram nofun)
  | deliver index =>
      simp only [networkLoop]
      cases hanswer : net.answers[index]? with
      | none => exact h
      | some answer =>
          have hhonest := h.answers answer (List.mem_of_getElem? hanswer)
          apply h.pass
          cases htransfer : net.transfer with
          | handling handle data =>
              intro hphase hacked
              apply hhonest.of_not_stale hacked
              intro hearlier
              by_contra hmissing
              exact hstale ⟨index, answer, handle, data, rfl, hanswer, htransfer, hphase,
                hearlier, hacked, hmissing⟩
          | _ => exact trivial
  | arrive index =>
      simp only [networkLoop]
      cases (traffic net.history).datagrams[index]? with
      | none => exact h
      | some datagram => exact h.receive datagram
  | acknowledge batch number =>
      simp only [networkLoop]
      split
      case isTrue hheld =>
          apply h.answer
          exact ⟨List.cons_ne_nil _ _, fun _ => ⟨number, rfl, hheld⟩⟩
      case isFalse => exact h
  | answer index fields =>
      simp only [networkLoop]
      cases net.received[index]? with
      | none => exact h
      | some request =>
          cases htype : answerType request.packet with
          | none =>
              simp only [htype]
              exact h
          | some type =>
              simp only [htype]
              apply h.answer
              exact ⟨List.cons_ne_nil _ _, fun hcode =>
                absurd hcode (answerType_ne_dataAck htype)⟩

/-- A stale acknowledgement lets the sender go past a frame that the peer does not hold. -/
theorem Network.Invariant.stale (h : net.Invariant) {step : Step}
    (hstale : net.StaleAck step) :
    ¬ SafeExit (networkLoop stack hostName net step).2 := by
  obtain ⟨index, answer, handle, data, hstep, hanswer, htransfer, hphase, _, hacked,
    hmissing⟩ := hstale
  have hholds := h.transfer
  rw [htransfer] at hholds
  obtain ⟨text, htext, _, hlength, _, _, sessionId, hwaiting⟩ := hholds
  rw [hphase] at hwaiting
  obtain ⟨number, hnumber, _, hcounters⟩ := hwaiting
  obtain ⟨events, later, hloop, hadvanced, hsent⟩ :=
    sessionHandleLoop_acked stack htext.holds.left hlength hphase hnumber hcounters hacked
  have hquiet := @sessionHandleLoop_quiet stack data net.history net.history handle
    (Quietly.refl _) (.recv (.datagram answer.packet))
  rw [hloop] at hquiet
  have hbatch := (sameBatch_quietly hquiet.1).batch
  have hawaited := hcounters.toNat_nextFrameNumber hlength (Nat.le_of_lt hnumber)
  have hreached := hadvanced.toNat_nextFrameNumber hlength (Nat.succ_le_of_lt hnumber)
  simp only [networkLoop, hstep, hanswer, Network.pass, htransfer, sessionTransferLoop,
    hloop, andThen]
  intro hsafe
  obtain ⟨datagram, hreceived, hdatagram, hframe, hfield⟩ := hsafe.1 number (by
    simp only [Transfer.frameNumber, hreached]
    exact Nat.lt_succ_self number)
  cases frames_append_cases events hframe with
  | inl hold =>
      apply hmissing
      rw [hawaited]
      exact ⟨datagram, hreceived, hdatagram.trans hbatch, hold, hfield⟩
  | inr hnew =>
      have hceil := ceilDiv_le hlength
      rw [hsent datagram.packet hnew.1 hnew.2, field16_dataFrame,
        BitVec.toNat_ofNat] at hfield
      omega

theorem networkStart_invariant (hostName : List Byte) (session : Session) :
    SafeExit.post.Of [] (networkStart stack hostName session) := by
  have hstart : (progress (fun _ _ => False)).transfer.Of []
      (sessionConnect stack hostName session ⟨[], 0⟩) :=
    (progress_kept stack).sessionConnect
      (fun entry hentry => absurd hentry List.not_mem_nil)
  unfold networkStart
  revert hstart
  cases sessionConnect stack hostName session ⟨[], 0⟩ with
  | mk events exit =>
      intro hstart
      cases exit with
      | done last value => nomatch value
      | fault => exact trivial
      | again transfer =>
          constructor
          · exact progress_mono (fun _ _ hfalse => hfalse.elim) hstart
          · exact fun answer hanswer => absurd hanswer List.not_mem_nil

theorem Network.Invariant.safe (h : net.Invariant) : net.Safe := progress_safe h.transfer

theorem stop_and_wait_decides : Decides (networkLoop stack hostName) (fun _ => True)
    (fun _ net => net.Invariant) (fun net step => ¬ net.StaleAck step)
    (fun _ exit => SafeExit exit) where
  holds := fun _ _ h => h.safe
  keeps := fun _ _ _ _ h hstale => h.step stack hstale
  breaks := fun _ _ _ _ h hstale => h.stale stack (not_not.mp hstale)

/--
In every run of the network the peer holds what the sender has taken as
delivered, at every moment, if and only if no stale acknowledgement is taken for
a frame that the peer does not hold.
-/
theorem stop_and_wait_iff (hostName : List Byte) (session : Session)
    (steps : List Step) :
    Throughout (networkStart stack hostName session) (networkLoop stack hostName)
        (fun _ exit => SafeExit exit) steps ↔
      AlongFrom (networkStart stack hostName session) (networkLoop stack hostName)
        (fun net step => ¬ net.StaleAck step) steps :=
  (stop_and_wait_decides stack).throughout_iff
    (networkStart_invariant stack hostName session) (fun _ _ => trivial)

/-! ## A stale acknowledgement -/

instance (net : Network) : Decidable net.Safe :=
  inferInstanceAs (Decidable (_ ∧ ∀ entry ∈ (traffic net.history).completed, _))

instance : (exit : Exit Network Empty) → Decidable (SafeExit exit)
  | .again net => inferInstanceAs (Decidable net.Safe)
  | .done _ _ => isTrue trivial
  | .fault => isTrue trivial

/--
Two batches of one frame.  The frame of the first one is acknowledged, and that
acknowledgement arrives again when the frame of the second one has been sent and
has not arrived.
-/
theorem not_stop_and_wait :
    ¬ Throughout (networkStart zeroStack [0x68#8] zeroSession)
      (networkLoop zeroStack [0x68#8]) (fun _ exit => SafeExit exit)
      [.arrive 0, .answer 0 (le32 1#32 ++ le16 5000#16 ++ List.replicate 10 0#8),
        .deliver 0,
        .input (.fgets ⟨[0x41#8, 0x0A#8], by decide⟩), .input (.fgets ⟨[], by decide⟩),
        .arrive 1, .answer 1 (le32 1#32 ++ le16 5000#16 ++ List.replicate 10 0#8),
        .deliver 1,
        .arrive 2, .acknowledge 1 0, .deliver 2,
        .arrive 3, .answer 3 (le32 1#32 ++ le16 5000#16), .deliver 3,
        .input (.fgets ⟨[0x42#8, 0x0A#8], by decide⟩), .input (.fgets ⟨[], by decide⟩),
        .arrive 4, .answer 4 (le32 1#32 ++ le16 5000#16 ++ List.replicate 10 0#8),
        .deliver 4, .deliver 2] := by
  intro h
  have hend := h _ (List.prefix_refl _)
  revert hend
  decide +kernel

end BBCodeBase.Sender
