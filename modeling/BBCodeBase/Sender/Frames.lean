import BBCodeBase.Foundation.Fragments
import BBCodeBase.Sender.Contract

/-!
# The frames of a batch

`session_handle` announces a batch, sends it in frames of at most
`MAX_FRAME_SIZE` bytes and finishes.  The three counters of the session are tied
to the number `index` of frames acknowledged so far; `no_of_bytes` says something
only as long as a frame is left, after a short last frame it has wrapped.
-/

namespace BBCodeBase.Sender

open Reactive Fragments

variable (stack : Stack) {session : Session} {tasks : Tasks} {exchange : Exchange}
  {history : List Event}

/-! ## What is sent -/

/-- The packets handed to `session_send_packet`, retransmissions left out. -/
def sentPackets (history : List Event) : List (List Byte) :=
  history.filterMap fun event =>
    match event with
    | .send _ _ packet => some packet
    | _ => none

theorem sentPackets_append (events : List Event) :
    sentPackets (history ++ events) = sentPackets history ++ sentPackets events :=
  List.filterMap_append

theorem sentPackets_send (packet : List Byte) :
    sentPackets (sessionSendPacket session tasks packet).1 = [packet] := rfl

theorem sentPackets_timeout (task : Nat) (junk : List Byte) :
    sentPackets (sessionPacketTimeout session tasks task junk) = [] := by
  unfold sessionPacketTimeout
  cases tasks.live.find? (·.id = task) <;> rfl

/-! ## The packet of a frame -/

def dataFrame (sessionId : BitVec 32) (batch : List Byte) (index : Nat) : List Byte :=
  PacketType.data.code :: le32 sessionId ++
    le32 (BitVec.ofNat 32 (fragment maxFrameSize batch index).length) ++
    le16 (BitVec.ofNat 16 index) ++ fragment maxFrameSize batch index

theorem length_dataFrame (sessionId : BitVec 32) (batch : List Byte) (index : Nat) :
    (dataFrame sessionId batch index).length =
      11 + (fragment maxFrameSize batch index).length := by
  simp only [dataFrame, List.cons_append, List.length_cons, List.length_append,
    length_le32, length_le16]
  omega

theorem drop_dataFrame (sessionId : BitVec 32) (batch : List Byte) (index : Nat) :
    (dataFrame sessionId batch index).drop 11 = fragment maxFrameSize batch index := by
  simp [dataFrame, le32, le16]

theorem field32_dataFrame (sessionId : BitVec 32) (batch : List Byte) (index : Nat) :
    field32 (dataFrame sessionId batch index) 5 =
      BitVec.ofNat 32 (fragment maxFrameSize batch index).length :=
  field32_length _ _ _ _ _

theorem field16_dataFrame (sessionId : BitVec 32) (batch : List Byte) (index : Nat) :
    field16 (dataFrame sessionId batch index) 9 = BitVec.ofNat 16 index :=
  field16_seqNum _ _ _ _ _

/-! ## The counters -/

structure Counters (sessionId : BitVec 32) (count index : Nat) (session : Session) :
    Prop where
  sessionId : session.sessionId = sessionId
  noOfPackets : session.noOfPackets = BitVec.ofNat 16 (count ⌈/⌉ maxFrameSize - index)
  nextFrameNumber : session.nextFrameNumber = BitVec.ofNat 16 index
  noOfBytes : index < count ⌈/⌉ maxFrameSize →
    session.noOfBytes = BitVec.ofNat 32 (count - index * maxFrameSize)

variable {sessionId : BitVec 32} {count index : Nat}

theorem ceilDiv_le (hcount : count < sessionSize + maxRecordSize) :
    count ⌈/⌉ maxFrameSize ≤ 21 := by
  have hsizes : sessionSize + maxRecordSize ≤ maxFrameSize * 21 := by decide
  rw [ceilDiv_le_iff_le_mul (by decide)]
  omega

theorem toNat_of_small (hcount : count < sessionSize + maxRecordSize) :
    (BitVec.ofNat 32 count).toNat = count := by
  rw [BitVec.toNat_ofNat]
  apply Nat.mod_eq_of_lt
  have hsizes : sessionSize + maxRecordSize ≤ 2 ^ 32 := by decide
  omega

theorem forBatch_counters (session : Session)
    (hcount : count < sessionSize + maxRecordSize) :
    Counters session.sessionId count 0 (session.forBatch stack count) where
  sessionId := rfl
  noOfPackets := by
    have hvalue := toNat_of_small hcount
    have hdiv : BitVec.ofNat 32 count / BitVec.ofNat 32 maxFrameSize =
        BitVec.ofNat 32 (count / maxFrameSize) := by
      apply BitVec.eq_of_toNat_eq
      rw [BitVec.toNat_udiv, hvalue, toNat_of_small (by decide), toNat_of_small]
      exact lt_of_le_of_lt (Nat.div_le_self count maxFrameSize) hcount
    have hmod : BitVec.ofNat 32 count % BitVec.ofNat 32 maxFrameSize =
        BitVec.ofNat 32 (count % maxFrameSize) := by
      apply BitVec.eq_of_toNat_eq
      rw [BitVec.toNat_umod, hvalue, toNat_of_small (by decide), toNat_of_small]
      exact lt_of_le_of_lt (Nat.mod_le count maxFrameSize) hcount
    have hrest : BitVec.ofNat 32 (count % maxFrameSize) = 0#32 ↔
        count % maxFrameSize = 0 := by
      rw [← BitVec.toNat_inj, toNat_of_small]
      · rfl
      · exact lt_of_le_of_lt (Nat.mod_le count maxFrameSize) hcount
    have hceil := ceilDiv_eq (show 0 < maxFrameSize by decide) count
    simp only [Session.forBatch, hdiv, hmod, ne_eq, hrest, Nat.sub_zero]
    rw [BitVec.setWidth_ofNat_of_le (by decide), hceil]
    by_cases hexact : count % maxFrameSize = 0
    · rw [if_neg (not_not.mpr hexact), if_pos hexact, Nat.add_zero]
    · rw [if_pos hexact, if_neg hexact, BitVec.ofNat_add]
  nextFrameNumber := rfl
  noOfBytes := by
    intro _
    rw [Nat.zero_mul, Nat.sub_zero]
    rfl

theorem Counters.advance (h : Counters sessionId count index session)
    (hindex : index < count ⌈/⌉ maxFrameSize) :
    Counters sessionId count (index + 1)
      { session with
        noOfPackets := session.noOfPackets - 1#16
        noOfBytes := session.noOfBytes - BitVec.ofNat 32 maxFrameSize
        nextFrameNumber := session.nextFrameNumber + 1#16 } where
  sessionId := h.sessionId
  noOfPackets := by
    rw [h.noOfPackets, BitVec.ofNat_sub_ofNat_of_le _ _ (by decide) (by omega)]
    rfl
  nextFrameNumber := by
    rw [h.nextFrameNumber, BitVec.ofNat_add]
  noOfBytes := by
    intro hnext
    have hfull := (lt_ceilDiv_iff (by decide)).mp hnext
    rw [h.noOfBytes hindex, BitVec.ofNat_sub_ofNat_of_le _ _ (by decide)
      (by rw [Nat.succ_mul] at hfull; omega), Nat.succ_mul, Nat.sub_sub]

theorem Counters.toNat_nextFrameNumber (h : Counters sessionId count index session)
    (hcount : count < sessionSize + maxRecordSize)
    (hindex : index ≤ count ⌈/⌉ maxFrameSize) :
    session.nextFrameNumber.toNat = index := by
  have hceil := ceilDiv_le hcount
  rw [h.nextFrameNumber, BitVec.toNat_ofNat]
  omega

theorem minValue_ofNat (hcount : count < sessionSize + maxRecordSize) :
    minValue (BitVec.ofNat 32 maxFrameSize) (BitVec.ofNat 32 count) =
      BitVec.ofNat 32 (min maxFrameSize count) := by
  have hless : BitVec.ofNat 32 maxFrameSize < BitVec.ofNat 32 count ↔
      maxFrameSize < count := by
    rw [BitVec.lt_def, toNat_of_small (by decide), toNat_of_small hcount]
  simp only [minValue, hless]
  split
  case isTrue hlong => rw [min_eq_left (by omega)]
  case isFalse hshort => rw [min_eq_right (by omega)]

variable {data : SessionData} {batch : List Byte}

theorem length_fragment_lt (hsize : batch.length < sessionSize + maxRecordSize)
    (index : Nat) :
    (fragment maxFrameSize batch index).length < sessionSize + maxRecordSize := by
  rw [length_fragment]
  omega

/-- Both places that compute the length of the data agree with the fragment. -/
theorem Counters.minValue_eq (h : Counters sessionId batch.length index session)
    (hsize : batch.length < sessionSize + maxRecordSize)
    (hindex : index < batch.length ⌈/⌉ maxFrameSize) :
    minValue (BitVec.ofNat 32 maxFrameSize) session.noOfBytes =
      BitVec.ofNat 32 (fragment maxFrameSize batch index).length := by
  rw [h.noOfBytes hindex, minValue_ofNat (by omega), length_fragment]

theorem buildPktData_eq (hdata : data.Holds 0 batch)
    (hsize : batch.length < sessionSize + maxRecordSize)
    (h : Counters sessionId batch.length index session)
    (hindex : index < batch.length ⌈/⌉ maxFrameSize) (behind : Nat → Byte) :
    ∃ rest, buildPktData session data behind =
      some (dataFrame sessionId batch index ++ rest) := by
  have hstarts := (lt_ceilDiv_iff (by decide)).mp hindex
  have hnumber := h.toNat_nextFrameNumber hsize (Nat.le_of_lt hindex)
  have hlength := toNat_of_small (length_fragment_lt hsize index)
  have hslice : data.slice? (index * maxFrameSize)
      (fragment maxFrameSize batch index).length =
        some (fragment maxFrameSize batch index) := by
    have hread := @Buffer.Holds.slice?_drop _ _ _ 0 (index * maxFrameSize)
      (fragment maxFrameSize batch index).length _ hdata
      (by rw [length_fragment]; omega)
    rw [Nat.zero_add] at hread
    rw [hread]
    simp [fragment]
  simp only [buildPktData, h.minValue_eq hsize hindex, hlength, hnumber, hslice,
    h.sessionId]
  rw [h.nextFrameNumber]
  exact ⟨_, rfl⟩

/-! ## The stages of a batch -/

def Announces (count : Nat) (packet : List Byte) : Prop :=
  packetType packet = PacketType.handshake.code ∧
    (field16 packet 5).toNat = count ⌈/⌉ maxFrameSize

theorem announces_handshake (hsize : count < sessionSize + maxRecordSize)
    (hcounters : Counters sessionId count 0 session) (behind : Nat → Byte) :
    Announces count (buildPktHandshake session behind) := by
  have hceil := ceilDiv_le hsize
  have hfield : field16 (buildPktHandshake session behind) 5 = session.noOfPackets :=
    field16_le16 session.noOfPackets
  constructor
  · rfl
  · rw [hfield, hcounters.noOfPackets, BitVec.toNat_ofNat]
    omega

/--
What holds before a batch is announced, before and after each of its frames is
sent, and after the end is sent.
-/
structure Stages where
  begun : List Event → Prop
  ready : Nat → List Event → Prop
  waiting : Nat → List Event → Prop
  finished : List Event → Prop

structure Stages.Kept (stages : Stages) (sessionId : BitVec 32) (batch : List Byte)
    (acked : Nat → Prop) : Prop where
  begunSkip : ∀ {history events}, sentPackets events = [] →
    stages.begun history → stages.begun (history ++ events)
  readySkip : ∀ {index history events}, sentPackets events = [] →
    stages.ready index history → stages.ready index (history ++ events)
  waitingSkip : ∀ {index history events}, sentPackets events = [] →
    stages.waiting index history → stages.waiting index (history ++ events)
  finishedSkip : ∀ {history events}, sentPackets events = [] →
    stages.finished history → stages.finished (history ++ events)
  announce : ∀ {history events packet}, Announces batch.length packet →
    sentPackets events = [packet] → stages.begun history →
    stages.ready 0 (history ++ events)
  send : ∀ {index history events},
    sentPackets events = [dataFrame sessionId batch index] →
    stages.ready index history → stages.waiting index (history ++ events)
  ack : ∀ {index history}, acked index → stages.waiting index history →
    stages.ready (index + 1) history
  finish : ∀ {history events packet}, packetType packet = PacketType.finish.code →
    sentPackets events = [packet] →
    stages.ready (batch.length ⌈/⌉ maxFrameSize) history →
    stages.finished (history ++ events)

def Stages.AwaitsAck (stages : Stages) (sessionId : BitVec 32) (batch : List Byte)
    (history : List Event) (exchange : Exchange) : Prop :=
  ∃ index < batch.length ⌈/⌉ maxFrameSize,
    stages.waiting index history ∧
      Counters sessionId batch.length index exchange.session

def Stages.contract (stages : Stages) (sessionId : BitVec 32) (batch : List Byte) :
    Contract where
  waiting := fun phase events exchange =>
    match phase with
    | .handshake =>
        stages.ready 0 events ∧ Counters sessionId batch.length 0 exchange.session
    | .data => stages.AwaitsAck sessionId batch events exchange
    | .finish =>
        stages.finished events ∧
          Counters sessionId batch.length (batch.length ⌈/⌉ maxFrameSize)
            exchange.session
  returned := fun phase events exchange value => value ≠ -1 →
    match phase with
    | .handshake =>
        stages.ready 0 events ∧ Counters sessionId batch.length 0 exchange.session
    | .data =>
        stages.ready (batch.length ⌈/⌉ maxFrameSize) events ∧
          Counters sessionId batch.length (batch.length ⌈/⌉ maxFrameSize)
            exchange.session
    | .finish => stages.finished events
  handled := fun events _ value => value = 0 → stages.finished events
  fault := fun _ => True

variable {stages : Stages} {acked : Nat → Prop}

theorem deleteAndReturn_failed (phase : Phase) (function : Function) :
    ((stages.contract sessionId batch).call phase).Of history
      (exchange.deleteAndReturn function (-1)) :=
  fun hvalue => absurd rfl hvalue

theorem sessionHandshake_stages (h : stages.Kept sessionId batch acked)
    (hsize : batch.length < sessionSize + maxRecordSize)
    (hbegun : stages.begun history)
    (hcounters : Counters sessionId batch.length 0 session) :
    ((stages.contract sessionId batch).call .handshake).Of history
      (sessionHandshake stack session tasks) := by
  unfold sessionHandshake
  rw [Post.of_emit_iff]
  constructor
  · apply h.announce (announces_handshake hsize hcounters _) (sentPackets_send _)
    exact h.begunSkip rfl hbegun
  · exact hcounters

theorem sessionHandshakeLoop_stages (h : stages.Kept sessionId batch acked)
    (hready : stages.ready 0 history)
    (hcounters : Counters sessionId batch.length 0 exchange.session) (input : Input) :
    ((stages.contract sessionId batch).call .handshake).Of history
      (sessionHandshakeLoop exchange input) := by
  unfold sessionHandshakeLoop
  apply exchangeLoop_of
  case hwait => exact fun _ _ => ⟨hready, hcounters⟩
  case hresend =>
      exact fun _ task junk =>
        ⟨h.readySkip (sentPackets_timeout task junk) hready, hcounters⟩
  case hanswered =>
      intro _ bytes buffer _ _ _
      apply deleteAndReturn_of
      intro _
      exact ⟨h.readySkip rfl (h.readySkip rfl hready), hcounters⟩
  case hcrash => exact fun _ => deleteAndReturn_failed .handshake .sessionHandshake
  case hfault => exact fun _ => trivial

theorem sessionSendNext_cases (hdata : data.Holds 0 batch)
    (hsize : batch.length < sessionSize + maxRecordSize)
    (hindex : index ≤ batch.length ⌈/⌉ maxFrameSize)
    (hcounters : Counters sessionId batch.length index exchange.session) :
    (index = batch.length ⌈/⌉ maxFrameSize ∧
      sessionSendNext stack data exchange = exchange.return .sessionSendData 0) ∨
    (index < batch.length ⌈/⌉ maxFrameSize ∧
      ∃ later, later.session = exchange.session ∧
        sessionSendNext stack data exchange =
          ((sessionSendPacket exchange.session exchange.tasks
            (dataFrame sessionId batch index)).1, .again later)) := by
  have hceil := ceilDiv_le hsize
  have hleft : exchange.session.noOfPackets = 0#16 ↔
      index = batch.length ⌈/⌉ maxFrameSize := by
    rw [hcounters.noOfPackets, ← BitVec.toNat_inj, BitVec.toNat_ofNat,
      BitVec.toNat_ofNat]
    omega
  unfold sessionSendNext
  split
  case isTrue hnone => exact .inl ⟨hleft.mp hnone, rfl⟩
  case isFalse hsome =>
      have hlt : index < batch.length ⌈/⌉ maxFrameSize :=
        lt_of_le_of_ne hindex (fun heq => hsome (hleft.mpr heq))
      let packet := dataFrame sessionId batch index
      let sent := sessionSendPacket exchange.session exchange.tasks packet
      have ⟨rest, hbuild⟩ := buildPktData_eq hdata hsize hcounters hlt
        (stack.bytes exchange.tasks.created)
      simp only [hbuild, hcounters.minValue_eq hsize hlt,
        toNat_of_small (length_fragment_lt hsize index)]
      rw [List.take_left' (length_dataFrame _ _ _)]
      exact .inr ⟨hlt, { exchange with tasks := sent.2, task := exchange.tasks.created },
        rfl, rfl⟩

theorem sessionSendNext_stages (h : stages.Kept sessionId batch acked)
    (hdata : data.Holds 0 batch) (hsize : batch.length < sessionSize + maxRecordSize)
    (hindex : index ≤ batch.length ⌈/⌉ maxFrameSize)
    (hready : stages.ready index history)
    (hcounters : Counters sessionId batch.length index exchange.session) :
    ((stages.contract sessionId batch).call .data).Of history
      (sessionSendNext stack data exchange) := by
  cases sessionSendNext_cases stack hdata hsize hindex hcounters with
  | inl hlast =>
      have ⟨heq, hreturn⟩ := hlast
      rw [hreturn]
      intro _
      rw [heq] at hready hcounters
      exact ⟨h.readySkip rfl hready, hcounters⟩
  | inr hnext =>
      have ⟨hlt, later, hsession, hsend⟩ := hnext
      rw [hsend]
      refine ⟨index, hlt, h.send (sentPackets_send _) hready, ?_⟩
      rw [hsession]
      exact hcounters

theorem sessionSendData_stages (h : stages.Kept sessionId batch acked)
    (hdata : data.Holds 0 batch) (hsize : batch.length < sessionSize + maxRecordSize)
    (hready : stages.ready 0 history)
    (hcounters : Counters sessionId batch.length 0 session) :
    ((stages.contract sessionId batch).call .data).Of history
      (sessionSendData stack data session tasks) := by
  unfold sessionSendData
  rw [Post.of_emit_iff]
  exact sessionSendNext_stages stack h hdata hsize (Nat.zero_le _) (h.readySkip rfl hready)
    hcounters

def Exchange.DataAcked (exchange : Exchange) (input : Input) : Prop :=
  ∃ bytes buffer, input = .recv (.datagram bytes) ∧
    transportRecvPacket exchange.buffer bytes = some buffer ∧
    isDataAck exchange.session buffer

theorem sessionSendDataLoop_acked {input : Input} (hacked : exchange.DataAcked input) :
    ∃ later, sessionSendDataLoop stack data exchange input =
        emit [.deleteTask exchange.task] (sessionSendNext stack data later) ∧
      later.session =
        { exchange.session with
          noOfPackets := exchange.session.noOfPackets - 1#16
          noOfBytes := exchange.session.noOfBytes - BitVec.ofNat 32 maxFrameSize
          nextFrameNumber := exchange.session.nextFrameNumber + 1#16 } := by
  obtain ⟨bytes, buffer, rfl, hstored, hack⟩ := hacked
  have hack' : isDataAck { exchange with buffer := buffer }.session buffer = true := hack
  simp only [sessionSendDataLoop, receiveLoop, hstored, hack', andThen, if_true, emit,
    List.nil_append]
  exact ⟨_, rfl, rfl⟩

/-- The step of the induction over the frames: an acknowledgement moves the counters. -/
theorem sessionSendDataLoop_stages (h : stages.Kept sessionId batch acked)
    (hdata : data.Holds 0 batch) (hsize : batch.length < sessionSize + maxRecordSize)
    (hawaits : stages.AwaitsAck sessionId batch history exchange) {input : Input}
    (hacked : exchange.DataAcked input → ∀ index < batch.length ⌈/⌉ maxFrameSize,
      Counters sessionId batch.length index exchange.session → acked index) :
    ((stages.contract sessionId batch).call .data).Of history
      (sessionSendDataLoop stack data exchange input) := by
  have ⟨index, hindex, hwaiting, hcounters⟩ := hawaits
  unfold sessionSendDataLoop
  apply exchangeLoop_of
  case hwait => exact fun _ _ => hawaits
  case hresend =>
      exact fun _ task junk =>
        ⟨index, hindex, h.waitingSkip (sentPackets_timeout task junk) hwaiting, hcounters⟩
  case hanswered =>
      intro _ bytes buffer hinput hstored hack
      apply Post.of_emit_iff.mpr
      apply sessionSendNext_stages stack h hdata hsize (Nat.succ_le_of_lt hindex)
      · apply h.ack
        · exact hacked ⟨bytes, buffer, hinput, hstored, hack⟩ index hindex hcounters
        · exact h.waitingSkip rfl hwaiting
      · exact hcounters.advance hindex
  case hcrash => exact fun _ => deleteAndReturn_failed .data .sessionSendData
  case hfault => exact fun _ => trivial

theorem sessionFinish_stages (h : stages.Kept sessionId batch acked)
    (hready : stages.ready (batch.length ⌈/⌉ maxFrameSize) history)
    (hcounters : Counters sessionId batch.length (batch.length ⌈/⌉ maxFrameSize)
      session) :
    ((stages.contract sessionId batch).call .finish).Of history
      (sessionFinish stack session tasks) := by
  unfold sessionFinish
  rw [Post.of_emit_iff]
  constructor
  · apply h.finish rfl (sentPackets_send _)
    exact h.readySkip rfl hready
  · exact hcounters

theorem sessionFinishLoop_stages (h : stages.Kept sessionId batch acked)
    (hfinished : stages.finished history)
    (hcounters : Counters sessionId batch.length (batch.length ⌈/⌉ maxFrameSize)
      exchange.session) (input : Input) :
    ((stages.contract sessionId batch).call .finish).Of history
      (sessionFinishLoop exchange input) := by
  unfold sessionFinishLoop
  apply exchangeLoop_of
  case hwait => exact fun _ _ => ⟨hfinished, hcounters⟩
  case hresend =>
      exact fun _ task junk =>
        ⟨h.finishedSkip (sentPackets_timeout task junk) hfinished, hcounters⟩
  case hanswered =>
      intro _ bytes buffer _ _ _ _
      exact h.finishedSkip rfl hfinished
  case hcrash => exact fun _ => deleteAndReturn_failed .finish .sessionFinish
  case hfault => exact fun _ => trivial

theorem Stages.Kept.chained (h : stages.Kept sessionId batch acked)
    (hdata : data.Holds 0 batch) (hsize : batch.length < sessionSize + maxRecordSize) :
    (stages.contract sessionId batch).Chained stack data where
  sendData := by
    intro history exchange ret hreturned hret
    have ⟨hready, hcounters⟩ := hreturned hret
    exact sessionSendData_stages stack h hdata hsize hready hcounters
  finish := by
    intro history exchange ret hreturned hret
    have ⟨hready, hcounters⟩ := hreturned hret
    exact sessionFinish_stages stack h hready hcounters
  failed := by
    intro phase history exchange _ hvalue
    cases hvalue
  handled := fun _ _ _ hreturned hret _ => h.finishedSkip rfl (hreturned hret)

theorem sessionHandle_stages (h : stages.Kept sessionId batch acked)
    (hdata : data.Holds 0 batch) (hsize : batch.length < sessionSize + maxRecordSize)
    (hbegun : stages.begun history)
    (hcounters : Counters sessionId batch.length 0 session) :
    (stages.contract sessionId batch).handle.Of history
      (sessionHandle stack data session tasks) := by
  apply (h.chained stack hdata hsize).sessionHandle
  exact sessionHandshake_stages stack h hsize (h.begunSkip rfl hbegun) hcounters

theorem sessionHandleLoop_stages (h : stages.Kept sessionId batch acked)
    (hdata : data.Holds 0 batch) (hsize : batch.length < sessionSize + maxRecordSize)
    {handle : Handle} {input : Input}
    (hwaiting : (stages.contract sessionId batch).waiting handle.phase history
      handle.exchange)
    (hacked : handle.phase = .data → handle.exchange.DataAcked input →
      ∀ index < batch.length ⌈/⌉ maxFrameSize,
        Counters sessionId batch.length index handle.exchange.session → acked index) :
    (stages.contract sessionId batch).handle.Of history
      (sessionHandleLoop stack data handle input) := by
  apply (h.chained stack hdata hsize).sessionHandleLoop
  cases hphase : handle.phase with
  | handshake =>
      rw [hphase] at hwaiting
      exact sessionHandshakeLoop_stages h hwaiting.1 hwaiting.2 input
  | data =>
      rw [hphase] at hwaiting
      exact sessionSendDataLoop_stages stack h hdata hsize hwaiting (hacked hphase)
  | finish =>
      rw [hphase] at hwaiting
      exact sessionFinishLoop_stages h hwaiting.1 hwaiting.2 input

theorem sessionHandleLoop_acked (hdata : data.Holds 0 batch)
    (hsize : batch.length < sessionSize + maxRecordSize) {handle : Handle}
    {input : Input} (hphase : handle.phase = .data)
    (hindex : index < batch.length ⌈/⌉ maxFrameSize)
    (hcounters : Counters sessionId batch.length index handle.exchange.session)
    (hacked : handle.exchange.DataAcked input) :
    ∃ events later, sessionHandleLoop stack data handle input = (events, .again later) ∧
      Counters sessionId batch.length (index + 1) later.exchange.session ∧
      ∀ packet ∈ sentPackets events, packetType packet = PacketType.data.code →
        packet = dataFrame sessionId batch (index + 1) := by
  obtain ⟨acknowledged, hloop, hsession⟩ :=
    @sessionSendDataLoop_acked stack _ data _ hacked
  have hadvanced := hcounters.advance hindex
  rw [← hsession] at hadvanced
  simp only [sessionHandleLoop, hphase, hloop]
  cases sessionSendNext_cases stack hdata hsize (Nat.succ_le_of_lt hindex) hadvanced with
  | inl hlast =>
      rw [hlast.2]
      refine ⟨_, _, rfl, hadvanced, ?_⟩
      intro packet hpacket htype
      obtain rfl : packet = buildPktFinish acknowledged.session := by
        simpa [sentPackets, afterSendData, sessionFinish, sessionSendPacket, emit,
          andThen, Exchange.return] using hpacket
      cases htype
  | inr hnext =>
      obtain ⟨_, later, hsame, hsend⟩ := hnext
      rw [hsend]
      refine ⟨_, ⟨.data, later⟩, rfl, ?_, ?_⟩
      · rw [hsame]
        exact hadvanced
      · intro packet hpacket _
        simpa [sentPackets, sessionSendPacket] using hpacket

/-! ## The packets of a batch -/

def sentStages (sessionId : BitVec 32) (batch : List Byte) : Stages where
  begun := fun events => sentPackets events = []
  ready := fun index events => ∃ handshake, Announces batch.length handshake ∧
    sentPackets events =
      handshake :: (List.range index).map (dataFrame sessionId batch)
  waiting := fun index events => ∃ handshake, Announces batch.length handshake ∧
    sentPackets events =
      handshake :: (List.range (index + 1)).map (dataFrame sessionId batch)
  finished := fun events => ∃ handshake finish, Announces batch.length handshake ∧
    packetType finish = PacketType.finish.code ∧
    sentPackets events =
      handshake :: ((List.range (batch.length ⌈/⌉ maxFrameSize)).map
        (dataFrame sessionId batch) ++ [finish])

theorem sentPackets_skip {events : List Event} (h : sentPackets events = []) :
    sentPackets (history ++ events) = sentPackets history := by
  rw [sentPackets_append, h, List.append_nil]

theorem sentStages_kept :
    (sentStages sessionId batch).Kept sessionId batch (fun _ => True) where
  begunSkip := fun hevents h => (sentPackets_skip hevents).trans h
  readySkip := fun hevents ⟨handshake, hannounces, h⟩ =>
    ⟨handshake, hannounces, (sentPackets_skip hevents).trans h⟩
  waitingSkip := fun hevents ⟨handshake, hannounces, h⟩ =>
    ⟨handshake, hannounces, (sentPackets_skip hevents).trans h⟩
  finishedSkip := fun hevents ⟨handshake, finish, hannounces, hfinish, h⟩ =>
    ⟨handshake, finish, hannounces, hfinish, (sentPackets_skip hevents).trans h⟩
  announce := by
    intro history events packet hannounces hevents h
    refine ⟨packet, hannounces, ?_⟩
    rw [sentPackets_append, hevents, h]
    rfl
  send := by
    intro index history events hevents ⟨handshake, hannounces, h⟩
    refine ⟨handshake, hannounces, ?_⟩
    rw [sentPackets_append, hevents, h, List.range_succ, List.map_append]
    rfl
  ack := fun _ h => h
  finish := by
    intro history events packet hfinish hevents ⟨handshake, hannounces, h⟩
    refine ⟨handshake, packet, hannounces, hfinish, ?_⟩
    rw [sentPackets_append, hevents, h]
    rfl

theorem sessionHandle_run_sent (hdata : data.Holds 0 batch)
    (hsize : batch.length < sessionSize + maxRecordSize)
    (session : Session) (tasks : Tasks) (inputs : List Input)
    (hreturned : (enter
      (sessionHandle stack data (session.forBatch stack batch.length) tasks)
      (sessionHandleLoop stack data) inputs).2.value? = some 0) :
    (sentStages session.sessionId batch).finished
      (enter (sessionHandle stack data (session.forBatch stack batch.length) tasks)
        (sessionHandleLoop stack data) inputs).1 := by
  have hstart : ((sentStages session.sessionId batch).contract session.sessionId
      batch).handle.Of []
      (sessionHandle stack data (session.forBatch stack batch.length) tasks) :=
    sessionHandle_stages stack sentStages_kept hdata hsize rfl
      (forBatch_counters stack session hsize)
  have hbody : ∀ history handle input, True →
      ((sentStages session.sessionId batch).contract session.sessionId
        batch).handle.again history handle →
      ((sentStages session.sessionId batch).contract session.sessionId
        batch).handle.Of history (sessionHandleLoop stack data handle input) :=
    fun _ _ _ _ h => sessionHandleLoop_stages stack sentStages_kept hdata hsize h
      (fun _ _ _ _ _ => trivial)
  have hrun := Post.Of.enter hstart hbody (fun input (_ : input ∈ inputs) => trivial)
  revert hreturned hrun
  cases enter (sessionHandle stack data (session.forBatch stack batch.length) tasks)
    (sessionHandleLoop stack data) inputs with
  | mk events exit =>
      intro hreturned hrun
      cases exit with
      | again handle => cases hreturned
      | done handle value => exact hrun (Option.some.inj hreturned)
      | fault => cases hreturned

/--
The packets sent for a batch: the announcement of the frames, the frames with
their numbers in order, none empty and together the batch, and the end.
-/
theorem batch_fragmented {batch : List Byte} {data : SessionData}
    (hdata : data.Holds 0 batch) (hpos : 1 ≤ batch.length)
    (hmax : batch.length ≤ 10199) (session : Session) (tasks : Tasks)
    (inputs : List Input)
    (hreturned : (enter
      (sessionHandle stack data (session.forBatch stack batch.length) tasks)
      (sessionHandleLoop stack data) inputs).2.value? = some 0) :
    ∃ handshake frames finish,
      sentPackets (enter
          (sessionHandle stack data (session.forBatch stack batch.length) tasks)
          (sessionHandleLoop stack data) inputs).1 =
        handshake :: (frames ++ [finish]) ∧
      packetType handshake = PacketType.handshake.code ∧
      (field16 handshake 5).toNat = batch.length ⌈/⌉ 500 ∧
      packetType finish = PacketType.finish.code ∧
      frames.length = batch.length ⌈/⌉ 500 ∧
      (∀ index (h : index < frames.length),
        packetType frames[index] = PacketType.data.code ∧
        (field16 frames[index] 9).toNat = index ∧
        (field32 frames[index] 5).toNat = min 500 (batch.length - 500 * index) ∧
        frames[index].length = 11 + min 500 (batch.length - 500 * index) ∧
        1 ≤ min 500 (batch.length - 500 * index) ∧
        min 500 (batch.length - 500 * index) ≤ 500) ∧
      (frames.map (·.drop 11)).flatten = batch := by
  have hsize : batch.length < sessionSize + maxRecordSize := Nat.lt_succ_of_le hmax
  have ⟨handshake, finish, hannounces, hfinish, hsent⟩ :=
    sessionHandle_run_sent stack hdata hsize session tasks inputs hreturned
  refine ⟨handshake, _, finish, hsent, hannounces.1, hannounces.2, hfinish, ?_, ?_, ?_⟩
  · rw [List.length_map, List.length_range]
    rfl
  · intro index hindex
    rw [List.length_map, List.length_range] at hindex
    have hstarts := (lt_ceilDiv_iff (by decide)).mp hindex
    have hceil := ceilDiv_le hsize
    have hlength : (fragment maxFrameSize batch index).length =
        min 500 (batch.length - 500 * index) := by
      rw [length_fragment, Nat.mul_comm]
      rfl
    have hsmall : min 500 (batch.length - 500 * index) <
        sessionSize + maxRecordSize := by
      omega
    rw [List.getElem_map, List.getElem_range]
    refine ⟨rfl, ?_, ?_, ?_, ?_, ?_⟩
    · rw [field16_dataFrame, BitVec.toNat_ofNat]
      omega
    · rw [field32_dataFrame, hlength, toNat_of_small hsmall]
    · rw [length_dataFrame, hlength]
    · have hframe : maxFrameSize = 500 := rfl
      rw [hframe] at hstarts
      omega
    · exact min_le_left _ _
  · rw [List.map_map]
    have hpayload : (fun packet : List Byte => packet.drop 11) ∘
        dataFrame session.sessionId batch = fragment maxFrameSize batch := by
      funext index
      exact drop_dataFrame session.sessionId batch index
    rw [hpayload]
    exact flatten_fragments (by decide) batch

def twoFrames : SessionData := ⟨fun index => if index.val < 501 then 0x41#8 else 0#8⟩

def twoFrameAcks : List Input :=
  [.packet .handshakeAck (le16 1#16 ++ List.replicate 10 0#8), .packet .dataAck (le16 1#16),
    .packet .dataAck (le16 2#16), .packet .finishAck (le16 5000#16)]

/-- A batch of two frames, with every packet answered at once. -/
theorem batch_fragmented_twoFrames :
    ∃ handshake frames finish,
      sentPackets (enter
          (sessionHandle zeroStack twoFrames (zeroSession.forBatch zeroStack 501) ⟨[], 0⟩)
          (sessionHandleLoop zeroStack twoFrames) twoFrameAcks).1 =
        handshake :: (frames ++ [finish]) ∧
      frames.length = 2 ∧
      (frames.map (·.drop 11)).flatten = List.replicate 501 0x41#8 := by
  obtain ⟨batch, hbatch⟩ : ∃ batch, batch = List.replicate 501 0x41#8 := ⟨_, rfl⟩
  have hlength : batch.length = 501 := by rw [hbatch, List.length_replicate]
  have hdata : twoFrames.Holds 0 batch := by
    intro offset hoffset
    have hsize : offset < sessionSize + maxRecordSize :=
      Nat.lt_trans (hlength ▸ hoffset) (by decide)
    simp only [hbatch, List.getElem_replicate, Nat.zero_add]
    rw [Buffer.load?, dif_pos hsize]
    exact congrArg some (if_pos (hlength ▸ hoffset))
  have hreturned : (enter
      (sessionHandle zeroStack twoFrames (zeroSession.forBatch zeroStack 501) ⟨[], 0⟩)
      (sessionHandleLoop zeroStack twoFrames) twoFrameAcks).2.value? = some 0 := by
    decide +kernel
  have hsent := batch_fragmented zeroStack hdata (by omega) (by omega) zeroSession ⟨[], 0⟩
    twoFrameAcks
  rw [hlength] at hsent
  obtain ⟨handshake, frames, finish, hpackets, _, _, _, hframes, _, hpayload⟩ :=
    hsent hreturned
  exact ⟨handshake, frames, finish, hpackets, hframes, hpayload.trans hbatch⟩

end BBCodeBase.Sender
