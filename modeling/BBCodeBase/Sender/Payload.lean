import BBCodeBase.Sender.Collecting

/-!
# The payload on the wire

What the DATA packets of a run carry, in the order in which they are sent for
the first time.  As long as the server does not crash while a batch is handled,
this is what was read from standard input, up to what is still to be sent.
-/

namespace BBCodeBase.Sender

open Reactive Fragments

variable {stack : Stack} {data : SessionData} {session : Session} {tasks : Tasks}
  {exchange : Exchange} {history : List Event} {sessionId : BitVec 32}
  {base text : List Byte} {hostName : List Byte}

def isData (packet : List Byte) : Bool := packetType packet == PacketType.data.code

def payload (packet : List Byte) : List Byte := packet.drop 11

def sentPayload (history : List Event) : List Byte :=
  ((sentPackets history).filter isData).flatMap payload

theorem sentPayload_skip {events : List Event} (h : sentPackets events = []) :
    sentPayload (history ++ events) = sentPayload history := by
  rw [sentPayload, sentPackets_skip h]
  rfl

theorem sentPayload_send {events : List Event} {packet : List Byte}
    (h : sentPackets events = [packet]) :
    sentPayload (history ++ events) =
      sentPayload history ++ if isData packet then payload packet else [] := by
  rw [sentPayload, sentPackets_append, h, List.filter_append, List.flatMap_append,
    sentPayload, List.append_cancel_left_eq]
  cases hdata : isData packet with
  | true => simp [hdata]
  | false => simp [hdata]

/-! ## While a batch is handled -/

def payloadStages (base text : List Byte) : Stages where
  begun := fun events => sentPayload events = base
  ready := fun index events => sentPayload events = base ++ text.take (index * maxFrameSize)
  waiting := fun index events =>
    sentPayload events = base ++ text.take ((index + 1) * maxFrameSize)
  finished := fun events => sentPayload events = base ++ text

theorem payloadStages_kept :
    (payloadStages base text).Kept sessionId text (fun _ => True) where
  begunSkip := fun hevents h => (sentPayload_skip hevents).trans h
  readySkip := fun hevents h => (sentPayload_skip hevents).trans h
  waitingSkip := fun hevents h => (sentPayload_skip hevents).trans h
  finishedSkip := fun hevents h => (sentPayload_skip hevents).trans h
  announce := by
    intro history events packet hannounces hevents h
    have hother : isData packet = false := by
      rw [isData, hannounces.1]
      rfl
    have hsent := @sentPayload_send history _ _ hevents
    rw [hother, if_neg Bool.false_ne_true, List.append_nil] at hsent
    exact hsent.trans (h.trans (by simp))
  send := by
    intro index history events hevents h
    have hdata : isData (dataFrame sessionId text index) = true := rfl
    have hsent := @sentPayload_send history _ _ hevents
    rw [hdata, if_pos rfl, payload, drop_dataFrame] at hsent
    change sentPayload history = base ++ text.take (index * maxFrameSize) at h
    change sentPayload (history ++ events) = base ++ text.take ((index + 1) * maxFrameSize)
    rw [hsent, h, List.append_assoc, take_succ_mul]
  ack := fun _ h => h
  finish := by
    intro history events packet hfinish hevents h
    have hother : isData packet = false := by
      rw [isData, hfinish]
      rfl
    have hsent := @sentPayload_send history _ _ hevents
    have hwhole := take_ceilDiv_mul (show 0 < maxFrameSize by decide) text
    rw [hother, if_neg Bool.false_ne_true, List.append_nil] at hsent
    change sentPayload history =
      base ++ text.take (text.length ⌈/⌉ maxFrameSize * maxFrameSize) at h
    rw [hwhole] at h
    exact hsent.trans h

/-! ## What is still to be sent -/

def Owed (text : List Byte) (history : List Event) : Prop :=
  consumed history = sentPayload history ++ text

theorem consumed_keptByQuiet (chars : List Byte) :
    KeptByQuiet fun history => consumed history = chars := by
  intro history event hquiet h
  have hstdin : event.stdin = [] := by
    cases event <;> first | rfl | cases hquiet
  rw [consumed_concat, hstdin, List.append_nil, h]

theorem consumed_quietly {start : List Event} (h : Quietly start history) :
    consumed history = consumed start := by
  obtain ⟨events, rfl, hquiet⟩ := h
  induction events using List.reverseRecOn with
  | nil => rw [List.append_nil]
  | append_singleton events event ih =>
      have hlast := hquiet event (List.mem_append_right _ List.mem_cons_self)
      rw [← List.append_assoc]
      apply consumed_keptByQuiet _ _ _ hlast
      exact ih fun other hother => hquiet other (List.mem_append_left _ hother)

/-- An event that is neither about standard input nor a packet. -/
theorem Owed.concat {event : Event} (h : Owed text history) (hstdin : event.stdin = [])
    (hsent : sentPackets [event] = []) : Owed text (history ++ [event]) := by
  unfold Owed at h ⊢
  rw [consumed_concat, sentPayload_skip hsent, hstdin, List.append_nil, h]

theorem Owed.line (h : Owed text history) {line : Line} (hline : 0#8 ∉ line.chars) :
    Owed (text ++ line.text) (history ++ line.events) := by
  have hsent : sentPackets line.events = [] := by
    unfold Line.events
    split <;> rfl
  unfold Owed at h ⊢
  rw [consumed_line, sentPayload_skip hsent, h, line.text_eq_chars hline, List.append_assoc]

/-! ## While a port is learned -/

theorem packetType_hello {packet : List Byte}
    (h : buildPktHelloRequest session = some packet) :
    packetType packet = PacketType.helloRequest.code := by
  unfold buildPktHelloRequest at h
  split at h
  · rw [← Option.some.inj h]
    rfl
  · cases h

/-- Kept by what is neither about `session_data` nor a packet, and by HELLO packets. -/
structure KeptByHello (kept : List Event → Prop) : Prop where
  skip : ∀ history event, Event.quiet event → sentPackets [event] = [] → kept history →
    kept (history ++ [event])
  hello : ∀ history task port packet,
    packetType packet = PacketType.helloRequest.code → kept history →
    kept (history ++ [.send task port packet])

variable {kept : List Event → Prop}

theorem KeptByHello.timeout (hkept : KeptByHello kept) (h : kept history) (session : Session)
    (tasks : Tasks) (task : Nat) (junk : List Byte) :
    kept (history ++ sessionPacketTimeout session tasks task junk) := by
  unfold sessionPacketTimeout
  cases tasks.live.find? (·.id = task) with
  | none => rwa [List.append_nil]
  | some live => exact hkept.skip _ _ rfl rfl h

theorem KeptByHello.learnNewPort (hkept : KeptByHello kept) (h : kept history) :
    (steady kept).Of history (learnNewPort stack session tasks) := by
  have hcalled := hkept.skip history (.called .learnNewPort) rfl rfl h
  unfold Sender.learnNewPort
  rw [Post.of_emit_iff]
  cases hbuild : buildPktHelloRequest session with
  | none => exact Post.of_fault_iff.mpr hcalled
  | some packet => exact hkept.hello _ _ _ _ (packetType_hello hbuild) hcalled

theorem KeptByHello.learnNewPortLoop (hkept : KeptByHello kept) (h : kept history)
    (input : Input) : (steady kept).Of history (learnNewPortLoop stack exchange input) := by
  have hdone : kept (history ++ exchange.deleteTask.1) := hkept.skip _ _ rfl rfl h
  unfold Sender.learnNewPortLoop
  apply exchangeLoop_of
  case hwait => exact fun _ _ => h
  case hresend => exact fun _ task junk => hkept.timeout h _ _ task junk
  case hanswered =>
      intro _ bytes buffer _ _ _
      apply deleteAndReturn_of
      exact hkept.skip _ _ rfl rfl hdone
  case hcrash =>
      intro _
      apply deleteAndReturn_of
      exact hkept.skip _ _ rfl rfl hdone
  case hfault => exact fun _ => h

theorem owed_keptByHello (text : List Byte) : KeptByHello (Owed text) where
  skip := by
    intro history event hquiet hsent h
    have hstdin : event.stdin = [] := by
      cases event <;> first | rfl | cases hquiet
    exact h.concat hstdin hsent
  hello := by
    intro history task port packet hhello h
    have hother : isData packet = false := by
      rw [isData, hhello]
      rfl
    have hsent := @sentPayload_send history [.send task port packet] packet rfl
    rw [hother, if_neg Bool.false_ne_true, List.append_nil] at hsent
    unfold Owed at h ⊢
    rw [hsent, ← h]
    exact (consumed_concat _ _).trans (List.append_nil _)

/-! ## Whole runs -/

def payloads : TransferContract where
  learning := fun events _ => Owed [] events
  reading := fun text events _ => Owed text events
  handling := fun text events handle => ∃ sessionId base, consumed events = base ++ text ∧
    ((payloadStages base text).contract sessionId text).waiting handle.phase events
      handle.exchange
  fault := fun _ => True

theorem payloads_batch {start : List Event} (hstart : consumed start = base ++ text)
    {crash : Prop} (hsafe : ¬ crash) {pass : List Event × Exit Handle Int}
    (hquiet : (quietContract start crash).handle.Of history pass)
    (hstages : ((payloadStages base text).contract sessionId text).handle.Of history pass) :
    (payloads.batch text).Of history pass := by
  apply (hquiet.and hstages).weaken
  · rintro events handle ⟨⟨hquietly, -⟩, hwaiting⟩
    exact ⟨sessionId, base, (consumed_quietly hquietly).trans hstart, hwaiting⟩
  · rintro events handle ret ⟨⟨⟨before, hquietly, rfl⟩, hvalue⟩, hhandled⟩
    rcases hvalue with ⟨hcrash, -⟩ | ⟨-, rfl⟩
    · exact absurd hcrash hsafe
    · have hsent : sentPayload (before ++ [.returned .sessionHandle 0]) = base ++ text :=
        hhandled rfl
      change Owed [] _
      unfold Owed
      rw [hsent, consumed_concat, consumed_quietly hquietly, hstart]
      rfl
  · exact fun _ _ => trivial

theorem payloads_kept :
    payloads.Kept stack Input.nulFree (fun _ _ input => ¬ input.serverCrash) where
  connect := by
    intro history session tasks h
    apply ((owed_keptByHello []).learnNewPort (h.concat rfl rfl)).weaken
    · exact fun _ _ howed => howed
    · exact fun _ _ value => nomatch value
    · exact fun _ _ => trivial
  learn := by
    intro history exchange input h
    apply ((owed_keptByHello []).learnNewPortLoop h input).weaken
    · exact fun _ _ howed => howed
    · exact fun _ _ _ howed => howed
    · exact fun _ _ => trivial
  line := fun _ _ _ _ hline h => h.line hline
  timeout := fun text _ session tasks task junk h =>
    (owed_keptByHello text).timeout h session tasks task junk
  start := by
    intro text history session tasks data htext _ hlength h
    have hsame : sentPayload (history ++ [.batch text]) = sentPayload history :=
      sentPayload_skip rfl
    have hconsumed : consumed (history ++ [.batch text]) = sentPayload history ++ text := by
      rw [consumed_concat]
      exact (List.append_nil _).trans h
    apply payloads_batch hconsumed id
    · exact sessionHandle_quiet (Quietly.refl _) id
    · exact sessionHandle_stages stack payloadStages_kept htext.holds.left hlength hsame
        (forBatch_counters stack session hlength)
  handle := by
    intro text history handle data input hsafe htext hlength h
    obtain ⟨sessionId, base, hconsumed, hwaiting⟩ := h
    apply payloads_batch hconsumed hsafe
    · exact sessionHandleLoop_quiet (Quietly.refl history) input
    · exact sessionHandleLoop_stages stack payloadStages_kept htext.holds.left hlength
        hwaiting fun _ _ _ _ _ => trivial

def Handle.framesSent (handle : Handle) : Nat :=
  match handle.phase with
  | .handshake => 0
  | .data => handle.exchange.session.nextFrameNumber.toNat + 1
  | .finish => handle.exchange.session.nextFrameNumber.toNat

/-- What `session_data` holds and no DATA packet has carried yet. -/
def Transfer.unsent : Transfer → List Byte
  | .learning _ => []
  | .reading _ _ data _ => sessionText data
  | .handling handle data => (sessionText data).drop (handle.framesSent * maxFrameSize)

theorem payloads_handling {handle : Handle} (hsize : text.length < sessionSize + maxRecordSize)
    (hconsumed : consumed history = base ++ text)
    (h : ((payloadStages base text).contract sessionId text).waiting handle.phase history
      handle.exchange) :
    consumed history =
      sentPayload history ++ text.drop (handle.framesSent * maxFrameSize) := by
  unfold Handle.framesSent
  cases hphase : handle.phase with
  | handshake =>
      rw [hphase] at h
      have hsent : sentPayload history = base ++ text.take (0 * maxFrameSize) := h.1
      rw [hsent, List.append_assoc, List.take_append_drop, hconsumed]
  | data =>
      rw [hphase] at h
      obtain ⟨index, hindex, hsent, hcounters⟩ := h
      rw [hcounters.toNat_nextFrameNumber hsize (Nat.le_of_lt hindex)]
      change sentPayload history = base ++ text.take ((index + 1) * maxFrameSize) at hsent
      rw [hsent, List.append_assoc, List.take_append_drop, hconsumed]
  | finish =>
      rw [hphase] at h
      have hsent : sentPayload history = base ++ text := h.1
      have hall : text.length ≤ text.length ⌈/⌉ maxFrameSize * maxFrameSize := by
        rw [Nat.mul_comm]
        exact (ceilDiv_le_iff_le_mul (by decide)).mp (Nat.le_refl _)
      rw [h.2.toNat_nextFrameNumber hsize (Nat.le_refl _)]
      dsimp only
      rw [List.drop_of_length_le hall, List.append_nil, hsent, hconsumed]

theorem payloads_unsent {transfer : Transfer} (h : payloads.Holds history transfer) :
    consumed history = sentPayload history ++ transfer.unsent := by
  cases transfer with
  | learning exchange => exact h
  | reading session tasks data numBytes =>
      obtain ⟨text, htext, -, -, howed⟩ := h
      rw [Transfer.unsent, htext.sessionText_eq]
      exact howed
  | handling handle data =>
      obtain ⟨text, htext, -, hlength, sessionId, base, hconsumed, hwaiting⟩ := h
      rw [Transfer.unsent, htext.sessionText_eq]
      exact payloads_handling hlength hconsumed hwaiting

theorem payloads_collects {transfer : Transfer} (h : payloads.Holds history transfer) :
    ∃ text, transfer.Collects text := by
  cases transfer with
  | learning exchange => exact ⟨[], rfl⟩
  | reading session tasks data numBytes =>
      obtain ⟨text, htext, hnumBytes, hroom, -⟩ := h
      exact ⟨text, htext, hnumBytes, hroom⟩
  | handling handle data => exact ⟨[], rfl⟩

end BBCodeBase.Sender
