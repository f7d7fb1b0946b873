import BBCodeBase.Sender.Wire

/-!
# Reading the batches back

A receiver that sees every datagram of a run, and goes by the headers alone,
puts together batches that were read from standard input, each one whole and in
the order in which they were read.  Retransmissions and the tasks left over do
not confuse it, nor do batches that were given up.
-/

namespace BBCodeBase.Sender

open Reactive Fragments Reassembly

open scoped List

variable {stack : Stack} {data : SessionData} {session : Session} {tasks : Tasks}
  {exchange : Exchange} {history : List Event} {packet : List Byte}
  {sessionId : BitVec 32} {base : List (List Byte)} {text : List Byte}

def handled (history : List Event) : List (List Byte) :=
  (traffic history).completed.map (·.2)

def readBack (history : List Event) : Reader Byte :=
  readAll ((wirePackets history).map message)

/-! ## Reading the first transmissions -/

/-- What a packet means that is known to be whole. -/
def sentMessage (packet : List Byte) : Message Byte :=
  if packetType packet = PacketType.handshake.code then .announce (field16 packet 5).toNat
  else message packet

theorem sentMessage_eq (h : Whole packet) : sentMessage packet = message packet := by
  unfold sentMessage
  split
  case isTrue htype => rw [message, if_pos ⟨htype, h htype⟩]
  case isFalse => rfl

def firstRead (history : List Event) : Reader Byte :=
  readAll ((sentPackets history).map sentMessage)

theorem readBack_eq (hrepeating : Repeating history)
    (hwhole : ∀ packet ∈ sentPackets history, Whole packet) :
    readBack history = firstRead history := by
  have hmeaning : (sentPackets history).map message = (sentPackets history).map sentMessage :=
    List.map_congr_left fun packet hpacket => (sentMessage_eq (hwhole packet hpacket)).symm
  rw [readBack, hrepeating.readAll_eq, hmeaning, firstRead]

theorem firstRead_skip {events : List Event} (h : sentPackets events = []) :
    firstRead (history ++ events) = firstRead history := by
  rw [firstRead, sentPackets_skip h, firstRead]

theorem firstRead_send {events : List Event} (h : sentPackets events = [packet]) :
    firstRead (history ++ events) = (firstRead history).read (sentMessage packet) := by
  rw [firstRead, sentPackets_append, h, List.map_append]
  exact readAll_concat _ _

theorem sentMessage_announces {count : Nat} (h : Announces count packet) :
    sentMessage packet = .announce (count ⌈/⌉ maxFrameSize) := by
  rw [sentMessage, if_pos h.1, h.2]

theorem sentMessage_other (hhandshake : packetType packet ≠ PacketType.handshake.code)
    (hdata : packetType packet ≠ PacketType.data.code) : sentMessage packet = .other := by
  rw [sentMessage, if_neg hhandshake, message, if_neg fun hboth => hhandshake hboth.1,
    if_neg fun hboth => hdata hboth.1]

theorem sentMessage_finish (h : packetType packet = PacketType.finish.code) :
    sentMessage packet = .other := by
  apply sentMessage_other <;> rw [h] <;> decide

theorem sentMessage_hello (h : packetType packet = PacketType.helloRequest.code) :
    sentMessage packet = .other := by
  apply sentMessage_other <;> rw [h] <;> decide

theorem sentMessage_dataFrame (hsize : text.length < sessionSize + maxRecordSize)
    {index : Nat} (hindex : index < text.length ⌈/⌉ maxFrameSize) :
    sentMessage (dataFrame sessionId text index) =
      .chunk index (fragment maxFrameSize text index) := by
  have hceil := ceilDiv_le hsize
  have hother : ¬ packetType (dataFrame sessionId text index) = PacketType.handshake.code := by
    change ¬ PacketType.data.code = PacketType.handshake.code
    decide
  have hlength : (dataFrame sessionId text index).length =
      dataHeaderLength + (field32 (dataFrame sessionId text index) 5).toNat := by
    rw [length_dataFrame, field32_dataFrame, toNat_of_small (length_fragment_lt hsize index)]
    rfl
  have hnumber : (field16 (dataFrame sessionId text index) 9).toNat = index := by
    rw [field16_dataFrame, BitVec.toNat_ofNat]
    omega
  rw [sentMessage, if_neg hother, message, if_neg fun hboth => hother hboth.1,
    if_pos ⟨rfl, hlength⟩, hnumber, payload, drop_dataFrame]

/-! ## While a batch is handled -/

def readStages (base : List (List Byte)) (text : List Byte) : Stages where
  begun := fun events => (firstRead events).files = base
  ready := fun index events => Reading maxFrameSize text base index (firstRead events)
  waiting := fun index events => index < text.length ⌈/⌉ maxFrameSize →
    Reading maxFrameSize text base (index + 1) (firstRead events)
  finished := fun events => (firstRead events).files = base ++ [text]

theorem readStages_kept (hne : text ≠ []) (hsize : text.length < sessionSize + maxRecordSize) :
    (readStages base text).Kept sessionId text (· < text.length ⌈/⌉ maxFrameSize) where
  begunSkip := fun hevents h => (congrArg Reader.files (firstRead_skip hevents)).trans h
  readySkip := by
    intro index history events hevents h
    change Reading _ _ _ _ (firstRead (history ++ events))
    rwa [firstRead_skip hevents]
  waitingSkip := by
    intro index history events hevents h hindex
    rw [firstRead_skip hevents]
    exact h hindex
  finishedSkip := fun hevents h => (congrArg Reader.files (firstRead_skip hevents)).trans h
  announce := by
    intro history events packet hannounces hevents h
    change Reading _ _ _ _ (firstRead (history ++ events))
    rw [firstRead_send hevents, sentMessage_announces hannounces]
    exact Reading.announce (by decide) hne h
  send := by
    intro index history events hevents h hindex
    rw [firstRead_send hevents, sentMessage_dataFrame hsize hindex]
    exact Reading.chunk (by decide) h hindex
  ack := fun hindex h => h hindex
  finish := by
    intro history events packet hfinish hevents h
    change (firstRead (history ++ events)).files = _
    rw [firstRead_send hevents, sentMessage_finish hfinish]
    exact Reading.files_of_whole h

theorem readStages_files {phase : Phase}
    (h : ((readStages base text).contract sessionId text).waiting phase history exchange) :
    (firstRead history).files = base ∨ (firstRead history).files = base ++ [text] := by
  cases phase with
  | handshake => exact Reading.files_cases h.1
  | data =>
      obtain ⟨index, hindex, hwaiting, -⟩ := h
      exact (hwaiting hindex).files_cases
  | finish => exact .inr h.1

/-! ## Whole runs -/

def Matching (history : List Event) : Prop :=
  handled history <+ (firstRead history).files ∧
    (firstRead history).files <+ batches history

/-- The last batch is in hand, and before it the receiver had the files of `base`. -/
structure InHand (base before : List (List Byte)) (text : List Byte) (history : List Event) :
    Prop where
  handled : handled history <+ base
  base : base <+ before
  batches : batches history = before ++ [text]
  content : (traffic history).content = text
  nonempty : text ≠ []

variable {before : List (List Byte)}

theorem batches_quietly {start : List Event} (h : Quietly start history) :
    batches history = batches start := by
  obtain ⟨events, rfl, hquiet⟩ := h
  have hnone : events.filterMap Event.batch? = [] := by
    rw [List.filterMap_eq_nil_iff]
    intro event hevent
    have := hquiet event hevent
    cases event <;> first | rfl | cases this
  rw [batches, List.filterMap_append, hnone, List.append_nil, batches]

theorem InHand.quietly {start : List Event} (h : InHand base before text start)
    (hquiet : Quietly start history) : InHand base before text history where
  handled := by
    rw [Sender.handled, (sameBatch_quietly hquiet).completed]
    exact h.handled
  base := h.base
  batches := (batches_quietly hquiet).trans h.batches
  content := (sameBatch_quietly hquiet).content.trans h.content
  nonempty := h.nonempty

theorem handled_returned (value : Int) :
    handled (history ++ [.returned .sessionHandle value]) =
      handled history ++ if value = 0 then [(traffic history).content] else [] := by
  rw [handled, traffic_concat, handled]
  simp only [Traffic.next]
  split
  · simp
  · simp

theorem InHand.succeeded (h : InHand base before text history)
    (hfiles : (firstRead (history ++ [.returned .sessionHandle 0])).files = base ++ [text]) :
    Matching (history ++ [.returned .sessionHandle 0]) := by
  constructor
  · rw [handled_returned, if_pos rfl, h.content, hfiles]
    exact h.handled.append_right [text]
  · rw [hfiles, batches_concat, h.batches]
    exact (h.base.append_right [text]).trans (List.sublist_append_left _ _)

/-- Whether the last frame of the batch in hand has been sent or not. -/
theorem InHand.matching (h : InHand base before text history)
    (hfiles : (firstRead history).files = base ∨ (firstRead history).files = base ++ [text]) :
    Matching history := by
  rw [Matching, h.batches]
  rcases hfiles with hfiles | hfiles
  · rw [hfiles]
    exact ⟨h.handled, h.base.trans (List.sublist_append_left _ _)⟩
  · rw [hfiles]
    exact ⟨h.handled.trans (List.sublist_append_left _ _), h.base.append_right [text]⟩

theorem Matching.failed (h : Matching history) :
    Matching (history ++ [.returned .sessionHandle (-1)]) := by
  have hbatches : batches (history ++ [.returned .sessionHandle (-1)]) = batches history :=
    (batches_concat _ _).trans (List.append_nil _)
  rw [Matching, handled_returned, if_neg (by decide), List.append_nil, hbatches,
    firstRead_skip rfl]
  exact h

/-- After a crash `session_handle` only cleans up. -/
theorem sessionHandleLoop_crash (handle : Handle) {input : Input} (hcrash : input.serverCrash) :
    ∃ function last, function ≠ .sessionHandle ∧
      sessionHandleLoop stack data handle input =
        ([.deleteTask handle.exchange.task, .returned function (-1),
          .returned .sessionHandle (-1)], .done last (-1)) := by
  obtain ⟨errno, rfl, hwireless⟩ : ∃ errno, input = .recv (.failed errno) ∧
      checkWirelessConnectivity errno = false := by
    cases input with
    | recv result =>
        cases result with
        | datagram bytes => cases hcrash
        | failed errno => exact ⟨errno, rfl, by simpa [Input.serverCrash] using hcrash⟩
    | fgets line => cases hcrash
    | wakeUp task junk => cases hcrash
  let cleaned := handle.exchange.deleteTask.2
  let last : Exchange := { cleaned with tasks := cleaned.tasks.leaveFrame }
  cases hphase : handle.phase with
  | handshake =>
      refine ⟨.sessionHandshake, ⟨.handshake, last⟩, by decide, ?_⟩
      rw [sessionHandleLoop, hphase]
      simp only [sessionHandshakeLoop, receiveLoop, hwireless]
      rfl
  | data =>
      refine ⟨.sessionSendData, ⟨.data, last⟩, by decide, ?_⟩
      rw [sessionHandleLoop, hphase]
      simp only [sessionSendDataLoop, receiveLoop, hwireless]
      rfl
  | finish =>
      refine ⟨.sessionFinish, ⟨.finish, last⟩, by decide, ?_⟩
      rw [sessionHandleLoop, hphase]
      simp only [sessionFinishLoop, receiveLoop, hwireless]
      rfl

theorem matching_keptByHello : KeptByHello Matching where
  skip := by
    intro history event hquiet hsent h
    have hquietly : Quietly history (history ++ [event]) :=
      (Quietly.refl history).concat hquiet
    unfold Matching handled
    rw [firstRead_skip hsent, batches_quietly hquietly, (sameBatch_quietly hquietly).completed]
    exact h
  hello := by
    intro history task port packet hhello h
    have hquietly : Quietly history (history ++ [.send task port packet]) :=
      (Quietly.refl history).concat rfl
    have hsame : firstRead (history ++ [.send task port packet]) = firstRead history := by
      rw [firstRead_send rfl, sentMessage_hello hhello]
      rfl
    unfold Matching handled
    rw [hsame, batches_quietly hquietly, (sameBatch_quietly hquietly).completed]
    exact h

def readingBack : TransferContract where
  learning := fun events _ => Matching events
  reading := fun _ events _ => Matching events
  handling := fun text events handle => ∃ sessionId base before,
    InHand base before text events ∧
      ((readStages base text).contract sessionId text).waiting handle.phase events
        handle.exchange
  fault := fun _ => True

theorem readingBack_batch {start : List Event} (hstart : InHand base before text start)
    {crash : Prop} (hsafe : ¬ crash) {pass : List Event × Exit Handle Int}
    (hquiet : (quietContract start crash).handle.Of history pass)
    (hstages : ((readStages base text).contract sessionId text).handle.Of history pass) :
    (readingBack.batch text).Of history pass := by
  apply (hquiet.and hstages).weaken
  · rintro events handle ⟨⟨hquietly, -⟩, hwaiting⟩
    exact ⟨sessionId, base, before, hstart.quietly hquietly, hwaiting⟩
  · rintro events handle ret ⟨⟨⟨last, hquietly, rfl⟩, hvalue⟩, hhandled⟩
    rcases hvalue with ⟨hcrash, -⟩ | ⟨-, rfl⟩
    · exact absurd hcrash hsafe
    · exact (hstart.quietly hquietly).succeeded (hhandled rfl)
  · exact fun _ _ => trivial

theorem readingBack_kept : readingBack.Kept stack (fun _ => True) (fun _ _ _ => True) where
  connect := by
    intro history session tasks h
    have hsocket := matching_keptByHello.skip history .socket rfl rfl h
    apply (matching_keptByHello.learnNewPort hsocket).weaken
    · exact fun _ _ hmatching => hmatching
    · exact fun _ _ value => nomatch value
    · exact fun _ _ => trivial
  learn := by
    intro history exchange input h
    apply (matching_keptByHello.learnNewPortLoop h input).weaken
    · exact fun _ _ hmatching => hmatching
    · exact fun _ _ _ hmatching => hmatching
    · exact fun _ _ => trivial
  line := by
    intro text history tasks line _ h
    have hsent : sentPackets line.events = [] := by
      unfold Line.events
      split <;> rfl
    have hcompleted : (traffic (history ++ line.events)).completed =
        (traffic history).completed := by
      unfold Line.events
      split
      · rw [List.append_nil]
      · rw [traffic_concat]
        rfl
    change Matching (history ++ line.events)
    rw [Matching, handled, hcompleted, firstRead_skip hsent, batches_line]
    exact h
  timeout := fun _ _ session tasks task junk h =>
    matching_keptByHello.timeout h session tasks task junk
  start := by
    intro text history session tasks data htext hne hlength h
    have hfiles : (firstRead (history ++ [.batch text])).files = (firstRead history).files :=
      congrArg Reader.files (firstRead_skip rfl)
    have hinHand : InHand (firstRead history).files (batches history) text
        (history ++ [.batch text]) := by
      refine ⟨?_, h.2, batches_concat _ _, ?_, hne⟩
      · rw [handled, traffic_concat]
        exact h.1
      · rw [traffic_concat]
        rfl
    apply readingBack_batch hinHand id
    · exact sessionHandle_quiet (Quietly.refl _) id
    · exact sessionHandle_stages stack (readStages_kept hne hlength) htext.holds.left hlength
        hfiles (forBatch_counters stack session hlength)
  handle := by
    intro text history handle data input _ htext hlength h
    obtain ⟨sessionId, base, before, hinHand, hwaiting⟩ := h
    by_cases hcrash : input.serverCrash
    · obtain ⟨function, last, hfunction, hpass⟩ :=
        @sessionHandleLoop_crash stack data handle input hcrash
      have hquietly : Quietly history (history ++ [.deleteTask handle.exchange.task] ++
          [.returned function (-1)]) := by
        apply ((Quietly.refl history).concat rfl).concat
        cases function <;> first | rfl | exact absurd rfl hfunction
      have hsame : firstRead (history ++ [.deleteTask handle.exchange.task] ++
          [.returned function (-1)]) = firstRead history := by
        rw [firstRead_skip rfl, firstRead_skip rfl]
      have hfiles := readStages_files hwaiting
      rw [← hsame] at hfiles
      have hmatching := ((hinHand.quietly hquietly).matching hfiles).failed
      rw [hpass]
      simpa [Post.Of, TransferContract.batch, readingBack] using hmatching
    · apply readingBack_batch hinHand hcrash
      · exact sessionHandleLoop_quiet (Quietly.refl history) input
      · exact sessionHandleLoop_stages stack (readStages_kept hinHand.nonempty hlength)
          htext.holds.left hlength hwaiting fun _ _ _ hindex _ => hindex

/-- A contract that is kept whatever comes in holds at every moment of a run. -/
theorem TransferContract.Kept.always {contract : TransferContract}
    (h : contract.Kept stack (fun _ => True) (fun _ _ _ => True))
    (hstart : contract.reading [] [] ⟨[], 0⟩) (hostName : List Byte) (session : Session)
    (inputs : List Input) :
    contract.transfer.Of [] (sessionTransfer stack hostName session inputs) := by
  apply Post.Of.enter (h.sessionConnect hstart) _ fun input (_ : input ∈ inputs) => trivial
  intro history transfer input hinput hholds
  apply h.sessionTransferLoop hholds hinput
  cases transfer <;> exact trivial

theorem readingBack_matching {transfer : Transfer} (h : readingBack.Holds history transfer) :
    Matching history := by
  cases transfer with
  | learning exchange => exact h
  | reading session tasks data numBytes =>
      obtain ⟨_, _, _, _, hmatching⟩ := h
      exact hmatching
  | handling handle data =>
      obtain ⟨text, _, _, _, sessionId, base, before, hinHand, hwaiting⟩ := h
      exact hinHand.matching (readStages_files hwaiting)

def PutTogether (history : List Event) : Exit Transfer Empty → Prop
  | .again _ => handled history <+ (readBack history).files ∧
      (readBack history).files <+ batches history
  | _ => True

/--
In every run, whatever is received and however often the server crashes: the
texts that a receiver puts together from all datagrams on the wire are batches
read from standard input, whole and in order, and among them is every batch for
which `session_handle` returned 0.
-/
theorem batches_readBack (stack : Stack) (hostName : List Byte) (session : Session)
    (inputs : List Input) :
    PutTogether (sessionTransfer stack hostName session inputs).1
      (sessionTransfer stack hostName session inputs).2 := by
  have hwire := (@repeating_kept stack).always
    quiescent_start hostName session inputs
  have hread := (@readingBack_kept stack).always
    ⟨List.Sublist.refl _, List.Sublist.refl _⟩ hostName session inputs
  generalize sessionTransfer stack hostName session inputs = pass at hwire hread
  obtain ⟨events, exit⟩ := pass
  cases exit with
  | again transfer =>
      obtain ⟨hrepeating, hwhole⟩ := @repeating_holds events transfer hwire
      dsimp only [PutTogether]
      rw [readBack_eq hrepeating hwhole]
      exact readingBack_matching hread
  | done transfer value => exact trivial
  | fault => exact trivial

end BBCodeBase.Sender
