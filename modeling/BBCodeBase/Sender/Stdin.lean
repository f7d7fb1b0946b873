import BBCodeBase.Sender.Batches
import BBCodeBase.Sender.Frames

/-!
# Standard input in batches

What `session_transfer` makes of standard input, whatever becomes of the batches
on the network: each `fgets` keeps to `session_data`, and the batches in order,
followed by the text that is still collected, are the bytes read so far.
-/

namespace BBCodeBase.Sender

open Reactive

variable {stack : Stack} {data : SessionData} {session : Session} {tasks : Tasks}
  {history : List Event}

/-! ## The bytes read and the batches -/

def Event.stdin : Event → List Byte
  | .stored chars => chars
  | _ => []

def consumed (history : List Event) : List Byte := history.flatMap Event.stdin

def Event.batch? : Event → Option (List Byte)
  | .batch bytes => some bytes
  | _ => none

def batches (history : List Event) : List (List Byte) := history.filterMap Event.batch?

theorem consumed_concat (history : List Event) (event : Event) :
    consumed (history ++ [event]) = consumed history ++ event.stdin := by
  simp [consumed]

theorem batches_concat (history : List Event) (event : Event) :
    batches (history ++ [event]) = batches history ++ event.batch?.toList := by
  cases h : event.batch? <;> simp [batches, h]

theorem consumed_line (history : List Event) (line : Line) :
    consumed (history ++ line.events) = consumed history ++ line.chars := by
  unfold Line.events
  split
  case isTrue hnone => simp [hnone]
  case isFalse => exact consumed_concat _ _

theorem batches_line (history : List Event) (line : Line) :
    batches (history ++ line.events) = batches history := by
  unfold Line.events
  split
  case isTrue => rw [List.append_nil]
  case isFalse => simp [batches_concat, Event.batch?]

def PacketsFit (stack : Stack) (count : Nat) : Prop :=
  ∀ session : Session,
    ((session.forBatch stack count).noOfPackets).toNat = count ⌈/⌉ maxFrameSize ∧
      ((session.forBatch stack count).noOfBytes).toNat = count

theorem packetsFit (stack : Stack) {count : Nat}
    (hcount : count < sessionSize + maxRecordSize) : PacketsFit stack count := by
  intro session
  have hcounters := @forBatch_counters stack count session hcount
  have hpackets := ceilDiv_le hcount
  constructor
  · rw [hcounters.noOfPackets, Nat.sub_zero, BitVec.toNat_ofNat]
    apply Nat.mod_eq_of_lt
    omega
  · exact toNat_of_small hcount

/-- What was read has gone into batches of the right size, up to the text collected. -/
structure Batched (stack : Stack) (history : List Event) (text : List Byte) : Prop where
  conserved : consumed history = (batches history).flatten ++ text
  sized : ∀ bytes ∈ batches history,
    1 ≤ bytes.length ∧ bytes.length ≤ 10199 ∧ PacketsFit stack bytes.length

variable {text : List Byte}

theorem batched_start : Batched stack [] [] :=
  ⟨rfl, fun _ => nofun⟩

theorem batched_keptByQuiet (text : List Byte) :
    KeptByQuiet fun history => Batched stack history text := by
  intro history event hquiet h
  have hstdin : event.stdin = [] := by
    cases event <;> first | rfl | cases hquiet
  have hbatch : event.batch? = none := by
    cases event <;> first | rfl | cases hquiet
  constructor
  · rw [consumed_concat, batches_concat, hstdin, hbatch]
    simpa using h.conserved
  · rw [batches_concat, hbatch]
    simpa using h.sized

theorem Batched.returned (h : Batched stack history text) (value : Int) :
    Batched stack (history ++ [.returned .sessionHandle value]) text := by
  constructor
  · rw [consumed_concat, batches_concat]
    simpa [Event.stdin, Event.batch?] using h.conserved
  · rw [batches_concat]
    simpa [Event.batch?] using h.sized

theorem Batched.line (h : Batched stack history text) {line : Line}
    (hline : 0#8 ∉ line.chars) :
    Batched stack (history ++ line.events) (text ++ line.text) := by
  constructor
  · rw [consumed_line, batches_line, h.conserved, line.text_eq_chars hline,
      List.append_assoc]
  · rw [batches_line]
    exact h.sized

theorem Batched.batch (h : Batched stack history text) (hne : text ≠ [])
    (hlength : text.length < sessionSize + maxRecordSize) :
    Batched stack (history ++ [.batch text]) [] := by
  constructor
  · rw [consumed_concat, batches_concat, h.conserved]
    simp [Event.stdin, Event.batch?]
  · rw [batches_concat]
    intro bytes hmem
    rcases List.mem_append.mp hmem with hold | hnew
    · exact h.sized bytes hold
    · obtain rfl : bytes = text := by simpa [Event.batch?] using hnew
      have hpositive := List.length_pos_of_ne_nil hne
      have hsizes : sessionSize + maxRecordSize = 10200 := rfl
      exact ⟨hpositive, by omega, packetsFit stack hlength⟩

/-! ## While a batch is handled -/

def batchedContract (stack : Stack) : Contract where
  waiting := fun _ events _ => Batched stack events []
  returned := fun _ events _ _ => Batched stack events []
  handled := fun events _ _ => Batched stack events []
  fault := fun events => Batched stack events []

theorem batchedContract_chained (data : SessionData) :
    (batchedContract stack).Chained stack data :=
  steadyContract_chained (batched_keptByQuiet []).byCalls fun _ value h => h.returned value

theorem sessionHandle_batched (data : SessionData) (h : Batched stack history []) :
    (batchedContract stack).handle.Of history
      (sessionHandle stack data session tasks) := by
  apply (batchedContract_chained data).sessionHandle
  have hcalled := batched_keptByQuiet [] history (.called .sessionHandle) rfl h
  exact (batched_keptByQuiet []).byCalls.sessionHandshake hcalled

/-! ## Whole runs -/

def batching (stack : Stack) : TransferContract where
  learning := fun events _ => Batched stack events []
  reading := fun text events _ => Batched stack events text
  handling := fun _ events _ => Batched stack events []
  fault := fun events => Batched stack events []

theorem batching_kept :
    (batching stack).Kept stack Input.nulFree (fun _ _ _ => True) where
  connect := by
    intro history session tasks h
    apply ((batched_keptByQuiet []).byCalls.learnNewPort (batched_keptByQuiet [] _ _ rfl h)).weaken
    · exact fun _ _ hkept => hkept
    · exact fun _ _ value => nomatch value
    · exact fun _ hkept => hkept
  learn := fun _ _ input h => (batched_keptByQuiet []).byCalls.learnNewPortLoop h input
  line := fun _ _ _ _ hline h => h.line hline
  timeout := fun text _ _ _ task junk h => (batched_keptByQuiet text).byCalls.timeout h task junk
  start := fun _ _ _ _ data _ hne hlength h =>
    sessionHandle_batched data (h.batch hne hlength)
  handle := by
    intro text history handle data input _ _ _ h
    apply (batchedContract_chained data).sessionHandleLoop
    exact (batched_keptByQuiet []).byCalls.callLoop h handle.phase input

def Transfer.collected : Transfer → List Byte
  | .reading _ _ data _ => sessionText data
  | _ => []

/-- The next `fgets`, which may store `MAX_RECORD_SIZE` bytes, keeps to `session_data`. -/
def Transfer.InBounds : Transfer → Prop
  | .reading _ _ data numBytes =>
      numBytes + maxRecordSize ≤ sessionSize + maxRecordSize ∧
        ∀ line, (storeLine data numBytes line).isSome
  | _ => True

def StdinKept (stack : Stack) (history : List Event) : Exit Transfer Empty → Prop
  | .again transfer => Batched stack history transfer.collected ∧ transfer.InBounds
  | .done _ _ => True
  | .fault => Batched stack history []

theorem batching_stdinKept {transfer : Transfer}
    (h : (batching stack).Holds history transfer) :
    StdinKept stack history (.again transfer) := by
  cases transfer with
  | learning exchange => exact ⟨h, trivial⟩
  | handling handle data =>
      obtain ⟨_, _, _, _, hbatched⟩ := h
      exact ⟨hbatched, trivial⟩
  | reading session tasks data numBytes =>
      obtain ⟨text, htext, rfl, hroom, hbatched⟩ := h
      refine ⟨?_, by omega, fun line => ?_⟩
      · rw [Transfer.collected, htext.sessionText_eq]
        exact hbatched
      · obtain ⟨next, hstore, -⟩ := htext.storeLine hroom line
        rw [hstore]
        rfl

/--
At every moment of every run over NUL-free lines: the batches followed by what
is still collected are the bytes read, every batch has between 1 and 10199 bytes
and a packet count that fits, and the next `fgets` stays inside `session_data`.
-/
theorem stdin_batched (stack : Stack) (hostName : List Byte) (session : Session)
    (inputs : List Input) (hinputs : ∀ input ∈ inputs, input.nulFree) :
    StdinKept stack (sessionTransfer stack hostName session inputs).1
      (sessionTransfer stack hostName session inputs).2 := by
  have hkept : (batching stack).Kept stack Input.nulFree (fun _ _ _ => True) :=
    batching_kept
  have hrun : (batching stack).transfer.Of []
      (sessionTransfer stack hostName session inputs) := by
    apply Post.Of.enter (hkept.sessionConnect batched_start) _ hinputs
    intro history transfer input hinput hholds
    apply hkept.sessionTransferLoop hholds hinput
    cases transfer <;> exact trivial
  generalize sessionTransfer stack hostName session inputs = pass at hrun
  obtain ⟨events, exit⟩ := pass
  cases exit with
  | again transfer => exact batching_stdinKept hrun
  | done transfer value => exact trivial
  | fault => exact hrun

/-- A line is read and sent when the input pauses. -/
theorem stdin_batched_firstBatch :
    StdinKept zeroStack
      (sessionTransfer zeroStack [0x68#8] zeroSession Input.firstBatch).1
      (sessionTransfer zeroStack [0x68#8] zeroSession Input.firstBatch).2 :=
  stdin_batched zeroStack [0x68#8] zeroSession Input.firstBatch
    (by simp [Input.firstBatch, Input.packet, Input.nulFree])

end BBCodeBase.Sender
