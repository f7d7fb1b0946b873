import BBCodeBase.SerialComm.Flush

/-!
# A whole upload session

A sender that repeats every data frame until it gets through, and closes with
an END packet.  The records arrive on stdout and in both files exactly once.
-/

namespace BBCodeBase.SerialComm

open Reactive

/-! ## Streams of frames -/

def DataChar (ch : Byte) : Prop :=
  ch ≠ 0#8 ∧ ch ≠ 0x23#8 ∧ ch ≠ 0x24#8 ∧ ch ≠ 0x3F#8 ∧ ch ≠ 0x45#8

instance (ch : Byte) : Decidable (DataChar ch) := inferInstanceAs (Decidable (_ ∧ _))

/-- A transmission of a frame with `size` payload bytes whose CRC does not match. -/
structure CorruptedCopy (size : Nat) where
  payload : List Byte
  first : Byte
  second : Byte
  length_eq : payload.length = size
  alphabet : ∀ ch ∈ payload, DataChar ch
  mismatch : ¬ (crcLow (frameFor payload) = first ∧ crcHigh (frameFor payload) = second)

structure DataFrame where
  payload : List Byte
  length_pos : 1 ≤ payload.length
  length_le : payload.length ≤ 253
  alphabet : ∀ ch ∈ payload, DataChar ch
  corrupted : List (CorruptedCopy payload.length)

def CorruptedCopy.wire {size : Nat} (copy : CorruptedCopy size) : List Byte :=
  frameFor copy.payload ++ [copy.first, copy.second]

def DataFrame.wire (frame : DataFrame) : List Byte :=
  frame.corrupted.flatMap CorruptedCopy.wire ++ SerialComm.wire frame.payload

def DataFrame.answers (frame : DataFrame) : List Byte :=
  List.replicate frame.corrupted.length 0x26#8 ++ [0x2A#8]

structure Record where
  frames : List DataFrame
  last : DataFrame
  newline : hasNewline last.payload = true
  room : (frames.flatMap DataFrame.payload).length + last.payload.length ≤ 1000

def Record.wire (record : Record) : List Byte :=
  record.frames.flatMap DataFrame.wire ++ record.last.wire

def Record.answers (record : Record) : List Byte :=
  record.frames.flatMap DataFrame.answers ++ record.last.answers

def Record.data (record : Record) : List Byte :=
  record.frames.flatMap DataFrame.payload ++ record.last.payload

/-- TAB, `'0'`, TAB, `'E'`, LF, CR. -/
def endPayload : List Byte := [0x09#8, 0x30#8, 0x09#8, 0x45#8, 0x0A#8, 0x0D#8]

def sessionBytes (records : List Record) : List Byte :=
  0x3F#8 :: records.flatMap Record.wire ++ wire endPayload

def sessionAnswers (records : List Record) : List Byte :=
  [0x51#8, 0x55#8] ++ records.flatMap Record.answers ++ [0x2A#8]

/-! ## One frame -/

theorem DataChar.plain {ch : Byte} (h : DataChar ch) : Plain ch :=
  ⟨h.1, h.2.2.1, h.2.2.2.1⟩

theorem count_data {length first second : Byte} {data : List Byte}
    (hne : data ≠ []) (hdata : ∀ ch ∈ data, DataChar ch) :
    ∃ palint, RunCounter.count 0x23#8 4 0 (length :: data ++ [first, second]) =
      some palint := by
  have hmissing : 0x23#8 ∉ data := fun hmem => (hdata _ hmem).2.1 rfl
  obtain ⟨middle, hhead, -⟩ := @RunCounter.step_of_lt _ _ 0x23#8 4 0 (by decide) length
  obtain ⟨later, hfirst, hlater⟩ :=
    @RunCounter.step_of_lt _ _ 0x23#8 4 0 (by decide) first
  obtain ⟨last, hsecond, -⟩ :=
    @RunCounter.step_of_lt _ _ 0x23#8 4 later (by omega) second
  refine ⟨last, RunCounter.count_concat_pair_iff.mpr ⟨later, ?_, hsecond⟩⟩
  rw [RunCounter.count_concat, RunCounter.count_cons_of_step hhead,
    RunCounter.count_of_not_mem hmissing hne, Option.bind_some, hfirst]

def Output (events : List Event) (text : List Byte) : Prop :=
  stdoutBytes events = text ∧ fileBytes events = text ∧ dayFileBytes events = text

theorem Output.append {first second : List Event} {text text' : List Byte}
    (hfirst : Output first text) (hsecond : Output second text') :
    Output (first ++ second) (text ++ text') := by
  obtain ⟨hstdout, hfile, hday⟩ := hfirst
  obtain ⟨hstdout', hfile', hday'⟩ := hsecond
  refine ⟨?_, ?_, ?_⟩
  · rw [stdoutBytes_append, hstdout, hstdout']
  · rw [fileBytes_append, hfile, hfile']
  · rw [dayFileBytes_append, hday, hday']

theorem Adds.output {events : List Event} {payloads : List (List Byte)}
    {text : List Byte} (h : Adds true events payloads text) : Output events text :=
  ⟨h.stdout rfl, h.file, h.dayFile⟩

namespace Receiver

structure Ready (receiver : Receiver) : Prop where
  questionReceived : receiver.questionReceived = true
  idle : receiver.phase = .idle
  open_ : receiver.endPacket = false

/--
The bytes are answered as given, and their data is added to what was output or
is still in the record.
-/
structure Delivers (receiver : Receiver) (bytes answers data : List Byte)
    (next : Receiver) : Prop where
  ready : next.Ready
  run : ∃ events text, run body receiver (received bytes) = (events, .again next) ∧
    replies events = answers ∧ Output events text ∧
    text ++ recordText next.record = recordText (receiver.record ++ data)
  room : next.record.length ≤ receiver.record.length + data.length

theorem Delivers.append {receiver middle next : Receiver}
    {bytes bytes' answers answers' data data' : List Byte}
    (hfirst : Delivers receiver bytes answers data middle)
    (hsecond : Delivers middle bytes' answers' data' next) :
    Delivers receiver (bytes ++ bytes') (answers ++ answers') (data ++ data') next where
  ready := hsecond.ready
  run := by
    obtain ⟨events, text, hrun, hanswers, houtput, hbalance⟩ := hfirst.run
    obtain ⟨later, text', hrun', hanswers', houtput', hbalance'⟩ := hsecond.run
    refine ⟨events ++ later, text ++ text', ?_, ?_, houtput.append houtput', ?_⟩
    · rw [received_append]
      exact run_append_again hrun hrun'
    · rw [replies_append, hanswers, hanswers']
    · rw [List.append_assoc, hbalance', recordText_append, ← List.append_assoc,
        hbalance, ← recordText_append, List.append_assoc]
  room := by
    have := hfirst.room
    have := hsecond.room
    simp only [List.length_append]
    omega

theorem Delivers.nil {receiver : Receiver} (h : receiver.Ready) :
    Delivers receiver [] [] [] receiver where
  ready := h
  run := ⟨[], [], rfl, rfl, ⟨rfl, rfl, rfl⟩, by simp⟩
  room := by simp

theorem any_end_eq_false {data : List Byte} (h : ∀ ch ∈ data, DataChar ch) :
    data.any (· == 0x45#8) = false := by
  rw [List.any_eq_false]
  intro ch hmem
  simpa using (h ch hmem).2.2.2.2

theorem corrupted_delivers {receiver : Receiver} {size : Nat}
    (hready : receiver.Ready) (hpos : 1 ≤ size) (hsize : size ≤ 253)
    (copy : CorruptedCopy size) :
    ∃ next, Delivers receiver copy.wire [0x26#8] [] next := by
  obtain ⟨payload, first, second, rfl, halphabet, hmismatch⟩ := copy
  obtain ⟨hasked, hidle, hopen⟩ := hready
  have hne : payload ≠ [] := List.length_pos_iff.mp hpos
  obtain ⟨palint, hcount⟩ :=
    @count_data (BitVec.ofNat 8 (payload.length + 2)) first second payload hne halphabet
  have hframe := run_frame hasked hidle (fun ch hmem => (halphabet ch hmem).plain) hne
    (toNat_lengthByte hsize) hcount
  rw [settle_mismatch hmismatch] at hframe
  refine ⟨_, ⟨?_, ?_, ?_⟩, ⟨_, [], hframe, rfl, ⟨rfl, rfl, rfl⟩, ?_⟩, ?_⟩
  · exact hasked
  · rfl
  · simp [closed, hopen, any_end_eq_false halphabet]
  · simp [closed]
  · simp [closed]

theorem copies_delivers {receiver : Receiver} {size : Nat} (hready : receiver.Ready)
    (hpos : 1 ≤ size) (hsize : size ≤ 253) (copies : List (CorruptedCopy size)) :
    ∃ next, Delivers receiver (copies.flatMap CorruptedCopy.wire)
      (List.replicate copies.length 0x26#8) [] next := by
  induction copies generalizing receiver with
  | nil => exact ⟨receiver, .nil hready⟩
  | cons copy copies ih =>
      obtain ⟨middle, hfirst⟩ := corrupted_delivers hready hpos hsize copy
      obtain ⟨next, hrest⟩ := ih hfirst.ready
      exact ⟨next, hfirst.append hrest⟩

theorem good_delivers {receiver : Receiver} {payload : List Byte}
    (hready : receiver.Ready) (hpos : 1 ≤ payload.length) (hmax : payload.length ≤ 253)
    (halphabet : ∀ ch ∈ payload, DataChar ch)
    (hroom : receiver.record.length + payload.length ≤ 1000) :
    ∃ next, Delivers receiver (wire payload) [0x2A#8] payload next ∧
      (hasNewline payload = true → next.record = []) := by
  obtain ⟨hasked, hidle, hopen⟩ := hready
  have hne : payload ≠ [] := List.length_pos_iff.mp hpos
  have hthrough : GetsThrough receiver.record.length payload :=
    ⟨fun ch hmem => (halphabet ch hmem).plain,
      (count_frame_iff _ _ _ _).mp (count_data hne halphabet), hroom⟩
  have hrun := run_wire hasked hidle hpos hmax hthrough
  unfold accept at hrun
  simp only [hopen, any_end_eq_false halphabet, Bool.or_self, Bool.false_eq_true,
    if_false] at hrun
  have hprinted := adds_printRecord true (receiver.record ++ payload)
  have hevents : Output [.crc (frameFor payload), .ack payload] [] := ⟨rfl, rfl, rfl⟩
  have hanswer : replies [.crc (frameFor payload), .ack payload] = [0x2A#8] := rfl
  cases hprint : receiver.printChar || hasNewline
      (payload ++ [crcLow (frameFor payload), crcHigh (frameFor payload)]) with
  | true =>
      rw [hprint, if_pos rfl] at hrun
      refine ⟨_, ⟨?_, ⟨_, _, hrun, ?_, hevents.append hprinted.output, ?_⟩, ?_⟩,
        fun _ => rfl⟩
      · exact ⟨hasked, hidle, rfl⟩
      · rw [replies_append, hanswer, replies_printRecord, List.append_nil]
      · simp
      · simp
  | false =>
      rw [hprint, if_neg (by decide)] at hrun
      refine ⟨_, ⟨?_, ⟨_, _, hrun, hanswer, hevents, rfl⟩, ?_⟩, ?_⟩
      · exact ⟨hasked, hidle, rfl⟩
      · simp
      · intro hnewline
        rw [hasNewline, List.any_append] at hprint
        simp only [hasNewline] at hnewline
        simp [hnewline] at hprint

/-! ## Frames, records, sessions -/

theorem frame_delivers {receiver : Receiver} (hready : receiver.Ready)
    (frame : DataFrame) (hroom : receiver.record.length + frame.payload.length ≤ 1000) :
    ∃ next, Delivers receiver frame.wire frame.answers frame.payload next ∧
      (hasNewline frame.payload = true → next.record = []) := by
  obtain ⟨middle, hcopies⟩ :=
    copies_delivers hready frame.length_pos frame.length_le frame.corrupted
  have hkept := hcopies.room
  simp only [List.length_nil, Nat.add_zero] at hkept
  obtain ⟨next, hgood, hprinted⟩ := good_delivers hcopies.ready frame.length_pos
    frame.length_le frame.alphabet (by omega)
  exact ⟨next, hcopies.append hgood, hprinted⟩

theorem frames_delivers {receiver : Receiver} (hready : receiver.Ready)
    (frames : List DataFrame)
    (hroom : receiver.record.length + (frames.flatMap DataFrame.payload).length ≤ 1000) :
    ∃ next, Delivers receiver (frames.flatMap DataFrame.wire)
      (frames.flatMap DataFrame.answers) (frames.flatMap DataFrame.payload) next := by
  induction frames generalizing receiver with
  | nil => exact ⟨receiver, .nil hready⟩
  | cons frame frames ih =>
      simp only [List.flatMap_cons, List.length_append] at hroom ⊢
      obtain ⟨middle, hfirst, -⟩ := frame_delivers hready frame (by omega)
      have hkept := hfirst.room
      obtain ⟨next, hrest⟩ := ih hfirst.ready (by omega)
      exact ⟨next, hfirst.append hrest⟩

theorem record_delivers {receiver : Receiver} (hready : receiver.Ready)
    (hempty : receiver.record = []) (record : Record) :
    ∃ next, Delivers receiver record.wire record.answers record.data next ∧
      next.record = [] := by
  have hroom := record.room
  obtain ⟨middle, hframes⟩ := frames_delivers hready record.frames
    (by rw [hempty, List.length_nil, Nat.zero_add]; omega)
  have hkept := hframes.room
  rw [hempty, List.length_nil, Nat.zero_add] at hkept
  obtain ⟨next, hlast, hprinted⟩ := frame_delivers hframes.ready record.last (by omega)
  exact ⟨next, hframes.append hlast, hprinted record.newline⟩

theorem records_delivers {receiver : Receiver} (hready : receiver.Ready)
    (hempty : receiver.record = []) (records : List Record) :
    ∃ next, Delivers receiver (records.flatMap Record.wire)
      (records.flatMap Record.answers) (records.flatMap Record.data) next ∧
      next.record = [] := by
  induction records generalizing receiver with
  | nil => exact ⟨receiver, .nil hready, hempty⟩
  | cons record records ih =>
      obtain ⟨middle, hfirst, hmiddle⟩ := record_delivers hready hempty record
      obtain ⟨next, hrest, hnext⟩ := ih hfirst.ready hmiddle
      exact ⟨next, hfirst.append hrest, hnext⟩

theorem run_end {receiver : Receiver} (hready : receiver.Ready)
    (hempty : receiver.record = []) :
    ∃ last, run body receiver (received (wire endPayload)) =
      ([.crc (frameFor endPayload), .ack endPayload], .done last .ended) := by
  have hthrough : GetsThrough receiver.record.length endPayload := by
    rw [hempty]
    exact ⟨by decide, by decide +kernel, by decide⟩
  have hrun := run_wire hready.questionReceived hready.idle (by decide) (by decide)
    hthrough
  have hend : (receiver.endPacket || endPayload.any (· == 0x45#8)) = true := by
    rw [Bool.or_eq_true]
    exact .inr (by decide)
  unfold accept at hrun
  simp only [hend, if_true] at hrun
  exact ⟨_, hrun⟩

end Receiver

/--
The whole session: `'Q'` and `'U'`, one `'&'` for each corrupted copy and one
`'*'` for each good frame in order, the records on stdout and in both files, and
the return of 1 with the line released.
-/
theorem upload_session (tempBuffer : Buffer Byte 1000) (records : List Record) :
    ∃ events last,
      uploadData false tempBuffer true (received (sessionBytes records)) =
        (events, .done last .ended) ∧
      Return.ended.value = 1 ∧ last.anyOneHere = false ∧
      replies events = sessionAnswers records ∧
      stdoutBytes events = recordText (records.flatMap Record.data) ∧
      fileBytes events = recordText (records.flatMap Record.data) ∧
      dayFileBytes events = recordText (records.flatMap Record.data) := by
  have hquestion : run Receiver.body .start (received [0x3F#8]) =
      ([.write 0x55#8], .again ⟨.idle, [], 0, false, false, true, 1⟩) := by decide
  obtain ⟨middle, hrecords, hempty⟩ := @Receiver.records_delivers
    ⟨.idle, [], 0, false, false, true, 1⟩ ⟨rfl, rfl, rfl⟩ rfl records
  obtain ⟨events, text, hrun, hanswers, houtput, hbalance⟩ := hrecords.run
  obtain ⟨final, hend⟩ := Receiver.run_end hrecords.ready hempty
  have hsplit : received (sessionBytes records) =
      received [0x3F#8] ++
        (received (records.flatMap Record.wire) ++ received (wire endPayload)) := by
    simp [sessionBytes]
  have hsession : run Receiver.body .start (received (sessionBytes records)) =
      ([.write 0x55#8] ++ (events ++ [.crc (frameFor endPayload), .ack endPayload]),
        .done final .ended) := by
    rw [hsplit, run_append hquestion, run_append hrun, hend]
  obtain ⟨last, hcall⟩ := uploadData_of_done tempBuffer true hsession
  have houtput' : Output (pollEvents true ++ ([.write 0x55#8] ++
      (events ++ [.crc (frameFor endPayload), .ack endPayload])))
      ([] ++ ([] ++ (text ++ []))) :=
    Output.append ⟨rfl, rfl, rfl⟩
      (Output.append ⟨rfl, rfl, rfl⟩ (houtput.append ⟨rfl, rfl, rfl⟩))
  have htext : [] ++ ([] ++ (text ++ [])) = recordText (records.flatMap Record.data) := by
    simpa [hempty] using hbalance
  rw [htext] at houtput'
  refine ⟨_, last, hcall, rfl, uploadData_clears hcall, ?_, houtput'⟩
  rw [replies_append, replies_append, replies_append, hanswers]
  rfl

end BBCodeBase.SerialComm
