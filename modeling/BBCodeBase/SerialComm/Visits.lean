import BBCodeBase.SerialComm.Conservation
import BBCodeBase.SerialComm.Flush
import BBCodeBase.SerialComm.Rejection
import BBCodeBase.SerialComm.Session
import BBCodeBase.SerialComm.Timer

/-!
# Visits of the device

The device comes by once for each upload: it sends a whole session, or the line
fails after some of its bytes, or it throws away a record it has begun, or it
does not answer at all.  The files hold the records that arrived, whatever the
visits before and after were.
-/

namespace BBCodeBase.SerialComm

open Reactive

/-! ## What a visit sends -/

/-- Frames of a record whose last frame never comes. -/
structure Begun where
  frames : List DataFrame
  room : (frames.flatMap DataFrame.payload).length ≤ 1000

/-- How a visit with these records ends; `failed` gives the bytes that come through. -/
inductive Ending (records : List Record) where
  | finished
  | failed (count : Nat) (within : count < (sessionBytes records).length)
  | thrown (begun : Begun)
  | absent

/-- A visit, with the time-outs before its `'?'`. -/
structure Visit where
  tempBuffer : Buffer Byte 1000
  waits : Nat
  waits_lt : waits < 25
  records : List Record
  ending : Ending records

def timeouts (count : Nat) : List Input := List.replicate count ⟨.timeout, true⟩

def Begun.data (begun : Begun) : List Byte := begun.frames.flatMap DataFrame.payload

def thrownBytes (records : List Record) (begun : Begun) : List Byte :=
  0x3F#8 :: records.flatMap Record.wire ++ begun.frames.flatMap DataFrame.wire ++
    List.replicate 4 0x23#8

def Visit.inputs (visit : Visit) : List Input :=
  match visit.ending with
  | .finished => timeouts visit.waits ++ received (sessionBytes visit.records)
  | .failed count _ =>
      timeouts visit.waits ++ received ((sessionBytes visit.records).take count) ++
        [⟨.error, true⟩]
  | .thrown begun => timeouts visit.waits ++ received (thrownBytes visit.records begun)
  | .absent => timeouts 26

def Visit.activation (visit : Visit) : Activation :=
  ⟨visit.tempBuffer, true, visit.inputs⟩

def arrivedIn : Nat → List Record → List Record
  | _, [] => []
  | count, record :: records =>
      if record.wire.length ≤ count then
        record :: arrivedIn (count - record.wire.length) records
      else []

/-- The records that arrive in full; the first byte of a session is its `'?'`. -/
def Visit.arrived (visit : Visit) : List Record :=
  match visit.ending with
  | .finished => visit.records
  | .failed count _ => arrivedIn (count - 1) visit.records
  | .thrown _ => visit.records
  | .absent => []

def Visit.sent (visit : Visit) : List Byte :=
  match visit.ending with
  | .finished => visit.records.flatMap Record.data
  | .failed _ _ => visit.records.flatMap Record.data
  | .thrown begun => visit.records.flatMap Record.data ++ begun.data
  | .absent => []

def Visit.message (visit : Visit) : List Byte :=
  match visit.ending with
  | .finished => []
  | .failed _ _ => ascii "Upload failed \n"
  | .thrown _ => ascii "thrown"
  | .absent => ascii "No Question Mark, Quit :DUpload failed \n"

/--
The records that arrived are output, and nothing but a first part of the data
the device sent.
-/
structure Visit.Leaves (visit : Visit) (text : List Byte) : Prop where
  arrived : recordText (visit.arrived.flatMap Record.data) <+: text
  sent : text <+: recordText visit.sent

/-! ## Up to the `'?'` -/

namespace Receiver

theorem run_waits (receiver : Receiver) (count : Nat) (hidle : receiver.phase = .idle)
    (hunasked : receiver.questionReceived = false) (hcount : receiver.bailOut + count ≤ 25) :
    run body receiver (timeouts count) =
      ([], .again { receiver with bailOut := receiver.bailOut + count }) := by
  induction count generalizing receiver with
  | zero => rfl
  | succ count ih =>
      have hbody : receiver.body ⟨.timeout, true⟩ =
          ([], .again { receiver with bailOut := receiver.bailOut + 1 }) := by
        have hinTime : ¬ receiver.bailOut + 1 > 25 := by omega
        simp [body, ReadResult.char, hunasked, hinTime, receive, hidle, Phase.inChecksum]
      have hrest := ih { receiver with bailOut := receiver.bailOut + 1 } hidle hunasked
        (by dsimp only; omega)
      have hsplit : timeouts (count + 1) = ⟨.timeout, true⟩ :: timeouts count :=
        List.replicate_succ
      rw [hsplit, run_cons_again hbody, hrest]
      simp [Nat.add_assoc, Nat.add_comm 1]

def asked (waits : Nat) : Receiver := ⟨.idle, [], 0, false, false, true, waits + 1⟩

theorem asked_ready (waits : Nat) : (asked waits).Ready := ⟨rfl, rfl, rfl⟩

theorem run_question {waits : Nat} (hwaits : waits < 25) :
    run body .start (timeouts waits ++ received [0x3F#8]) =
      ([.write 0x55#8], .again (asked waits)) := by
  have hfirst := run_waits .start waits rfl rfl (by simp [start]; omega)
  have hinTime : ¬ waits + 1 > 25 := by omega
  rw [run_append hfirst, received_cons, received_nil, run_singleton]
  simp [body, ReadResult.char, start, hinTime, receive, count, take, question, asked]

theorem run_absent :
    ∃ last, run body .start (timeouts 26) =
      ([.printf "No Question Mark, Quit :D"], .done last .noQuestionMark) :=
  ⟨_, rfl⟩

/-! ## The records -/

theorem run_records {waits : Nat} (hwaits : waits < 25) (records : List Record) :
    ∃ events next,
      run body .start
          (timeouts waits ++ received (0x3F#8 :: records.flatMap Record.wire)) =
        (events, .again next) ∧
      next.Ready ∧ next.record = [] ∧
      Output events (recordText (records.flatMap Record.data)) := by
  obtain ⟨next, hrecords, hempty⟩ := records_delivers (asked_ready waits) rfl records
  obtain ⟨events, text, hrun, -, houtput, hbalance⟩ := hrecords.run
  have hsplit : timeouts waits ++ received (0x3F#8 :: records.flatMap Record.wire) =
      timeouts waits ++ received [0x3F#8] ++ received (records.flatMap Record.wire) := by
    simp
  have htext : text = recordText (records.flatMap Record.data) := by
    simpa [hempty, asked] using hbalance
  have hquestion : Output [.write 0x55#8] [] := ⟨rfl, rfl, rfl⟩
  refine ⟨_, next, ?_, hrecords.ready, hempty, hquestion.append (htext ▸ houtput)⟩
  rw [hsplit]
  exact run_append_again (run_question hwaits) hrun

theorem run_session {waits : Nat} (hwaits : waits < 25) (records : List Record) :
    ∃ events last,
      run body .start (timeouts waits ++ received (sessionBytes records)) =
        (events, .done last .ended) ∧
      Output events (recordText (records.flatMap Record.data)) := by
  obtain ⟨events, next, hrun, hready, hempty, houtput⟩ := run_records hwaits records
  obtain ⟨last, hend⟩ := run_end hready hempty
  have hsplit : timeouts waits ++ received (sessionBytes records) =
      timeouts waits ++ received (0x3F#8 :: records.flatMap Record.wire) ++
        received (wire endPayload) := by
    simp [sessionBytes]
  have hquiet : Output [.crc (frameFor endPayload), .ack endPayload] [] := ⟨rfl, rfl, rfl⟩
  refine ⟨events ++ [.crc (frameFor endPayload), .ack endPayload], last, ?_, ?_⟩
  · rw [hsplit, run_append hrun, hend]
  · rw [← List.append_nil (recordText _)]
    exact houtput.append hquiet

/-- The last byte of the END packet is the one that ends the upload. -/
theorem run_unfinished {waits : Nat} (hwaits : waits < 25) (records : List Record) :
    ∃ front final events next, sessionBytes records = front ++ [final] ∧
      run body .start (timeouts waits ++ received front) = (events, .again next) := by
  obtain ⟨events, middle, hrun, hready, hempty, -⟩ := run_records hwaits records
  have hthrough : ¬ List.replicate 4 0x23#8 <:+: wire endPayload := by decide +kernel
  obtain ⟨palint, hcount⟩ := (count_frame_iff _ _ _ _).mpr hthrough
  obtain ⟨later, hopened, -⟩ := RunCounter.count_concat_pair_iff.mp hcount
  have hopening := run_opening hready.questionReceived hready.idle (by decide) (by decide)
    (by decide) hopened
  have hfront := run_append_again hrun hopening
  rw [List.append_assoc, ← received_append] at hfront
  refine ⟨_, crcHigh (frameFor endPayload), _, _, ?_, hfront⟩
  simp [sessionBytes, wire, frameFor]

/-! ## A line that fails -/

/-- Of fewer bytes no more is output. -/
theorem fileBytes_first {waits : Nat} {bytes more : List Byte} (hbytes : bytes <+: more)
    {events later : List Event} {exit final : Exit Receiver Return}
    (hrun : run body .start (timeouts waits ++ received bytes) = (events, exit))
    (hmore : run body .start (timeouts waits ++ received more) = (later, final)) :
    fileBytes events <+: fileBytes later := by
  have hinputs : timeouts waits ++ received bytes <+: timeouts waits ++ received more :=
    (List.prefix_append_right_inj _).mpr (hbytes.map _)
  have hevents := @run_events_first _ _ _ _ body .start _ _ hinputs
  rw [hrun, hmore] at hevents
  exact hevents.filterMap _

/-- All outputs agree while every reply is written. -/
theorem run_output {inputs : List Input} {events : List Event} {next : Receiver}
    (hwrites : ∀ input ∈ inputs, input.writeOk = true)
    (hrun : run body .start inputs = (events, .again next)) :
    Output events (fileBytes events) := by
  have hconserved := (conserved_preserved true).run conserved_start
    (fun input hmem _ => hwrites input hmem) hrun
  exact ⟨hconserved.stdout rfl, rfl, hconserved.dayFile⟩

end Receiver

theorem writes_timeouts (waits : Nat) (bytes : List Byte) :
    ∀ input ∈ timeouts waits ++ received bytes, input.writeOk = true := by
  intro input hmem
  rcases List.mem_append.mp hmem with htimeout | hbyte
  · rw [List.eq_of_mem_replicate htimeout]
  · obtain ⟨ch, -, rfl⟩ := List.mem_map.mp hbyte
    rfl

theorem Record.wire_pos (record : Record) : 0 < record.wire.length := by
  simp only [Record.wire, DataFrame.wire, SerialComm.wire, List.length_append,
    List.length_cons]
  omega

theorem arrivedIn_zero (records : List Record) : arrivedIn 0 records = [] := by
  cases records with
  | nil => rfl
  | cons record records =>
      have hpos := record.wire_pos
      rw [arrivedIn, if_neg (by omega)]

/-- The records that arrive are the first ones, and lie within the bytes. -/
theorem arrivedIn_fits (count : Nat) (records : List Record) :
    arrivedIn count records <+: records ∧
      ((arrivedIn count records).flatMap Record.wire).length ≤ count := by
  induction records generalizing count with
  | nil => exact ⟨List.prefix_rfl, Nat.zero_le _⟩
  | cons record records ih =>
      rw [arrivedIn]
      split
      · next hfits =>
          obtain ⟨hfirst, hlength⟩ := ih (count - record.wire.length)
          refine ⟨List.cons_prefix_cons.mpr ⟨rfl, hfirst⟩, ?_⟩
          rw [List.flatMap_cons, List.length_append]
          omega
      · exact ⟨List.nil_prefix, Nat.zero_le _⟩

/-- The bytes of the records that arrive are among those that come through. -/
theorem arrivedIn_bytes {count : Nat} (hcount : 0 < count) (records : List Record) :
    0x3F#8 :: (arrivedIn (count - 1) records).flatMap Record.wire <+:
      (sessionBytes records).take count := by
  obtain ⟨⟨rest, hsplit⟩, hlength⟩ := arrivedIn_fits (count - 1) records
  rw [List.prefix_take_iff, List.length_cons]
  constructor
  · have hwire : records.flatMap Record.wire =
        (arrivedIn (count - 1) records).flatMap Record.wire ++ rest.flatMap Record.wire := by
      rw [← List.flatMap_append, hsplit]
    refine ⟨rest.flatMap Record.wire ++ wire endPayload, ?_⟩
    simp [sessionBytes, hwire]
  · omega

namespace Receiver

/--
The line fails within the session: what arrived before is output, and the
upload waits until `read` fails.
-/
theorem run_failed {waits count : Nat} (hwaits : waits < 25) (records : List Record)
    (hcount : count < (sessionBytes records).length) :
    ∃ events next text,
      run body .start (timeouts waits ++ received ((sessionBytes records).take count)) =
        (events, .again next) ∧ Output events text ∧
      recordText ((arrivedIn (count - 1) records).flatMap Record.data) <+: text ∧
      text <+: recordText (records.flatMap Record.data) := by
  obtain ⟨front, final, _, _, hfront, hwaiting⟩ := run_unfinished hwaits records
  obtain ⟨whole, _, hwhole, houtput⟩ := run_session hwaits records
  have hshort : (sessionBytes records).take count = front.take count := by
    rw [hfront, List.length_append, List.length_singleton] at hcount
    rw [hfront, List.take_append_of_le_length (by omega)]
  have hsplit : timeouts waits ++ received front =
      timeouts waits ++ received (front.take count) ++ received (front.drop count) := by
    rw [List.append_assoc, ← received_append, List.take_append_drop]
  rw [hsplit] at hwaiting
  obtain ⟨events, next, _, hrun, -, -⟩ := run_append_split hwaiting
  rw [← hshort] at hrun
  refine ⟨events, next, fileBytes events, hrun,
    run_output (writes_timeouts waits _) hrun, ?_, ?_⟩
  · rcases Nat.eq_zero_or_pos count with rfl | hpos
    · rw [arrivedIn_zero]
      exact List.nil_prefix
    · obtain ⟨before, _, hbefore, -, -, harrived⟩ :=
        run_records hwaits (arrivedIn (count - 1) records)
      rw [← harrived.2.1]
      exact fileBytes_first (arrivedIn_bytes hpos records) hbefore hrun
  · rw [← houtput.2.1]
    exact fileBytes_first (List.take_prefix _ _) hrun hwhole

/-! ## A record that is thrown away -/

theorem run_palint_lt {inputs : List Input} {events : List Event} {next : Receiver}
    (hrun : run body .start inputs = (events, .again next)) : next.palint < 4 := by
  have hkept : Preserved body (fun _ => True) (fun _ receiver => receiver.palint < 4) :=
    fun _ _ _ _ _ _ hlt hbody => body_palint_lt hlt hbody
  exact @Preserved.run _ _ _ _ _ _ _ hkept [] _ _ _ _ (by decide) (fun _ _ => trivial) hrun

/-- Four `'#'` between two frames throw the record away, whatever came before them. -/
theorem run_four_hashes {receiver : Receiver} (hready : receiver.Ready)
    (hpalint : receiver.palint < 4) :
    ∃ last, run body receiver (received (List.replicate 4 0x23#8)) =
      ([.printf "thrown"], .done last .flushed) := by
  obtain ⟨last, hflushed⟩ := run_hashes_flushed hready.questionReceived hready.idle
    (3 - receiver.palint) (by omega)
  have hsplit : received (List.replicate 4 0x23#8) =
      received (List.replicate (3 - receiver.palint + 1) 0x23#8) ++
        received (List.replicate receiver.palint 0x23#8) := by
    rw [← received_append, List.replicate_append_replicate,
      show 3 - receiver.palint + 1 + receiver.palint = 4 by omega]
  exact ⟨last, by rw [hsplit, run_append_done hflushed]⟩

theorem run_thrown {waits : Nat} (hwaits : waits < 25) (records : List Record)
    (begun : Begun) :
    ∃ events last text,
      run body .start (timeouts waits ++ received (thrownBytes records begun)) =
        (events ++ [.printf "thrown"], .done last .flushed) ∧ Output events text ∧
      recordText (records.flatMap Record.data) <+: text ∧
      text <+: recordText (records.flatMap Record.data ++ begun.data) := by
  obtain ⟨before, middle, hbefore, hready, hempty, houtput⟩ := run_records hwaits records
  obtain ⟨next, hframes⟩ := frames_delivers hready begun.frames
    (by rw [hempty, List.length_nil, Nat.zero_add]; exact begun.room)
  obtain ⟨after, text, hafter, -, houtput', hbalance⟩ := hframes.run
  have hrun := run_append_again hbefore hafter
  obtain ⟨last, hhashes⟩ := run_four_hashes hframes.ready (run_palint_lt hrun)
  have hsplit : timeouts waits ++ received (thrownBytes records begun) =
      timeouts waits ++ received (0x3F#8 :: records.flatMap Record.wire) ++
        received (begun.frames.flatMap DataFrame.wire) ++
          received (List.replicate 4 0x23#8) := by
    simp [thrownBytes]
  refine ⟨before ++ after, last, _, ?_, houtput.append houtput', List.prefix_append _ _, ?_⟩
  · rw [hsplit, run_append hrun, hhashes]
  · rw [recordText_append, List.prefix_append_right_inj]
    rw [hempty, List.nil_append] at hbalance
    exact ⟨_, hbalance⟩

end Receiver

/-! ## One visit -/

structure Visit.Leaving (visit : Visit) (events : List Event) (text : List Byte) : Prop where
  leaves : visit.Leaves text
  stdout : stdoutBytes events = text ++ visit.message
  file : fileBytes events = text
  dayFile : dayFileBytes events = text

variable {visit : Visit} {events messages : List Event} {text : List Byte}

theorem Visit.Leaves.leaving (h : visit.Leaves text) (houtput : Output events text)
    (hstdout : stdoutBytes messages = visit.message) (hfile : fileBytes messages = [])
    (hday : dayFileBytes messages = []) :
    visit.Leaving (pollEvents true ++ events ++ messages) text where
  leaves := h
  stdout := by
    have hpoll : stdoutBytes (pollEvents true) = [] := rfl
    rw [stdoutBytes_append, stdoutBytes_append, houtput.1, hstdout, hpoll, List.nil_append]
  file := by
    have hpoll : fileBytes (pollEvents true) = [] := rfl
    rw [fileBytes_append, fileBytes_append, houtput.2.1, hfile, hpoll, List.append_nil,
      List.nil_append]
  dayFile := by
    have hpoll : dayFileBytes (pollEvents true) = [] := rfl
    rw [dayFileBytes_append, dayFileBytes_append, houtput.2.2, hday, hpoll,
      List.append_nil, List.nil_append]

theorem Visit.run_inputs (visit : Visit) :
    ∃ events last result text,
      run Receiver.body .start visit.inputs = (events, .done last result) ∧
      visit.Leaving (pollEvents true ++ events ++ uploadResult result) text := by
  obtain ⟨tempBuffer, waits, hwaits, records, ending⟩ := visit
  cases ending with
  | finished =>
      obtain ⟨events, last, hrun, houtput⟩ := Receiver.run_session hwaits records
      refine ⟨events, last, .ended, recordText (records.flatMap Record.data), hrun, ?_⟩
      exact Leaves.leaving ⟨List.prefix_rfl, List.prefix_rfl⟩ houtput rfl rfl rfl
  | failed count within =>
      obtain ⟨events, next, text, hrun, houtput, harrived, hsent⟩ :=
        Receiver.run_failed hwaits records within
      refine ⟨events, next, .readFailed, text, ?_, ?_⟩
      · exact (run_append hrun _).trans (by simp [run, Receiver.body, ReadResult.char])
      · exact Leaves.leaving ⟨harrived, hsent⟩ houtput rfl rfl rfl
  | thrown begun =>
      obtain ⟨events, last, text, hrun, houtput, harrived, hsent⟩ :=
        Receiver.run_thrown hwaits records begun
      refine ⟨_, last, .flushed, text, hrun, ?_⟩
      have hsplit : pollEvents true ++ (events ++ [.printf "thrown"]) ++
          uploadResult .flushed = pollEvents true ++ events ++ [.printf "thrown"] := by
        simp [uploadResult, Return.value]
      rw [hsplit]
      exact Leaves.leaving ⟨harrived, hsent⟩ houtput rfl rfl rfl
  | absent =>
      obtain ⟨last, hrun⟩ := Receiver.run_absent
      refine ⟨_, last, .noQuestionMark, [], hrun, ?_⟩
      have hsplit : pollEvents true ++ [.printf "No Question Mark, Quit :D"] ++
          uploadResult .noQuestionMark = pollEvents true ++ [] ++
            [.printf "No Question Mark, Quit :D", .printf "Upload failed \n"] := rfl
      rw [hsplit]
      refine Leaves.leaving ⟨List.prefix_rfl, List.prefix_rfl⟩ ⟨rfl, rfl, rfl⟩ ?_ rfl rfl
      rfl

theorem Visit.onTimer (visit : Visit) :
    ∃ events text, SerialComm.onTimer .initial visit.activation = (events, .again .initial) ∧
      visit.Leaving events text := by
  obtain ⟨emitted, receiver, result, text, hrun, hleaving⟩ := visit.run_inputs
  obtain ⟨last, hupload⟩ := uploadData_of_done visit.tempBuffer true hrun
  have hreleased := uploadData_clears hupload
  refine ⟨_, text, ?_, hleaving⟩
  simp only [SerialComm.onTimer, Process.initial, Bool.false_eq_true, if_false,
    Visit.activation, hupload, andThen, emit, hreleased]

/-! ## Visit after visit -/

def printedOf (visits : List Visit) (texts : List (List Byte)) : List Byte :=
  (List.zipWith (fun visit text => text ++ visit.message) visits texts).flatten

theorem run_visits (visits : List Visit) :
    ∃ events texts,
      run onTimer .initial (visits.map Visit.activation) = (events, .again .initial) ∧
      List.Forall₂ Visit.Leaves visits texts ∧
      stdoutBytes events = printedOf visits texts ∧
      fileBytes events = texts.flatten ∧ dayFileBytes events = texts.flatten := by
  induction visits with
  | nil => exact ⟨[], [], rfl, .nil, rfl, rfl, rfl⟩
  | cons visit visits ih =>
      obtain ⟨first, text, hfirst, hleaving⟩ := visit.onTimer
      obtain ⟨rest, texts, hrest, hleaves, hstdout, hfile, hday⟩ := ih
      refine ⟨first ++ rest, text :: texts, ?_, .cons hleaving.leaves hleaves, ?_, ?_, ?_⟩
      · rw [List.map_cons, run_cons_again hfirst, hrest]
      · rw [stdoutBytes_append, hleaving.stdout, hstdout]
        rfl
      · rw [fileBytes_append, hleaving.file, hfile]
        rfl
      · rw [dayFileBytes_append, hleaving.dayFile, hday]
        rfl

/--
Whatever visits the device makes, one for each alarm, `FILE.txt` and the day file
hold the records that arrived in each of them, in order and once, followed at
most by a first part of what else it sent; every visit leaves the process ready
for the next.
-/
theorem visits_recorded (visits : List Visit) :
    ∃ events texts,
      serialMain .succeeding (visits.map Visit.activation) = (events, .again .initial) ∧
      List.Forall₂ Visit.Leaves visits texts ∧
      stdoutBytes events = ascii "Serial Opened\n" ++ printedOf visits texts ∧
      fileBytes events = texts.flatten ∧ dayFileBytes events = texts.flatten := by
  obtain ⟨events, texts, hrun, hleaves, hstdout, hfile, hday⟩ := run_visits visits
  have hstart : serialStart .succeeding =
      ([.printf "Serial Opened\n"], .again .initial) := rfl
  refine ⟨.printf "Serial Opened\n" :: events, texts, ?_, hleaves, ?_, hfile, hday⟩
  · simp only [serialMain, enter, hstart, hrun, List.singleton_append]
  · rw [← hstdout]
    rfl

end BBCodeBase.SerialComm
