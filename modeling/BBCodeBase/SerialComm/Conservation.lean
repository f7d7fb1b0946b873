import BBCodeBase.SerialComm.Steps

/-!
# Conservation of acknowledged data

Everything answered with `'*'` is either in the files or still in the record
buffer, on any input.  The END exit is the one place where this is given up: it
drops the buffered record and the last payload.
-/

namespace BBCodeBase.SerialComm

open Reactive

/-! ## The invariant of the loop -/

/-- What was acknowledged is output or pending; `allOk` if every reply was written. -/
structure Conserved (allOk : Bool) (events : List Event) (receiver : Receiver) :
    Prop where
  output : fileBytes events ++ recordText receiver.record =
    recordText (acked events).flatten
  stars : (replies events).count 0x2A#8 = (acked events).length
  printed : printedChars events = fileBytes events
  dayFile : dayFileBytes events = fileBytes events
  stdout : allOk = true → stdoutBytes events = fileBytes events
  endSeen : receiver.EndSeen
  noEnd : ∀ payload ∈ acked events, 0x45#8 ∉ payload

theorem conserved_start : Conserved true [] .start where
  output := rfl
  stars := rfl
  printed := rfl
  dayFile := rfl
  stdout := fun _ => rfl
  endSeen := Receiver.endSeen_of_data_nil rfl
  noEnd := by simp [acked]

theorem Conserved.step {allOk writeOk : Bool} {history events : List Event}
    {receiver next : Receiver} {payloads : List (List Byte)} {text : List Byte}
    (h : Conserved allOk history receiver) (hok : allOk = true → writeOk = true)
    (hadds : Adds writeOk events payloads text)
    (hrecord : text ++ recordText next.record =
      recordText receiver.record ++ recordText payloads.flatten)
    (hseen : next.EndSeen) (hnoEnd : ∀ payload ∈ payloads, 0x45#8 ∉ payload) :
    Conserved allOk (history ++ events) next where
  output := by
    rw [fileBytes_append, hadds.file, acked_append, hadds.acked,
      List.flatten_append, recordText_append, List.append_assoc, hrecord,
      ← List.append_assoc, h.output]
  stars := by
    rw [replies_append, List.count_append, h.stars, hadds.stars, acked_append,
      hadds.acked, List.length_append]
  printed := by
    rw [printedChars_append, fileBytes_append, h.printed, hadds.printed, hadds.file]
  dayFile := by
    rw [dayFileBytes_append, fileBytes_append, h.dayFile, hadds.dayFile, hadds.file]
  stdout := fun hall => by
    rw [stdoutBytes_append, fileBytes_append, h.stdout hall,
      hadds.stdout (hok hall), hadds.file]
  endSeen := hseen
  noEnd := by
    intro payload hmem
    rw [acked_append, hadds.acked] at hmem
    rcases List.mem_append.mp hmem with hold | hnew
    · exact h.noEnd payload hold
    · exact hnoEnd payload hnew

theorem conserved_preserved (allOk : Bool) :
    Preserved Receiver.body (fun input => allOk = true → input.writeOk = true)
      (Conserved allOk) := by
  intro history receiver input events next hok h hbody
  have hfresh : receiver.endPacket = false → ∀ payload ∈ [receiver.phase.data],
      0x45#8 ∉ payload := by
    intro hopen payload hmem hE
    obtain rfl := List.mem_singleton.mp hmem
    simp [h.endSeen hE] at hopen
  cases Receiver.body_again hbody with
  | quiet hadds hrecord hseen =>
      exact h.step hok hadds (by simp [hrecord]) (hseen h.endSeen) (by simp)
  | buffered hadds hdata hrecord hseen hopen =>
      subst hdata
      exact h.step hok hadds (by simp [hrecord]) hseen (hfresh hopen)
  | printed hadds hdata hrecord hseen hopen =>
      subst hdata
      exact h.step hok hadds (by simp [hrecord]) hseen (hfresh hopen)

theorem adds_poll (writeOk : Bool) : Adds writeOk (pollEvents writeOk) [] [] := by
  cases writeOk <;>
    exact ⟨rfl, rfl, rfl, rfl, rfl, by
      simp [pollEvents, stdoutBytes, Event.stdout]⟩

theorem uploadData_conserved (allOk : Bool) {tempBuffer : Buffer Byte 1000}
    {writeOk : Bool} {inputs : List Input} {events : List Event} {upload : Upload}
    (hpoll : allOk = true → writeOk = true)
    (hinputs : ∀ input ∈ inputs, allOk = true → input.writeOk = true)
    (h : uploadData false tempBuffer writeOk inputs = (events, .again upload)) :
    ∃ receiver, Represents upload receiver ∧ Conserved allOk events receiver := by
  obtain ⟨later, receiver, rfl, hrun, hrep⟩ := uploadData_again h
  have hstart : Conserved allOk (pollEvents writeOk) .start := by
    have hnone : Conserved allOk [] .start :=
      { conserved_start with stdout := fun _ => rfl }
    exact hnone.step hpoll (adds_poll writeOk) (by simp [Receiver.start])
      (Receiver.endSeen_of_data_nil rfl) (by simp)
  exact ⟨receiver, hrep, (conserved_preserved allOk).run hstart hinputs hrun⟩

/--
At every loop head, the bytes output so far followed by the filtered pending
record are the filtered payloads of the frames answered with `'*'`, each of
which is one `'*'` on the port, and all three outputs have received the same.
-/
theorem upload_conserves (tempBuffer : Buffer Byte 1000) (inputs : List Input)
    (hwrites : ∀ input ∈ inputs, input.writeOk = true) (events : List Event)
    (upload : Upload)
    (h : uploadData false tempBuffer true inputs = (events, .again upload)) :
    (replies events).count 0x2A#8 = (acked events).length ∧
    (∃ pending, upload.finalChar.slice? 0 upload.oldLength = some pending ∧
      fileBytes events ++ recordText pending =
        recordText (acked events).flatten) ∧
    stdoutBytes events = fileBytes events ∧
    dayFileBytes events = fileBytes events := by
  obtain ⟨receiver, hrep, hconserved⟩ := uploadData_conserved true (fun _ => rfl)
    (fun input hmem _ => hwrites input hmem) h
  obtain ⟨hrecord, hold, -⟩ := hrep.vars
  refine ⟨hconserved.stars, ⟨receiver.record, ?_, hconserved.output⟩,
    hconserved.stdout rfl, hconserved.dayFile⟩
  rw [hold]
  exact hrecord.slice?

/-- A frame with payload `A` waits in the record for a newline. -/
theorem upload_conserves_letter :
    ∃ upload, uploadData false ⟨fun _ => 0#8⟩ true
        (received [0x3F#8, 0x24#8, 3#8, 0x41#8, 115#8, 223#8]) =
          ([.write 0x51#8, .write 0x55#8, .crc [0x24#8, 3#8, 0x41#8], .ack [0x41#8]],
            .again upload) ∧
      ∃ pending, upload.finalChar.slice? 0 upload.oldLength = some pending ∧
        recordText pending = [0x41#8] := by
  obtain ⟨upload, -, hcall⟩ := uploadData_of_again ⟨fun _ => 0#8⟩ true
    (show run Receiver.body .start
        (received [0x3F#8, 0x24#8, 3#8, 0x41#8, 115#8, 223#8]) =
      ([.write 0x55#8, .crc [0x24#8, 3#8, 0x41#8], .ack [0x41#8]],
        .again ⟨.idle, [0x41#8], 0, false, false, true, 1⟩) by decide +kernel)
  obtain ⟨-, ⟨pending, hslice, hbalance⟩, -⟩ :=
    upload_conserves ⟨fun _ => 0#8⟩ _ (by simp [received]) _ upload hcall
  exact ⟨upload, hcall, pending, hslice, hbalance⟩

/-! ## The END exit -/

/-- An END packet of the logs: TAB, `'0'`, TAB, `'E'`. -/
def genuineEnd (payload : List Byte) : Bool :=
  [0x09#8, 0x30#8, 0x09#8, 0x45#8].isPrefixOf payload

def ackedData (events : List Event) : List (List Byte) :=
  (acked events).filter fun payload => !genuineEnd payload

/-- Every acknowledged data frame has its filtered payload on all three outputs. -/
def AllSaved (events : List Event) : Prop :=
  printedChars events = recordText (ackedData events).flatten ∧
    fileBytes events = recordText (ackedData events).flatten ∧
    dayFileBytes events = recordText (ackedData events).flatten

/--
No printable character is pending in `final_char`, and the frame in
`temp_buffer` is an END packet or has no printable character either.
-/
def NothingPending (upload : Upload) : Prop :=
  (∃ pending, upload.finalChar.slice? 0 upload.oldLength = some pending ∧
    recordText pending = []) ∧
  ∃ frame, upload.tempBuffer.slice? 0 upload.length = some frame ∧
    (genuineEnd (frame.drop 2) = true ∨ recordText (frame.drop 2) = [])

theorem mem_of_genuineEnd {payload : List Byte} (h : genuineEnd payload = true) :
    0x45#8 ∈ payload := by
  have hstarts := List.isPrefixOf_iff_prefix.mp h
  exact hstarts.subset (by decide)

theorem Represents.frame {upload : Upload} {receiver : Receiver} {length : Byte}
    {data : List Byte} {first : Option Byte} (h : Represents upload receiver)
    (hphase : receiver.phase = .checksum length data first) :
    upload.tempBuffer.slice? 0 upload.length = some (frameOf length data) := by
  have hvars := h.phase
  rw [hphase] at hvars
  obtain ⟨-, -, -, hlength, hdata, htemp, -⟩ := hvars
  rw [hlength, ← hdata]
  exact htemp.slice?

theorem ended_saved_iff {upload : Upload} {receiver last : Receiver}
    {input : Input} {before after : List Event} (hrep : Represents upload receiver)
    (hconserved : Conserved false before receiver)
    (hbody : receiver.body input = (after, .done last .ended)) :
    AllSaved (before ++ after) ↔ NothingPending upload := by
  obtain ⟨length, data, first, hphase, hadds⟩ := Receiver.body_ended hbody
  obtain ⟨hrecord, hold, -⟩ := hrep.vars
  have hpending : upload.finalChar.slice? 0 upload.oldLength =
      some receiver.record := by
    rw [hold]
    exact hrecord.slice?
  have hkeep : (acked before).filter (fun payload => !genuineEnd payload) =
      acked before := by
    apply List.filter_eq_self.mpr
    intro payload hmem
    cases hgenuine : genuineEnd payload with
    | true => exact absurd (mem_of_genuineEnd hgenuine) (hconserved.noEnd payload hmem)
    | false => rfl
  have hsaved : AllSaved (before ++ after) ↔
      recordText receiver.record ++
        recordText ([data].filter fun payload => !genuineEnd payload).flatten = [] := by
    unfold AllSaved ackedData
    rw [printedChars_append, fileBytes_append, dayFileBytes_append, acked_append,
      hadds.printed, hadds.file, hadds.dayFile, hadds.acked, hconserved.printed,
      hconserved.dayFile, List.filter_append, hkeep, List.flatten_append,
      recordText_append, ← hconserved.output, and_self, and_self,
      List.append_assoc, List.append_right_inj]
    exact eq_comm
  have hnothing : NothingPending upload ↔
      recordText receiver.record = [] ∧
        (genuineEnd data = true ∨ recordText data = []) := by
    unfold NothingPending
    rw [hpending, hrep.frame hphase]
    simp [frameOf]
  rw [hsaved, hnothing, List.append_eq_nil_iff]
  cases hgenuine : genuineEnd data <;> simp [hgenuine]

/--
A call that leaves through the END exit has saved every acknowledged data frame
if and only if nothing was pending when the last checksum byte, with which the
call ended, was read.
-/
theorem ended_upload_saves_iff (tempBuffer : Buffer Byte 1000) (writeOk : Bool)
    (inputs : List Input) (events : List Event) (last : Upload)
    (h : uploadData false tempBuffer writeOk inputs = (events, .done last .ended)) :
    ∃ first input rest before upload after,
      inputs = first ++ input :: rest ∧
      uploadData false tempBuffer writeOk first = (before, .again upload) ∧
      uploadBody upload input = (after, .done last .ended) ∧
      (AllSaved events ↔ NothingPending upload) := by
  obtain ⟨first, input, rest, before, upload, after, hsplit, hfirst, hlast, rfl⟩ :=
    uploadData_done h
  refine ⟨first, input, rest, before, upload, after, hsplit, hfirst, hlast, ?_⟩
  obtain ⟨receiver, hrep, hconserved⟩ := uploadData_conserved false
    (fun h => absurd h (by decide)) (fun _ _ h => absurd h (by decide)) hfirst
  obtain ⟨hevents, hexit⟩ := uploadBody_simulates _ _ input hrep
  rw [hlast] at hevents hexit
  cases hbody : receiver.body input with
  | mk events exit =>
      rw [hbody] at hevents hexit
      cases hexit with
      | done =>
          obtain rfl : after = events := hevents
          exact ended_saved_iff hrep hconserved hbody

/-- The END packet of the logs, alone after `'?'`, is acknowledged and saves all. -/
theorem ended_upload_saves_iff_logged :
    ∃ last, uploadData false ⟨fun _ => 0#8⟩ true
        (received [0x3F#8, 0x24#8, 8#8, 9#8, 48#8, 9#8, 69#8, 10#8, 13#8, 46#8, 236#8]) =
          ([.write 0x51#8, .write 0x55#8,
            .crc [0x24#8, 8#8, 9#8, 48#8, 9#8, 69#8, 10#8, 13#8],
            .ack [9#8, 48#8, 9#8, 69#8, 10#8, 13#8]], .done last .ended) ∧
      ∃ first input rest before upload after,
        received [0x3F#8, 0x24#8, 8#8, 9#8, 48#8, 9#8, 69#8, 10#8, 13#8, 46#8, 236#8] =
          first ++ input :: rest ∧
        uploadData false ⟨fun _ => 0#8⟩ true first = (before, .again upload) ∧
        uploadBody upload input = (after, .done last .ended) ∧ NothingPending upload := by
  obtain ⟨last, hcall⟩ := uploadData_of_done ⟨fun _ => 0#8⟩ true
    (show run Receiver.body .start
        (received [0x3F#8, 0x24#8, 8#8, 9#8, 48#8, 9#8, 69#8, 10#8, 13#8, 46#8, 236#8]) =
      ([.write 0x55#8, .crc [0x24#8, 8#8, 9#8, 48#8, 9#8, 69#8, 10#8, 13#8],
        .ack [9#8, 48#8, 9#8, 69#8, 10#8, 13#8]],
        .done ⟨.idle, [9#8, 48#8, 9#8, 69#8, 10#8, 13#8], 0, true, true, true, 1⟩
          .ended) by decide +kernel)
  obtain ⟨first, input, rest, before, upload, after, hsplit, hfirst, hlast, hiff⟩ :=
    ended_upload_saves_iff _ _ _ _ _ hcall
  refine ⟨last, hcall, first, input, rest, before, upload, after, hsplit, hfirst, hlast, ?_⟩
  apply hiff.mp
  unfold AllSaved
  decide +kernel

/-- `'?'` and a data frame with payload `E`: it is acknowledged and dropped. -/
theorem not_ended_upload_saves :
    ¬ ∀ tempBuffer inputs events last,
      uploadData false tempBuffer true inputs = (events, .done last .ended) →
        AllSaved events := by
  intro h
  obtain ⟨last, hcall⟩ := uploadData_of_done ⟨fun _ => 0#8⟩ true
    (show run Receiver.body .start
        (received [0x3F#8, 0x24#8, 3#8, 0x45#8, 87#8, 153#8]) =
      ([.write 0x55#8, .crc [0x24#8, 3#8, 0x45#8], .ack [0x45#8]],
        .done ⟨.idle, [0x45#8], 0, false, true, true, 1⟩ .ended) by decide +kernel)
  have hsaved := h _ _ _ _ hcall
  exact absurd hsaved.2.1 (by decide +kernel)

end BBCodeBase.SerialComm
