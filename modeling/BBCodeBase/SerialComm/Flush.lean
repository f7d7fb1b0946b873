import BBCodeBase.SerialComm.Frame

/-!
# The four-`'#'` flush

A `'#'` is counted before it is stored, so a run of four of them leaves
`upload_data` from anywhere in a frame.  The accept path clears the count: a
run that first completes a frame with a matching CRC does not flush.
-/

namespace BBCodeBase.SerialComm

open Reactive

/-! ## Leaving the loop clears `any_one_here` -/

def ClearsGuard (pass : Pass) : Prop :=
  ∀ last result, pass.2 = .done last result → last.anyOneHere = false

theorem clearsGuard_again (events : List Event) (upload : Upload) :
    ClearsGuard (events, .again upload) := by
  intro last result h
  cases h

theorem clearsGuard_fault (events : List Event) : ClearsGuard (events, .fault) := by
  intro last result h
  cases h

theorem clearsGuard_leave (events : List Event) (upload : Upload) (result : Return) :
    ClearsGuard (events, leave upload result) := by
  intro last other h
  obtain ⟨rfl, -⟩ := Exit.done.inj h
  rfl

theorem finishRecord_clears (upload : Upload) (events : List Event) :
    ClearsGuard (finishRecord upload events) := by
  unfold finishRecord
  split
  · exact clearsGuard_leave _ _ _
  · split
    · split
      · exact clearsGuard_fault _
      · exact clearsGuard_again _ _
    · exact clearsGuard_again _ _

theorem checkFrame_clears (upload : Upload) (writeOk : Bool) :
    ClearsGuard (checkFrame upload writeOk) := by
  unfold checkFrame
  split
  · dsimp only
    split
    · split
      · unfold acceptFrame
        dsimp only
        split
        · exact clearsGuard_fault _
        · exact finishRecord_clears _ _
      · exact clearsGuard_again _ _
    · exact clearsGuard_fault _
  · exact clearsGuard_again _ _

theorem receiveData_clears (upload : Upload) (ch : Byte) (writeOk : Bool) :
    ClearsGuard (receiveData upload ch writeOk) := by
  rw [receiveData_eq]
  dsimp only
  split
  · unfold storePayload
    split
    · exact clearsGuard_fault _
    · dsimp only
      split
      · exact clearsGuard_again _ _
      · exact clearsGuard_again _ _
  · unfold storeChecksum
    split
    · split
      · exact clearsGuard_fault _
      · dsimp only
        split
        · exact checkFrame_clears _ _
        · exact clearsGuard_again _ _
    · exact checkFrame_clears _ _

theorem receiveQuestion_clears (upload : Upload) (ch : Byte) (writeOk : Bool) :
    ClearsGuard (receiveQuestion upload ch writeOk) := by
  unfold receiveQuestion
  split
  · dsimp only
    split
    · exact clearsGuard_again _ _
    · exact clearsGuard_leave _ _ _
  · unfold receiveSof
    split
    · dsimp only
      split
      · exact clearsGuard_fault _
      · exact clearsGuard_again _ _
    · unfold receiveLength
      split
      · split
        · exact clearsGuard_fault _
        · exact clearsGuard_again _ _
      · exact receiveData_clears _ _ _

theorem receiveChar_clears (upload : Upload) (ch : Byte) (writeOk : Bool) :
    ClearsGuard (receiveChar upload ch writeOk) := by
  unfold receiveChar
  split
  · exact clearsGuard_again _ _
  · unfold receivePalint
    split
    · dsimp only
      split
      · split
        · exact clearsGuard_fault _
        · exact clearsGuard_leave _ _ _
      · exact receiveQuestion_clears _ _ _
    · exact receiveQuestion_clears _ _ _

theorem uploadBody_clears (upload : Upload) (input : Input) :
    ClearsGuard (uploadBody upload input) := by
  unfold uploadBody
  split
  · exact clearsGuard_leave _ _ _
  · split
    · exact receiveChar_clears _ _ _
    · dsimp only
      split
      · exact clearsGuard_leave _ _ _
      · exact receiveChar_clears _ _ _

theorem run_clears {upload last : Upload} {inputs : List Input} {events : List Event}
    {result : Return} (h : run uploadBody upload inputs = (events, .done last result)) :
    last.anyOneHere = false := by
  obtain ⟨first, input, rest, before, middle, after, -, -, hlast, -⟩ := run_done_split h
  exact uploadBody_clears middle input last result (by rw [hlast])

theorem uploadData_clears {tempBuffer : Buffer Byte 1000} {writeOk : Bool}
    {inputs : List Input} {events : List Event} {last : Upload} {result : Return}
    (h : uploadData false tempBuffer writeOk inputs = (events, .done last result)) :
    last.anyOneHere = false := by
  have hrun : run uploadBody (.start tempBuffer true) inputs =
      ((run uploadBody (.start tempBuffer true) inputs).1, .done last result) :=
    Prod.ext rfl (Prod.mk.inj h).2
  exact run_clears hrun

/-! ## How many `'#'` complete the frame in progress -/

/-- The number of `'#'` that complete the frame so that its CRC matches. -/
def Phase.hashesLeft : Phase → Option Nat
  | .checksum size data (some first) =>
      if crcLow (frameOf size data) = first ∧ crcHigh (frameOf size data) = 0x23#8 then
        some 1
      else none
  | .checksum size data none =>
      if crcLow (frameOf size data) = 0x23#8 ∧ crcHigh (frameOf size data) = 0x23#8 then
        some 2
      else none
  | .payload size data _ =>
      if data.length + 3 = size.toNat ∧
          crcLow (frameOf size (data ++ [0x23#8])) = 0x23#8 ∧
          crcHigh (frameOf size (data ++ [0x23#8])) = 0x23#8 then
        some 3
      else none
  | _ => none

theorem Phase.hashesLeft_pos {phase : Phase} {count : Nat}
    (h : phase.hashesLeft = some count) : 0 < count := by
  unfold Phase.hashesLeft at h
  split at h
  · split at h
    · obtain rfl := Option.some.inj h
      decide
    · cases h
  · split at h
    · obtain rfl := Option.some.inj h
      decide
    · cases h
  · split at h
    · obtain rfl := Option.some.inj h
      decide
    · cases h
  · cases h

def Phase.stored : Phase → Nat
  | .payload _ data _ => data.length
  | _ => 0

def Hashes (inputs : List Input) : Prop := ∀ input ∈ inputs, input.read = .byte 0x23#8

namespace Receiver

def HashesAccepted (receiver : Receiver) : Prop :=
  ∃ count, receiver.phase.hashesLeft = some count ∧ receiver.palint + count ≤ 3

inductive HashStep (receiver : Receiver) : Pass → Prop
  | accepted {events exit payload} : receiver.phase.hashesLeft = some 1 →
      Event.ack payload ∈ events → HashStep receiver (events, exit)
  | fault : 1000 ≤ receiver.phase.stored + 2 → HashStep receiver ([], .fault)
  | again {events next} : Adds false events [] [] → next.palint = receiver.palint →
      next.questionReceived = receiver.questionReceived →
      next.phase.stored ≤ receiver.phase.stored + 1 →
      (∀ count < 3, receiver.phase.hashesLeft = some (count + 1) ↔
        next.phase.hashesLeft = some count) →
      HashStep receiver (events, .again next)

theorem settle_hash {receiver : Receiver} {length : Byte} {data : List Byte}
    {first : Byte} (hphase : receiver.phase = .checksum length data (some first))
    (writeOk : Bool) :
    HashStep receiver
      (receiver.settle length data first 0x23#8 writeOk) := by
  have hleft : receiver.phase.hashesLeft =
      if crcLow (frameOf length data) = first ∧
        crcHigh (frameOf length data) = 0x23#8 then some 1 else none := by
    rw [hphase]
    rfl
  unfold settle
  dsimp only
  split
  · next hmatch =>
      rw [if_pos hmatch] at hleft
      split
      · exact @HashStep.accepted _ _ _ data hleft (by simp)
      · split
        · exact @HashStep.accepted _ _ _ data hleft (by simp)
        · split
          · exact @HashStep.accepted _ _ _ data hleft (by simp)
          · exact @HashStep.accepted _ _ _ data hleft (by simp)
  · next hmismatch =>
      rw [if_neg hmismatch] at hleft
      refine .again (adds_reject _ _).weaken rfl rfl (Nat.zero_le _) fun count _ => ?_
      rw [hleft]
      simp [Phase.hashesLeft]

theorem mark_hash (receiver : Receiver) : receiver.mark 0x23#8 = receiver := by
  simp [mark]

theorem take_hash (receiver : Receiver) (writeOk : Bool) :
    HashStep receiver (receiver.take 0x23#8 writeOk) := by
  unfold take
  rw [mark_hash]
  cases hphase : receiver.phase with
  | idle =>
      simp only
      rw [if_neg (by decide), if_neg (by decide)]
      refine .again (adds_nil _) rfl rfl (Nat.le_succ _) fun count _ => ?_
      simp [hphase, Phase.hashesLeft]
  | length =>
      simp only
      refine .again (adds_nil _) rfl rfl (Nat.zero_le _) fun count _ => ?_
      simp [hphase, Phase.hashesLeft]
  | payload length data sofData =>
      simp only
      rw [if_neg (by decide), if_neg (by decide)]
      split
      · next hfull => exact .fault (by rwa [hphase])
      · refine .again (adds_nil _) rfl rfl ?_ fun count hcount => ?_
        · rw [hphase]
          dsimp only
          split <;> simp [Phase.stored]
        rw [hphase]
        dsimp only
        by_cases hfull : data.length + 3 = length.toNat
        · rw [if_pos hfull]
          simp only [Phase.hashesLeft, eq_true hfull, true_and]
          (split <;> simp); omega
        · rw [if_neg hfull]
          simp only [Phase.hashesLeft, eq_false hfull, false_and, if_false]
          (split <;> simp); omega
  | checksum length data first =>
      cases first with
      | none =>
          simp only
          refine .again (adds_nil _) rfl rfl (Nat.zero_le _) fun count hcount => ?_
          rw [hphase]
          simp only [Phase.hashesLeft]
          (split <;> simp); omega
      | some first => exact settle_hash hphase writeOk

theorem hashesAccepted_next {receiver next : Receiver}
    (hpalint : next.palint = receiver.palint + 1)
    (hleft : ∀ count < 3, receiver.phase.hashesLeft = some (count + 1) ↔
      next.phase.hashesLeft = some count) :
    receiver.HashesAccepted ↔ next.HashesAccepted := by
  constructor
  · rintro ⟨count, hcount, hle⟩
    obtain ⟨rest, rfl⟩ := Nat.exists_eq_add_of_lt (Phase.hashesLeft_pos hcount)
    rw [Nat.zero_add] at hcount hle
    exact ⟨rest, (hleft rest (by omega)).mp hcount, by omega⟩
  · rintro ⟨count, hcount, hle⟩
    exact ⟨count + 1, (hleft count (by omega)).mpr hcount, by omega⟩

theorem run_hashes_cases {receiver : Receiver} {inputs : List Input}
    (hasked : receiver.questionReceived = true) (hlt : receiver.palint < 4)
    (henough : 4 ≤ receiver.palint + inputs.length) (hhashes : Hashes inputs)
    (hfits : receiver.phase.stored + 5 ≤ 1000 + receiver.palint) :
    (receiver.HashesAccepted ∧
        ∃ payload, Event.ack payload ∈ (run body receiver inputs).1) ∨
      (¬ receiver.HashesAccepted ∧
        ∃ events last, run body receiver inputs = (events, .done last .flushed) ∧
          Adds false events [] []) := by
  induction inputs generalizing receiver with
  | nil =>
      simp only [List.length_nil] at henough
      omega
  | cons input inputs ih =>
      obtain ⟨read, writeOk⟩ := input
      obtain rfl : read = .byte 0x23#8 := hhashes _ List.mem_cons_self
      simp only [List.length_cons] at henough
      by_cases hfourth : receiver.palint = 3
      · have hstep : RunCounter.step 0x23#8 4 receiver.palint 0x23#8 = none := by
          simp [RunCounter.step, hfourth]
        have hbody := body_of_step_none hasked hstep writeOk
        refine .inr ⟨?_, _, _, run_cons_done hbody inputs, ?_⟩
        · rintro ⟨count, hleft, hcount⟩
          have := Phase.hashesLeft_pos hleft
          omega
        · exact ⟨rfl, rfl, rfl, rfl, rfl, fun h => by cases h⟩
      · have hstep : RunCounter.step 0x23#8 4 receiver.palint 0x23#8 =
            some (receiver.palint + 1) := by
          unfold RunCounter.step
          rw [if_pos rfl, if_pos (by omega)]
        have hbody := body_of_step hasked (.inl (by decide)) hstep writeOk
        have htake := take_hash { receiver with palint := receiver.palint + 1 } writeOk
        rw [← hbody] at htake
        generalize hpass : receiver.body ⟨.byte 0x23#8, writeOk⟩ = pass at htake
        cases htake with
        | @accepted events exit payload hleft hack =>
            refine .inl ⟨⟨1, hleft, by omega⟩, payload, ?_⟩
            cases exit with
            | again next =>
                rw [run_cons_again hpass]
                exact List.mem_append_left _ hack
            | done last result => rwa [run_cons_done hpass]
            | fault => rwa [run_cons_fault hpass]
        | fault hfull =>
            simp only at hfull
            omega
        | @again events next hadds hpalint hquestion hstored hleft =>
            simp only at hpalint hstored
            rw [run_cons_again hpass]
            have hsame := hashesAccepted_next hpalint hleft
            have hrest := ih (hquestion.trans hasked) (by omega) (by omega)
              (fun other h => hhashes other (List.mem_cons_of_mem _ h)) (by omega)
            rw [hsame]
            rcases hrest with ⟨haccepted, payload, hack⟩ | ⟨hflush, later, last, hrun, hquiet⟩
            · exact .inl ⟨haccepted, payload, List.mem_append_right _ hack⟩
            · refine .inr ⟨hflush, events ++ later, last, by rw [hrun], ?_⟩
              exact hadds.append hquiet

end Receiver

/-! ## The same for `upload_data` -/

/--
With `count` more `'#'`, the frame in `temp_buffer` is complete and its CRC is
the pair of checksum bytes that have then been received.
-/
def Upload.CompletedByHashes (upload : Upload) (count : Nat) : Prop :=
  (count = 1 ∧ upload.chksumFlag = true ∧ upload.a = 1 ∧
    ∃ frame, upload.tempBuffer.slice? 0 upload.length = some frame ∧
      upload.chkSum.load? 0 = some (crcLow frame) ∧ crcHigh frame = 0x23#8) ∨
  (count = 2 ∧ upload.chksumFlag = true ∧ upload.a = 0 ∧
    ∃ frame, upload.tempBuffer.slice? 0 upload.length = some frame ∧
      crcLow frame = 0x23#8 ∧ crcHigh frame = 0x23#8) ∨
  (count = 3 ∧ upload.startReceive = true ∧ upload.lengthFlag = false ∧
    upload.num + 3 = upload.length ∧
    ∃ frame, upload.tempBuffer.slice? 0 (upload.num + 2) = some frame ∧
      crcLow (frame ++ [0x23#8]) = 0x23#8 ∧ crcHigh (frame ++ [0x23#8]) = 0x23#8)

def Upload.HashesAccepted (upload : Upload) : Prop :=
  ∃ count, upload.CompletedByHashes count ∧ upload.palint + count ≤ 3

def Upload.HashesFit (upload : Upload) : Prop :=
  upload.startReceive = true → upload.lengthFlag = false →
    upload.num + 5 ≤ 1000 + upload.palint

theorem Represents.completedByHashes_iff {upload : Upload} {receiver : Receiver}
    (hrep : Represents upload receiver) (count : Nat) :
    upload.CompletedByHashes count ↔ receiver.phase.hashesLeft = some count := by
  obtain ⟨hphase, -, -⟩ := hrep
  unfold Upload.CompletedByHashes
  cases hcase : receiver.phase with
  | idle =>
      rw [hcase] at hphase
      obtain ⟨hchksum, -, hstart, -⟩ := hphase
      simp [hchksum, hstart, Phase.hashesLeft]
  | length =>
      rw [hcase] at hphase
      obtain ⟨hchksum, hlengthFlag, -⟩ := hphase
      simp [hchksum, hlengthFlag, Phase.hashesLeft]
  | payload size data sofData =>
      rw [hcase] at hphase
      obtain ⟨hchksum, hlengthFlag, hstart, -, -, hlength, hnum, htemp⟩ := hphase
      have hframe : upload.tempBuffer.slice? 0 (upload.num + 2) =
          some (frameOf size data) := by
        rw [hnum]
        exact htemp.slice?
      rw [Phase.hashesLeft, Option.ite_none_right_eq_some, Option.some.injEq]
      constructor
      · rintro (⟨-, h, -⟩ | ⟨-, h, -⟩ | ⟨rfl, -, -, hlast, frame, hslice, hlow, hhigh⟩)
        · simp [hchksum] at h
        · simp [hchksum] at h
        · rw [hframe] at hslice
          obtain rfl := Option.some.inj hslice
          exact ⟨⟨by omega, hlow, hhigh⟩, rfl⟩
      · rintro ⟨⟨hfull, hlow, hhigh⟩, rfl⟩
        exact .inr (.inr ⟨rfl, hstart, hlengthFlag, by omega, _, hframe, hlow, hhigh⟩)
  | checksum size data first =>
      rw [hcase] at hphase
      obtain ⟨hchksum, hlengthFlag, hstart, hlength, hdata, htemp, hfirst⟩ := hphase
      have hframe : upload.tempBuffer.slice? 0 upload.length =
          some (frameOf size data) := by
        rw [hlength, ← hdata]
        exact htemp.slice?
      cases first with
      | none =>
          have ha : upload.a = 0 := hfirst
          rw [Phase.hashesLeft, Option.ite_none_right_eq_some, Option.some.injEq]
          constructor
          · rintro (⟨-, -, h, -⟩ | ⟨rfl, -, -, frame, hslice, hmatch⟩ | ⟨-, h, -⟩)
            · simp [ha] at h
            · rw [hframe] at hslice
              obtain rfl := Option.some.inj hslice
              exact ⟨hmatch, rfl⟩
            · simp [hstart] at h
          · rintro ⟨hmatch, rfl⟩
            exact .inr (.inl ⟨rfl, hchksum, ha, _, hframe, hmatch⟩)
      | some first =>
          obtain ⟨ha, hload⟩ := hfirst
          rw [Phase.hashesLeft, Option.ite_none_right_eq_some, Option.some.injEq]
          constructor
          · rintro (⟨rfl, -, -, frame, hslice, hlow, hhigh⟩ | ⟨-, -, h, -⟩ | ⟨-, h, -⟩)
            · rw [hframe] at hslice
              obtain rfl := Option.some.inj hslice
              rw [hload] at hlow
              exact ⟨⟨(Option.some.inj hlow).symm, hhigh⟩, rfl⟩
            · simp [ha] at h
            · simp [hstart] at h
          · rintro ⟨⟨hlow, hhigh⟩, rfl⟩
            exact .inl ⟨rfl, hchksum, ha, _, hframe, by rw [hload, hlow], hhigh⟩

theorem Represents.hashesAccepted_iff {upload : Upload} {receiver : Receiver}
    (hrep : Represents upload receiver) :
    upload.HashesAccepted ↔ receiver.HashesAccepted := by
  have hpalint : upload.palint = receiver.palint := hrep.vars.2.2.1
  refine exists_congr fun count => ?_
  rw [hrep.completedByHashes_iff count, hpalint]

theorem Represents.stored_le {upload : Upload} {receiver : Receiver}
    (hrep : Represents upload receiver) (hfit : upload.HashesFit) :
    receiver.phase.stored + 5 ≤ 1000 + receiver.palint := by
  have hpalint : upload.palint = receiver.palint := hrep.vars.2.2.1
  obtain ⟨hphase, -, -⟩ := hrep
  cases hcase : receiver.phase with
  | payload size data sofData =>
      rw [hcase] at hphase
      obtain ⟨-, hlengthFlag, hstart, -, -, -, hnum, -⟩ := hphase
      have := hfit hstart hlengthFlag
      rw [hnum, hpalint] at this
      exact this
  | idle =>
      simp only [Phase.stored]
      omega
  | length =>
      simp only [Phase.stored]
      omega
  | checksum =>
      simp only [Phase.stored]
      omega

/-- The call returns 1 and releases the line, with no `'*'` and no record byte. -/
structure Flushed (pass : Pass) : Prop where
  returned : ∃ last result, pass.2 = .done last result ∧ result.value = 1 ∧
    last.anyOneHere = false
  noAck : 0x2A#8 ∉ replies pass.1
  noRecord : fileBytes pass.1 = [] ∧ dayFileBytes pass.1 = []

theorem ack_mem_replies {payload : List Byte} {events : List Event}
    (h : Event.ack payload ∈ events) : 0x2A#8 ∈ replies events :=
  List.mem_filterMap.mpr ⟨_, h, rfl⟩

/--
From every state after `'?'`, four `'#'` flush the upload if and only if they do
not complete a frame whose CRC matches before the fourth of them.
-/
theorem hashes_flush_iff (upload : Upload) (hreach : Reachable upload)
    (hasked : upload.questionReceived = true) (hfit : upload.HashesFit)
    (inputs : List Input) (hcount : inputs.length = 4) (hhashes : Hashes inputs) :
    Flushed (run uploadBody upload inputs) ↔ ¬ upload.HashesAccepted := by
  obtain ⟨receiver, hrep⟩ := hreach.represented
  have hpalint : upload.palint = receiver.palint := hrep.vars.2.2.1
  have hlt : receiver.palint < 4 := hpalint ▸ hreach.palint_lt
  obtain ⟨hevents, hexit⟩ := uploadBody_simulates.run inputs hrep
  have hcases := Receiver.run_hashes_cases
    (hrep.vars.2.2.2.2.2.1.symm.trans hasked) hlt (by omega) hhashes (hrep.stored_le hfit)
  rw [hrep.hashesAccepted_iff]
  rcases hcases with ⟨haccepted, payload, hack⟩ | ⟨hflush, events, last, hrun, hquiet⟩
  · rw [← hevents] at hack
    constructor
    · intro hflushed
      exact absurd (ack_mem_replies hack) hflushed.noAck
    · intro hnot
      exact absurd haccepted hnot
  · refine ⟨fun _ => hflush, fun _ => ?_⟩
    rw [hrun] at hevents hexit
    generalize hpass : run uploadBody upload inputs = pass at hevents hexit
    obtain ⟨emitted, exit⟩ := pass
    obtain rfl : emitted = events := hevents
    cases hexit with
    | @done state _ =>
        refine ⟨⟨state, .flushed, rfl, rfl, run_clears hpass⟩, ?_, hquiet.file,
          hquiet.dayFile⟩
        intro hmem
        have := List.count_pos_iff.mpr hmem
        rw [hquiet.stars] at this
        simp at this

/-- Four `'#'` after `'?'`. -/
theorem hashes_flush_iff_idle :
    ∃ upload, Reachable upload ∧ upload.questionReceived = true ∧ upload.HashesFit ∧
      Flushed (run uploadBody upload (received (List.replicate 4 0x23#8))) := by
  obtain ⟨upload, hrep, hreach, hidle⟩ := exists_asked ⟨fun _ => 0#8⟩
  have hfit : upload.HashesFit := by
    intro hstart
    simp [hidle.startReceive] at hstart
  refine ⟨upload, hreach, hidle.questionReceived, hfit,
    (hashes_flush_iff upload hreach hidle.questionReceived hfit _ rfl ?_).mpr ?_⟩
  · simp [Hashes, received]
  · rw [hrep.hashesAccepted_iff]
    rintro ⟨count, hleft, -⟩
    cases hleft

/-- The frame with payload LF has the checksum bytes 164 and `'#'`. -/
theorem not_hashes_flush :
    ¬ ∀ upload inputs, Reachable upload → upload.questionReceived = true →
        upload.HashesFit → inputs.length = 4 → Hashes inputs →
        Flushed (run uploadBody upload inputs) := by
  intro h
  obtain ⟨upload, hrep, hcall⟩ := uploadData_of_again ⟨fun _ => 0#8⟩ true
    (show run Receiver.body .start
        (received [0x3F#8, 0x24#8, 3#8, 0x0A#8, 164#8]) =
      ([.write 0x55#8], .again
        ⟨.checksum 3#8 [0x0A#8] (some 164#8), [], 0, true, false, true, 1⟩) by
      decide +kernel)
  have hfit : upload.HashesFit := by
    intro hstart
    obtain ⟨-, -, hopen, -⟩ := hrep.phase
    simp [hopen] at hstart
  have hflushed := h upload (received (List.replicate 4 0x23#8)) ⟨_, _, _, _, hcall⟩
    hrep.vars.2.2.2.2.2.1 hfit rfl (by simp [Hashes, received])
  obtain ⟨hevents, -⟩ :=
    uploadBody_simulates.run (received (List.replicate 4 0x23#8)) hrep
  have hnoAck := hflushed.noAck
  rw [hevents] at hnoAck
  exact absurd hnoAck (by decide +kernel)

end BBCodeBase.SerialComm
