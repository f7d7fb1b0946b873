import BBCodeBase.SerialComm.Receiver

/-!
# The receiver as a protocol machine

What `upload_data` is for, without its arrays and counters: a receiver of
length-delimited frames that collects the payloads of accepted frames into a
record.  `Represents` relates the variables of the C function to this machine,
and `uploadBody_simulates` shows that both take the same step on every input.
-/

namespace BBCodeBase.SerialComm

open Reactive

/--
Where the receiver stands in a frame.  A frame in progress carries its length
byte and the payload bytes stored so far; `sofData` counts the start-of-frame
bytes seen, and `first` is the first checksum byte once it is there.
-/
inductive Phase where
  | idle
  | length
  | payload (length : Byte) (data : List Byte) (sofData : BitVec 32)
  | checksum (length : Byte) (data : List Byte) (first : Option Byte)
  deriving DecidableEq, Repr

structure Receiver where
  phase : Phase
  record : List Byte
  palint : Nat
  printChar : Bool
  endPacket : Bool
  questionReceived : Bool
  bailOut : Nat
  deriving DecidableEq, Repr

abbrev Receiver.Pass := List Event × Exit Receiver Return

def Receiver.start : Receiver :=
  ⟨.idle, [], 0, false, false, false, 0⟩

def Phase.inChecksum : Phase → Bool
  | .checksum _ _ _ => true
  | _ => false

def frameOf (length : Byte) (data : List Byte) : List Byte := 0x24#8 :: length :: data

namespace Receiver

def mark (receiver : Receiver) (ch : Byte) : Receiver :=
  { receiver with
    endPacket := receiver.endPacket || (ch == 0x45#8 && !receiver.phase.inChecksum)
    printChar := receiver.printChar || ch == 0x0A#8 || ch == 0x0D#8 }

def settle (receiver : Receiver) (length : Byte) (data : List Byte)
    (first second : Byte) (writeOk : Bool) : Pass :=
  let frame := frameOf length data
  if crcLow frame = first ∧ crcHigh frame = second then
    let events := .crc frame :: .ack data :: replyFailed writeOk
    let receiver :=
      { receiver with
        phase := .idle, palint := 0, record := receiver.record ++ data }
    if 1000 < receiver.record.length then (events, .fault)
    else if receiver.endPacket then (events, .done receiver .ended)
    else if receiver.printChar then
      (events ++ receiver.record.flatMap printRecordChar,
        .again { receiver with printChar := false, record := [] })
    else (events, .again receiver)
  else
    (.crc frame :: .write 0x26#8 :: replyFailed writeOk,
      .again { receiver with phase := .idle })

def question (receiver : Receiver) (phase : Phase) (writeOk : Bool) : Pass :=
  if writeOk then
    ([.write 0x55#8], .again { receiver with phase := phase, questionReceived := true })
  else ([.write 0x55#8], .done receiver .writeFailed)

def take (receiver : Receiver) (ch : Byte) (writeOk : Bool) : Pass :=
  match receiver.phase with
  | .idle =>
      if ch = 0x3F#8 then receiver.question .idle writeOk
      else if ch = 0x24#8 then ([], .again { receiver with phase := .length })
      else ([], .again (receiver.mark ch))
  | .length => ([], .again { receiver with phase := .payload ch [] 1#32 })
  | .payload length data sofData =>
      if ch = 0x3F#8 then receiver.question (.payload length [] sofData) writeOk
      else if ch = 0x24#8 then
        ([], .again
          { receiver with
            phase :=
              if sofData + 1#32 = 1#32 then .length
              else .payload length data (sofData + 1#32) })
      else if 1000 ≤ data.length + 2 then ([], .fault)
      else
        ([], .again
          { receiver.mark ch with
            phase :=
              if data.length + 3 = length.toNat then
                .checksum length (data ++ [ch]) none
              else .payload length (data ++ [ch]) sofData })
  | .checksum length data none =>
      ([], .again
        { receiver.mark ch with phase := .checksum length data (some ch) })
  | .checksum length data (some first) =>
      (receiver.mark ch).settle length data first ch writeOk

def count (receiver : Receiver) (ch : Byte) (writeOk : Bool) : Pass :=
  if ch = 0x23#8 then
    if receiver.palint + 1 > 3 then ([.printf "thrown"], .done receiver .flushed)
    else { receiver with palint := receiver.palint + 1 }.take ch writeOk
  else { receiver with palint := 0 }.take ch writeOk

def receive (receiver : Receiver) (ch : Byte) (writeOk : Bool) : Pass :=
  if ch = 0#8 ∧ receiver.phase.inChecksum = false then ([], .again receiver)
  else receiver.count ch writeOk

def body : Body Receiver Input Event Return := fun receiver input =>
  match input.read.char with
  | none => ([], .done receiver .readFailed)
  | some ch =>
      if receiver.questionReceived then receiver.receive ch input.writeOk
      else if receiver.bailOut + 1 > 25 then
        ([.printf "No Question Mark, Quit :D"], .done receiver .noQuestionMark)
      else
        { receiver with bailOut := receiver.bailOut + 1 }.receive ch input.writeOk

end Receiver

/-! ## The variables of `upload_data` represent the receiver -/

def PhaseVars (upload : Upload) : Phase → Prop
  | .idle =>
      upload.chksumFlag = false ∧ upload.lengthFlag = false ∧
        upload.startReceive = false ∧ upload.sofData = 0#32 ∧ upload.a = 0
  | .length =>
      upload.chksumFlag = false ∧ upload.lengthFlag = true ∧
        upload.sofData = 1#32 ∧ upload.a = 0 ∧
        upload.tempBuffer.Holds 0 [0x24#8]
  | .payload length data sofData =>
      upload.chksumFlag = false ∧ upload.lengthFlag = false ∧
        upload.startReceive = true ∧ upload.sofData = sofData ∧ upload.a = 0 ∧
        upload.length = length.toNat ∧ upload.num = data.length ∧
        upload.tempBuffer.Holds 0 (frameOf length data)
  | .checksum length data first =>
      upload.chksumFlag = true ∧ upload.lengthFlag = false ∧
        upload.startReceive = false ∧
        upload.length = length.toNat ∧ data.length + 2 = length.toNat ∧
        upload.tempBuffer.Holds 0 (frameOf length data) ∧
        match first with
        | none => upload.a = 0
        | some first => upload.a = 1 ∧ upload.chkSum.load? 0 = some first

def RecordVars (upload : Upload) (receiver : Receiver) : Prop :=
  upload.finalChar.Holds 0 receiver.record ∧
    upload.oldLength = receiver.record.length ∧
    upload.palint = receiver.palint ∧
    upload.printChar = receiver.printChar ∧
    upload.endPacket = receiver.endPacket ∧
    upload.questionReceived = receiver.questionReceived ∧
    upload.bailOut = receiver.bailOut

structure Represents (upload : Upload) (receiver : Receiver) : Prop where
  phase : PhaseVars upload receiver.phase
  vars : RecordVars upload receiver
  checkChksum : upload.checkChksum = false

def SamePass (concrete : Pass) (abstract : Receiver.Pass) : Prop :=
  concrete.1 = abstract.1 ∧ ExitRel Represents concrete.2 abstract.2

theorem represents_start (tempBuffer : Buffer Byte 1000) (anyOneHere : Bool) :
    Represents (.start tempBuffer anyOneHere) .start where
  phase := ⟨rfl, rfl, rfl, rfl, rfl⟩
  vars := ⟨.nil _ _, rfl, rfl, rfl, rfl, rfl, rfl⟩
  checkChksum := rfl

theorem PhaseVars.chksumFlag {upload : Upload} {phase : Phase}
    (h : PhaseVars upload phase) : upload.chksumFlag = phase.inChecksum := by
  cases phase <;> exact h.1

theorem moveFrame_spec {record data : List Byte} {q oldLength : Nat}
    {finalChar tempBuffer : Buffer Byte 1000}
    (hrecord : finalChar.Holds 0 record)
    (hlength : record.length = q + oldLength)
    (hdata : tempBuffer.Holds (q + 2) data) :
    (record.length + data.length ≤ 1000 →
      ∃ final temp,
        moveFrame oldLength data.length q finalChar tempBuffer =
          some (final, temp) ∧
        final.Holds 0 (record ++ data)) ∧
    (1000 < record.length + data.length → data ≠ [] →
      moveFrame oldLength data.length q finalChar tempBuffer = none) := by
  induction data generalizing record q finalChar tempBuffer with
  | nil =>
      refine ⟨fun _ => ⟨finalChar, tempBuffer, rfl, ?_⟩, fun _ h => absurd rfl h⟩
      simpa using hrecord
  | cons ch data ih =>
      have hsplit : tempBuffer.Holds (q + 2) ([ch] ++ data) := hdata
      have hload : tempBuffer.load? (q + 2) = some ch := hdata 0 (by simp)
      obtain ⟨temp, htemp⟩ :=
        tempBuffer.store?_isSome 0#8 (Buffer.lt_of_load? hload)
      have hrest : temp.Holds (q + 1 + 2) data :=
        (Buffer.Holds.right hsplit).store? htemp (.inl (by simp))
      by_cases hroom : q + oldLength < 1000
      · obtain ⟨final, hfinal⟩ := finalChar.store?_isSome ch hroom
        have hnext : final.Holds 0 (record ++ [ch]) :=
          hrecord.snoc (by rwa [Nat.zero_add, hlength])
        have := ih hnext (by simp; omega) hrest
        have hmove : moveFrame oldLength (ch :: data).length q finalChar
            tempBuffer = moveFrame oldLength data.length (q + 1) final temp := by
          simp [moveFrame, hload, hfinal, htemp]
        rw [hmove]
        constructor
        · intro hbound
          simpa using this.1 (by simp at hbound ⊢; omega)
        · intro hbound _
          apply this.2
          · simp at hbound ⊢
            omega
          · rintro rfl
            simp at hbound
            omega
      · have hnone : finalChar.store? (q + oldLength) ch = none :=
          Buffer.store?_eq_none (by omega)
        refine ⟨fun hbound => ?_, fun _ _ => ?_⟩
        · simp at hbound
          omega
        · simp [moveFrame, hload, hnone]

theorem RecordVars.mark {upload : Upload} {receiver : Receiver}
    (h : RecordVars upload receiver)
    (hchksum : upload.chksumFlag = receiver.phase.inChecksum) (ch : Byte) :
    RecordVars
      { upload with
        endPacket := upload.endPacket || (ch == 0x45#8 && !upload.chksumFlag)
        printChar := upload.printChar || ch == 0x0A#8 || ch == 0x0D#8 }
      (receiver.mark ch) := by
  obtain ⟨hrecord, hold, hpalint, hprint, hend, hquestion, hbail⟩ := h
  refine ⟨hrecord, hold, hpalint, ?_, ?_, hquestion, hbail⟩
  · simp [Receiver.mark, hprint]
  · simp [Receiver.mark, hend, hchksum]

/-! ## Each stage of the body takes the step of the receiver -/

theorem finishRecord_spec {upload : Upload} {receiver : Receiver}
    (hphase : PhaseVars upload .idle) (hidle : receiver.phase = .idle)
    (hvars : RecordVars upload receiver) (hcheck : upload.checkChksum = false)
    (events : List Event) :
    SamePass (finishRecord upload events)
      (if receiver.endPacket then (events, .done receiver .ended)
      else if receiver.printChar then
        (events ++ receiver.record.flatMap printRecordChar,
          .again { receiver with printChar := false, record := [] })
      else (events, .again receiver)) := by
  obtain ⟨hrecord, hold, hpalint, hprint, hend, hquestion, hbail⟩ := hvars
  unfold finishRecord
  rw [hprint, hend, hold, hrecord.slice?]
  cases hendPacket : receiver.endPacket with
  | true => exact ⟨rfl, .done _⟩
  | false =>
      cases hprintChar : receiver.printChar with
      | true =>
          refine ⟨rfl, .again ⟨by rwa [hidle], ?_, hcheck⟩⟩
          exact ⟨.nil _ _, rfl, hpalint, rfl, rfl, hquestion, hbail⟩
      | false =>
          refine ⟨rfl, .again ⟨by rwa [hidle], ?_, hcheck⟩⟩
          exact ⟨hrecord, hold, hpalint, hprint, hend, hquestion, hbail⟩

theorem checkFrame_spec {upload : Upload} {receiver : Receiver}
    {length : Byte} {data : List Byte} {first second : Byte}
    (hcheck : upload.checkChksum = true) (hlengthFlag : upload.lengthFlag = false)
    (hstart : upload.startReceive = false) (ha : upload.a = 0)
    (hlength : upload.length = length.toNat)
    (hdata : data.length + 2 = length.toNat)
    (htemp : upload.tempBuffer.Holds 0 (frameOf length data))
    (hfirst : upload.chkSum.load? 0 = some first)
    (hsecond : upload.chkSum.load? 1 = some second)
    (hvars : RecordVars upload receiver) (writeOk : Bool) :
    SamePass (checkFrame upload writeOk)
      (receiver.settle length data first second writeOk) := by
  have hframe : upload.tempBuffer.slice? 0 upload.length =
      some (frameOf length data) := by
    rw [hlength, ← hdata]
    exact htemp.slice?
  have hstored : upload.tempBuffer.Holds 2 data := by
    have hsplit : upload.tempBuffer.Holds 0 ([0x24#8, length] ++ data) := htemp
    exact hsplit.right
  have hcount : upload.length - 2 = data.length := by omega
  have hidle : ∀ finalChar tempBuffer palint oldLength,
      PhaseVars
        { upload with
          checkChksum := false, chksumFlag := false, sofData := 0#32
          finalChar := finalChar, tempBuffer := tempBuffer
          palint := palint, oldLength := oldLength } .idle :=
    fun _ _ _ _ => ⟨rfl, hlengthFlag, hstart, rfl, ha⟩
  obtain ⟨hrecord, hold, hpalint, hprint, hend, hquestion, hbail⟩ := hvars
  unfold checkFrame Receiver.settle
  simp only [hcheck, if_true, hframe, hfirst, hsecond]
  by_cases hmatch : crcLow (frameOf length data) = first ∧
      crcHigh (frameOf length data) = second
  · rw [if_pos hmatch, if_pos hmatch]
    unfold acceptFrame
    have hlengths : receiver.record.length = 0 + upload.oldLength := by omega
    obtain ⟨hroom, hfull⟩ := moveFrame_spec hrecord hlengths hstored
    simp only [hcount, List.length_append]
    by_cases hbound : 1000 < receiver.record.length + data.length
    · have hne : data ≠ [] := by
        rintro rfl
        have := hrecord.length_le (by rintro h; simp [h] at hbound)
        simp at hbound this
        omega
      simp only [hfull hbound hne, if_pos hbound]
      exact ⟨rfl, .fault⟩
    · obtain ⟨final, temp, hmove, hfinal⟩ := hroom (by omega)
      simp only [hmove, if_neg hbound]
      exact @finishRecord_spec _
        { receiver with
          phase := .idle, palint := 0, record := receiver.record ++ data }
        (hidle _ _ _ _) rfl
        ⟨hfinal, by simp [hold], rfl, hprint, hend, hquestion, hbail⟩ rfl _
  · rw [if_neg hmatch, if_neg hmatch]
    refine ⟨rfl, .again ⟨hidle _ _ _ _, ?_, rfl⟩⟩
    exact ⟨hrecord, hold, hpalint, hprint, hend, hquestion, hbail⟩

theorem receiveData_eq (upload : Upload) (ch : Byte) (writeOk : Bool) :
    receiveData upload ch writeOk =
      let marked :=
        { upload with
          endPacket := upload.endPacket || (ch == 0x45#8 && !upload.chksumFlag)
          printChar := upload.printChar || ch == 0x0A#8 || ch == 0x0D#8 }
      if upload.startReceive then storePayload marked ch
      else storeChecksum marked ch writeOk := by
  have hmarkEnd : (if ch = 0x45#8 ∧ upload.chksumFlag = false then
        { upload with endPacket := true } else upload) =
      { upload with
        endPacket := upload.endPacket || (ch == 0x45#8 && !upload.chksumFlag) } := by
    by_cases hend : ch = 0x45#8 ∧ upload.chksumFlag = false
    · rw [if_pos hend]
      simp [hend.1, hend.2]
    · have hfalse : (ch == 0x45#8 && !upload.chksumFlag) = false := by
        simpa using hend
      rw [if_neg hend, hfalse, Bool.or_false]
  unfold receiveData
  rw [hmarkEnd]
  by_cases hnewline : ch = 0x0A#8 ∨ ch = 0x0D#8
  · have htrue : (upload.printChar || ch == 0x0A#8 || ch == 0x0D#8) = true := by
      simpa [or_assoc] using Or.inr hnewline
    simp only [if_pos hnewline, htrue]
  · have hfalse : (upload.printChar || ch == 0x0A#8 || ch == 0x0D#8) =
        upload.printChar := by
      obtain ⟨hlf, hcr⟩ := not_or.mp hnewline
      rw [beq_false_of_ne hlf, beq_false_of_ne hcr, Bool.or_false, Bool.or_false]
    simp only [if_neg hnewline, hfalse]

theorem storePayload_spec {upload : Upload} {receiver : Receiver}
    {length : Byte} {data : List Byte} {sofData : BitVec 32}
    (hphase : PhaseVars upload (.payload length data sofData))
    (hvars : RecordVars upload receiver) (hcheck : upload.checkChksum = false)
    (ch : Byte) :
    SamePass (storePayload upload ch)
      (if 1000 ≤ data.length + 2 then ([], .fault)
      else
        ([], .again
          { receiver with
            phase :=
              if data.length + 3 = length.toNat then
                .checksum length (data ++ [ch]) none
              else .payload length (data ++ [ch]) sofData })) := by
  obtain ⟨hchksum, hlengthFlag, hstart, hsof, ha, hlength, hnum, htemp⟩ := hphase
  unfold storePayload
  rw [hnum]
  by_cases hroom : 1000 ≤ data.length + 2
  · simp only [Buffer.store?_eq_none hroom, if_pos hroom]
    exact ⟨rfl, .fault⟩
  · obtain ⟨temp, hstore⟩ :=
      upload.tempBuffer.store?_isSome ch (Nat.lt_of_not_le hroom)
    have hstoreEnd : upload.tempBuffer.store? (0 + (frameOf length data).length) ch =
        some temp := by
      simpa [frameOf] using hstore
    have hnext : temp.Holds 0 (frameOf length (data ++ [ch])) :=
      htemp.snoc hstoreEnd
    simp only [hstore, if_neg hroom, hlength]
    by_cases hfull : data.length + 3 = length.toNat
    · have hlast : ((data.length + 1 : Nat) : Int) = (length.toNat : Int) - 2 := by
        omega
      simp only [hlast, hfull, if_true]
      refine ⟨rfl, .again ⟨⟨rfl, hlengthFlag, rfl, rfl, ?_, hnext, ha⟩, hvars, hcheck⟩⟩
      simpa using hfull
    · have hmore : ¬ ((data.length + 1 : Nat) : Int) = (length.toNat : Int) - 2 := by
        omega
      simp only [hmore, hfull, if_false]
      refine ⟨rfl, .again ⟨⟨hchksum, hlengthFlag, hstart, hsof, ha, rfl, ?_, hnext⟩,
        hvars, hcheck⟩⟩
      simp

theorem receiveQuestion_idle {upload : Upload} {receiver : Receiver}
    (hrep : Represents upload receiver) (hidle : receiver.phase = .idle)
    (ch : Byte) (writeOk : Bool) :
    SamePass (receiveQuestion upload ch writeOk) (receiver.take ch writeOk) := by
  obtain ⟨hphase, hvars, hcheck⟩ := hrep
  rw [hidle] at hphase
  have ⟨hrecord, hold, hpalint, hprint, hend, hquestion, hbail⟩ := hvars
  obtain ⟨hchksum, hlengthFlag, hstart, hsof, ha⟩ := hphase
  unfold receiveQuestion receiveSof receiveLength Receiver.take
  simp only [hidle, hchksum, hlengthFlag, and_self, and_true, Bool.false_eq_true,
    if_false]
  by_cases hmark : ch = 0x3F#8
  · rw [if_pos hmark, if_pos hmark]
    unfold Receiver.question
    cases writeOk with
    | false => exact ⟨rfl, .done _⟩
    | true =>
        refine ⟨rfl, .again ⟨⟨rfl, rfl, hstart, hsof, ha⟩, ?_, hcheck⟩⟩
        exact ⟨hrecord, hold, hpalint, hprint, hend, rfl, hbail⟩
  · rw [if_neg hmark, if_neg hmark]
    by_cases hsofByte : ch = 0x24#8
    · rw [if_pos hsofByte, if_pos hsofByte]
      obtain ⟨temp, htemp⟩ := upload.tempBuffer.store?_isSome ch (by decide : 0 < 1000)
      simp only [hsof, htemp, BitVec.zero_add, if_true]
      refine ⟨rfl, .again ⟨⟨rfl, rfl, rfl, ha, ?_⟩, ?_, hcheck⟩⟩
      · apply Buffer.Holds.singleton
        rw [Buffer.load?_store? htemp, if_pos rfl, hsofByte]
      · exact ⟨hrecord, hold, hpalint, hprint, hend, hquestion, hbail⟩
    · rw [if_neg hsofByte, if_neg hsofByte, receiveData_eq]
      simp only [hstart, hchksum, storeChecksum, checkFrame, hcheck,
        Bool.false_eq_true, if_false]
      refine ⟨rfl, .again ⟨?_, ?_, rfl⟩⟩
      · simp only [Receiver.mark, hidle]
        exact ⟨rfl, hlengthFlag, rfl, hsof, ha⟩
      · have hmarked := hvars.mark (by rw [hchksum, hidle]; rfl) ch
        rw [hchksum] at hmarked
        exact hmarked

theorem receiveQuestion_length {upload : Upload} {receiver : Receiver}
    (hrep : Represents upload receiver) (hlengthPhase : receiver.phase = .length)
    (ch : Byte) (writeOk : Bool) :
    SamePass (receiveQuestion upload ch writeOk) (receiver.take ch writeOk) := by
  obtain ⟨hphase, hvars, hcheck⟩ := hrep
  rw [hlengthPhase] at hphase
  obtain ⟨hchksum, hlengthFlag, hsof, ha, hsofByte⟩ := hphase
  obtain ⟨temp, htemp⟩ := upload.tempBuffer.store?_isSome ch (by decide : 1 < 1000)
  unfold receiveQuestion receiveSof receiveLength Receiver.take
  simp only [hlengthPhase, hlengthFlag, htemp, Bool.true_eq_false, and_false,
    if_false, if_true]
  refine ⟨rfl, .again ⟨⟨hchksum, rfl, rfl, hsof, ha, rfl, rfl, ?_⟩, hvars, hcheck⟩⟩
  exact hsofByte.snoc htemp

theorem receiveQuestion_payload {upload : Upload} {receiver : Receiver}
    {length : Byte} {data : List Byte} {sofData : BitVec 32}
    (hrep : Represents upload receiver)
    (hpayload : receiver.phase = .payload length data sofData)
    (ch : Byte) (writeOk : Bool) :
    SamePass (receiveQuestion upload ch writeOk) (receiver.take ch writeOk) := by
  obtain ⟨hphase, hvars, hcheck⟩ := hrep
  rw [hpayload] at hphase
  have ⟨hrecord, hold, hpalint, hprint, hend, hquestion, hbail⟩ := hvars
  obtain ⟨hchksum, hlengthFlag, hstart, hsof, ha, hlength, hnum, htemp⟩ := hphase
  unfold receiveQuestion receiveSof receiveLength Receiver.take
  simp only [hpayload, hchksum, hlengthFlag, and_self, and_true,
    Bool.false_eq_true, if_false]
  by_cases hmark : ch = 0x3F#8
  · rw [if_pos hmark, if_pos hmark]
    unfold Receiver.question
    cases writeOk with
    | false => exact ⟨rfl, .done _⟩
    | true =>
        refine ⟨rfl, .again ⟨⟨rfl, rfl, hstart, hsof, ha, hlength, rfl, ?_⟩, ?_,
          hcheck⟩⟩
        · have hsplit : upload.tempBuffer.Holds 0 ([0x24#8, length] ++ data) := htemp
          exact hsplit.left
        · exact ⟨hrecord, hold, hpalint, hprint, hend, rfl, hbail⟩
  · rw [if_neg hmark, if_neg hmark]
    by_cases hsofByte : ch = 0x24#8
    · rw [if_pos hsofByte, if_pos hsofByte]
      obtain ⟨temp, hstore⟩ := upload.tempBuffer.store?_isSome ch (by decide : 0 < 1000)
      have hhead : temp.Holds 0 [0x24#8] := by
        apply Buffer.Holds.singleton
        rw [Buffer.load?_store? hstore, if_pos rfl, hsofByte]
      have htail : temp.Holds 1 (length :: data) := by
        have hsplit : upload.tempBuffer.Holds 0 ([0x24#8] ++ length :: data) := htemp
        exact hsplit.right.store? hstore (.inl (by simp))
      by_cases hwrap : sofData + 1#32 = 1#32
      · simp only [hsof, hwrap, if_true, hstore]
        refine ⟨rfl, .again ⟨⟨rfl, rfl, rfl, ha, hhead⟩, ?_, hcheck⟩⟩
        exact ⟨hrecord, hold, hpalint, hprint, hend, hquestion, hbail⟩
      · simp only [hsof, hwrap, if_false, hstore]
        refine ⟨rfl, .again ⟨⟨rfl, rfl, hstart, rfl, ha, hlength, hnum,
          hhead.append htail⟩, ?_, hcheck⟩⟩
        exact ⟨hrecord, hold, hpalint, hprint, hend, hquestion, hbail⟩
    · rw [if_neg hsofByte, if_neg hsofByte, receiveData_eq]
      simp only [if_pos hstart]
      apply storePayload_spec
      · exact ⟨hchksum, hlengthFlag, hstart, hsof, ha, hlength, hnum, htemp⟩
      · apply hvars.mark
        rw [hchksum, hpayload]
        rfl
      · exact hcheck

theorem receiveQuestion_checksum {upload : Upload} {receiver : Receiver}
    {length : Byte} {data : List Byte} {first : Option Byte}
    (hrep : Represents upload receiver)
    (hchecksum : receiver.phase = .checksum length data first)
    (ch : Byte) (writeOk : Bool) :
    SamePass (receiveQuestion upload ch writeOk) (receiver.take ch writeOk) := by
  obtain ⟨hphase, hvars, hcheck⟩ := hrep
  rw [hchecksum] at hphase
  obtain ⟨hchksum, hlengthFlag, hstart, hlength, hdata, htemp, hfirst⟩ := hphase
  have hmarked := hvars.mark (by rw [hchksum, hchecksum]; rfl) ch
  have hskip : ∀ value : Byte,
      ¬(ch = value ∧ upload.chksumFlag = false ∧ upload.lengthFlag = false) := by
    simp [hchksum]
  unfold receiveQuestion receiveSof receiveLength Receiver.take
  rw [if_neg (hskip _), if_neg (hskip _), if_neg (by simp [hlengthFlag]),
    receiveData_eq, if_neg (by simp [hstart])]
  unfold storeChecksum
  simp only [hchecksum, hchksum, if_true]
  cases first with
  | none =>
      have ha : upload.a = 0 := hfirst
      obtain ⟨chkSum, hstore⟩ := upload.chkSum.store?_isSome ch (by decide : 0 < 6)
      simp only [ha, hstore, Nat.zero_add]
      rw [if_neg (by decide)]
      refine ⟨rfl, .again ⟨⟨rfl, hlengthFlag, hstart, hlength, hdata, htemp,
        rfl, ?_⟩, ?_, hcheck⟩⟩
      · rw [Buffer.load?_store? hstore, if_pos rfl]
      · rw [hchksum] at hmarked
        exact hmarked
  | some first =>
      obtain ⟨ha, hload⟩ := hfirst
      obtain ⟨chkSum, hstore⟩ := upload.chkSum.store?_isSome ch (by decide : 1 < 6)
      simp only [ha, hstore, Nat.reduceAdd, if_true]
      rw [hchksum] at hmarked
      have hload0 : chkSum.load? 0 = some first := by
        rw [Buffer.load?_store? hstore, if_neg (by decide)]
        exact hload
      have hload1 : chkSum.load? 1 = some ch := by
        rw [Buffer.load?_store? hstore, if_pos rfl]
      apply checkFrame_spec
      · rfl
      · exact hlengthFlag
      · exact hstart
      · rfl
      · exact hlength
      · exact hdata
      · exact htemp
      · exact hload0
      · exact hload1
      · exact hmarked

theorem receiveQuestion_spec {upload : Upload} {receiver : Receiver}
    (hrep : Represents upload receiver) (ch : Byte) (writeOk : Bool) :
    SamePass (receiveQuestion upload ch writeOk) (receiver.take ch writeOk) := by
  cases hphase : receiver.phase with
  | idle => exact receiveQuestion_idle hrep hphase ch writeOk
  | length => exact receiveQuestion_length hrep hphase ch writeOk
  | payload length data sofData =>
      exact receiveQuestion_payload hrep hphase ch writeOk
  | checksum length data first =>
      exact receiveQuestion_checksum hrep hphase ch writeOk

theorem receivePalint_spec {upload : Upload} {receiver : Receiver}
    (hrep : Represents upload receiver) (ch : Byte) (writeOk : Bool) :
    SamePass (receivePalint upload ch writeOk) (receiver.count ch writeOk) := by
  obtain ⟨hphase, ⟨hrecord, hold, hpalint, hvars⟩, hcheck⟩ := hrep
  unfold receivePalint Receiver.count
  by_cases hhash : ch = 0x23#8
  · rw [if_pos hhash, if_pos hhash]
    simp only [hpalint]
    by_cases hfourth : receiver.palint + 1 > 3
    · obtain ⟨finalChar, hstore⟩ :=
        upload.finalChar.store?_isSome 0#8 (by decide : 0 < 1000)
      simp only [if_pos hfourth, hstore]
      exact ⟨rfl, .done _⟩
    · rw [if_neg hfourth, if_neg hfourth]
      apply receiveQuestion_spec
      exact ⟨hphase, ⟨hrecord, hold, rfl, hvars⟩, hcheck⟩
  · rw [if_neg hhash, if_neg hhash]
    apply receiveQuestion_spec
    exact ⟨hphase, ⟨hrecord, hold, rfl, hvars⟩, hcheck⟩

theorem receiveChar_spec {upload : Upload} {receiver : Receiver}
    (hrep : Represents upload receiver) (ch : Byte) (writeOk : Bool) :
    SamePass (receiveChar upload ch writeOk) (receiver.receive ch writeOk) := by
  unfold receiveChar Receiver.receive
  rw [hrep.phase.chksumFlag]
  by_cases hskip : ch = 0#8 ∧ receiver.phase.inChecksum = false
  · rw [if_pos hskip, if_pos hskip]
    exact ⟨rfl, .again hrep⟩
  · rw [if_neg hskip, if_neg hskip]
    exact receivePalint_spec hrep ch writeOk

/-- The C loop body is the receiver, input by input. -/
theorem uploadBody_simulates :
    Simulates Represents uploadBody Receiver.body := by
  intro upload receiver input hrep
  unfold uploadBody Receiver.body
  obtain ⟨hphase, ⟨hrecord, hold, hpalint, hprint, hend, hquestion, hbail⟩,
    hcheck⟩ := hrep
  cases input.read.char with
  | none => exact ⟨rfl, .done _⟩
  | some ch =>
      have hrep : Represents upload receiver :=
        ⟨hphase, ⟨hrecord, hold, hpalint, hprint, hend, hquestion, hbail⟩, hcheck⟩
      simp only [hquestion]
      by_cases hasked : receiver.questionReceived = true
      · rw [if_pos hasked, if_pos hasked]
        exact receiveChar_spec hrep ch input.writeOk
      · rw [if_neg hasked, if_neg hasked]
        simp only [hbail]
        by_cases hlate : receiver.bailOut + 1 > 25
        · rw [if_pos hlate, if_pos hlate]
          exact ⟨rfl, .done _⟩
        · rw [if_neg hlate, if_neg hlate]
          apply receiveChar_spec
          exact ⟨hphase, ⟨hrecord, hold, hpalint, hprint, hend, rfl, rfl⟩,
            hcheck⟩

/-! ## Whole calls -/

/-- A state at the head of the loop of some call of `upload_data`. -/
def Reachable (upload : Upload) : Prop :=
  ∃ tempBuffer writeOk inputs events,
    uploadData false tempBuffer writeOk inputs = (events, .again upload)

theorem uploadData_again {tempBuffer : Buffer Byte 1000} {writeOk : Bool}
    {inputs : List Input} {events : List Event} {upload : Upload}
    (h : uploadData false tempBuffer writeOk inputs = (events, .again upload)) :
    ∃ later receiver,
      events = pollEvents writeOk ++ later ∧
      run Receiver.body .start inputs = (later, .again receiver) ∧
      Represents upload receiver := by
  obtain ⟨hevents, hexit⟩ := Prod.mk.inj h
  have hrun : run uploadBody (.start tempBuffer true) inputs =
      ((run uploadBody (.start tempBuffer true) inputs).1, .again upload) :=
    Prod.ext rfl hexit
  obtain ⟨receiver, himage, hrep⟩ :=
    uploadBody_simulates.run_again (represents_start tempBuffer true) hrun
  exact ⟨_, receiver, hevents.symm, himage, hrep⟩

theorem Reachable.represented {upload : Upload} (h : Reachable upload) :
    ∃ receiver, Represents upload receiver := by
  obtain ⟨tempBuffer, writeOk, inputs, events, hrun⟩ := h
  obtain ⟨_, receiver, -, -, hrep⟩ := uploadData_again hrun
  exact ⟨receiver, hrep⟩

theorem uploadData_done {tempBuffer : Buffer Byte 1000} {writeOk : Bool}
    {inputs : List Input} {events : List Event} {last : Upload} {result : Return}
    (h : uploadData false tempBuffer writeOk inputs = (events, .done last result)) :
    ∃ first input rest before upload after,
      inputs = first ++ input :: rest ∧
      uploadData false tempBuffer writeOk first = (before, .again upload) ∧
      uploadBody upload input = (after, .done last result) ∧
      events = before ++ after := by
  obtain ⟨hevents, hexit⟩ := Prod.mk.inj h
  have hrun : run uploadBody (.start tempBuffer true) inputs =
      ((run uploadBody (.start tempBuffer true) inputs).1, .done last result) :=
    Prod.ext rfl hexit
  obtain ⟨first, input, rest, before, upload, after, hsplit, hfirst, hlast, happend⟩ :=
    run_done_split hrun
  refine ⟨first, input, rest, pollEvents writeOk ++ before, upload, after, hsplit,
    ?_, hlast, ?_⟩
  · simp [uploadData, hfirst]
  · rw [← hevents, happend, List.append_assoc]

/-! A run of the receiver from its start is a call of `upload_data`. -/

theorem uploadData_of_again (tempBuffer : Buffer Byte 1000) (writeOk : Bool)
    {inputs : List Input} {events : List Event} {receiver : Receiver}
    (h : run Receiver.body .start inputs = (events, .again receiver)) :
    ∃ upload, Represents upload receiver ∧
      uploadData false tempBuffer writeOk inputs =
        (pollEvents writeOk ++ events, .again upload) := by
  obtain ⟨upload, hrun, hrep⟩ :=
    uploadBody_simulates.symm.run_again (represents_start tempBuffer true) h
  exact ⟨upload, hrep, by simp [uploadData, hrun]⟩

theorem uploadData_of_done (tempBuffer : Buffer Byte 1000) (writeOk : Bool)
    {inputs : List Input} {events : List Event} {receiver : Receiver}
    {result : Return}
    (h : run Receiver.body .start inputs = (events, .done receiver result)) :
    ∃ last, uploadData false tempBuffer writeOk inputs =
      (pollEvents writeOk ++ events, .done last result) := by
  obtain ⟨exit, hrun, hexit⟩ :=
    uploadBody_simulates.symm.run_image (represents_start tempBuffer true) h
  cases hexit with
  | @done _ last => exact ⟨last, by simp [uploadData, hrun]⟩

end BBCodeBase.SerialComm
