import BBCodeBase.Foundation.Buffer
import BBCodeBase.Foundation.Loop
import BBCodeBase.SerialComm.Crc

/-!
# `upload_data`

The receiver of `new_serial.c`, one pass of its `while(1)` loop at a time.  The
stages below follow the order of the source.  An index outside one of the local
arrays ends the run in `Exit.fault`.  The lines written to the debug log and to
stderr are left out (what the log reads of `temp_buffer` is in `Bounds`), as are
`clock_interval`, whose only test guards a commented-out call, and the test
`ch == "!"`, which compares a character with the address of a string literal
and is never true.
-/

namespace BBCodeBase.SerialComm

open Reactive

/-- `read(gPortFd, &ch, 1)`: a failure, no byte within the time-out, or a byte. -/
inductive ReadResult where
  | error
  | timeout
  | byte (ch : Byte)
  deriving DecidableEq, Repr

/--
What one pass of the loop takes from its environment: the result of `read` and
whether the pass's `write` to the serial port, if it makes one, returns 1.
-/
structure Input where
  read : ReadResult
  writeOk : Bool
  deriving DecidableEq, Repr

def received (bytes : List Byte) : List Input := bytes.map fun ch => ⟨.byte ch, true⟩

/-- `ch` is set to NULL before `read`, so a time-out leaves 0 in it. -/
def ReadResult.char : ReadResult → Option Byte
  | .error => none
  | .timeout => some 0#8
  | .byte ch => some ch

/--
`calc_crc` is called on the bytes of a frame.  `ack` is the `'*'` written to the
port for a frame with this payload, `write` any other byte written to it.  The
characters of a record go to stdout, to `fp` and to `fp1`.
-/
inductive Event where
  | crc (frame : List Byte)
  | ack (payload : List Byte)
  | write (ch : Byte)
  | printf (message : String)
  | printfChar (ch : Byte)
  | fprintfChar (ch : Byte)
  | fprintfChar1 (ch : Byte)
  deriving DecidableEq, Repr

inductive Return where
  | someoneHere
  | readFailed
  | noQuestionMark
  | flushed
  | writeFailed
  | ended
  deriving DecidableEq, Repr

def Return.value : Return → Int
  | .someoneHere | .flushed | .ended => 1
  | .readFailed | .noQuestionMark | .writeFailed => 0

/-- The local variables that live across passes, and the guard `any_one_here`. -/
structure Upload where
  anyOneHere : Bool
  tempBuffer : Buffer Byte 1000
  oldLength : Nat
  palint : Nat
  packetReceived : Bool
  chksumFlag : Bool
  sofData : BitVec 32
  a : Nat
  chkSum : Buffer Byte 6
  checkChksum : Bool
  lengthFlag : Bool
  startReceive : Bool
  num : Nat
  length : Nat
  finalChar : Buffer Byte 1000
  printChar : Bool
  endPacket : Bool
  questionReceived : Bool
  bailOut : Nat

abbrev Pass := List Event × Exit Upload Return

def leave (upload : Upload) (result : Return) : Exit Upload Return :=
  .done { upload with anyOneHere := false } result

def replyFailed (writeOk : Bool) : List Event :=
  if writeOk then [] else [.printf "couldnt write"]

def printable (ch : Byte) : Bool :=
  (44#8 < ch && ch < 58#8) || (64#8 < ch && ch < 91#8) ||
    (96#8 < ch && ch < 126#8) ||
    ch == 9#8 || ch == 10#8 || ch == 46#8

def printRecordChar (ch : Byte) : List Event :=
  if printable ch then
    [.printfChar ch, .fprintfChar ch, .fprintfChar1 ch]
  else []

/--
The loop `for (q = 0; q < length - 2; q++)` of the accept path, with `count`
passes to go: `final_char[q + old_length] = temp_buffer[q + 2]` and
`temp_buffer[q + 2] = NULL`.
-/
def moveFrame (oldLength : Nat) : (count q : Nat) →
    Buffer Byte 1000 → Buffer Byte 1000 →
    Option (Buffer Byte 1000 × Buffer Byte 1000)
  | 0, _, finalChar, tempBuffer => some (finalChar, tempBuffer)
  | count + 1, q, finalChar, tempBuffer => do
      let ch ← tempBuffer.load? (q + 2)
      let finalChar ← finalChar.store? (q + oldLength) ch
      let tempBuffer ← tempBuffer.store? (q + 2) 0#8
      moveFrame oldLength count (q + 1) finalChar tempBuffer

/-- The end of the accept path: leave on an END packet, else print or wait. -/
def finishRecord (upload : Upload) (events : List Event) : Pass :=
  if upload.endPacket then (events, leave upload .ended)
  else if upload.printChar then
    match upload.finalChar.slice? 0 upload.oldLength with
    | none => (events, .fault)
    | some text =>
        (events ++ text.flatMap printRecordChar,
          .again { upload with printChar := false, oldLength := 0 })
  else (events, .again upload)

def acceptFrame (upload : Upload) (frame : List Byte) (writeOk : Bool) : Pass :=
  let events := .crc frame :: .ack (frame.drop 2) :: replyFailed writeOk
  match moveFrame upload.oldLength (upload.length - 2) 0 upload.finalChar
      upload.tempBuffer with
  | none => (events, .fault)
  | some (finalChar, tempBuffer) =>
      finishRecord
        { upload with
          palint := 0
          finalChar := finalChar
          tempBuffer := tempBuffer.fill 1000 0#8
          oldLength := upload.oldLength + (upload.length - 2) }
        events

def rejectFrame (upload : Upload) (frame : List Byte) (writeOk : Bool) : Pass :=
  (.crc frame :: .write 0x26#8 :: replyFailed writeOk,  -- '&'
    .again { upload with tempBuffer := upload.tempBuffer.fill 300 0#8 })

/-- `if (check_chksum == 1)` -/
def checkFrame (upload : Upload) (writeOk : Bool) : Pass :=
  if upload.checkChksum then
    let upload :=
      { upload with checkChksum := false, chksumFlag := false, sofData := 0#32 }
    match upload.tempBuffer.slice? 0 upload.length,
        upload.chkSum.load? 0, upload.chkSum.load? 1 with
    | some frame, some first, some second =>
        if crcLow frame = first ∧ crcHigh frame = second then
          acceptFrame upload frame writeOk
        else rejectFrame upload frame writeOk
    | _, _, _ => ([], .fault)
  else ([], .again upload)

/-- `if (chksum_flag == 1)`; only the second checksum byte falls through. -/
def storeChecksum (upload : Upload) (ch : Byte) (writeOk : Bool) : Pass :=
  if upload.chksumFlag then
    match upload.chkSum.store? upload.a ch with
    | none => ([], .fault)
    | some chkSum =>
        let upload := { upload with chkSum := chkSum, a := upload.a + 1 }
        if upload.a = 2 then
          checkFrame
            { upload with checkChksum := true, chksumFlag := false, a := 0 }
            writeOk
        else ([], .again upload)
  else checkFrame upload writeOk

/-- `if (start_receive == 1)` -/
def storePayload (upload : Upload) (ch : Byte) : Pass :=
  match upload.tempBuffer.store? (upload.num + 2) ch with
  | none => ([], .fault)
  | some tempBuffer =>
      let upload := { upload with tempBuffer := tempBuffer, num := upload.num + 1 }
      if (upload.num : Int) = (upload.length : Int) - 2 then
        ([], .again
          { upload with
            packetReceived := true
            startReceive := false
            chksumFlag := true
            num := 0 })
      else ([], .again upload)

def receiveData (upload : Upload) (ch : Byte) (writeOk : Bool) : Pass :=
  let upload :=
    if ch = 0x45#8 ∧ upload.chksumFlag = false then  -- 'E'
      { upload with endPacket := true }
    else upload
  let upload :=
    if ch = 0x0A#8 ∨ ch = 0x0D#8 then { upload with printChar := true } else upload
  if upload.startReceive then storePayload upload ch
  else storeChecksum upload ch writeOk

/-- `if (length_flag == 1)` -/
def receiveLength (upload : Upload) (ch : Byte) (writeOk : Bool) : Pass :=
  if upload.lengthFlag then
    match upload.tempBuffer.store? 1 ch with
    | none => ([], .fault)
    | some tempBuffer =>
        ([], .again
          { upload with
            lengthFlag := false
            length := ch.toNat
            tempBuffer := tempBuffer
            startReceive := true
            num := 0 })
  else receiveData upload ch writeOk

def receiveSof (upload : Upload) (ch : Byte) (writeOk : Bool) : Pass :=
  if ch = 0x24#8 ∧ upload.chksumFlag = false ∧ upload.lengthFlag = false then
    let upload :=
      { upload with packetReceived := false, sofData := upload.sofData + 1#32 }
    let upload :=
      if upload.sofData = 1#32 then { upload with lengthFlag := true } else upload
    match upload.tempBuffer.store? 0 ch with
    | none => ([], .fault)
    | some tempBuffer => ([], .again { upload with tempBuffer := tempBuffer })
  else receiveLength upload ch writeOk

def receiveQuestion (upload : Upload) (ch : Byte) (writeOk : Bool) : Pass :=
  if ch = 0x3F#8 ∧ upload.chksumFlag = false ∧ upload.lengthFlag = false then
    let upload := { upload with num := 0 }
    if writeOk then
      ([.write 0x55#8], .again { upload with questionReceived := true })
    else ([.write 0x55#8], leave upload .writeFailed)
  else receiveSof upload ch writeOk

def receivePalint (upload : Upload) (ch : Byte) (writeOk : Bool) : Pass :=
  if ch = 0x23#8 then
    let upload := { upload with palint := upload.palint + 1 }
    if upload.palint > 3 then
      let upload := { upload with oldLength := 0 }
      match upload.finalChar.store? 0 0#8 with
      | none => ([], .fault)
      | some finalChar =>
          ([.printf "thrown"], leave { upload with finalChar := finalChar } .flushed)
    else receiveQuestion upload ch writeOk
  else receiveQuestion { upload with palint := 0 } ch writeOk

/-- `if (ch == NULL && chksum_flag == 0)`, where a time-out ends the pass. -/
def receiveChar (upload : Upload) (ch : Byte) (writeOk : Bool) : Pass :=
  if ch = 0#8 ∧ upload.chksumFlag = false then ([], .again upload)
  else receivePalint upload ch writeOk

def uploadBody : Body Upload Input Event Return := fun upload input =>
  match input.read.char with
  | none => ([], leave upload .readFailed)
  | some ch =>
      if upload.questionReceived then receiveChar upload ch input.writeOk
      else
        let upload := { upload with bailOut := upload.bailOut + 1 }
        if upload.bailOut > 25 then
          ([.printf "No Question Mark, Quit :D"], leave upload .noQuestionMark)
        else receiveChar upload ch input.writeOk

/-- The declarations of `upload_data`; `temp_buffer` is not initialised. -/
def Upload.start (tempBuffer : Buffer Byte 1000) (anyOneHere : Bool) : Upload where
  anyOneHere := anyOneHere
  tempBuffer := tempBuffer
  oldLength := 0
  palint := 0
  packetReceived := false
  chksumFlag := false
  sofData := 0#32
  a := 0
  chkSum := ⟨fun _ => 0#8⟩
  checkChksum := false
  lengthFlag := false
  startReceive := false
  num := 0
  length := 0
  finalChar := ⟨fun _ => 0#8⟩
  printChar := false
  endPacket := false
  questionReceived := false
  bailOut := 0

def pollEvents (writeOk : Bool) : List Event :=
  .write 0x51#8 :: if writeOk then [] else [.printf "Sending Q failed\n"]

/--
`upload_data()`, called with the given `any_one_here` and stack contents, with
the outcome of the write of `'Q'` and the inputs of the passes of its loop.
-/
def uploadData (anyOneHere : Bool) (tempBuffer : Buffer Byte 1000)
    (writeOk : Bool) (inputs : List Input) : Pass :=
  if anyOneHere then ([], .done (.start tempBuffer anyOneHere) .someoneHere)
  else
    let (events, exit) := run uploadBody (.start tempBuffer true) inputs
    (pollEvents writeOk ++ events, exit)

/-! ## What a run shows to the outside -/

def Event.reply? : Event → Option Byte
  | .ack _ => some 0x2A
  | .write ch => some ch
  | _ => none

def replies (events : List Event) : List Byte := events.filterMap Event.reply?

def Event.acked? : Event → Option (List Byte)
  | .ack payload => some payload
  | _ => none

def acked (events : List Event) : List (List Byte) := events.filterMap Event.acked?

def ascii (message : String) : List Byte :=
  message.toList.map fun ch => BitVec.ofNat 8 ch.toNat

def Event.stdout : Event → List Byte
  | .printf message => ascii message
  | .printfChar ch => [ch]
  | _ => []

def stdoutBytes (events : List Event) : List Byte := events.flatMap Event.stdout

def Event.printed? : Event → Option Byte
  | .printfChar ch => some ch
  | _ => none

def printedChars (events : List Event) : List Byte := events.filterMap Event.printed?

def Event.file? : Event → Option Byte
  | .fprintfChar ch => some ch
  | _ => none

def fileBytes (events : List Event) : List Byte := events.filterMap Event.file?

def Event.dayFile? : Event → Option Byte
  | .fprintfChar1 ch => some ch
  | _ => none

def dayFileBytes (events : List Event) : List Byte := events.filterMap Event.dayFile?

end BBCodeBase.SerialComm
