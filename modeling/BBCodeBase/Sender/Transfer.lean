import BBCodeBase.Sender.Exchange
import Mathlib.Data.List.TakeWhile

/-!
# `session_handle` and `session_transfer`

`session_handle` runs the handshake, the data frames and the finish exchange of
one batch.  `session_transfer` learns a port, and then reads lines from standard
input until the buffer is full or the input pauses, and hands them over.
-/

namespace BBCodeBase.Sender

open Reactive

variable (stack : Stack) (data : SessionData)

/-! ## `session_handle` -/

inductive Phase where
  | handshake
  | data
  | finish
  deriving DecidableEq, Repr

structure Handle where
  phase : Phase
  exchange : Exchange
  deriving DecidableEq, Repr

def Handle.return (handle : Handle) (value : Int) : List Event × Exit Handle Int :=
  ([.returned .sessionHandle value], .done handle value)

def afterFinish (exchange : Exchange) (ret : Int) : List Event × Exit Handle Int :=
  if ret = -1 then Handle.return ⟨.finish, exchange⟩ (-1)
  else Handle.return ⟨.finish, exchange⟩ 0

def afterSendData (exchange : Exchange) (ret : Int) : List Event × Exit Handle Int :=
  if ret = -1 then Handle.return ⟨.data, exchange⟩ (-1)
  else
    andThen (sessionFinish stack exchange.session exchange.tasks) (Handle.mk .finish)
      afterFinish

def afterHandshake (exchange : Exchange) (ret : Int) : List Event × Exit Handle Int :=
  if ret = -1 then Handle.return ⟨.handshake, exchange⟩ (-1)
  else
    andThen (sessionSendData stack data exchange.session exchange.tasks)
      (Handle.mk .data) (afterSendData stack)

def sessionHandle (session : Session) (tasks : Tasks) : List Event × Exit Handle Int :=
  emit [.called .sessionHandle]
    (andThen (sessionHandshake stack session tasks) (Handle.mk .handshake)
      (afterHandshake stack data))

def sessionHandleLoop : Body Handle Input Event Int := fun handle input =>
  match handle.phase with
  | .handshake =>
      andThen (sessionHandshakeLoop handle.exchange input) (Handle.mk .handshake)
        (afterHandshake stack data)
  | .data =>
      andThen (sessionSendDataLoop stack data handle.exchange input) (Handle.mk .data)
        (afterSendData stack)
  | .finish =>
      andThen (sessionFinishLoop handle.exchange input) (Handle.mk .finish) afterFinish

/-! ## `session_transfer` -/

inductive Transfer where
  | learning (exchange : Exchange)
  | reading (session : Session) (tasks : Tasks) (data : SessionData) (numBytes : Nat)
  | handling (handle : Handle) (data : SessionData)

/-- `session_build_parameters`; the structure is used as it was before. -/
def sessionBuildParameters (hostName : List Byte) (session : Session) :
    List Event × Session :=
  ([.socket],
    { session with
      hostName := hostName
      hostNameLen := hostName.length
      sessionId := commonSessionId
      port := commonConnectPort
      addressPort := commonConnectPort })

/-- A pass of the outer loop up to the first receive of `learn_new_port`. -/
def sessionConnect (hostName : List Byte) (session : Session) (tasks : Tasks) :
    List Event × Exit Transfer Empty :=
  let (events, session) := sessionBuildParameters hostName session
  emit events
    (andThen (learnNewPort stack session tasks) Transfer.learning
      fun _ value => nomatch value)

def zeroData : SessionData := ⟨fun _ => 0#8⟩

def afterLearn (hostName : List Byte) (exchange : Exchange) (ret : Int) :
    List Event × Exit Transfer Empty :=
  if ret = -1 then sessionConnect stack hostName exchange.session exchange.tasks
  else
    let session := { exchange.session with addressPort := exchange.session.port }
    ([], .again (.reading session exchange.tasks zeroData 0))

/-- `strlen(session_data)`; there is none when the array has no NUL. -/
def strlen : Option Nat := data.indexOf? 0#8

def sessionText : List Byte := ((strlen data).bind (data.slice? 0)).getD []

/-- `fgets` stores a line and its NUL, and nothing when it returns NULL. -/
def storeLine (start : Nat) (line : Line) : Option SessionData :=
  if line.chars = [] then some data
  else data.storeList? start (line.chars ++ [0#8])

def Line.events (line : Line) : List Event :=
  if line.chars = [] then [] else [.stored line.chars]

/-- What the line adds to the text: its bytes before the first NUL. -/
def Line.text (line : Line) : List Byte := line.chars.takeWhile (· ≠ 0#8)

theorem Line.length_text_le (line : Line) : line.text.length ≤ line.chars.length :=
  (List.takeWhile_prefix _).length_le

theorem Line.text_nul_prefix (line : Line) :
    line.text ++ [0#8] <+: line.chars ++ [0#8] := by
  unfold Line.text
  induction line.chars with
  | nil => exact List.prefix_refl _
  | cons char chars ih =>
      rw [List.takeWhile_cons]
      split
      case isTrue => exact List.cons_prefix_cons.mpr ⟨rfl, ih⟩
      case isFalse hnul =>
          obtain rfl : char = 0#8 := by simpa using hnul
          exact List.cons_prefix_cons.mpr ⟨rfl, List.nil_prefix⟩

structure HoldsText (text : List Byte) : Prop where
  holds : data.Holds 0 (text ++ [0#8])
  nulFree : 0#8 ∉ text

theorem holdsText_zeroData : HoldsText zeroData [] where
  holds := by
    intro offset hoffset
    obtain rfl : offset = 0 := by simpa using hoffset
    rfl
  nulFree := List.not_mem_nil

/-- `bzero(session_data, SESSION_SIZE + MAX_RECORD_SIZE)` -/
theorem fill_eq_zeroData : data.fill (sessionSize + maxRecordSize) 0#8 = zeroData := by
  simp [Buffer.fill, zeroData]

variable {data}

theorem HoldsText.strlen {text : List Byte} (h : HoldsText data text) :
    strlen data = some text.length :=
  h.holds.indexOf? h.nulFree

theorem HoldsText.slice? {text : List Byte} (h : HoldsText data text) :
    data.slice? 0 text.length = some text :=
  h.holds.left.slice?

theorem HoldsText.sessionText_eq {text : List Byte} (h : HoldsText data text) :
    sessionText data = text := by
  rw [sessionText, h.strlen, Option.bind_some, h.slice?]
  rfl

theorem HoldsText.storeLine {text : List Byte} (h : HoldsText data text)
    (hroom : text.length < sessionSize) (line : Line) :
    ∃ next, storeLine data text.length line = some next ∧
      HoldsText next (text ++ line.text) := by
  unfold Sender.storeLine
  split
  case isTrue hnone =>
      have htext : line.text = [] := by rw [Line.text, hnone, List.takeWhile_nil]
      exact ⟨data, rfl, by rwa [htext, List.append_nil]⟩
  case isFalse =>
      have hfits : 0 + text.length + (line.chars ++ [0#8]).length ≤
          sessionSize + maxRecordSize := by
        have := line.fits
        simp only [List.length_append, List.length_singleton]
        omega
      have ⟨next, hnext, hholds⟩ := h.holds.left.storeList? hfits
      have ⟨rest, hrest⟩ := line.text_nul_prefix
      rw [Nat.zero_add] at hnext
      rw [← hrest, ← List.append_assoc] at hholds
      refine ⟨next, hnext, ?_, ?_⟩
      · rw [List.append_assoc]
        exact hholds.left
      · intro hmem
        cases List.mem_append.mp hmem with
        | inl hold => exact h.nulFree hold
        | inr hnew => simpa using List.mem_takeWhile_imp hnew

variable (data)

/-- The ten bytes that `memcpy` reads from the literal `"DATA.txt"`. -/
def dataFileName : List Byte :=
  [0x44#8, 0x41#8, 0x54#8, 0x41#8, 0x2E#8, 0x74#8, 0x78#8, 0x74#8, 0#8,
    stack.behindLiteral]

def Session.forBatch (session : Session) (length : Nat) : Session :=
  let noOfBytes := BitVec.ofNat 32 length
  let noOfPackets := (noOfBytes / BitVec.ofNat 32 maxFrameSize).setWidth 16
  { session with
    fileName := dataFileName stack
    noOfBytes := noOfBytes
    totalNoOfBytes := noOfBytes
    noOfPackets :=
      if noOfBytes % BitVec.ofNat 32 maxFrameSize ≠ 0#32 then noOfPackets + 1#16
      else noOfPackets
    nextFrameNumber := 0#16 }

/-- What follows the return of `session_handle`, whose value is not looked at. -/
def afterHandle (handle : Handle) (_ : Int) : List Event × Exit Transfer Empty :=
  let data := data.fill (sessionSize + maxRecordSize) 0#8
  ([], .again (.reading handle.exchange.session handle.exchange.tasks data 0))

/-- What follows the reading loop, with `length` as `strlen(session_data)`. -/
def sessionSendBatch (session : Session) (tasks : Tasks) (length : Nat) :
    List Event × Exit Transfer Empty :=
  if length = 0 then ([], .again (.reading session tasks data 0))
  else
    emit [.batch ((data.slice? 0 length).getD [])]
      (andThen (sessionHandle stack data (session.forBatch stack length) tasks)
        (Transfer.handling · data) (afterHandle data))

/-- A pass of the reading loop, and what follows when it is the last one. -/
def sessionReadLine (session : Session) (tasks : Tasks) (numBytes : Nat)
    (line : Line) : List Event × Exit Transfer Empty :=
  match storeLine data numBytes line with
  | none => ([], .fault)
  | some data =>
      emit line.events <|
        match strlen data with
        | none => ([], .fault)
        | some numBytes =>
            if line.chars ≠ [] ∧ numBytes < sessionSize then
              ([], .again (.reading session tasks data numBytes))
            else sessionSendBatch stack data session tasks numBytes

def sessionTransferLoop (hostName : List Byte) : Body Transfer Input Event Empty :=
  fun transfer input =>
    match transfer with
    | .learning exchange =>
        andThen (learnNewPortLoop stack exchange input) Transfer.learning
          (afterLearn stack hostName)
    | .reading session tasks data numBytes =>
        match input with
        | .recv _ => ([], .again transfer)
        | .fgets line => sessionReadLine stack data session tasks numBytes line
        | .wakeUp task junk =>
            (sessionPacketTimeout session tasks task junk, .again transfer)
    | .handling handle data =>
        andThen (sessionHandleLoop stack data handle input) (Transfer.handling · data)
          (afterHandle data)

/-- `session_transfer`; `session` is what the memory of the structure holds. -/
def sessionTransfer (hostName : List Byte) (session : Session) (inputs : List Input) :
    List Event × Exit Transfer Empty :=
  enter (sessionConnect stack hostName session ⟨[], 0⟩)
    (sessionTransferLoop stack hostName) inputs

/-! ## A first batch -/

def zeroStack : Stack := ⟨fun _ _ => 0#8, fun _ => 0, 0#8⟩

def zeroSession : Session := ⟨0#32, 0#16, 0#16, 0#16, 0#32, 0#32, 0#16, [], 0, []⟩

def Input.packet (type : PacketType) (fields : List Byte) : Input :=
  .recv (.datagram (type.code :: le32 commonSessionId ++ fields))

def Input.firstBatch : List Input :=
  [.packet .helloResponse (le16 5000#16 ++ List.replicate 10 0#8),
    .fgets ⟨[0x41#8, 0x0A#8], by decide⟩, .fgets ⟨[], by decide⟩]

end BBCodeBase.Sender
