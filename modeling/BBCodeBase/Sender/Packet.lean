import BBCodeBase.Foundation.Buffer

/-!
# Session state and packets

`session_t` and the packet builders of `session.c`.  Packets are the bytes that
are sent: packed structures with little-endian fields, as on the ARM target.
The Internet address is fixed for a run and left out, as are the log file and
the lines printed on stdout.
-/

namespace BBCodeBase.Sender

abbrev Byte := BitVec 8

def maxFrameSize : Nat := 500

def maxRecordSize : Nat := 200

def sessionSize : Nat := 10000

def commonConnectPort : BitVec 16 := 8000#16

def commonSessionId : BitVec 32 := 1#32

/-! The sizes `PKT_SIZE_HELLO` and so on, as the macros expand where they are used. -/

def pktSizeHello : Nat := 7 + 10

def pktSizeHandshake : Nat := 9 + 10

def pktSizeDataAck : Nat := 9

def pktSizeFinish : Nat := 7

def pktSizeMax : Nat := 11 + maxFrameSize

inductive PacketType where
  | helloRequest
  | helloResponse
  | handshake
  | handshakeAck
  | data
  | dataAck
  | finish
  | finishAck
  deriving DecidableEq, Repr

def PacketType.code : PacketType → Byte
  | .helloRequest => 1#8
  | .helloResponse => 2#8
  | .handshake => 3#8
  | .handshakeAck => 4#8
  | .data => 5#8
  | .dataAck => 6#8
  | .finish => 7#8
  | .finishAck => 8#8

/-- `session_t`, with the port of `address` in host byte order. -/
structure Session where
  sessionId : BitVec 32
  addressPort : BitVec 16
  port : BitVec 16
  noOfPackets : BitVec 16
  noOfBytes : BitVec 32
  totalNoOfBytes : BitVec 32
  nextFrameNumber : BitVec 16
  hostName : List Byte
  hostNameLen : Nat
  fileName : List Byte
  deriving DecidableEq, Repr

abbrev SessionData := Buffer Byte (sessionSize + maxRecordSize)

/-! ## Fields of a packed structure -/

def le16 (value : BitVec 16) : List Byte :=
  [value.extractLsb' 0 8, value.extractLsb' 8 8]

def le32 (value : BitVec 32) : List Byte :=
  [value.extractLsb' 0 8, value.extractLsb' 8 8, value.extractLsb' 16 8,
    value.extractLsb' 24 8]

def field16 (packet : List Byte) (offset : Nat) : BitVec 16 :=
  packet.getD (offset + 1) 0#8 ++ packet.getD offset 0#8

def field32 (packet : List Byte) (offset : Nat) : BitVec 32 :=
  packet.getD (offset + 3) 0#8 ++ packet.getD (offset + 2) 0#8 ++
    packet.getD (offset + 1) 0#8 ++ packet.getD offset 0#8

def packetType (packet : List Byte) : Byte := packet.getD 0 0#8

@[simp] theorem length_le16 (value : BitVec 16) : (le16 value).length = 2 := rfl

@[simp] theorem length_le32 (value : BitVec 32) : (le32 value).length = 4 := rfl

theorem field16_le16 (value : BitVec 16) : field16 (le16 value) 0 = value := by
  simp only [field16, le16, List.getD_cons_succ, List.getD_cons_zero]
  rw [BitVec.extractLsb'_append_extractLsb'_eq_extractLsb' (by rfl)]
  simp

theorem field32_le32 (value : BitVec 32) : field32 (le32 value) 0 = value := by
  simp only [field32, le32, List.getD_cons_succ, List.getD_cons_zero]
  rw [BitVec.extractLsb'_append_extractLsb'_eq_extractLsb' (by rfl),
    BitVec.extractLsb'_append_extractLsb'_eq_extractLsb' (by rfl),
    BitVec.extractLsb'_append_extractLsb'_eq_extractLsb' (by rfl)]
  simp

theorem field16_seqNum (type : Byte) (sessionId length : BitVec 32) (seqNum : BitVec 16)
    (payload : List Byte) :
    field16 (type :: le32 sessionId ++ le32 length ++ le16 seqNum ++ payload) 9 = seqNum :=
  field16_le16 seqNum

theorem field32_length (type : Byte) (sessionId length : BitVec 32) (seqNum : BitVec 16)
    (payload : List Byte) :
    field32 (type :: le32 sessionId ++ le32 length ++ le16 seqNum ++ payload) 5 = length :=
  field32_le32 length

/-! ## Packet builders -/

def minValue (value1 value2 : BitVec 32) : BitVec 32 :=
  if value1 < value2 then value1 else value2

/--
`build_pkt_hello_request`; a host name longer than its field is copied past the
end of the structure.
-/
def buildPktHelloRequest (session : Session) : Option (List Byte) :=
  if session.hostNameLen ≤ 10 then
    some (PacketType.helloRequest.code :: le32 session.sessionId ++ le16 0#16 ++
      (session.hostName.take session.hostNameLen ++
        List.replicate (10 - session.hostNameLen) 0#8))
  else none

/--
`build_pkt_handshake`, which copies two bytes more than the structure has; they
are whatever `stack` holds behind it.
-/
def buildPktHandshake (session : Session) (stack : Nat → Byte) : List Byte :=
  PacketType.handshake.code :: le32 session.sessionId ++ le16 session.noOfPackets ++
    session.fileName ++ [stack 0, stack 1]

/-- `build_pkt_data`; `stack` is what the rest of the data field holds. -/
def buildPktData (session : Session) (data : SessionData) (stack : Nat → Byte) :
    Option (List Byte) := do
  let length := minValue (BitVec.ofNat 32 maxFrameSize) session.noOfBytes
  let payload ← data.slice? (session.nextFrameNumber.toNat * maxFrameSize) length.toNat
  return PacketType.data.code :: le32 session.sessionId ++ le32 length ++
    le16 session.nextFrameNumber ++ payload ++
    (List.range (maxFrameSize - length.toNat)).map stack

def buildPktFinish (session : Session) : List Byte :=
  PacketType.finish.code :: le32 session.sessionId ++ le16 session.port

end BBCodeBase.Sender
