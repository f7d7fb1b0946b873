import BBCodeBase.Foundation.CString
import BBCodeBase.Sender.Transfer

/-!
# The host name of the sender

`main` of `init.c` copies its arguments into arrays of its own, and
`session_transfer` takes the host name from there on its way to the hello
packet.
-/

namespace BBCodeBase.Sender

open Reactive

abbrev Text := CString Byte 0#8

def hostNameSize : Nat := 10

def ipSize : Nat := 20

/-- `memcpy(array, argv[i], strlen(argv[i]))` into an array that is all zeros. -/
def copyArgument (size : Nat) (argument : Text) : Option (Buffer Byte size) :=
  (⟨fun _ => 0#8⟩ : Buffer Byte size).storeList? 0 argument.chars

def hostNameText (hostName : Buffer Byte hostNameSize) : Option (List Byte) := do
  let hostNameLen ← hostName.strlen? 0#8
  hostName.slice? 0 hostNameLen

def helloPacket (argument : Text) (session : Session) : Option (List Byte) := do
  let hostName ← copyArgument hostNameSize argument
  let hostName ← hostNameText hostName
  buildPktHelloRequest (sessionBuildParameters hostName session).2

def senderMain (stack : Stack) (argv : List Text) (session : Session)
    (inputs : List Input) : List Event × Exit (Option Transfer) Int :=
  match argv with
  | [_, hostName, ip] =>
      match copyArgument hostNameSize hostName, copyArgument ipSize ip with
      | some hostName, some _ =>
          match hostNameText hostName with
          | none => ([], .fault)
          | some hostName =>
              andThen (sessionTransfer stack hostName session inputs) some
                fun _ value => nomatch value
      | _, _ => ([], .fault)
  | _ => ([], .done none 1)

/-! ## The copies -/

variable {argument : Text}

theorem copyArgument_none {size : Nat} (h : size < argument.length) :
    copyArgument size argument = none :=
  Buffer.storeList?_eq_none (Nat.zero_le size) (by rwa [Nat.zero_add])

theorem copyArgument_some {size : Nat} (h : argument.length ≤ size) :
    ∃ field, copyArgument size argument = some field ∧
      field.Holds 0 argument.chars ∧
      ∀ index, argument.length ≤ index → index < size → field.load? index = some 0#8 := by
  have hroom : 0 + ([] : List Byte).length + argument.chars.length ≤ size := by
    simpa using h
  obtain ⟨field, hfield, hholds⟩ := (Buffer.Holds.nil _ 0).storeList? hroom
  refine ⟨field, hfield, hholds, fun index hbehind hindex => ?_⟩
  have hsame : field.load? index = (⟨fun _ => 0#8⟩ : Buffer Byte size).load? index :=
    Buffer.load?_storeList? hfield (.inr (by simpa using hbehind))
  rw [hsame, Buffer.load?, dif_pos hindex]

/-- The name and the zeros behind it, or the part of it that the field has room for. -/
def paddedName (size : Nat) (name : Text) : List Byte :=
  (name.take size).chars ++ List.replicate (size - name.length) 0#8

theorem hostNameText_copyArgument (h : argument.length < hostNameSize) :
    ∃ field, copyArgument hostNameSize argument = some field ∧
      hostNameText field = some argument.chars := by
  obtain ⟨field, hfield, hholds, hzeros⟩ := copyArgument_some (Nat.le_of_lt h)
  have hstring : field.HoldsString 0 argument := by
    apply hholds.append
    apply Buffer.Holds.singleton
    rw [Nat.zero_add]
    exact hzeros argument.length (Nat.le_refl _) h
  refine ⟨field, hfield, ?_⟩
  rw [hostNameText, hstring.strlen?, Option.bind_eq_bind, Option.bind_some]
  exact hholds.slice?

/-- Ten characters fill `host_name`, and its `strlen` runs off the array. -/
theorem hostNameText_full (h : argument.length = hostNameSize) :
    ∃ field, copyArgument hostNameSize argument = some field ∧
      hostNameText field = none := by
  obtain ⟨field, hfield, hholds, -⟩ := copyArgument_some (Nat.le_of_eq h)
  refine ⟨field, hfield, ?_⟩
  rw [hostNameText, hholds.strlen?_eq_none h]
  rfl

theorem helloPacket_short (session : Session) (h : argument.length < hostNameSize) :
    ∃ packet, helloPacket argument session = some packet ∧
      packet.drop 7 = paddedName hostNameSize argument := by
  obtain ⟨field, hfield, htext⟩ := hostNameText_copyArgument h
  have hlength : argument.chars.length ≤ 10 := Nat.le_of_lt h
  refine ⟨PacketType.helloRequest.code :: le32 commonSessionId ++ le16 0#16 ++
    (argument.chars ++ List.replicate (10 - argument.chars.length) 0#8), ?_, ?_⟩
  · rw [CString.length_chars] at hlength
    simp [helloPacket, hfield, htext, sessionBuildParameters, buildPktHelloRequest, hlength]
  · rw [paddedName, CString.take_length_le (Nat.le_of_lt h)]
    rfl

theorem helloPacket_long (session : Session) (h : hostNameSize ≤ argument.length) :
    helloPacket argument session = none := by
  cases Nat.lt_or_eq_of_le h with
  | inl hlonger => simp [helloPacket, copyArgument_none hlonger]
  | inr hfull =>
      obtain ⟨field, hfield, htext⟩ := hostNameText_full hfull.symm
      simp [helloPacket, hfield, htext]

theorem helloPacket_hostName_iff (argument : Text) (session : Session) :
    (∃ packet, helloPacket argument session = some packet ∧
      packet.drop 7 = paddedName hostNameSize argument) ↔ argument.length ≤ 9 := by
  constructor
  · rintro ⟨packet, hpacket, -⟩
    by_contra hlong
    have hsize : hostNameSize ≤ argument.length := Nat.lt_of_not_le hlong
    rw [helloPacket_long session hsize] at hpacket
    cases hpacket
  · exact fun hshort => helloPacket_short session (Nat.lt_succ_of_le hshort)

/-- Ten characters: `strlen` looks for the terminator behind `host_name`. -/
theorem helloPacket_tenCharacters : ¬ ∀ (argument : Text) (session : Session),
    ∃ packet, helloPacket argument session = some packet ∧
      packet.drop 7 = paddedName hostNameSize argument := by
  intro hfaithful
  obtain ⟨packet, hpacket, -⟩ :=
    hfaithful ⟨List.replicate 10 0x61#8, by decide⟩ zeroSession
  rw [helloPacket_long zeroSession (by decide)] at hpacket
  cases hpacket

/-! ## The attempts of a run -/

/-- Each attempt sends the packet to the common port. -/
theorem sessionConnect_hello {stack : Stack} {session : Session} {tasks : Tasks}
    {hostName packet : List Byte}
    (hpacket : buildPktHelloRequest (sessionBuildParameters hostName session).2 =
      some packet) :
    ∃ exchange, sessionConnect stack hostName session tasks =
      ([.socket, .called .learnNewPort, .send tasks.created commonConnectPort packet],
        .again (.learning exchange)) := by
  simp only [sessionBuildParameters] at hpacket
  simp [sessionConnect, sessionBuildParameters, learnNewPort, hpacket, sessionSendPacket,
    emit, andThen]

theorem senderMain_hello {stack : Stack} {program ip : Text} {session : Session}
    {inputs : List Input} (hname : argument.length < hostNameSize)
    (hip : ip.length ≤ ipSize) :
    ∃ packet, helloPacket argument session = some packet ∧
      [.socket, .called .learnNewPort, .send 0 commonConnectPort packet] <+:
        (senderMain stack [program, argument, ip] session inputs).1 := by
  obtain ⟨field, hfield, htext⟩ := hostNameText_copyArgument hname
  obtain ⟨address, haddress, -⟩ := copyArgument_some hip
  obtain ⟨packet, hpacket, -⟩ := helloPacket_short session hname
  have hbuilt : buildPktHelloRequest
      (sessionBuildParameters argument.chars session).2 = some packet := by
    simpa [helloPacket, hfield, htext] using hpacket
  obtain ⟨exchange, hconnect⟩ := @sessionConnect_hello stack session ⟨[], 0⟩ _ _ hbuilt
  refine ⟨packet, hpacket, ?_⟩
  have hevents : (senderMain stack [program, argument, ip] session inputs).1 =
      (sessionTransfer stack argument.chars session inputs).1 := by
    simp only [senderMain, hfield, haddress, htext]
    cases sessionTransfer stack argument.chars session inputs with
    | mk events exit =>
        cases exit with
        | again transfer => rfl
        | done transfer value => cases value
        | fault => rfl
  rw [hevents, sessionTransfer, hconnect]
  exact List.prefix_append _ _

theorem senderMain_longName {stack : Stack} {program ip : Text} {session : Session}
    {inputs : List Input} (hname : hostNameSize ≤ argument.length) :
    senderMain stack [program, argument, ip] session inputs = ([], .fault) := by
  cases Nat.lt_or_eq_of_le hname with
  | inl hlonger => simp [senderMain, copyArgument_none hlonger]
  | inr hfull =>
      obtain ⟨field, hfield, htext⟩ := hostNameText_full hfull.symm
      cases haddress : copyArgument ipSize ip with
      | none => simp [senderMain, hfield, haddress]
      | some address => simp [senderMain, hfield, haddress, htext]

end BBCodeBase.Sender
