import BBCodeBase.Pipeline.Processes
import BBCodeBase.Sender.Payload

/-!
# From the serial port to the wire

While the server does not crash in the middle of a batch, the DATA packets that
the sender sends for the first time carry the output of the serial process, from
its first byte on and in its order; the rest is in `session_data` or on its way.
-/

namespace BBCodeBase.Pipeline

open Reactive Pipe

variable {stack : Sender.Stack} {hostName : List Byte} {startUp : SerialComm.StartUp}
  {session : Sender.Session}

def CrashFree (transfer : Sender.Transfer) (input : Sender.Input) : Prop :=
  transfer.Meets (fun _ input => ¬ input.serverCrash) input

def Delivered : List Event × Exit State Empty → Prop
  | (events, .again state) =>
      printed events =
        Sender.sentPayload (rights events) ++ state.reader.unsent ++ state.queue ++
          state.unwritten
  | _ => True

theorem payloads_textContract :
    (textContract startUp Sender.payloads.Holds fun line => 0#8 ∉ line.chars).Kept
      (cemsEnds stack hostName) CrashFree := by
  apply textContract_kept
  · exact fun _ _ h => Sender.payloads_collects h
  · intro history transfer input hinput hsafe h
    have hnulFree : input.nulFree := by
      cases input with
      | fgets line => exact hinput line rfl
      | recv result => trivial
      | wakeUp task junk => trivial
    exact Sender.payloads_kept.sessionTransferLoop h hnulFree hsafe
  · exact fun _ _ _ _ _ htext _ => nulFree_of_text htext

/--
In every run of the two processes without a crash of the server in the middle of
a batch, whatever the order of their steps: the payload of the DATA packets, in
the order of their first transmission, is the first part of what the serial
process has printed, and what is left of it is accounted for.
-/
theorem cems_delivers (stack : Sender.Stack) (hostName : List Byte)
    (startUp : SerialComm.StartUp) (session : Sender.Session) {steps : List Step}
    (hsafe : AlongFrom (cemsStart stack hostName startUp session)
      (cemsEnds stack hostName).body (Contract.Meets (cemsEnds stack hostName) CrashFree)
      steps) :
    Delivered (cems stack hostName startUp session steps) := by
  have hkept := @payloads_textContract stack hostName startUp
  have hconnect := @Sender.TransferContract.Kept.sessionConnect stack session ⟨[], 0⟩ []
    Sender.payloads _ _ hostName Sender.payloads_kept rfl
  have hrun := hkept.enter (serialStart_writes startUp) hconnect
    (fun events transfer h => sessionConnect_taken h) hsafe
  change (Contract.post _ _).Of [] (cems stack hostName startUp session steps) at hrun
  generalize cems stack hostName startUp session steps = pass at hrun
  obtain ⟨events, exit⟩ := pass
  cases exit with
  | again state =>
      have hprinted : printed events =
          Sender.consumed (rights events) ++ state.queue ++ state.unwritten :=
        hrun.conserved
      have hunsent : Sender.consumed (rights events) =
          Sender.sentPayload (rights events) ++ state.reader.unsent :=
        Sender.payloads_unsent hrun.reader
      change printed events = _
      rw [hprinted, hunsent]
  | done last value => trivial
  | fault => trivial

def safeStep : Step → Bool
  | .other input => !input.serverCrash
  | _ => true

theorem meets_of_safe {step : Step} (h : safeStep step = true) (state : State) :
    Contract.Meets (cemsEnds stack hostName) CrashFree state step := by
  intro input queue htakes
  have hinput : input.serverCrash = false := by
    cases step with
    | write move => cases htakes
    | put => cases htakes
    | fetch =>
        simp only [Ends.takes] at htakes
        split at htakes
        · split at htakes
          · cases htakes
          · next line rest hfetch =>
              obtain ⟨rfl, -⟩ : Sender.Input.fgets line = input ∧ rest = queue := by
                simpa [cemsEnds] using htakes
              rfl
        · cases htakes
    | other other =>
        simp only [Ends.takes] at htakes
        split at htakes
        · cases htakes
        · obtain ⟨rfl, -⟩ : other = input ∧ state.queue = queue := by simpa using htakes
          simpa [safeStep] using h
  unfold CrashFree
  cases state.reader with
  | learning exchange => trivial
  | reading session tasks data numBytes => trivial
  | handling handle data => simp [Sender.Transfer.Meets, hinput]

/-- The port is learned, the banner of a serial process that ends is read and sent. -/
def bannerSteps : List Step :=
  .other (.packet .helloResponse (Sender.le16 5000#16 ++ List.replicate 10 0#8)) ::
    List.replicate 14 .put ++
    [.fetch, .fetch,
      .other (.packet .handshakeAck (Sender.le16 1#16 ++ List.replicate 10 0#8)),
      .other (.packet .dataAck (Sender.le16 1#16)),
      .other (.packet .finishAck (Sender.le16 5000#16))]

theorem cems_delivers_banner :
    Delivered (cems Sender.zeroStack [0x68#8] ⟨true, false, true, true, true, true, true⟩
      Sender.zeroSession bannerSteps) := by
  apply cems_delivers
  intro _ state _
  apply along_of_forall
  intro step hstep other
  have hsafe : ∀ step ∈ bannerSteps, safeStep step = true := by decide
  exact meets_of_safe (hsafe step hstep) other

example : Sender.sentPayload (rights (cems Sender.zeroStack [0x68#8]
    ⟨true, false, true, true, true, true, true⟩ Sender.zeroSession bannerSteps).1) =
      SerialComm.ascii "Serial Opened\n" := by
  decide +kernel

end BBCodeBase.Pipeline
