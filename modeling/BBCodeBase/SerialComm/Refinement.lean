import BBCodeBase.SerialComm.Flush
import BBCodeBase.SerialComm.Timer

/-!
# The serial process without its arrays

The whole process over the receiver of `Protocol`: no array, no byte of the
stack, none of the flags of the loop, and of the two guards only one.  The
process of `new_serial.c` does the same on every run, its debug log apart.
-/

namespace BBCodeBase.SerialComm

open Reactive

structure PortInput where
  writeOk : Bool
  inputs : List Input

def Activation.portInput (activation : Activation) : PortInput :=
  ⟨activation.writeOk, activation.inputs⟩

namespace Receiver

def upload (input : PortInput) : Pass :=
  emit (pollEvents input.writeOk) (run body .start input.inputs)

/-- The state is whether an upload is going on. -/
def onTimer : Body Bool PortInput Event Nat := fun uploading input =>
  if uploading then ([], .again true)
  else
    andThen (upload input) (fun _ => true) fun _ result => (uploadResult result, .again false)

def serialStart (startUp : StartUp) : List Event × Exit Bool Nat :=
  andThen (SerialComm.serialStart startUp) (fun _ => false) fun _ status =>
    ([], .done false status)

def serialMain (startUp : StartUp) (inputs : List PortInput) : List Event × Exit Bool Nat :=
  enter (serialStart startUp) onTimer inputs

end Receiver

structure Process.Busy (process : Process) (uploading : Bool) : Prop where
  alreadyUploading : process.alreadyUploading = uploading
  released : uploading = false → process.anyOneHere = false

theorem uploadData_simulates (tempBuffer : Buffer Byte 1000) (input : PortInput) :
    (uploadData false tempBuffer input.writeOk input.inputs).1 =
        (Receiver.upload input).1 ∧
      ExitRel Represents (uploadData false tempBuffer input.writeOk input.inputs).2
        (Receiver.upload input).2 := by
  obtain ⟨hevents, hexit⟩ :=
    uploadBody_simulates.run input.inputs (represents_start tempBuffer true)
  exact ⟨congrArg (pollEvents input.writeOk ++ ·) hevents, hexit⟩

theorem onTimer_simulates :
    Simulates Process.Busy onTimer fun uploading activation =>
      Receiver.onTimer uploading activation.portInput := by
  intro process uploading activation hbusy
  obtain ⟨alreadyUploading, anyOneHere⟩ := process
  obtain ⟨hsame, hreleased⟩ := hbusy
  obtain rfl : alreadyUploading = uploading := hsame
  cases alreadyUploading with
  | true => exact ⟨rfl, .again ⟨rfl, hreleased⟩⟩
  | false =>
      obtain rfl : anyOneHere = false := hreleased rfl
      obtain ⟨hevents, hexit⟩ := uploadData_simulates activation.tempBuffer activation.portInput
      have hclears := @uploadData_clears activation.tempBuffer activation.writeOk
        activation.inputs
      unfold onTimer Receiver.onTimer
      dsimp only [Activation.portInput] at hevents hexit ⊢
      revert hevents hexit hclears
      generalize uploadData false activation.tempBuffer activation.writeOk
        activation.inputs = pass
      generalize Receiver.upload ⟨activation.writeOk, activation.inputs⟩ = image
      intro hevents hexit hclears
      obtain ⟨events, exit⟩ := pass
      obtain ⟨_, final⟩ := image
      obtain rfl : events = _ := hevents
      cases hexit with
      | again => exact ⟨rfl, .again ⟨rfl, by simp⟩⟩
      | done result => exact ⟨rfl, .again ⟨rfl, fun _ => hclears rfl⟩⟩
      | fault => exact ⟨rfl, .fault⟩

theorem serialStart_simulates (startUp : StartUp) :
    (serialStart startUp).1 = (Receiver.serialStart startUp).1 ∧
      ExitRel Process.Busy (serialStart startUp).2 (Receiver.serialStart startUp).2 := by
  have hwaits : Process.Busy .initial false := ⟨rfl, fun _ => rfl⟩
  unfold Receiver.serialStart serialStart
  obtain ⟨events, status⟩ := initSerial startUp
  cases status with
  | some status => exact ⟨(List.append_nil _).symm, .done status⟩
  | none =>
      dsimp only
      split
      · exact ⟨(List.append_nil _).symm, .done 1⟩
      · split
        · exact ⟨(List.append_nil _).symm, .done 1⟩
        · exact ⟨rfl, .again hwaits⟩

/--
On every run the serial process does the same, event for event, as the receiver
without arrays, and `any_one_here` turns no upload away.
-/
theorem serialMain_refines (startUp : StartUp) (activations : List Activation) :
    (serialMain startUp activations).1 =
        (Receiver.serialMain startUp (activations.map Activation.portInput)).1 ∧
      ExitRel Process.Busy (serialMain startUp activations).2
        (Receiver.serialMain startUp (activations.map Activation.portInput)).2 := by
  obtain ⟨hevents, hexit⟩ := serialStart_simulates startUp
  rw [Receiver.serialMain, enter_map]
  exact onTimer_simulates.enter hevents hexit activations

end BBCodeBase.SerialComm
