import BBCodeBase.Pipeline.Batching
import BBCodeBase.Sender.Readback

/-!
# From the output of the serial process to the files of a receiver

Whoever sees the datagrams of the sender, and goes by their headers, puts
together pieces of the output of the serial process as `batchesOf` cuts it, in
the order in which they were printed.
-/

namespace BBCodeBase.Pipeline

open Reactive Pipe

open scoped List

variable {stack : Sender.Stack} {hostName : List Byte} {startUp : SerialComm.StartUp}
  {session : Sender.Session}

def filesReader (startUp : SerialComm.StartUp) (history : List Sender.Event)
    (transfer : Sender.Transfer) : Prop :=
  Sender.Collecting (fun events text => Runs startUp → Sender.Cut events text) history
      transfer ∧
    Sender.repeating.Holds history transfer ∧ Sender.readingBack.Holds history transfer

def filesContract (startUp : SerialComm.StartUp) :
    Contract SerialState SerialComm.Event Sender.Transfer Sender.Input Sender.Event Byte :=
  textContract startUp (filesReader startUp)
    fun line => Runs startUp → 0#8 ∉ line.chars ∧ Sender.CompleteLine line.chars

theorem filesReader_of {pass : List Sender.Event × Exit Sender.Transfer Empty}
    {history : List Sender.Event}
    (hcut : (Sender.collectingPost fun events text =>
      Runs startUp → Sender.Cut events text).Of history pass)
    (hwire : Sender.repeating.transfer.Of history pass)
    (hread : Sender.readingBack.transfer.Of history pass) :
    (filesContract startUp).reads.Of history pass := by
  apply (hcut.and (hwire.and hread)).weaken
  · exact fun _ _ h => h
  · exact fun _ _ value => nomatch value
  · exact fun _ _ => trivial

theorem filesContract_kept :
    (filesContract startUp).Kept (cemsEnds stack hostName) fun _ _ => True := by
  apply textContract_kept
  · rintro history transfer ⟨⟨text, hcollects, -⟩, -⟩
    exact ⟨text, hcollects⟩
  · intro history transfer input hinput _ ⟨hcut, hwire, hread⟩
    apply filesReader_of
    · exact (cut_whileRunning startUp).sessionTransferLoop hcut hinput
    · apply Sender.repeating_kept.sessionTransferLoop hwire trivial
      cases transfer <;> exact trivial
    · apply Sender.readingBack_kept.sessionTransferLoop hread trivial
      cases transfer <;> exact trivial
  · exact completeLine_whileRunning

/--
As long as there is a serial process, the files put together are batches cut
from its output, all those handled among them.
-/
def FilesOfOutput : List Event × Exit State Empty → Prop
  | (events, .again state) => state.writer.isSome →
      Sender.handled (rights events) <+ (Sender.readBack (rights events)).files ∧
        (Sender.readBack (rights events)).files <+ batchesOf (printed events)
  | _ => True

/--
While the serial process runs, whatever the order of the steps and whatever
comes from the port and from the network: the files that a receiver puts
together from the datagrams are among the batches that `batchesOf` cuts from the
output, in their order, and every batch that was handled is one of them.
-/
theorem cems_files (stack : Sender.Stack) (hostName : List Byte)
    (startUp : SerialComm.StartUp) (session : Sender.Session) (steps : List Step) :
    FilesOfOutput (cems stack hostName startUp session steps) := by
  have hstart : (filesContract startUp).reads.Of []
      (Sender.sessionConnect stack hostName session ⟨[], 0⟩) := by
    apply filesReader_of
    · exact (cut_whileRunning startUp).sessionConnect session ⟨[], 0⟩
    · exact Sender.repeating_kept.sessionConnect Sender.quiescent_start
    · exact Sender.readingBack_kept.sessionConnect ⟨List.Sublist.refl _, List.Sublist.refl _⟩
  have hrun := (@filesContract_kept stack hostName startUp).enter_any
    (serialStart_writes startUp) hstart (fun events transfer h => sessionConnect_taken h) steps
  change (Contract.post _ _).Of [] (cems stack hostName startUp session steps) at hrun
  generalize cems stack hostName startUp session steps = pass at hrun
  obtain ⟨events, exit⟩ := pass
  cases exit with
  | again state =>
      intro halive
      obtain ⟨⟨text, -, hcut⟩, hwire, hread⟩ := hrun.reader
      have hfirst := handedOver_first hrun (hcut (runs_of_alive hrun halive))
      obtain ⟨hrepeating, hwhole⟩ := Sender.repeating_holds hwire
      obtain ⟨hhandled, hfiles⟩ := Sender.readingBack_matching hread
      rw [← Sender.readBack_eq hrepeating hwhole] at hhandled hfiles
      exact ⟨hhandled, hfiles.trans hfirst.sublist⟩
  | done last value => trivial
  | fault => trivial

end BBCodeBase.Pipeline
