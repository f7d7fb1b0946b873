import BBCodeBase.Pipeline.Processes

/-!
# What the sender makes of the output of the serial process

Every byte that the serial process prints is in a batch, in `session_data` or on
its way, in the order in which it was printed.  While the serial process runs,
the batches depend on what it prints alone: neither the pace of the two
processes nor anything that comes from the network changes where they are cut.
-/

namespace BBCodeBase.Pipeline

open Reactive Pipe

variable {stack : Sender.Stack} {hostName : List Byte} {startUp : SerialComm.StartUp}
  {session : Sender.Session}

/-! ## What is kept of the lines -/

section Collecting

variable {kept : List Sender.Event → List Byte → Prop} {allowed : Sender.Line → Prop}

/-- What `collect` keeps of the lines that may come, the sender keeps. -/
theorem collecting_kept (hcollect : Sender.KeptByCollect allowed kept)
    (hallowed : ∀ closed queue line rest, (closed = true → ¬ Runs startUp) →
      (∀ ch ∈ line.chars, SerialComm.textChar ch) →
      fgets closed queue = some (line, rest) → allowed line) :
    (textContract startUp (Sender.Collecting kept) allowed).Kept
      (cemsEnds stack hostName) fun _ _ => True := by
  apply textContract_kept
  · rintro history transfer ⟨text, hcollects, -⟩
    exact ⟨text, hcollects⟩
  · intro history transfer input hinput _ hcollecting
    exact hcollect.sessionTransferLoop hcollecting hinput
  · exact hallowed

/-- So does every run of the two processes. -/
theorem cems_keeps (hcollect : Sender.KeptByCollect allowed kept)
    (hkept : (textContract startUp (Sender.Collecting kept) allowed).Kept
      (cemsEnds stack hostName) fun _ _ => True) (steps : List Step) :
    ((textContract startUp (Sender.Collecting kept) allowed).post
        (cemsEnds stack hostName)).Of [] (cems stack hostName startUp session steps) := by
  apply hkept.enter_any (serialStart_writes startUp)
  · exact hcollect.sessionConnect session ⟨[], 0⟩
  · exact fun events transfer h => sessionConnect_taken h

end Collecting

/-! ## Nothing is lost on the way -/

def Accounted : List Event × Exit State Empty → Prop
  | (events, .again state) =>
      printed events =
          (handedOver events).flatten ++ state.reader.collected ++ state.queue ++
            state.unwritten ∧
        state.reader.InBounds ∧
        (∀ batch ∈ handedOver events, 1 ≤ batch.length ∧ batch.length ≤ 10199) ∧
        ∀ ch ∈ printed events, ch = 0x09#8 ∨ ch = 0x0A#8 ∨ 0x20#8 ≤ ch ∧ ch ≤ 0x7D#8
  | _ => True

/--
At every moment of every run of the two processes, whatever the order of their
steps and whatever comes from the port and from the network: what the serial
process has printed is text without a NUL, and it is the batches in order, what
is in `session_data` and what is on its way; `fgets` keeps to `session_data`.
-/
theorem cems_accounted (stack : Sender.Stack) (hostName : List Byte)
    (startUp : SerialComm.StartUp) (session : Sender.Session) (steps : List Step) :
    Accounted (cems stack hostName startUp session steps) := by
  have hcollect := Sender.batched_keptByCollect stack
  have hkept := @collecting_kept stack hostName startUp _ _ hcollect
    fun _ _ _ _ _ htext _ => nulFree_of_text htext
  have hrun := @cems_keeps stack hostName startUp session _ _ hcollect hkept steps
  generalize cems stack hostName startUp session steps = pass at hrun
  obtain ⟨events, exit⟩ := pass
  cases exit with
  | again state =>
      obtain ⟨text, hcollects, hbatched⟩ := hrun.reader
      have hconserved := hbatched.conserved
      rw [Sender.consumed_stdinEvents, Sender.batches_stdinEvents] at hconserved
      refine ⟨?_, hcollects.inBounds, ?_, ?_⟩
      · have hprinted : printed events =
            Sender.consumed (rights events) ++ state.queue ++ state.unwritten :=
          hrun.conserved
        rw [hprinted, hcollects.collected_eq]
        exact congrArg (· ++ state.queue ++ state.unwritten) hconserved
      · intro batch hbatch
        rw [handedOver, ← Sender.batches_stdinEvents] at hbatch
        exact ⟨(hbatched.sized batch hbatch).1, (hbatched.sized batch hbatch).2.1⟩
      · intro ch hch
        have htext := hrun.good hkept ch hch
        simpa [textContract, SerialComm.textChar, or_assoc] using htext
  | done last value => trivial
  | fault => trivial

/-! ## Where the batches are cut -/

def batchesOf (stream : List Byte) : List (List Byte) :=
  (Gather.gather Sender.sessionFull [] (Gather.completeLines 0x0A#8 199 stream)).1

/-- While the serial process runs, what it prints decides what is handed over. -/
def CutByOutput : List Event × Exit State Empty → Prop
  | (events, .again state) => state.writer.isSome →
      handedOver events <+: batchesOf (printed events) ∧
        ∀ batch ∈ handedOver events, 10000 ≤ batch.length ∧ batch.length ≤ 10198
  | _ => True

theorem cut_sizes {events : List Sender.Event} {text : List Byte}
    (h : Sender.Cut events text) :
    ∀ batch ∈ Sender.batches events, 10000 ≤ batch.length ∧ batch.length ≤ 10198 := by
  intro batch hbatch
  have hmem : batch ∈ (Gather.gather Sender.sessionFull [] (Sender.linesRead events)).1 := by
    rw [h.gathered]
    exact hbatch
  obtain ⟨before, line, heq, hline, hbefore, hfull⟩ := Gather.mem_gather rfl rfl hmem
  have hshort : line.length < 200 := h.short line hline
  have hroom : ¬ 10000 ≤ before.length := of_decide_eq_false hbefore
  have hlong : 10000 ≤ batch.length := of_decide_eq_true hfull
  have hlength : batch.length = before.length + line.length := by
    rw [heq, List.length_append]
  omega

theorem cut_first {events : List Sender.Event} {text : List Byte}
    (h : Sender.Cut events text) (rest : List Byte) :
    Sender.batches events <+: batchesOf (Sender.consumed events ++ rest) := by
  have hlines := Gather.lines_first h.complete rest
  rw [Sender.flatten_linesRead] at hlines
  obtain ⟨later, hlater⟩ := hlines
  have hprefix := @Gather.gather_first _ Sender.sessionFull [] (Sender.linesRead events) later
  rw [h.gathered, hlater] at hprefix
  exact hprefix

/-- While the serial process runs, only complete lines come. -/
theorem completeLine_whileRunning (closed : Bool) (queue : List Byte) (line : Sender.Line)
    (rest : List Byte) (hclosed : closed = true → ¬ Runs startUp)
    (htext : ∀ ch ∈ line.chars, SerialComm.textChar ch)
    (hfetch : fgets closed queue = some (line, rest)) :
    Runs startUp → 0#8 ∉ line.chars ∧ Sender.CompleteLine line.chars := by
  intro hruns
  have hopen : closed = false := by
    cases closed with
    | false => rfl
    | true => exact absurd hruns (hclosed rfl)
  rw [hopen] at hfetch
  exact ⟨nulFree_of_text htext, completeLine_of_fetch hfetch⟩

theorem cut_whileRunning (startUp : SerialComm.StartUp) :
    Sender.KeptByCollect
      (fun line => Runs startUp → 0#8 ∉ line.chars ∧ Sender.CompleteLine line.chars)
      (fun events text => Runs startUp → Sender.Cut events text) where
  start := fun _ => Sender.cut_keptByCollect.start
  collect := fun events text line hline hroom h hruns =>
    Sender.cut_keptByCollect.collect events text line (hline hruns) hroom (h hruns)

section Running

variable {reader : List Sender.Event → Sender.Transfer → Prop}
  {allowed : Sender.Line → Prop} {events : List Event} {state : State}

theorem runs_of_alive
    (h : (textContract startUp reader allowed).Holds (cemsEnds stack hostName) events state)
    (halive : state.writer.isSome) : Runs startUp := by
  have hwriter := h.writer
  cases hstate : state.writer with
  | none =>
      rw [hstate] at halive
      cases halive
  | some writer =>
      rw [hstate] at hwriter
      exact hwriter.1

theorem handedOver_first
    (h : (textContract startUp reader allowed).Holds (cemsEnds stack hostName) events state)
    {text : List Byte} (hcut : Sender.Cut (Sender.stdinEvents (rights events)) text) :
    handedOver events <+: batchesOf (printed events) := by
  have hprinted : printed events =
      Sender.consumed (rights events) ++ (state.queue ++ state.unwritten) :=
    h.conserved.trans (List.append_assoc _ _ _)
  have hfirst := cut_first hcut (state.queue ++ state.unwritten)
  rw [Sender.batches_stdinEvents, Sender.consumed_stdinEvents, ← hprinted] at hfirst
  exact hfirst

end Running

/--
While the serial process runs, the batches handed over are the first of those
that `batchesOf` cuts from its output, and none has less than `SESSION_SIZE`
bytes: neither the pace of the processes nor the network has a part in it, and
of an output below that size nothing is sent.
-/
theorem cems_cut (stack : Sender.Stack) (hostName : List Byte)
    (startUp : SerialComm.StartUp) (session : Sender.Session) (steps : List Step) :
    CutByOutput (cems stack hostName startUp session steps) := by
  have hcollect := cut_whileRunning startUp
  have hkept := @collecting_kept stack hostName startUp _ _ hcollect completeLine_whileRunning
  have hrun := @cems_keeps stack hostName startUp session _ _ hcollect hkept steps
  generalize cems stack hostName startUp session steps = pass at hrun
  obtain ⟨events, exit⟩ := pass
  cases exit with
  | again state =>
      intro halive
      obtain ⟨text, -, hreader⟩ := hrun.reader
      have hcut := hreader (runs_of_alive hrun halive)
      have hsizes := cut_sizes hcut
      rw [Sender.batches_stdinEvents] at hsizes
      exact ⟨handedOver_first hrun hcut, hsizes⟩
  | done last value => trivial
  | fault => trivial

end BBCodeBase.Pipeline
