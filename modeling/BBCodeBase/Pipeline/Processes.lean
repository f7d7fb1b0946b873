import BBCodeBase.Foundation.Gather
import BBCodeBase.Foundation.Pipe
import BBCodeBase.SerialComm.Stdout
import BBCodeBase.Sender.Collecting

/-!
# The serial process and the sender

`cems.c` starts `./serial -p ttyS2 | ./sender host01 10.20.1.1`.  SIGALRM comes
between any two statements of the serial process; its stdout is unbuffered, so
that every byte is written on its own.  `fgets` returns to the sender a line, as
many bytes as it asks for, or what is left when the serial process has ended.
-/

namespace BBCodeBase.Pipeline

open Reactive Pipe

abbrev Byte := BitVec 8

abbrev SerialState := Nesting.State SerialComm.Shared SerialComm.Frame

abbrev SerialMove := Nesting.Move SerialComm.Alarm

abbrev State := Pipe.State SerialState Sender.Transfer Byte

abbrev Step := Pipe.Step SerialMove Sender.Input

abbrev Event := SerialComm.Event ⊕ Sender.Event

def fgets (closed : Bool) (queue : List Byte) : Option (Sender.Line × List Byte) :=
  match hread : Gather.readLine 0x0A#8 (Sender.maxRecordSize - 1) closed queue with
  | none => none
  | some (chars, rest) =>
      some (⟨chars, Nat.lt_of_le_of_lt (Gather.length_readLine_le hread) (by decide)⟩, rest)

def isReading : Sender.Transfer → Bool
  | .reading _ _ _ _ => true
  | _ => false

def cemsEnds (stack : Sender.Stack) (hostName : List Byte) :
    Ends SerialState SerialMove SerialComm.Event Nat Sender.Transfer Sender.Input
      Sender.Event Byte Sender.Line where
  writer := SerialComm.reentrant
  written := SerialComm.Event.stdout
  reader := Sender.sessionTransferLoop stack hostName
  reading := isReading
  fetch := fgets
  piece := .fgets
  isPiece := fun input => input.line.isSome

def serialStart (startUp : SerialComm.StartUp) :
    List SerialComm.Event × Exit SerialState Nat :=
  andThen (SerialComm.serialStart startUp)
    (fun _ => Nesting.initial SerialComm.Shared.initial)
    (fun _ status => ([], .done (Nesting.initial SerialComm.Shared.initial) status))

variable (stack : Sender.Stack) (hostName : List Byte) (startUp : SerialComm.StartUp)
  (session : Sender.Session)

def cemsStart : List Event × Exit State Empty :=
  (cemsEnds stack hostName).start (serialStart startUp)
    (Sender.sessionConnect stack hostName session ⟨[], 0⟩)

/-- The two processes, with the steps they take in any order. -/
def cems (steps : List Step) : List Event × Exit State Empty :=
  enter (cemsStart stack hostName startUp session) (cemsEnds stack hostName).body steps

def printed (events : List Event) : List Byte := SerialComm.stdoutBytes (lefts events)

def handedOver (events : List Event) : List (List Byte) := Sender.batches (rights events)

/-! ## `fgets` -/

theorem fgets_eq_some {closed : Bool} {queue rest : List Byte} {line : Sender.Line}
    (h : fgets closed queue = some (line, rest)) :
    Gather.readLine 0x0A#8 199 closed queue = some (line.chars, rest) := by
  unfold fgets at h
  split at h
  · cases h
  · next chars left hread =>
      obtain ⟨rfl, rfl⟩ : (⟨chars, _⟩ : Sender.Line) = line ∧ left = rest := by
        simpa using h
      exact hread

/-! ## The serial process keeps its part -/

open SerialComm in
def serialWrites (history : List SerialComm.Event) (state : SerialState) : Prop :=
  ∃ later, history = .printf "Serial Opened\n" :: later ∧
    Nesting.Kept Frame.stage
      (fun history shared => idle history shared ∧ serially history shared)
      (fun history shared frame => owned history shared frame ∧ Partly history shared frame)
      later state

theorem serialWrites_textual {history : List SerialComm.Event} {state : SerialState}
    (h : serialWrites history state) : SerialComm.Textual history := by
  obtain ⟨later, rfl, hkept⟩ := h
  obtain ⟨activations, rest, hrest⟩ := SerialComm.reentrant_first hkept
  have hwhole := SerialComm.textual_run SerialComm.onTimer_textual .initial activations
  rw [← hrest] at hwhole
  have hbanner : SerialComm.Textual [.printf "Serial Opened\n"] := by
    simp only [SerialComm.Textual, List.mem_singleton, forall_eq]
    decide
  exact SerialComm.textual_append_iff.mpr
    ⟨hbanner, (SerialComm.textual_append_iff.mp hwhole).1⟩

/-- The start-up waits for the timer, or ends with the banner at most. -/
theorem serialStart_cases (startUp : SerialComm.StartUp) :
    serialStart startUp =
        ([.printf "Serial Opened\n"], .again (Nesting.initial SerialComm.Shared.initial)) ∨
      ∃ events status,
        serialStart startUp =
          (events, .done (Nesting.initial SerialComm.Shared.initial) status) ∧
        SerialComm.Textual events := by
  have hbanner : SerialComm.Textual [.printf "Serial Opened\n"] := by
    simp only [SerialComm.Textual, List.mem_singleton, forall_eq]
    decide
  unfold serialStart SerialComm.serialStart
  cases hinit : SerialComm.initSerial startUp with
  | mk events status =>
      cases status with
      | none =>
          rw [SerialComm.initSerial_succeeds (by rw [hinit]), Prod.mk.injEq] at hinit
          rw [← hinit.1]
          dsimp only
          split
          · exact .inr ⟨_, 1, rfl, hbanner⟩
          · split
            · exact .inr ⟨_, 1, rfl, hbanner⟩
            · exact .inl rfl
      | some status =>
          refine .inr ⟨events, status, ?_, ?_⟩
          · exact Prod.ext (List.append_nil events) rfl
          · unfold SerialComm.initSerial at hinit
            split at hinit
            · rw [Prod.mk.injEq] at hinit
              rw [← hinit.1]
              exact fun _ hmem => absurd hmem List.not_mem_nil
            · rw [Prod.mk.injEq] at hinit
              rw [← hinit.1]
              exact hbanner

/-! ## The contract -/

variable {stack hostName startUp session}

def Runs (startUp : SerialComm.StartUp) : Prop :=
  (serialStart startUp).2 = .again (Nesting.initial SerialComm.Shared.initial)

/--
The serial process prints text, and it ends only when its start-up fails; the
sender may rely on both.
-/
def textContract (startUp : SerialComm.StartUp)
    (reader : List Sender.Event → Sender.Transfer → Prop) (allowed : Sender.Line → Prop) :
    Contract SerialState SerialComm.Event Sender.Transfer Sender.Input Sender.Event Byte where
  writer := fun history state => Runs startUp ∧ serialWrites history state
  ended := fun history => ¬ Runs startUp ∧ SerialComm.Textual history
  reader := reader
  allowed := fun input => ∀ line ∈ input.line, allowed line
  good := fun ch => SerialComm.textChar ch
  taken := Sender.Event.stdin

variable {reader : List Sender.Event → Sender.Transfer → Prop}
  {allowed : Sender.Line → Prop}

theorem serialWrites_move (hruns : Runs startUp) {history : List SerialComm.Event}
    {state : SerialState} (h : serialWrites history state) (move : SerialMove) :
    ((textContract startUp reader allowed).writes).Of history
      (SerialComm.reentrant state move) := by
  obtain ⟨later, rfl, hkept⟩ := h
  have hmove : (Nesting.keptPost _ _ _).Of later (SerialComm.reentrant state move) :=
    Nesting.Kept.move SerialComm.serialRegion hkept move
  cases hpass : SerialComm.reentrant state move with
  | mk events exit =>
      rw [hpass] at hmove
      cases exit with
      | again next => exact ⟨hruns, later ++ events, rfl, hmove⟩
      | done last value => exact hmove.elim
      | fault => trivial

theorem serialStart_writes (startUp : SerialComm.StartUp) :
    ((textContract startUp reader allowed).writes).Of [] (serialStart startUp) := by
  rcases serialStart_cases startUp with hstart | ⟨events, status, hstart, htextual⟩
  · rw [hstart]
    refine ⟨congrArg Prod.snd hstart, [], rfl, ?_⟩
    exact Nesting.kept_initial
      ⟨show SerialComm.idle [] SerialComm.Shared.initial from rfl, [], rfl⟩
  · have hended : ¬ Runs startUp := by
      unfold Runs
      rw [hstart]
      simp
    rw [hstart]
    exact ⟨hended, htextual⟩

/-- What the sender keeps of its part while the lines it reads are as allowed. -/
theorem textContract_kept {condition : Sender.Transfer → Sender.Input → Prop}
    (hcollects : ∀ history transfer, reader history transfer →
      ∃ text, transfer.Collects text)
    (hread : ∀ history transfer input, (∀ line ∈ input.line, allowed line) →
      condition transfer input → reader history transfer →
      ((textContract startUp reader allowed).reads).Of history
        (Sender.sessionTransferLoop stack hostName transfer input))
    (hallowed : ∀ closed queue line rest, (closed = true → ¬ Runs startUp) →
      (∀ ch ∈ line.chars, SerialComm.textChar ch) →
      fgets closed queue = some (line, rest) → allowed line) :
    (textContract startUp reader allowed).Kept (cemsEnds stack hostName) condition where
  write := fun _ _ move h => serialWrites_move h.1 h.2 move
  writer_good := fun _ _ h => (serialWrites_textual h.2).stdoutBytes
  ended_good := fun _ h => h.2.stdoutBytes
  read := hread
  fetch_allowed := by
    intro closed queue line rest hclosed hgood hfetch other hother
    obtain rfl : line = other := Option.some.inj hother
    refine hallowed closed queue line rest (fun h => (hclosed h).choose_spec.1) ?_ hfetch
    intro ch hmem
    apply hgood
    rw [← Gather.readLine_append (fgets_eq_some hfetch)]
    exact List.mem_append_left _ hmem
  other_allowed := by
    intro input hother line hline
    have hsome : input.line.isSome = false := hother
    rw [hline] at hsome
    cases hsome
  piece_taken := by
    intro history transfer closed queue line rest events next hreader hreading hfetch hpass
    obtain ⟨text, hcollects⟩ := hcollects history transfer hreader
    have hconsumed : Sender.consumed events = line.chars := by
      rw [Sender.sessionTransferLoop_consumed hcollects hpass,
        ← Sender.consumed_collect text line]
      cases transfer with
      | reading session tasks data numBytes => rfl
      | learning exchange => cases hreading
      | handling handle data => cases hreading
    have hread := Gather.readLine_append (fgets_eq_some hfetch)
    rw [← hconsumed] at hread
    exact hread
  other_taken := by
    intro history transfer input events next hreader hother hpass
    obtain ⟨text, hcollects⟩ := hcollects history transfer hreader
    have hconsumed := Sender.sessionTransferLoop_consumed hcollects hpass
    cases input with
    | fgets line => cases hother
    | recv result => cases transfer <;> exact hconsumed
    | wakeUp task junk => cases transfer <;> exact hconsumed

theorem sessionConnect_taken {events : List Sender.Event} {transfer : Sender.Transfer}
    (h : Sender.sessionConnect stack hostName session ⟨[], 0⟩ = (events, .again transfer)) :
    events.flatMap Sender.Event.stdin = [] := by
  have hcollects := @Sender.sessionConnect_collects stack [] hostName session ⟨[], 0⟩
  rw [h] at hcollects
  change Sender.consumed events = []
  rw [← Sender.consumed_stdinEvents]
  exact congrArg Sender.consumed hcollects.1

theorem nulFree_of_text {line : Sender.Line}
    (h : ∀ ch ∈ line.chars, SerialComm.textChar ch) : 0#8 ∉ line.chars :=
  fun hmem => absurd (h 0#8 hmem) (by decide)

theorem completeLine_of_fetch {queue rest : List Byte} {line : Sender.Line}
    (hfetch : fgets false queue = some (line, rest)) : Sender.CompleteLine line.chars :=
  Gather.gather_readLine (by decide) rfl (fgets_eq_some hfetch)

end BBCodeBase.Pipeline
