import BBCodeBase.SerialComm.Records

/-!
# `onTimer` and `main`

The serial process around `upload_data`: `main` opens the port and then only
pauses, and every SIGALRM calls `onTimer`.  The options, the names of the files
and their `fopen` and `fclose` are left out.  An activation whose inputs end
before `upload_data` returns stays inside it, so `alreadyUploading` stays set.
-/

namespace BBCodeBase.SerialComm

open Reactive

structure Process where
  alreadyUploading : Bool
  anyOneHere : Bool
  deriving DecidableEq, Repr

def Process.initial : Process := ⟨false, false⟩

/-- What one call of `onTimer` takes from its environment. -/
structure Activation where
  tempBuffer : Buffer Byte 1000
  writeOk : Bool
  inputs : List Input

def uploadResult (result : Return) : List Event :=
  if result.value = 0 then [.printf "Upload failed \n"] else []

def onTimer : Body Process Activation Event Nat := fun process activation =>
  if process.alreadyUploading then ([], .again process)
  else
    andThen
      (uploadData process.anyOneHere activation.tempBuffer activation.writeOk
        activation.inputs)
      (fun upload => ⟨true, upload.anyOneHere⟩)
      (fun last result => (uploadResult result, .again ⟨false, last.anyOneHere⟩))

structure StartUp where
  openPort : Bool
  getPort : Bool
  setPort : Bool
  getStdin : Bool
  setStdin : Bool
  catchAlarm : Bool
  setTimer : Bool
  deriving DecidableEq, Repr

def StartUp.succeeding : StartUp := ⟨true, true, true, true, true, true, true⟩

/-- `Init_Serial()`, with the status it exits with when a call fails. -/
def initSerial (startUp : StartUp) : List Event × Option Nat :=
  if startUp.openPort = false then ([], some 2)
  else
    ([.printf "Serial Opened\n"],
      if startUp.getPort = false then some 3
      else if startUp.setPort = false then some 4
      else if startUp.getStdin = false then some 5
      else if startUp.setStdin = false then some 6
      else none)

def serialStart (startUp : StartUp) : List Event × Exit Process Nat :=
  match initSerial startUp with
  | (events, some status) => (events, .done .initial status)
  | (events, none) =>
      if startUp.catchAlarm = false then (events, .done .initial 1)
      else if startUp.setTimer = false then (events, .done .initial 1)
      else (events, .again .initial)

def serialMain (startUp : StartUp) (activations : List Activation) :
    List Event × Exit Process Nat :=
  enter (serialStart startUp) onTimer activations

theorem initSerial_succeeds {startUp : StartUp} (h : (initSerial startUp).2 = none) :
    initSerial startUp = ([.printf "Serial Opened\n"], none) := by
  unfold initSerial at h ⊢
  split
  · next hfailed => simp [hfailed] at h
  · next hopened => simpa [hopened] using h

/-- After `Init_Serial` the process waits for the timer, or it exits. -/
theorem serialStart_cases {startUp : StartUp} (h : (initSerial startUp).2 = none) :
    serialStart startUp = ([.printf "Serial Opened\n"], .again .initial) ∨
      serialStart startUp = ([.printf "Serial Opened\n"], .done .initial 1) := by
  unfold serialStart
  rw [initSerial_succeeds h]
  dsimp only
  split
  · exact .inr rfl
  · split
    · exact .inr rfl
    · exact .inl rfl

/-! ## The messages on stdout -/

def Event.said : Event → List Byte
  | .printf message => ascii message
  | _ => []

def said (events : List Event) : List Byte := events.flatMap Event.said

@[simp] theorem said_append (first second : List Event) :
    said (first ++ second) = said first ++ said second :=
  List.flatMap_append

theorem said_eq_nil_iff {events : List Event} :
    said events = [] ↔ ∀ event ∈ events, event.said = [] :=
  List.flatMap_eq_nil_iff

theorem length_stdoutBytes (events : List Event) :
    (stdoutBytes events).length = (said events).length + (printedChars events).length := by
  induction events with
  | nil => rfl
  | cons event events ih =>
      have hevent : (stdoutBytes [event]).length =
          (said [event]).length + (printedChars [event]).length := by
        cases event <;>
          simp [stdoutBytes, said, printedChars, List.filterMap_cons, Event.stdout,
            Event.said, Event.printed?]
      rw [← List.singleton_append, stdoutBytes_append, said_append, printedChars_append]
      simp only [List.length_append]
      omega

theorem stdoutBytes_of_unsaid {events : List Event} (h : said events = []) :
    stdoutBytes events = printedChars events := by
  induction events with
  | nil => rfl
  | cons event events ih =>
      rw [← List.singleton_append, said_append, List.append_eq_nil_iff] at h
      have hevent : stdoutBytes [event] = printedChars [event] := by
        cases event <;>
          simp_all [stdoutBytes, said, printedChars, Event.stdout, Event.said,
            Event.printed?]
      rw [← List.singleton_append, stdoutBytes_append, printedChars_append, hevent,
        ih h.2]

/-- What reaches stdout is what reaches `FILE.txt`, exactly when there is no message. -/
theorem stdoutBytes_eq_fileBytes_iff {events : List Event}
    (h : printedChars events = fileBytes events) :
    stdoutBytes events = fileBytes events ↔ said events = [] := by
  constructor
  · intro heq
    have hlength := length_stdoutBytes events
    rw [heq, h] at hlength
    exact List.eq_nil_of_length_eq_zero (by omega)
  · intro hunsaid
    rw [stdoutBytes_of_unsaid hunsaid, h]

/-! ## Passes without a message -/

/-- The pass writes no message, and `upload_data` does not return 0 from it. -/
def Wordless {σ : Type} (pass : List Event × Exit σ Return) : Prop :=
  Meets (fun event => event.said = []) (fun result => result.value ≠ 0) pass

theorem wordless_again_iff {σ : Type} {events : List Event} {state : σ} :
    Wordless (events, (.again state : Exit σ Return)) ↔ said events = [] := by
  unfold Wordless
  rw [meets_again_iff, said_eq_nil_iff]

theorem wordless_done_iff {σ : Type} {events : List Event} {last : σ} {result : Return} :
    Wordless (events, .done last result) ↔ said events = [] ∧ result.value ≠ 0 := by
  unfold Wordless
  rw [meets_done_iff, said_eq_nil_iff]

theorem wordless_fault_iff {σ : Type} {events : List Event} :
    Wordless (events, (.fault : Exit σ Return)) ↔ said events = [] := by
  unfold Wordless
  rw [meets_fault_iff, said_eq_nil_iff]

theorem said_accept (frame data : List Byte) (writeOk : Bool) :
    said (.crc frame :: .ack data :: replyFailed writeOk) = [] ↔ writeOk = true := by
  cases writeOk <;> simp [replyFailed, said, Event.said, ascii]

theorem said_reject (frame : List Byte) (writeOk : Bool) :
    said (.crc frame :: .write 0x26#8 :: replyFailed writeOk) = [] ↔ writeOk = true := by
  cases writeOk <;> simp [replyFailed, said, Event.said, ascii]

theorem said_printRecord (record : List Byte) :
    said (record.flatMap printRecordChar) = [] := by
  induction record with
  | nil => rfl
  | cons ch record ih =>
      rw [List.flatMap_cons, said_append, ih, List.append_nil]
      unfold printRecordChar
      split <;> rfl

namespace Receiver

theorem question_wordless_iff (receiver : Receiver) (phase : Phase) (writeOk : Bool) :
    Wordless (receiver.question phase writeOk) ↔ writeOk = true := by
  cases writeOk with
  | false => simp [question, wordless_done_iff, Return.value]
  | true => simp [question, wordless_again_iff, said, Event.said]

theorem settle_wordless_iff (receiver : Receiver) (length : Byte) (data : List Byte)
    (first second : Byte) (writeOk : Bool) :
    Wordless (receiver.settle length data first second writeOk) ↔ writeOk = true := by
  have haccept := said_accept (frameOf length data) data writeOk
  unfold settle
  dsimp only
  split
  · split
    · rw [wordless_fault_iff, haccept]
    · split
      · rw [wordless_done_iff, haccept]
        simp [Return.value]
      · split
        · rw [wordless_again_iff, said_append, said_printRecord, List.append_nil, haccept]
        · rw [wordless_again_iff, haccept]
  · rw [wordless_again_iff, said_reject]

def Answers (receiver : Receiver) (ch : Byte) : Prop :=
  (ch = 0x3F#8 ∧ receiver.phase.inChecksum = false ∧ receiver.phase ≠ .length) ∨
    ∃ length data first, receiver.phase = .checksum length data (some first)

theorem take_wordless_iff (receiver : Receiver) (ch : Byte) (writeOk : Bool) :
    Wordless (receiver.take ch writeOk) ↔ (receiver.Answers ch → writeOk = true) := by
  unfold take Answers
  cases receiver.phase with
  | idle =>
      dsimp only
      split
      · next hquestion => simp [question_wordless_iff, hquestion, Phase.inChecksum]
      · next hother => split <;> simp [wordless_again_iff, hother, said]
  | length => simp [wordless_again_iff, said]
  | payload length data sofData =>
      dsimp only
      split
      · next hquestion => simp [question_wordless_iff, hquestion, Phase.inChecksum]
      · next hother =>
          split
          · simp [wordless_again_iff, hother, said]
          · split
            · simp [wordless_fault_iff, hother, said]
            · simp [wordless_again_iff, hother, said]
  | checksum length data first =>
      cases first with
      | none => simp [wordless_again_iff, said, Phase.inChecksum]
      | some first => simp [settle_wordless_iff, Phase.inChecksum]

theorem printedChars_eq_fileBytes_settle (receiver : Receiver) (length : Byte)
    (data : List Byte) (first second : Byte) (writeOk : Bool) :
    printedChars (receiver.settle length data first second writeOk).1 =
      fileBytes (receiver.settle length data first second writeOk).1 := by
  have haccept := adds_accept (frameOf length data) data writeOk
  unfold settle
  dsimp only
  split
  · split
    · rw [haccept.printed, haccept.file]
    · split
      · rw [haccept.printed, haccept.file]
      · split
        · have hprinted := haccept.append (adds_printRecord writeOk (receiver.record ++ data))
          rw [hprinted.printed, hprinted.file]
        · rw [haccept.printed, haccept.file]
  · have hreject := adds_reject (frameOf length data) writeOk
    rw [hreject.printed, hreject.file]

theorem body_printed (receiver : Receiver) (input : Input) :
    printedChars (receiver.body input).1 = fileBytes (receiver.body input).1 := by
  by_cases hcompletes : ∃ length data first second,
      receiver.phase = .checksum length data (some first) ∧ receiver.Takes input second
  · obtain ⟨length, data, first, second, hphase, htakes⟩ := hcompletes
    rw [body_settles hphase htakes]
    exact printedChars_eq_fileBytes_settle _ _ _ _ _ _
  · rcases body_quiet hcompletes with hnone | hstart | ⟨message, hmessage⟩
    · rw [hnone]
      rfl
    · rw [hstart]
      rfl
    · rw [hmessage]
      rfl

end Receiver

/--
A pass that adds nothing to stdout but record characters and leaves the upload
neither failed nor flushed: `read` succeeds, `'?'` comes in time, there is no
fourth `'#'`, and every byte sent in answer is written.
-/
structure Upload.Undisturbed (upload : Upload) (input : Input) : Prop where
  read : input.read ≠ .error
  inTime : upload.questionReceived = true ∨ upload.bailOut < 25
  noFlush : input.read = .byte 0x23#8 → upload.palint < 3
  started : input.read = .byte 0x3F#8 → upload.chksumFlag = false →
    upload.lengthFlag = false → input.writeOk = true
  replied : upload.CompletesChecksum input → input.writeOk = true

theorem ReadResult.char_eq_some_iff {read : ReadResult} {ch : Byte} (h : ch ≠ 0#8) :
    read.char = some ch ↔ read = .byte ch := by
  cases read with
  | error => simp [ReadResult.char]
  | timeout => simp [ReadResult.char, h.symm]
  | byte other => simp [ReadResult.char]

theorem ReadResult.char_eq_none_iff {read : ReadResult} :
    read.char = none ↔ read = .error := by
  cases read <;> simp [ReadResult.char]

theorem Represents.lengthFlag_iff {upload : Upload} {receiver : Receiver}
    (hrep : Represents upload receiver) :
    upload.lengthFlag = false ↔ receiver.phase ≠ .length := by
  have hphase := hrep.phase
  cases hcase : receiver.phase <;> rw [hcase] at hphase <;> simp [PhaseVars] at hphase <;>
    simp [hphase]

theorem Represents.answers_iff {upload : Upload} {receiver : Receiver}
    (hrep : Represents upload receiver) {input : Input} {ch : Byte}
    (htakes : receiver.Takes input ch) :
    receiver.Answers ch ↔
      (input.read = .byte 0x3F#8 ∧ upload.chksumFlag = false ∧
        upload.lengthFlag = false) ∨ upload.CompletesChecksum input := by
  have hread : ch = 0x3F#8 ↔ input.read = .byte 0x3F#8 := by
    rw [← ReadResult.char_eq_some_iff (by decide), htakes.read, Option.some.injEq]
  rw [hrep.completes_iff, hrep.lengthFlag_iff, hrep.phase.chksumFlag]
  unfold Receiver.Answers
  rw [hread]
  refine or_congr Iff.rfl ?_
  constructor
  · rintro ⟨length, data, first, hphase⟩
    exact ⟨length, data, first, ch, hphase, htakes⟩
  · rintro ⟨length, data, first, second, hphase, -⟩
    exact ⟨length, data, first, hphase⟩

theorem body_wordless_iff {upload : Upload} {receiver : Receiver}
    (hrep : Represents upload receiver) {input : Input} :
    Wordless (receiver.body input) ↔ upload.Undisturbed input := by
  have hvars := hrep.vars
  obtain ⟨-, -, hpalint, -, -, hquestion, hbail⟩ := hvars
  by_cases htakes : ∃ ch, receiver.Takes input ch
  · obtain ⟨ch, htakes⟩ := htakes
    have hcounted : (receiver.counted ch).Answers ch ↔ receiver.Answers ch := Iff.rfl
    rw [Receiver.body_takes htakes, Receiver.take_wordless_iff, hcounted,
      hrep.answers_iff htakes]
    constructor
    · intro h
      refine ⟨fun hfailed => ?_, ?_, fun hhash => ?_, ?_, fun hcompletes => h (.inr hcompletes)⟩
      · have hread := htakes.read
        simp [hfailed, ReadResult.char] at hread
      · rw [hquestion, hbail]
        exact htakes.inTime
      · have hread := htakes.read
        rw [hhash, ReadResult.char, Option.some.injEq] at hread
        rw [hpalint]
        exact htakes.noFlush hread.symm
      · intro hread hchksum hlength
        exact h (.inl ⟨hread, hchksum, hlength⟩)
    · rintro h (⟨hread, hchksum, hlength⟩ | hcompletes)
      · exact h.started hread hchksum hlength
      · exact h.replied hcompletes
  · have hidles := Receiver.body_idles fun ch htake => htakes ⟨ch, htake⟩
    generalize receiver.body input = pass at hidles
    cases hidles with
    | readFailed hread =>
        rw [wordless_done_iff]
        have hfailed := ReadResult.char_eq_none_iff.mp hread
        constructor
        · rintro ⟨-, hvalue⟩
          exact absurd rfl hvalue
        · intro h
          exact absurd hfailed h.read
    | noQuestionMark hasked hlate =>
        rw [wordless_done_iff]
        constructor
        · rintro ⟨-, hvalue⟩
          exact absurd rfl hvalue
        · intro h
          have hinTime := h.inTime
          rw [hquestion, hbail, hasked] at hinTime
          simp at hinTime
          omega
    | skipped hread hphase hasked hearly =>
        rw [wordless_again_iff]
        refine iff_of_true rfl ⟨fun hfailed => ?_, ?_, fun hhash => ?_,
          fun hmark => ?_, fun hcompletes => ?_⟩
        · simp [hfailed, ReadResult.char] at hread
        · rw [hquestion, hbail]
          cases hcase : receiver.questionReceived with
          | false =>
              have hcount := hearly hcase
              exact .inr (by omega)
          | true => exact .inl rfl
        · simp [hhash, ReadResult.char] at hread
        · simp [hmark, ReadResult.char] at hread
        · have hchksum := hrep.phase.chksumFlag
          rw [hcompletes.1, hphase] at hchksum
          cases hchksum
    | flushed hread hfull =>
        rw [wordless_done_iff]
        constructor
        · rintro ⟨hsaid, -⟩
          simp [said, Event.said, ascii] at hsaid
        · intro h
          have hbelow := h.noFlush ((ReadResult.char_eq_some_iff (by decide)).mp hread)
          omega

theorem uploadBody_wordless_iff {upload : Upload} {receiver : Receiver}
    (hrep : Represents upload receiver) {input : Input} :
    Wordless (uploadBody upload input) ↔ upload.Undisturbed input := by
  rw [← body_wordless_iff hrep]
  obtain ⟨hevents, hexit⟩ := uploadBody_simulates upload receiver input hrep
  unfold Wordless
  exact meets_iff_of_related hevents hexit

/-! ## Whole runs -/

def Represented (upload : Upload) : Prop := ∃ receiver, Represents upload receiver

theorem Represented.next {upload next : Upload} {input : Input} {events : List Event}
    (h : Represented upload) (hbody : uploadBody upload input = (events, .again next)) :
    Represented next := by
  obtain ⟨receiver, hrep⟩ := h
  obtain ⟨-, hexit⟩ := uploadBody_simulates upload receiver input hrep
  rw [hbody] at hexit
  generalize (receiver.body input).2 = exit at hexit
  cases hexit with
  | again hnext => exact ⟨_, hnext⟩

theorem run_wordless_iff {upload : Upload} (h : Represented upload) (inputs : List Input) :
    Wordless (run uploadBody upload inputs) ↔
      Along uploadBody Upload.Undisturbed upload inputs := by
  unfold Wordless
  rw [meets_run_iff]
  refine along_iff (fun _ _ _ _ => Represented.next) ?_ h inputs
  rintro state input ⟨receiver, hrep⟩
  exact uploadBody_wordless_iff hrep

/-- The activation starts no upload, or its upload is undisturbed throughout. -/
def Undisturbed (process : Process) (activation : Activation) : Prop :=
  process.alreadyUploading = true ∨ process.anyOneHere = true ∨
    activation.writeOk = true ∧
      Along uploadBody Upload.Undisturbed (.start activation.tempBuffer true)
        activation.inputs

theorem said_uploadResult (result : Return) :
    said (uploadResult result) = [] ↔ result.value ≠ 0 := by
  cases result <;> simp [uploadResult, Return.value, said, Event.said, ascii]

theorem said_poll (writeOk : Bool) : said (pollEvents writeOk) = [] ↔ writeOk = true := by
  cases writeOk <;> simp [pollEvents, said, Event.said, ascii]

theorem said_onTimer_iff (process : Process) (activation : Activation) :
    said (onTimer process activation).1 = [] ↔ Undisturbed process activation := by
  unfold onTimer Undisturbed
  by_cases hbusy : process.alreadyUploading = true
  · simp [hbusy, said]
  · rw [if_neg hbusy]
    unfold uploadData
    by_cases hhere : process.anyOneHere = true
    · simp [hhere, andThen, emit, said, uploadResult, Return.value]
    · have hrun := run_wordless_iff ⟨_, represents_start activation.tempBuffer true⟩
        activation.inputs
      rw [if_neg hhere, or_iff_right hbusy, or_iff_right hhere, ← hrun,
        ← said_poll activation.writeOk]
      generalize run uploadBody (.start activation.tempBuffer true) activation.inputs = pass
      obtain ⟨events, exit⟩ := pass
      cases exit with
      | again upload =>
          simp only [andThen, wordless_again_iff, said_append, List.append_eq_nil_iff]
      | done last result =>
          simp only [andThen, emit, wordless_done_iff, said_append, List.append_eq_nil_iff,
            said_uploadResult, and_assoc]
      | fault =>
          simp only [andThen, wordless_fault_iff, said_append, List.append_eq_nil_iff]

theorem said_run_iff (process : Process) (activations : List Activation) :
    said (run onTimer process activations).1 = [] ↔
      Along onTimer Undisturbed process activations := by
  have hpasses := @meets_run_iff _ _ _ _ (fun event : Event => event.said = [])
    (fun _ => True) onTimer process activations
  have hmeets : ∀ pass : List Event × Exit Process Nat,
      Meets (fun event => event.said = []) (fun _ => True) pass ↔ said pass.1 = [] := by
    intro pass
    simp [Meets, said_eq_nil_iff]
  rw [hmeets] at hpasses
  rw [hpasses]
  refine along_congr (fun state activation => ?_) process activations
  rw [hmeets]
  exact said_onTimer_iff state activation

/-! ## The record characters -/

def Printed (events : List Event) : Prop := printedChars events = fileBytes events

theorem Printed.append {first second : List Event} (hfirst : Printed first)
    (hsecond : Printed second) : Printed (first ++ second) := by
  unfold Printed at hfirst hsecond ⊢
  rw [printedChars_append, fileBytes_append, hfirst, hsecond]

theorem printed_poll (writeOk : Bool) : Printed (pollEvents writeOk) := by
  cases writeOk <;> rfl

theorem printed_uploadResult (result : Return) : Printed (uploadResult result) := by
  cases result <;> rfl

def printedPost {σ ρ : Type} (kept : σ → Prop) : Post σ Event ρ where
  again := fun events state => Printed events ∧ kept state
  done := fun events _ _ => Printed events
  fault := Printed

theorem uploadBody_printed (history : List Event) (upload : Upload) (input : Input)
    (h : Printed history ∧ Represented upload) :
    (printedPost Represented).Of history (uploadBody upload input) := by
  obtain ⟨hhistory, hrepresented⟩ := h
  have hpass : Printed (uploadBody upload input).1 := by
    obtain ⟨receiver, hrep⟩ := hrepresented
    obtain ⟨hevents, -⟩ := uploadBody_simulates upload receiver input hrep
    rw [hevents]
    exact receiver.body_printed input
  cases hbody : uploadBody upload input with
  | mk events exit =>
      rw [hbody] at hpass
      cases exit with
      | again next => exact ⟨hhistory.append hpass, hrepresented.next hbody⟩
      | done last result => exact hhistory.append hpass
      | fault => exact hhistory.append hpass

theorem uploadData_printed (anyOneHere : Bool) (tempBuffer : Buffer Byte 1000)
    (writeOk : Bool) (inputs : List Input) {history : List Event}
    (hhistory : Printed history) :
    (printedPost fun _ => True).Of history
      (uploadData anyOneHere tempBuffer writeOk inputs) := by
  unfold uploadData
  split
  · exact hhistory.append rfl
  · have hpoll := hhistory.append (printed_poll writeOk)
    have hstart : (@printedPost _ Return Represented).again
        (history ++ pollEvents writeOk) (.start tempBuffer true) :=
      ⟨hpoll, _, represents_start tempBuffer true⟩
    have hrun := Post.Of.run_any uploadBody_printed hstart inputs
    refine (Post.of_emit_iff.mpr hrun).weaken ?_ ?_ ?_
    · exact fun events upload h => ⟨h.1, trivial⟩
    · exact fun events upload result h => h
    · exact fun events h => h

theorem onTimer_printed (history : List Event) (process : Process)
    (activation : Activation) (h : Printed history ∧ True) :
    (printedPost fun _ => True).Of history (onTimer process activation) := by
  unfold onTimer
  split
  · exact ⟨h.1.append rfl, trivial⟩
  · rw [Post.of_andThen_iff]
    refine (uploadData_printed _ _ _ _ h.1).weaken ?_ ?_ ?_
    · exact fun events upload h => h
    · exact fun events last result h => ⟨h.append (printed_uploadResult result), trivial⟩
    · exact fun events h => h

theorem run_printed (process : Process) (activations : List Activation) :
    Printed (run onTimer process activations).1 := by
  have hstart : (@printedPost Process Nat fun _ => True).again [] process := ⟨rfl, trivial⟩
  have hrun := Post.Of.run_any onTimer_printed hstart activations
  generalize run onTimer process activations = pass at hrun
  obtain ⟨events, exit⟩ := pass
  cases exit with
  | again process => exact hrun.1
  | done process status => exact hrun
  | fault => exact hrun

theorem stdout_of_banner {events : List Event} (hprinted : Printed events) :
    stdoutBytes (.printf "Serial Opened\n" :: events) ≠
        fileBytes (.printf "Serial Opened\n" :: events) ∧
      (stdoutBytes (.printf "Serial Opened\n" :: events) =
          ascii "Serial Opened\n" ++ fileBytes (.printf "Serial Opened\n" :: events) ↔
        said events = []) := by
  have hstdout : stdoutBytes (.printf "Serial Opened\n" :: events) =
      ascii "Serial Opened\n" ++ stdoutBytes events := rfl
  have hfile : fileBytes (.printf "Serial Opened\n" :: events) = fileBytes events := rfl
  rw [hstdout, hfile, List.append_cancel_left_eq]
  refine ⟨fun heq => ?_, stdoutBytes_eq_fileBytes_iff hprinted⟩
  have hlength := congrArg List.length heq
  rw [List.length_append, length_stdoutBytes, hprinted] at hlength
  have hletters : (ascii "Serial Opened\n").length = 14 := by decide
  omega

/--
The banner of `Init_Serial` alone makes stdout longer than `FILE.txt`; what
follows it is the same as in `FILE.txt` exactly in the runs whose activations
are all undisturbed.
-/
theorem stdout_not_only_records (startUp : StartUp)
    (hstart : (initSerial startUp).2 = none) (activations : List Activation) :
    stdoutBytes (serialMain startUp activations).1 ≠
        fileBytes (serialMain startUp activations).1 ∧
      (stdoutBytes (serialMain startUp activations).1 =
          ascii "Serial Opened\n" ++ fileBytes (serialMain startUp activations).1 ↔
        AlongFrom (serialStart startUp) onTimer Undisturbed activations) := by
  rcases serialStart_cases hstart with hwaits | hexits
  · have hevents : (serialMain startUp activations).1 =
        .printf "Serial Opened\n" :: (run onTimer .initial activations).1 := by
      simp [serialMain, enter, hwaits]
    have halong : AlongFrom (serialStart startUp) onTimer Undisturbed activations ↔
        said (run onTimer .initial activations).1 = [] := by
      rw [said_run_iff, hwaits]
      constructor
      · exact fun h => h _ _ rfl
      · rintro h _ _ heq
        obtain ⟨-, rfl⟩ := again_inj heq
        exact h
    rw [hevents, halong]
    exact stdout_of_banner (run_printed .initial activations)
  · have hevents : (serialMain startUp activations).1 =
        [.printf "Serial Opened\n"] := by
      simp [serialMain, enter, hexits]
    have hbanner := @stdout_of_banner [] rfl
    rw [hevents]
    refine ⟨hbanner.1, iff_of_true (hbanner.2.mpr rfl) ?_⟩
    intro _ _ heq
    simp [hexits] at heq

/-- The device answers with one record, and its END packet closes the upload. -/
def letterUpload : Activation :=
  ⟨⟨fun _ => 0#8⟩, true,
    received [0x3F#8, 0x24#8, 4#8, 0x41#8, 0x0A#8, 228#8, 146#8,
      0x24#8, 8#8, 9#8, 48#8, 9#8, 69#8, 10#8, 13#8, 46#8, 236#8]⟩

/-- A whole upload, which is undisturbed, and another one whose first read fails. -/
theorem stdout_not_only_records_letter :
    stdoutBytes (serialMain .succeeding [letterUpload]).1 ≠
        fileBytes (serialMain .succeeding [letterUpload]).1 ∧
      AlongFrom (serialStart .succeeding) onTimer Undisturbed [letterUpload] ∧
      ¬ AlongFrom (serialStart .succeeding) onTimer Undisturbed
        [letterUpload, ⟨⟨fun _ => 0#8⟩, true, [⟨.error, true⟩]⟩] := by
  have hupload := stdout_not_only_records .succeeding rfl [letterUpload]
  have hfailed := stdout_not_only_records .succeeding rfl
    [letterUpload, ⟨⟨fun _ => 0#8⟩, true, [⟨.error, true⟩]⟩]
  exact ⟨hupload.1, hupload.2.mp (by decide +kernel), mt hfailed.2.mpr (by decide +kernel)⟩

/-- The sender is sent the banner, and a failed upload as `Upload failed`. -/
theorem not_stdout_only_records :
    ¬ ∀ startUp activations, (initSerial startUp).2 = none →
        stdoutBytes (serialMain startUp activations).1 =
          fileBytes (serialMain startUp activations).1 := by
  intro h
  have hfailed := h .succeeding [⟨⟨fun _ => 0#8⟩, true, [⟨.error, true⟩]⟩] rfl
  have hstdout : stdoutBytes
      (serialMain .succeeding [⟨⟨fun _ => 0#8⟩, true, [⟨.error, true⟩]⟩]).1 =
        ascii "Serial Opened\nUpload failed \n" := by decide
  rw [hstdout] at hfailed
  revert hfailed
  decide

end BBCodeBase.SerialComm
