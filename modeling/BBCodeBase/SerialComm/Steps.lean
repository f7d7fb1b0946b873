import BBCodeBase.SerialComm.Protocol

/-!
# What one pass of the receiver can do

Every pass that stays in the loop either accepts a frame or is quiet; the
invariants of whole runs are derived from this case analysis alone.
-/

namespace BBCodeBase.SerialComm

open Reactive

/-! ## Projections of a trace -/

def recordText (record : List Byte) : List Byte := record.filter printable

@[simp] theorem recordText_nil : recordText [] = [] := rfl

@[simp] theorem recordText_append (first second : List Byte) :
    recordText (first ++ second) = recordText first ++ recordText second :=
  List.filter_append ..

@[simp] theorem replies_append (first second : List Event) :
    replies (first ++ second) = replies first ++ replies second :=
  List.filterMap_append ..

@[simp] theorem acked_append (first second : List Event) :
    acked (first ++ second) = acked first ++ acked second :=
  List.filterMap_append ..

@[simp] theorem stdoutBytes_append (first second : List Event) :
    stdoutBytes (first ++ second) = stdoutBytes first ++ stdoutBytes second :=
  List.flatMap_append

@[simp] theorem printedChars_append (first second : List Event) :
    printedChars (first ++ second) = printedChars first ++ printedChars second :=
  List.filterMap_append ..

@[simp] theorem fileBytes_append (first second : List Event) :
    fileBytes (first ++ second) = fileBytes first ++ fileBytes second :=
  List.filterMap_append ..

@[simp] theorem dayFileBytes_append (first second : List Event) :
    dayFileBytes (first ++ second) = dayFileBytes first ++ dayFileBytes second :=
  List.filterMap_append ..

/--
What a list of events adds to the traces that concern records: the payloads
answered with `'*'`, and the record bytes sent to stdout and to the two files.
Nothing else reaches stdout when the pass's reply is written.
-/
structure Adds (writeOk : Bool) (events : List Event)
    (payloads : List (List Byte)) (text : List Byte) : Prop where
  acked : acked events = payloads
  stars : (replies events).count 0x2A#8 = payloads.length
  printed : printedChars events = text
  file : fileBytes events = text
  dayFile : dayFileBytes events = text
  stdout : writeOk = true → stdoutBytes events = text

theorem Adds.append {writeOk : Bool} {first second : List Event}
    {payloads payloads' : List (List Byte)} {text text' : List Byte}
    (hfirst : Adds writeOk first payloads text)
    (hsecond : Adds writeOk second payloads' text') :
    Adds writeOk (first ++ second) (payloads ++ payloads') (text ++ text') where
  acked := by rw [acked_append, hfirst.acked, hsecond.acked]
  stars := by
    rw [replies_append, List.count_append, hfirst.stars, hsecond.stars,
      List.length_append]
  printed := by rw [printedChars_append, hfirst.printed, hsecond.printed]
  file := by rw [fileBytes_append, hfirst.file, hsecond.file]
  dayFile := by rw [dayFileBytes_append, hfirst.dayFile, hsecond.dayFile]
  stdout := fun hok => by
    rw [stdoutBytes_append, hfirst.stdout hok, hsecond.stdout hok]

theorem Adds.weaken {writeOk : Bool} {events : List Event}
    {payloads : List (List Byte)} {text : List Byte}
    (h : Adds writeOk events payloads text) : Adds false events payloads text :=
  { h with stdout := fun hfalse => by cases hfalse }

theorem adds_nil (writeOk : Bool) : Adds writeOk [] [] [] :=
  ⟨rfl, rfl, rfl, rfl, rfl, fun _ => rfl⟩

theorem adds_start (writeOk : Bool) : Adds writeOk [.write 0x55#8] [] [] :=
  ⟨rfl, rfl, rfl, rfl, rfl, fun _ => rfl⟩

theorem adds_accept (frame data : List Byte) (writeOk : Bool) :
    Adds writeOk (.crc frame :: .ack data :: replyFailed writeOk) [data] [] := by
  cases writeOk <;>
    exact ⟨rfl, rfl, rfl, rfl, rfl, by
      simp [replyFailed, stdoutBytes, Event.stdout]⟩

theorem adds_reject (frame : List Byte) (writeOk : Bool) :
    Adds writeOk (.crc frame :: .write 0x26#8 :: replyFailed writeOk) [] [] := by
  cases writeOk <;>
    exact ⟨rfl, rfl, rfl, rfl, rfl, by
      simp [replyFailed, stdoutBytes, Event.stdout]⟩

theorem adds_printRecord (writeOk : Bool) (record : List Byte) :
    Adds writeOk (record.flatMap printRecordChar) [] (recordText record) := by
  induction record with
  | nil => exact adds_nil writeOk
  | cons ch record ih =>
      have hhead : Adds writeOk (printRecordChar ch) [] (recordText [ch]) := by
        unfold printRecordChar recordText
        cases hch : printable ch <;> simp only [List.filter, hch] <;>
          exact ⟨rfl, rfl, rfl, rfl, rfl, fun _ => rfl⟩
      have hsplit : recordText (ch :: record) = recordText [ch] ++ recordText record :=
        recordText_append [ch] record
      rw [List.flatMap_cons, hsplit]
      exact hhead.append ih

theorem replies_printRecord (record : List Byte) :
    replies (record.flatMap printRecordChar) = [] := by
  induction record with
  | nil => rfl
  | cons ch record ih =>
      rw [List.flatMap_cons, replies_append, ih, List.append_nil]
      unfold printRecordChar
      split <;> rfl

/-! ## The cases of a pass -/

def Phase.data : Phase → List Byte
  | .payload _ data _ => data
  | .checksum _ data _ => data
  | _ => []

def Receiver.EndSeen (receiver : Receiver) : Prop :=
  0x45#8 ∈ receiver.phase.data → receiver.endPacket = true

inductive Progress (writeOk : Bool) (receiver : Receiver) :
    List Event → Receiver → Prop
  | quiet {events next} : Adds writeOk events [] [] →
      next.record = receiver.record → (receiver.EndSeen → next.EndSeen) →
      Progress writeOk receiver events next
  | buffered {events next data} : Adds writeOk events [data] [] →
      data = receiver.phase.data → next.record = receiver.record ++ data →
      next.EndSeen → receiver.endPacket = false →
      Progress writeOk receiver events next
  | printed {events next data} :
      Adds writeOk events [data] (recordText (receiver.record ++ data)) →
      data = receiver.phase.data → next.record = [] → next.EndSeen →
      receiver.endPacket = false → Progress writeOk receiver events next

namespace Receiver

theorem endSeen_of_data_nil {receiver : Receiver} (h : receiver.phase.data = []) :
    receiver.EndSeen := by
  simp [EndSeen, h]

theorem settle_again {receiver next : Receiver} {length : Byte}
    {data : List Byte} {first second : Byte} {writeOk : Bool}
    {events : List Event} (hdata : data = receiver.phase.data)
    (h : receiver.settle length data first second writeOk = (events, .again next)) :
    Progress writeOk receiver events next := by
  unfold settle at h
  simp only at h
  split at h
  · split at h
    · simp at h
    · split at h
      · simp at h
      · next hopen =>
          have hend : receiver.endPacket = false := by simpa using hopen
          split at h
          · obtain ⟨rfl, rfl⟩ := again_inj h
            refine .printed ?_ hdata rfl (endSeen_of_data_nil rfl) hend
            exact (adds_accept _ _ _).append (adds_printRecord _ _)
          · obtain ⟨rfl, rfl⟩ := again_inj h
            exact .buffered (adds_accept _ _ _) hdata rfl
              (endSeen_of_data_nil rfl) hend
  · obtain ⟨rfl, rfl⟩ := again_inj h
    exact .quiet (adds_reject _ _) rfl (fun _ => endSeen_of_data_nil rfl)

theorem question_again {receiver next : Receiver} {phase : Phase}
    {writeOk : Bool} {events : List Event} (hphase : phase.data = [])
    (h : receiver.question phase writeOk = (events, .again next)) :
    Progress writeOk receiver events next := by
  unfold question at h
  cases writeOk with
  | false => simp at h
  | true =>
      obtain ⟨rfl, rfl⟩ := again_inj h
      exact .quiet (adds_start _) rfl (fun _ => endSeen_of_data_nil hphase)

inductive Taken (receiver : Receiver) (ch : Byte) (writeOk : Bool) :
    List Event → Receiver → Prop
  | asked {phase events next} : receiver.phase = .idle ∧ phase = .idle ∨
        (∃ length data sofData, receiver.phase = .payload length data sofData ∧
          phase = .payload length [] sofData) →
      receiver.question phase writeOk = (events, .again next) →
      Taken receiver ch writeOk events next
  | opened : receiver.phase = .idle →
      Taken receiver ch writeOk [] { receiver with phase := .length }
  | ignored : receiver.phase = .idle → Taken receiver ch writeOk [] (receiver.mark ch)
  | sized : receiver.phase = .length →
      Taken receiver ch writeOk [] { receiver with phase := .payload ch [] 1#32 }
  | restarted {length data sofData} : receiver.phase = .payload length data sofData →
      ch = 0x24#8 →
      Taken receiver ch writeOk []
        { receiver with
          phase :=
            if sofData + 1#32 = 1#32 then .length
            else .payload length data (sofData + 1#32) }
  | stored {length data sofData} : receiver.phase = .payload length data sofData →
      ch ≠ 0x3F#8 → ch ≠ 0x24#8 →
      Taken receiver ch writeOk []
        { receiver.mark ch with
          phase :=
            if data.length + 3 = length.toNat then
              .checksum length (data ++ [ch]) none
            else .payload length (data ++ [ch]) sofData }
  | checked {length data} : receiver.phase = .checksum length data none →
      Taken receiver ch writeOk []
        { receiver.mark ch with phase := .checksum length data (some ch) }
  | settled {length data first events next} :
      receiver.phase = .checksum length data (some first) →
      (receiver.mark ch).settle length data first ch writeOk = (events, .again next) →
      Taken receiver ch writeOk events next

theorem take_taken {receiver next : Receiver} {ch : Byte} {writeOk : Bool}
    {events : List Event} (h : receiver.take ch writeOk = (events, .again next)) :
    Taken receiver ch writeOk events next := by
  unfold take at h
  cases hphase : receiver.phase with
  | idle =>
      simp only [hphase] at h
      split at h
      · exact .asked (.inl ⟨hphase, rfl⟩) h
      · split at h
        · obtain ⟨rfl, rfl⟩ := again_inj h
          exact .opened hphase
        · obtain ⟨rfl, rfl⟩ := again_inj h
          exact .ignored hphase
  | length =>
      simp only [hphase] at h
      obtain ⟨rfl, rfl⟩ := again_inj h
      exact .sized hphase
  | payload length data sofData =>
      simp only [hphase] at h
      split at h
      · exact .asked (.inr ⟨length, data, sofData, hphase, rfl⟩) h
      · next hmark =>
          split at h
          · next hsof =>
              obtain ⟨rfl, rfl⟩ := again_inj h
              exact .restarted hphase hsof
          · next hsof =>
              split at h
              · simp at h
              · obtain ⟨rfl, rfl⟩ := again_inj h
                exact .stored hphase hmark hsof
  | checksum length data first =>
      simp only [hphase] at h
      cases first with
      | none =>
          obtain ⟨rfl, rfl⟩ := again_inj h
          exact .checked hphase
      | some first => exact .settled hphase h

theorem take_again {receiver next : Receiver} {ch : Byte} {writeOk : Bool}
    {events : List Event} (h : receiver.take ch writeOk = (events, .again next)) :
    Progress writeOk receiver events next := by
  cases take_taken h with
  | asked hphase hquestion =>
      refine question_again ?_ hquestion
      rcases hphase with ⟨-, rfl⟩ | ⟨length, data, sofData, -, rfl⟩ <;> rfl
  | opened hphase =>
      exact .quiet (adds_nil _) rfl (fun _ => endSeen_of_data_nil rfl)
  | ignored hphase =>
      refine .quiet (adds_nil _) rfl (fun _ => endSeen_of_data_nil ?_)
      simp [mark, hphase, Phase.data]
  | sized hphase => exact .quiet (adds_nil _) rfl (fun _ => endSeen_of_data_nil rfl)
  | restarted hphase hsof =>
      refine .quiet (adds_nil _) rfl (fun hseen => ?_)
      intro hmem
      apply hseen
      rw [hphase]
      dsimp only at hmem
      split at hmem
      · simp [Phase.data] at hmem
      · exact hmem
  | @stored length data sofData hphase hmark hsof =>
      refine .quiet (adds_nil _) rfl (fun hseen => ?_)
      intro hmem
      have hstored : 0x45#8 ∈ data ++ [ch] := by
        dsimp only at hmem
        split at hmem <;> exact hmem
      cases List.mem_append.mp hstored with
      | inl hold => simp [mark, hseen (by rwa [hphase])]
      | inr hnew =>
          obtain rfl : 0x45#8 = ch := by simpa using hnew
          simp [mark, hphase, Phase.inChecksum]
  | checked hphase =>
      refine .quiet (adds_nil _) rfl (fun hseen hmem => ?_)
      have hended : receiver.endPacket = true := hseen (by rwa [hphase])
      simp [mark, hended]
  | settled hphase hsettle =>
      have hmark : (receiver.mark ch).endPacket = receiver.endPacket := by
        simp [mark, hphase, Phase.inChecksum]
      have hprogress := settle_again (by simp [mark, hphase, Phase.data]) hsettle
      cases hprogress with
      | quiet hadds hrecord hseen =>
          refine .quiet hadds hrecord (fun hold => hseen ?_)
          intro hmem
          exact hmark.trans (hold hmem)
      | buffered hadds hdata hrecord hseen hend =>
          exact .buffered hadds hdata hrecord hseen (hmark.symm.trans hend)
      | printed hadds hdata hrecord hseen hend =>
          exact .printed hadds hdata hrecord hseen (hmark.symm.trans hend)

structure SameFrame (previous receiver : Receiver) : Prop where
  phase : previous.phase = receiver.phase
  record : previous.record = receiver.record
  printChar : previous.printChar = receiver.printChar
  endPacket : previous.endPacket = receiver.endPacket
  palint : receiver.palint < 4 → previous.palint < 4

theorem progress_of_same {previous receiver next : Receiver} {writeOk : Bool}
    {events : List Event} (hsame : SameFrame previous receiver)
    (h : Progress writeOk previous events next) :
    Progress writeOk receiver events next := by
  cases h with
  | quiet hadds hnext hseen =>
      refine .quiet hadds (hnext.trans hsame.record) (fun hold => hseen ?_)
      intro hmem
      rw [hsame.endPacket]
      exact hold (by rwa [← hsame.phase])
  | buffered hadds hdata hnext hseen hopen =>
      exact .buffered hadds (by rw [hdata, hsame.phase])
        (by rw [hnext, hsame.record]) hseen (by rw [← hsame.endPacket, hopen])
  | printed hadds hdata hnext hseen hopen =>
      exact .printed (by rwa [← hsame.record]) (by rw [hdata, hsame.phase])
        hnext hseen (by rw [← hsame.endPacket, hopen])

/--
The tests at the top of the loop body: they leave, skip a zero byte, or hand
the byte to `take`.
-/
inductive Dispatch (receiver : Receiver) (char : Option Byte) (writeOk : Bool) :
    Pass → Prop
  | left {messages : List String} {last result} : result ≠ .ended →
      Dispatch receiver char writeOk (messages.map .printf, .done last result)
  | skipped {previous} : SameFrame previous receiver → char = some 0#8 →
      Dispatch receiver char writeOk ([], .again previous)
  | taken {previous ch} : SameFrame previous receiver → char = some ch →
      (ch = 0#8 → receiver.phase.inChecksum = true) →
      Dispatch receiver char writeOk (previous.take ch writeOk)

theorem receive_dispatch {receiver middle : Receiver}
    (hsame : SameFrame middle receiver) (ch : Byte) (writeOk : Bool) :
    Dispatch receiver (some ch) writeOk (middle.receive ch writeOk) := by
  unfold receive
  split
  · next hskip => exact .skipped hsame (congrArg some hskip.1)
  · next hkeep =>
      have hzero : ch = 0#8 → receiver.phase.inChecksum = true := by
        intro hch
        rw [← hsame.phase]
        simpa [hch] using hkeep
      unfold count
      split
      · split
        · exact @Dispatch.left _ _ _ ["thrown"] _ _ (by decide)
        · next hbelow =>
            exact .taken ⟨hsame.1, hsame.2, hsame.3, hsame.4, fun _ => by
              dsimp only
              omega⟩ rfl hzero
      · exact .taken ⟨hsame.1, hsame.2, hsame.3, hsame.4, fun _ => Nat.zero_lt_succ 3⟩
          rfl hzero

theorem body_dispatch (receiver : Receiver) (input : Input) :
    Dispatch receiver input.read.char input.writeOk (receiver.body input) := by
  unfold body
  cases input.read.char with
  | none => exact @Dispatch.left _ _ _ [] _ _ (by decide)
  | some ch =>
      simp only
      split
      · exact receive_dispatch ⟨rfl, rfl, rfl, rfl, id⟩ ch input.writeOk
      · split
        · exact @Dispatch.left _ _ _ ["No Question Mark, Quit :D"] _ _ (by decide)
        · apply receive_dispatch
          exact ⟨rfl, rfl, rfl, rfl, id⟩

theorem again_cases {receiver next : Receiver} {input : Input}
    {events : List Event} (h : receiver.body input = (events, .again next)) :
    (events = [] ∧ SameFrame next receiver ∧ input.read.char = some 0#8) ∨
      ∃ previous ch, SameFrame previous receiver ∧ input.read.char = some ch ∧
        (ch = 0#8 → receiver.phase.inChecksum = true) ∧
        previous.take ch input.writeOk = (events, .again next) := by
  have hdispatch := body_dispatch receiver input
  rw [h] at hdispatch
  generalize hpass : (events, Exit.again next) = pass at hdispatch
  cases hdispatch with
  | left => simp at hpass
  | skipped hsame hzero =>
      obtain ⟨rfl, rfl⟩ := again_inj hpass
      exact .inl ⟨rfl, hsame, hzero⟩
  | taken hsame hch hread => exact .inr ⟨_, _, hsame, hch, hread, rfl⟩

theorem body_again {receiver next : Receiver} {input : Input}
    {events : List Event} (h : receiver.body input = (events, .again next)) :
    Progress input.writeOk receiver events next := by
  rcases again_cases h with ⟨rfl, hsame, -⟩ | ⟨previous, ch, hsame, -, -, htake⟩
  · exact progress_of_same hsame (.quiet (adds_nil _) rfl id)
  · exact progress_of_same hsame (take_again htake)

/-! ## The pass that ends the upload -/

def Undecided (pass : Pass) : Prop :=
  (∀ frame, Event.crc frame ∉ pass.1) ∧ ∀ last, pass.2 ≠ .done last .ended

theorem undecided_again (next : Receiver) : Undecided ([], .again next) :=
  ⟨fun _ => List.not_mem_nil, nofun⟩

theorem question_undecided (receiver : Receiver) (phase : Phase) (writeOk : Bool) :
    Undecided (receiver.question phase writeOk) := by
  cases writeOk with
  | false => exact ⟨by simp [question], nofun⟩
  | true => exact ⟨by simp [question], nofun⟩

/-- Only the second checksum byte of a frame decides anything. -/
theorem take_decides (receiver : Receiver) (ch : Byte) (writeOk : Bool) :
    Undecided (receiver.take ch writeOk) ∨
      ∃ length data first, receiver.phase = .checksum length data (some first) ∧
        receiver.take ch writeOk =
          (receiver.mark ch).settle length data first ch writeOk := by
  unfold take
  cases receiver.phase with
  | idle =>
      left
      dsimp only
      split
      · exact question_undecided _ _ _
      · split <;> exact undecided_again _
  | length => exact .inl (undecided_again _)
  | payload length data sofData =>
      left
      dsimp only
      split
      · exact question_undecided _ _ _
      · split
        · exact undecided_again _
        · split
          · exact ⟨fun _ => List.not_mem_nil, nofun⟩
          · exact undecided_again _
  | checksum length data first =>
      cases first with
      | none => exact .inl (undecided_again _)
      | some first => exact .inr ⟨length, data, first, rfl, rfl⟩

theorem settle_ended {receiver last : Receiver} {length : Byte} {data : List Byte}
    {first second : Byte} {writeOk : Bool} {events : List Event}
    (h : receiver.settle length data first second writeOk =
      (events, .done last .ended)) : Adds writeOk events [data] [] := by
  simp only [settle] at h
  split at h
  · split at h
    · simp at h
    · split at h
      · obtain ⟨rfl, -⟩ := Prod.mk.inj h
        exact adds_accept _ _ _
      · split at h <;> simp at h
  · simp at h

theorem take_ended {receiver last : Receiver} {ch : Byte} {writeOk : Bool}
    {events : List Event}
    (h : receiver.take ch writeOk = (events, .done last .ended)) :
    ∃ length data first,
      receiver.phase = .checksum length data (some first) ∧
      Adds writeOk events [data] [] := by
  cases receiver.take_decides ch writeOk with
  | inl hundecided =>
      rw [h] at hundecided
      exact absurd rfl (hundecided.2 last)
  | inr hsettled =>
      obtain ⟨length, data, first, hphase, htake⟩ := hsettled
      rw [htake] at h
      exact ⟨length, data, first, hphase, settle_ended h⟩

theorem body_ended {receiver last : Receiver} {input : Input}
    {events : List Event} (h : receiver.body input = (events, .done last .ended)) :
    ∃ length data first,
      receiver.phase = .checksum length data (some first) ∧
      Adds input.writeOk events [data] [] := by
  have hdispatch := body_dispatch receiver input
  rw [h] at hdispatch
  generalize hpass : (events, Exit.done last Return.ended) = pass at hdispatch
  cases hdispatch with
  | left hresult =>
      simp only [Prod.mk.injEq, Exit.done.injEq] at hpass
      exact absurd hpass.2.2.symm hresult
  | skipped => simp at hpass
  | taken hsame => simpa only [hsame.phase] using take_ended hpass.symm

end Receiver

end BBCodeBase.SerialComm
