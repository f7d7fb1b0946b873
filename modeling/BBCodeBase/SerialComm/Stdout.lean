import BBCodeBase.SerialComm.Reentry

/-!
# What the serial process prints

Every byte on stdout is a TAB, a newline or a character from space to `'}'`,
also where activations are nested: at any moment the nested activations have
printed a first part of what activations that follow one another print.
-/

namespace BBCodeBase.SerialComm

open Reactive

def textChar (ch : Byte) : Bool :=
  ch == 0x09#8 || ch == 0x0A#8 || (0x20#8 ≤ ch && ch ≤ 0x7D#8)

/-- The events put nothing but text on stdout. -/
def Textual (events : List Event) : Prop := ∀ event ∈ events, event.stdout.all textChar

theorem textual_append_iff {first second : List Event} :
    Textual (first ++ second) ↔ Textual first ∧ Textual second := by
  simp only [Textual, List.mem_append, or_imp, forall_and]

theorem Textual.stdoutBytes {events : List Event} (h : Textual events) :
    ∀ ch ∈ stdoutBytes events, textChar ch := by
  intro ch hmem
  obtain ⟨event, hevent, hch⟩ := List.mem_flatMap.mp hmem
  exact List.all_eq_true.mp (h event hevent) ch hch

theorem textChar_of_printable {ch : Byte} (h : printable ch = true) :
    textChar ch = true := by
  simp only [printable, textChar, Bool.or_eq_true, Bool.and_eq_true, decide_eq_true_eq,
    beq_iff_eq] at h ⊢
  rcases h with ((((h | h) | h) | h) | h) | h
  · bv_omega
  · bv_omega
  · bv_omega
  · exact .inl (.inl h)
  · exact .inl (.inr h)
  · bv_omega

theorem textual_printRecord (record : List Byte) :
    Textual (record.flatMap printRecordChar) := by
  intro event hmem
  obtain ⟨ch, -, hch⟩ := List.mem_flatMap.mp hmem
  unfold printRecordChar at hch
  split at hch
  · next hprintable =>
      have htext := textChar_of_printable hprintable
      simp only [List.mem_cons, List.not_mem_nil, or_false] at hch
      rcases hch with rfl | rfl | rfl
      · simp [Event.stdout, htext]
      · rfl
      · rfl
  · cases hch

theorem textual_accept (frame data : List Byte) (writeOk : Bool) :
    Textual (.crc frame :: .ack data :: replyFailed writeOk) := by
  cases writeOk with
  | true => simp [Textual, replyFailed, Event.stdout]
  | false =>
      simp only [Textual, replyFailed, Event.stdout, List.mem_cons, forall_eq_or_imp]
      decide

theorem textual_reject (frame : List Byte) (writeOk : Bool) :
    Textual (.crc frame :: .write 0x26#8 :: replyFailed writeOk) := by
  cases writeOk with
  | true => simp [Textual, replyFailed, Event.stdout]
  | false =>
      simp only [Textual, replyFailed, Event.stdout, List.mem_cons, forall_eq_or_imp]
      decide

namespace Receiver

theorem settle_textual (receiver : Receiver) (length : Byte) (data : List Byte)
    (first second : Byte) (writeOk : Bool) :
    Textual (receiver.settle length data first second writeOk).1 := by
  have haccept := textual_accept (frameOf length data) data writeOk
  unfold settle
  dsimp only
  split
  · split
    · exact haccept
    · split
      · exact haccept
      · split
        · exact textual_append_iff.mpr ⟨haccept, textual_printRecord _⟩
        · exact haccept
  · exact textual_reject (frameOf length data) writeOk

theorem question_textual (receiver : Receiver) (phase : Phase) (writeOk : Bool) :
    Textual (receiver.question phase writeOk).1 := by
  cases writeOk <;> simp [question, Textual, Event.stdout]

theorem take_textual (receiver : Receiver) (ch : Byte) (writeOk : Bool) :
    Textual (receiver.take ch writeOk).1 := by
  have hnone : Textual [] := fun _ hmem => absurd hmem List.not_mem_nil
  unfold take
  cases receiver.phase with
  | idle =>
      dsimp only
      split
      · exact receiver.question_textual _ writeOk
      · split <;> exact hnone
  | length => exact hnone
  | payload length data sofData =>
      dsimp only
      split
      · exact receiver.question_textual _ writeOk
      · split
        · exact hnone
        · split <;> exact hnone
  | checksum length data first =>
      cases first with
      | none => exact hnone
      | some first => exact (receiver.mark ch).settle_textual _ _ _ _ _

theorem body_textual (receiver : Receiver) (input : Input) :
    Textual (receiver.body input).1 := by
  have hreceive : ∀ (receiver : Receiver) (ch : Byte),
      Textual (receiver.receive ch input.writeOk).1 := by
    intro receiver ch
    unfold receive count
    split
    · exact fun _ hmem => absurd hmem List.not_mem_nil
    · split
      · split
        · simp only [Textual, List.mem_singleton, forall_eq]
          decide
        · exact take_textual _ ch input.writeOk
      · exact take_textual _ ch input.writeOk
  unfold body
  split
  · exact fun _ hmem => absurd hmem List.not_mem_nil
  · next ch _ =>
      split
      · exact hreceive receiver ch
      · split
        · simp only [Textual, List.mem_singleton, forall_eq]
          decide
        · exact hreceive _ ch

end Receiver

/-! ## Whole runs -/

theorem textual_run {σ ι ρ : Type} {body : Body σ ι Event ρ}
    (h : ∀ state input, Textual (body state input).1) (state : σ) (inputs : List ι) :
    Textual (run body state inputs).1 := by
  induction inputs generalizing state with
  | nil => exact fun _ hmem => absurd hmem List.not_mem_nil
  | cons input inputs ih =>
      have hfirst := h state input
      cases hbody : body state input with
      | mk events exit =>
          rw [hbody] at hfirst
          cases exit with
          | again next =>
              rw [run_cons_again hbody]
              exact textual_append_iff.mpr ⟨hfirst, ih next⟩
          | done last value =>
              rw [run_cons_done hbody]
              exact hfirst
          | fault =>
              rw [run_cons_fault hbody]
              exact hfirst

theorem uploadData_textual (anyOneHere : Bool) (tempBuffer : Buffer Byte 1000)
    (writeOk : Bool) (inputs : List Input) :
    Textual (uploadData anyOneHere tempBuffer writeOk inputs).1 := by
  unfold uploadData
  split
  · exact fun _ hmem => absurd hmem List.not_mem_nil
  · have hpoll : Textual (pollEvents writeOk) := by
      cases writeOk with
      | true => simp [Textual, pollEvents, Event.stdout]
      | false =>
          simp only [Textual, pollEvents, Event.stdout, List.mem_cons, forall_eq_or_imp]
          decide
    obtain ⟨hevents, -⟩ :=
      uploadBody_simulates.run inputs (represents_start tempBuffer true)
    have hrun := textual_run Receiver.body_textual .start inputs
    rw [← hevents] at hrun
    exact textual_append_iff.mpr ⟨hpoll, hrun⟩

theorem uploadResult_textual (result : Return) : Textual (uploadResult result) := by
  unfold uploadResult
  split
  · simp only [Textual, List.mem_singleton, forall_eq]
    decide
  · exact fun _ hmem => absurd hmem List.not_mem_nil

theorem onTimer_textual (process : Process) (activation : Activation) :
    Textual (onTimer process activation).1 := by
  have hupload := uploadData_textual process.anyOneHere activation.tempBuffer
    activation.writeOk activation.inputs
  unfold onTimer
  split
  · exact fun _ hmem => absurd hmem List.not_mem_nil
  · generalize uploadData process.anyOneHere activation.tempBuffer activation.writeOk
      activation.inputs = pass at hupload
    obtain ⟨events, exit⟩ := pass
    cases exit with
    | again upload => exact hupload
    | done last result =>
        exact textual_append_iff.mpr ⟨hupload, uploadResult_textual result⟩
    | fault => exact hupload

/-! ## Nested activations -/

/-- What the activations under way have emitted is the start of what they emit in sequence. -/
theorem reentrant_first {events : List Event} {state : Nesting.State Shared Frame}
    (hkept : Nesting.Kept Frame.stage
      (fun history shared => idle history shared ∧ serially history shared)
      (fun history shared frame => owned history shared frame ∧ Partly history shared frame)
      events state) :
    ∃ activations, events <+: (run onTimer .initial activations).1 := by
  by_cases hinside : ∃ frame ∈ state.frames, frame.stage = .inside
  · obtain ⟨frame, hmem, hstage⟩ := hinside
    obtain ⟨-, before, emitted, ⟨activations, hrun⟩, rfl, htimer⟩ :=
      hkept.held frame hmem hstage
    refine ⟨activations ++ [frame.alarm.toActivation], ?_⟩
    rw [run_append hrun, run_singleton, htimer]
    exact ⟨frame.rest.1, List.append_assoc _ _ _⟩
  · have hnone : ∀ frame ∈ state.frames, frame.stage ≠ .inside :=
      fun frame hmem hstage => hinside ⟨frame, hmem, hstage⟩
    obtain ⟨-, activations, hrun⟩ := hkept.free hnone
    exact ⟨activations, [], by rw [hrun, List.append_nil]⟩

end BBCodeBase.SerialComm
