import BBCodeBase.SerialComm.Passes

/-!
# What a pass writes to `num` and `temp_buffer`

The counter and the cells behind the frame are no part of the protocol machine,
so what a pass does to them is read off the stages of the loop body.
-/

namespace BBCodeBase.SerialComm

open Reactive

/--
The updates of a pass that goes on.  `num` grows only where a payload byte is
stored, and a checksum that is complete clears the front of `temp_buffer`.
-/
inductive Updates (upload : Upload) : List Event → Upload → Prop
  | kept {events next} : (∀ frame, Event.crc frame ∉ events) → next.num ≤ upload.num →
      next.tempBuffer = upload.tempBuffer → Updates upload events next
  | header {index ch next} : index < 2 → next.num ≤ upload.num →
      upload.tempBuffer.store? index ch = some next.tempBuffer → Updates upload [] next
  | payload {ch next} : upload.startReceive = true → upload.lengthFlag = false →
      next.num ≤ upload.num ∨ next.startReceive = true ∧ next.lengthFlag = false →
      upload.tempBuffer.store? (upload.num + 2) ch = some next.tempBuffer →
      Updates upload [] next
  | checked {events next} : next.num ≤ upload.num →
      (∀ index, index < 300 → next.tempBuffer.load? index = some 0#8) →
      (∀ index, upload.tempBuffer.load? index = some 0#8 →
        next.tempBuffer.load? index = some 0#8) →
      Updates upload events next

def Updated (upload : Upload) (pass : Pass) : Prop :=
  ∀ next, pass.2 = .again next → Updates upload pass.1 next

theorem updated_again {upload next : Upload} {events : List Event}
    (h : Updates upload events next) : Updated upload (events, .again next) := by
  intro other hother
  obtain rfl := Exit.again.inj hother
  exact h

theorem updated_fault (upload : Upload) (events : List Event) :
    Updated upload (events, .fault) := by
  intro next h
  cases h

theorem updated_leave (upload : Upload) (events : List Event) (last : Upload)
    (result : Return) : Updated upload (events, leave last result) := by
  intro next h
  cases h

/-- Only these variables matter for the updates. -/
theorem Updated.of_same {upload other : Upload} {pass : Pass} (h : Updated other pass)
    (hnum : other.num = upload.num) (htemp : other.tempBuffer = upload.tempBuffer)
    (hstart : other.startReceive = upload.startReceive)
    (hlengthFlag : other.lengthFlag = upload.lengthFlag) : Updated upload pass := by
  obtain ⟨events, exit⟩ := pass
  intro next hnext
  have hupdates : Updates other events next := h next hnext
  cases hupdates with
  | kept hcrc hle hsame => exact .kept hcrc (hnum ▸ hle) (hsame.trans htemp)
  | header hindex hle hstore => exact .header hindex (hnum ▸ hle) (htemp ▸ hstore)
  | payload hreceives hflag hcounts hstore =>
      rw [hstart] at hreceives
      rw [hlengthFlag] at hflag
      rw [hnum] at hcounts
      rw [hnum, htemp] at hstore
      exact .payload hreceives hflag hcounts hstore
  | checked hle hcleared hzero => exact .checked (hnum ▸ hle) hcleared (htemp ▸ hzero)

theorem acceptFrame_updated (upload : Upload) (frame : List Byte) (writeOk : Bool) :
    Updated upload (acceptFrame upload frame writeOk) := by
  have hcleared : ∀ (buffer : Buffer Byte 1000) (index : Nat), index < 1000 →
      (buffer.fill 1000 0#8).load? index = some 0#8 := by
    intro buffer index hindex
    rw [Buffer.load?_fill hindex, if_pos hindex]
  unfold acceptFrame
  dsimp only
  split
  · exact updated_fault _ _
  · have hchecked : ∀ events next, next.num = upload.num →
        (∃ buffer : Buffer Byte 1000, next.tempBuffer = buffer.fill 1000 0#8) →
        Updates upload events next := by
      rintro events next hnum ⟨buffer, hbuffer⟩
      refine .checked (Nat.le_of_eq hnum) (fun index hindex => ?_) (fun index hload => ?_)
      · rw [hbuffer, hcleared buffer index (by omega)]
      · rw [hbuffer, hcleared buffer index (Buffer.lt_of_load? hload)]
    unfold finishRecord
    split
    · exact updated_leave _ _ _ _
    · split
      · split
        · exact updated_fault _ _
        · exact updated_again (hchecked _ _ rfl ⟨_, rfl⟩)
      · exact updated_again (hchecked _ _ rfl ⟨_, rfl⟩)

theorem rejectFrame_updated (upload : Upload) (frame : List Byte) (writeOk : Bool) :
    Updated upload (rejectFrame upload frame writeOk) := by
  refine updated_again (.checked (Nat.le_refl _) (fun index hindex => ?_)
    (fun index hload => ?_))
  · rw [Buffer.load?_fill (by omega), if_pos hindex]
  · rw [Buffer.load?_fill (Buffer.lt_of_load? hload)]
    split
    · rfl
    · exact hload

theorem checkFrame_updated (upload : Upload) (writeOk : Bool) :
    Updated upload (checkFrame upload writeOk) := by
  unfold checkFrame
  split
  · dsimp only
    split
    · split
      · exact (acceptFrame_updated _ _ _).of_same rfl rfl rfl rfl
      · exact (rejectFrame_updated _ _ _).of_same rfl rfl rfl rfl
    · exact updated_fault _ _
  · exact updated_again (.kept (fun _ => List.not_mem_nil) (Nat.le_refl _) rfl)

theorem receiveData_updated {upload : Upload} (hlengthFlag : upload.lengthFlag = false)
    (ch : Byte) (writeOk : Bool) : Updated upload (receiveData upload ch writeOk) := by
  rw [receiveData_eq]
  dsimp only
  split
  · next hstart =>
      unfold storePayload
      split
      · exact updated_fault _ _
      · next hstore =>
          dsimp only
          split
          · exact updated_again
              (.payload hstart hlengthFlag (.inl (Nat.zero_le _)) hstore)
          · exact updated_again
              (.payload hstart hlengthFlag (.inr ⟨hstart, hlengthFlag⟩) hstore)
  · unfold storeChecksum
    split
    · split
      · exact updated_fault _ _
      · dsimp only
        split
        · exact (checkFrame_updated _ _).of_same rfl rfl rfl rfl
        · exact updated_again (.kept (fun _ => List.not_mem_nil) (Nat.le_refl _) rfl)
    · exact (checkFrame_updated _ _).of_same rfl rfl rfl rfl

theorem receiveQuestion_updated (upload : Upload) (ch : Byte) (writeOk : Bool) :
    Updated upload (receiveQuestion upload ch writeOk) := by
  unfold receiveQuestion receiveSof receiveLength
  dsimp only
  split
  · split
    · exact updated_again (.kept (by simp) (Nat.zero_le _) rfl)
    · exact updated_leave _ _ _ _
  · split
    · split
      · exact updated_fault _ _
      · next hstore =>
          split
          · next hsof =>
              rw [if_pos hsof] at hstore
              exact updated_again (.header Nat.zero_lt_two (Nat.le_refl _) hstore)
          · next hsof =>
              rw [if_neg hsof] at hstore
              exact updated_again (.header Nat.zero_lt_two (Nat.le_refl _) hstore)
    · split
      · split
        · exact updated_fault _ _
        · next hstore =>
            exact updated_again (.header Nat.one_lt_two (Nat.zero_le _) hstore)
      · next hlengthFlag =>
          exact receiveData_updated (by simpa using hlengthFlag) ch writeOk

theorem receiveChar_updated (upload : Upload) (ch : Byte) (writeOk : Bool) :
    Updated upload (receiveChar upload ch writeOk) := by
  unfold receiveChar receivePalint
  dsimp only
  split
  · exact updated_again (.kept (fun _ => List.not_mem_nil) (Nat.le_refl _) rfl)
  · split
    · split
      · split
        · exact updated_fault _ _
        · exact updated_leave _ _ _ _
      · exact (receiveQuestion_updated _ _ _).of_same rfl rfl rfl rfl
    · exact (receiveQuestion_updated _ _ _).of_same rfl rfl rfl rfl

theorem uploadBody_updated (upload : Upload) (input : Input) :
    Updated upload (uploadBody upload input) := by
  unfold uploadBody
  split
  · exact updated_leave _ _ _ _
  · split
    · exact receiveChar_updated _ _ _
    · dsimp only
      split
      · exact updated_leave _ _ _ _
      · exact (receiveChar_updated _ _ _).of_same rfl rfl rfl rfl

theorem Updates.counts {upload next : Upload} {events : List Event}
    (h : Updates upload events next) :
    next.num ≤ upload.num ∨ next.startReceive = true ∧ next.lengthFlag = false := by
  cases h with
  | kept _ hle => exact .inl hle
  | header _ hle => exact .inl hle
  | payload _ _ hcounts => exact hcounts
  | checked hle => exact .inl hle

end BBCodeBase.SerialComm
