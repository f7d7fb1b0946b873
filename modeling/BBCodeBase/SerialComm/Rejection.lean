import BBCodeBase.SerialComm.Frame

/-!
# What a rejected frame leaves behind

The reject path of `upload_data` restores the flags that say where a frame
stands, but not `palint`, `end_packet` and `print_char`.
-/

namespace BBCodeBase.SerialComm

open Reactive

/-! ## Observations -/

inductive Outcome where
  | waiting
  | returned (value : Int)
  | undefined
  deriving DecidableEq, Repr

def outcome {σ : Type} : Exit σ Return → Outcome
  | .again _ => .waiting
  | .done _ result => .returned result.value
  | .fault => .undefined

structure Observation where
  replies : List Byte
  stdout : List Byte
  file : List Byte
  dayFile : List Byte
  outcome : Outcome
  deriving DecidableEq, Repr

def observe {σ : Type} (pass : List Event × Exit σ Return) : Observation where
  replies := replies pass.1
  stdout := stdoutBytes pass.1
  file := fileBytes pass.1
  dayFile := dayFileBytes pass.1
  outcome := outcome pass.2

/-- Both states show the same on every continuation of the input. -/
def Indistinguishable {σ : Type} (body : Body σ Input Event Return)
    (first second : σ) : Prop :=
  ∀ inputs, observe (run body first inputs) = observe (run body second inputs)

theorem observe_eq_of_simulates {σ τ : Type} {related : σ → τ → Prop}
    {left : Body σ Input Event Return} {right : Body τ Input Event Return}
    (hsim : Simulates related left right) {state : σ} {image : τ}
    (hrel : related state image) (inputs : List Input) :
    observe (run left state inputs) = observe (run right image inputs) := by
  obtain ⟨hevents, hexit⟩ := hsim.run inputs hrel
  have houtcome : outcome (run left state inputs).2 =
      outcome (run right image inputs).2 := by
    generalize (run left state inputs).2 = first at hexit ⊢
    generalize (run right image inputs).2 = second at hexit ⊢
    cases hexit <;> rfl
  unfold observe
  rw [hevents, houtcome]

theorem indistinguishable_image {upload upload' : Upload}
    {receiver receiver' : Receiver} (hrep : Represents upload receiver)
    (hrep' : Represents upload' receiver') :
    Indistinguishable uploadBody upload upload' ↔
      Indistinguishable Receiver.body receiver receiver' := by
  refine forall_congr' fun inputs => ?_
  rw [observe_eq_of_simulates uploadBody_simulates hrep,
    observe_eq_of_simulates uploadBody_simulates hrep']

/-! ## Flags that no continuation can show -/

namespace Receiver

def flagged (receiver : Receiver) (endPacket printChar : Bool) : Receiver :=
  { receiver with endPacket := endPacket, printChar := printChar }

section Flagged

variable (receiver : Receiver) (endPacket printChar : Bool)

@[simp] theorem flagged_phase :
    (receiver.flagged endPacket printChar).phase = receiver.phase := rfl

@[simp] theorem flagged_palint :
    (receiver.flagged endPacket printChar).palint = receiver.palint := rfl

@[simp] theorem flagged_questionReceived :
    (receiver.flagged endPacket printChar).questionReceived =
      receiver.questionReceived := rfl

@[simp] theorem flagged_bailOut :
    (receiver.flagged endPacket printChar).bailOut = receiver.bailOut := rfl

end Flagged

/--
These flags, in place of the receiver's own, are never told apart: the record is
full, so that the next accepted frame leaves `final_char`, or an accepted frame
ends the upload in both cases, or only `print_char` was asked for and agrees.
-/
def Unread (receiver : Receiver) (endPacket printChar : Bool) : Prop :=
  receiver.record.length = 1000 ∨
    receiver.endPacket = endPacket ∧
      (receiver.endPacket = true ∨ receiver.printChar = printChar)

def Stored (receiver : Receiver) : Prop :=
  receiver.phase.inChecksum = true → receiver.phase.data ≠ []

inductive Alike : Receiver → Receiver → Prop
  | flagged {receiver : Receiver} {endPacket printChar : Bool} :
      receiver.Unread endPacket printChar → receiver.Stored →
      Alike receiver (receiver.flagged endPacket printChar)

def AlikePass (first second : Pass) : Prop :=
  first.1 = second.1 ∧ ExitRel Alike first.2 second.2

theorem Unread.mark {receiver : Receiver} {endPacket printChar : Bool}
    (h : receiver.Unread endPacket printChar) (ch : Byte) :
    (receiver.mark ch).Unread
      (endPacket || (ch == 0x45#8 && !receiver.phase.inChecksum))
      (printChar || ch == 0x0A#8 || ch == 0x0D#8) := by
  rcases h with hfull | ⟨hend, hprint⟩
  · exact .inl hfull
  · refine .inr ⟨?_, ?_⟩
    · simp only [Receiver.mark, hend]
    · rcases hprint with hended | hprint
      · exact .inl (by simp [Receiver.mark, hended])
      · exact .inr (by simp only [Receiver.mark, hprint])

theorem Alike.refl {receiver : Receiver} (h : receiver.Stored) :
    Alike receiver receiver :=
  @Alike.flagged receiver receiver.endPacket receiver.printChar
    (.inr ⟨rfl, .inr rfl⟩) h

theorem stored_of_idle {receiver : Receiver} (h : receiver.phase = .idle) :
    receiver.Stored := by
  intro hphase
  simp [h, Phase.inChecksum] at hphase

theorem settle_alike {receiver : Receiver} {endPacket printChar : Bool}
    (h : receiver.Unread endPacket printChar) {length : Byte} {data : List Byte}
    (hdata : data ≠ []) (first second : Byte) (writeOk : Bool) :
    AlikePass (receiver.settle length data first second writeOk)
      ((receiver.flagged endPacket printChar).settle length data first second
        writeOk) := by
  have hpos := List.length_pos_iff.mpr hdata
  unfold settle flagged
  dsimp only
  split
  · by_cases hroom : 1000 < (receiver.record ++ data).length
    · rw [if_pos hroom, if_pos hroom]
      exact ⟨rfl, .fault⟩
    · rw [if_neg hroom, if_neg hroom]
      rcases h with hfull | ⟨rfl, hprint⟩
      · simp only [List.length_append] at hroom
        omega
      · cases hended : receiver.endPacket with
        | true => exact ⟨rfl, .done _⟩
        | false =>
            obtain rfl : receiver.printChar = printChar := by
              simpa [hended] using hprint
            simp only [Bool.false_eq_true, if_false]
            split
            · exact ⟨rfl, .again (.refl (stored_of_idle rfl))⟩
            · exact ⟨rfl, .again (.refl (stored_of_idle rfl))⟩
  · refine ⟨rfl, .again ?_⟩
    exact @Alike.flagged { receiver with phase := .idle } endPacket printChar h
      (stored_of_idle rfl)

theorem take_alike {receiver : Receiver} {endPacket printChar : Bool}
    (h : receiver.Unread endPacket printChar) (hstored : receiver.Stored)
    (ch : Byte) (writeOk : Bool) :
    AlikePass (receiver.take ch writeOk)
      ((receiver.flagged endPacket printChar).take ch writeOk) := by
  have hmark : ∀ phase : Phase, (phase.inChecksum = true → phase.data ≠ []) →
      Alike { receiver.mark ch with phase := phase }
        { (receiver.flagged endPacket printChar).mark ch with phase := phase } :=
    fun phase hphase =>
      @Alike.flagged { receiver.mark ch with phase := phase } _ _ (h.mark ch) hphase
  have hmove : ∀ phase : Phase, (phase.inChecksum = true → phase.data ≠ []) →
      Alike { receiver with phase := phase }
        { receiver.flagged endPacket printChar with phase := phase } :=
    fun phase hphase =>
      @Alike.flagged { receiver with phase := phase } _ _ h hphase
  have hquestion : ∀ phase : Phase, (phase.inChecksum = true → phase.data ≠ []) →
      AlikePass (receiver.question phase writeOk)
        ((receiver.flagged endPacket printChar).question phase writeOk) := by
    intro phase hphase
    unfold question
    cases writeOk with
    | false => exact ⟨rfl, .done _⟩
    | true =>
        exact ⟨rfl, .again (@Alike.flagged
          { receiver with phase := phase, questionReceived := true } _ _ h hphase)⟩
  unfold take
  rw [flagged_phase]
  cases hcase : receiver.phase with
  | idle =>
      dsimp only
      split
      · exact hquestion _ (by simp [Phase.inChecksum])
      · split
        · exact ⟨rfl, .again (hmove _ (by simp [Phase.inChecksum]))⟩
        · exact ⟨rfl, .again (@Alike.flagged (receiver.mark ch) _ _ (h.mark ch)
            (stored_of_idle hcase))⟩
  | length => exact ⟨rfl, .again (hmove _ (by simp [Phase.inChecksum]))⟩
  | payload length data sofData =>
      dsimp only
      split
      · exact hquestion _ (by simp [Phase.inChecksum])
      · split
        · refine ⟨rfl, .again (hmove _ ?_)⟩
          split <;> simp [Phase.inChecksum]
        · split
          · exact ⟨rfl, .fault⟩
          · refine ⟨rfl, .again (hmark _ ?_)⟩
            split <;> simp [Phase.inChecksum, Phase.data]
  | checksum length data first =>
      have hdata : data ≠ [] := by
        have := hstored (by rw [hcase]; rfl)
        rwa [hcase] at this
      cases first with
      | none => exact ⟨rfl, .again (hmark _ (fun _ => hdata))⟩
      | some first => exact settle_alike (h.mark ch) hdata first ch writeOk

theorem receive_alike {receiver : Receiver} {endPacket printChar : Bool}
    (h : receiver.Unread endPacket printChar) (hstored : receiver.Stored)
    (ch : Byte) (writeOk : Bool) :
    AlikePass (receiver.receive ch writeOk)
      ((receiver.flagged endPacket printChar).receive ch writeOk) := by
  unfold receive count
  rw [flagged_phase, flagged_palint]
  split
  · exact ⟨rfl, .again (.flagged h hstored)⟩
  · split
    · split
      · exact ⟨rfl, .done _⟩
      · exact @take_alike { receiver with palint := receiver.palint + 1 } _ _ h hstored
          ch writeOk
    · exact @take_alike { receiver with palint := 0 } _ _ h hstored ch writeOk

theorem body_alike : Simulates Alike body body := by
  rintro receiver _ input ⟨hunread, hstored⟩
  change AlikePass _ _
  unfold body
  cases input.read.char with
  | none => exact ⟨rfl, .done _⟩
  | some ch =>
      dsimp only
      rw [flagged_questionReceived, flagged_bailOut]
      split
      · exact receive_alike hunread hstored ch input.writeOk
      · split
        · exact ⟨rfl, .done _⟩
        · exact @receive_alike { receiver with bailOut := receiver.bailOut + 1 } _ _
            hunread hstored ch input.writeOk

/-! ## Continuations that tell states apart -/

theorem run_hashes {receiver : Receiver} (hasked : receiver.questionReceived = true)
    (hidle : receiver.phase = .idle) (count : Nat) (h : receiver.palint + count < 4) :
    run body receiver (received (List.replicate count 0x23#8)) =
      ([], .again { receiver with palint := receiver.palint + count }) := by
  induction count generalizing receiver with
  | zero => rfl
  | succ count ih =>
      have hstep : RunCounter.step 0x23#8 4 receiver.palint 0x23#8 =
          some (receiver.palint + 1) := by
        unfold RunCounter.step
        rw [if_pos rfl, if_pos (by omega)]
      have hbody : receiver.body ⟨.byte 0x23#8, true⟩ =
          ([], .again { receiver with palint := receiver.palint + 1 }) := by
        rw [body_of_step hasked (.inl (by decide)) hstep]
        unfold take
        simp [hidle, mark]
      have hrest := @ih { receiver with palint := receiver.palint + 1 } hasked hidle
        (by simp; omega)
      rw [List.replicate_succ, received_cons, run_cons_again hbody, hrest]
      simp [Nat.add_assoc, Nat.add_comm 1]

theorem run_hashes_flushed {receiver : Receiver}
    (hasked : receiver.questionReceived = true) (hidle : receiver.phase = .idle)
    (count : Nat) (h : receiver.palint + count = 3) :
    ∃ last, run body receiver (received (List.replicate (count + 1) 0x23#8)) =
      ([.printf "thrown"], .done last .flushed) := by
  have hfirst := run_hashes hasked hidle count (by omega)
  have hstep : RunCounter.step 0x23#8 4 (receiver.palint + count) 0x23#8 = none := by
    unfold RunCounter.step
    rw [if_pos rfl, if_neg (by omega)]
  have hlast := @body_of_step_none { receiver with palint := receiver.palint + count }
    0x23#8 hasked hstep true
  refine ⟨{ receiver with palint := receiver.palint + count }, ?_⟩
  rw [List.replicate_succ', received_append, run_append hfirst, received_cons,
    received_nil, run_singleton, hlast]
  rfl

theorem palint_le_of_indistinguishable {first second : Receiver}
    (hfirst : first.questionReceived = true) (hidle : first.phase = .idle)
    (hsecond : second.questionReceived = true) (hidle' : second.phase = .idle)
    (hlt : second.palint < 4) (h : Indistinguishable body first second) :
    second.palint ≤ first.palint := by
  by_contra hless
  have hwaits := run_hashes hfirst hidle (4 - second.palint) (by omega)
  obtain ⟨last, hflushed⟩ := run_hashes_flushed hsecond hidle' (3 - second.palint) (by omega)
  have hsame := h (received (List.replicate (4 - second.palint) 0x23#8))
  rw [hwaits, show 4 - second.palint = 3 - second.palint + 1 by omega, hflushed] at hsame
  have houtcome := congrArg Observation.outcome hsame
  simp [observe, outcome] at houtcome

theorem letter_getsThrough {oldLength : Nat} (h : oldLength < 1000) :
    GetsThrough oldLength [0x41#8] :=
  ⟨by decide, by decide +kernel, h⟩

theorem observe_letter {receiver : Receiver}
    (hasked : receiver.questionReceived = true) (hidle : receiver.phase = .idle)
    (hroom : receiver.record.length < 1000) :
    ((observe (run body receiver (received (wire [0x41#8])))).outcome = .waiting ↔
      receiver.endPacket = false) ∧
    (receiver.endPacket = false →
      ((observe (run body receiver (received (wire [0x41#8])))).stdout = [] ↔
        receiver.printChar = false)) := by
  rw [run_wire hasked hidle (by decide) (by decide) (letter_getsThrough hroom)]
  have hflags : ([0x41#8].any (· == 0x45#8)) = false ∧
      hasNewline ([0x41#8] ++ [crcLow (frameFor [0x41#8]), crcHigh (frameFor [0x41#8])]) =
        false := by
    decide +kernel
  unfold accept
  simp only [hflags, Bool.or_false]
  cases receiver.endPacket with
  | true => simp [observe, outcome]
  | false =>
      cases receiver.printChar with
      | true =>
          have htext := (adds_printRecord true (receiver.record ++ [0x41#8])).stdout rfl
          have hstdout : stdoutBytes
              ([.crc (frameFor [0x41#8]), .ack [0x41#8]] ++
                (receiver.record ++ [0x41#8]).flatMap printRecordChar) =
              recordText receiver.record ++ [0x41#8] := by
            rw [stdoutBytes_append, htext, recordText_append]
            rfl
          simp only [Bool.false_eq_true, if_false, if_true, observe, outcome, hstdout]
          simp
      | false => simp [observe, outcome, stdoutBytes, Event.stdout]

theorem indistinguishable_iff {receiver : Receiver} {palint : Nat}
    {endSeen newlineSeen : Bool} (hasked : receiver.questionReceived = true)
    (hidle : receiver.phase = .idle) (hlt : receiver.palint < 4) (hpalint : palint < 4)
    (hroom : receiver.record.length ≤ 1000) :
    Indistinguishable body receiver
        ({ receiver with palint := palint }.flagged (receiver.endPacket || endSeen)
          (receiver.printChar || newlineSeen)) ↔
      receiver.palint = palint ∧
        (receiver.record.length = 1000 ∨
          (endSeen = true → receiver.endPacket = true) ∧
          (newlineSeen = true → receiver.printChar = true ∨ receiver.endPacket = true)) := by
  constructor
  · intro h
    have hle := palint_le_of_indistinguishable hasked hidle (by exact hasked)
      (by exact hidle) (by exact hpalint) h
    have hge := palint_le_of_indistinguishable (by exact hasked) (by exact hidle) hasked
      hidle hlt (fun inputs => (h inputs).symm)
    refine ⟨Nat.le_antisymm hge hle, ?_⟩
    by_cases hfull : receiver.record.length = 1000
    · exact .inl hfull
    · obtain ⟨hwaits, hprints⟩ := observe_letter hasked hidle (by omega)
      obtain ⟨hwaits', hprints'⟩ := @observe_letter
        ({ receiver with palint := palint }.flagged (receiver.endPacket || endSeen)
          (receiver.printChar || newlineSeen)) hasked hidle (by simp [flagged]; omega)
      rw [h, hwaits'] at hwaits
      rw [h] at hprints
      refine .inr ?_
      cases hended : receiver.endPacket with
      | true => exact ⟨fun _ => rfl, fun _ => .inr rfl⟩
      | false =>
          have hendSeen : endSeen = false := by
            simpa [flagged, hended] using hwaits
          have hnewline := (hprints' (by simp [flagged, hended, hendSeen])).symm.trans
            (hprints hended)
          refine ⟨by simp [hendSeen], fun hseen => .inl ?_⟩
          simpa [flagged, hseen] using hnewline
  · rintro ⟨rfl, hflags⟩
    have hunread : receiver.Unread (receiver.endPacket || endSeen)
        (receiver.printChar || newlineSeen) := by
      rcases hflags with hfull | ⟨hend, hnewline⟩
      · exact .inl hfull
      · refine .inr ⟨?_, ?_⟩
        · cases endSeen with
          | true => simp [hend rfl]
          | false => simp
        · cases newlineSeen with
          | true => exact (hnewline rfl).symm.imp id fun hprint => by simp [hprint]
          | false => simp
    exact fun inputs => observe_eq_of_simulates body_alike
      (.flagged hunread (stored_of_idle hidle)) inputs

end Receiver

/-! ## Rejected frames -/

/--
Sent to a machine in this state, the frame is answered only at its last byte,
after the check of its CRC, with `'&'`; the machine is then in state `next`.
-/
def Rejected {σ : Type} (body : Body σ Input Event Return) (state : σ)
    (length : Byte) (data : List Byte) (first second : Byte) (writeOk : Bool)
    (next : σ) : Prop :=
  ∃ waiting,
    run body state (received (frameOf length data ++ [first])) = ([], .again waiting) ∧
    body waiting ⟨.byte second, writeOk⟩ =
      (.crc (frameOf length data) :: .write 0x26#8 :: replyFailed writeOk, .again next)

theorem Rejected.image {σ τ : Type} {related : σ → τ → Prop}
    {left : Body σ Input Event Return} {right : Body τ Input Event Return}
    (hsim : Simulates related left right) {state next : σ} {image : τ}
    (hrel : related state image) {length first second : Byte} {data : List Byte}
    {writeOk : Bool} (h : Rejected left state length data first second writeOk next) :
    ∃ final, Rejected right image length data first second writeOk final ∧
      related next final := by
  obtain ⟨waiting, hopening, hlast⟩ := h
  obtain ⟨waiting', hopening', hwaiting⟩ := hsim.run_again hrel hopening
  rw [← run_singleton left] at hlast
  obtain ⟨final, hfinal, hnext⟩ := hsim.run_again hwaiting hlast
  rw [run_singleton] at hfinal
  exact ⟨final, ⟨waiting', hopening', hfinal⟩, hnext⟩

namespace Receiver

theorem eq_of_rejected {receiver next : Receiver} {length first second : Byte}
    {data : List Byte} {writeOk : Bool} (hasked : receiver.questionReceived = true)
    (hidle : receiver.phase = .idle) (hne : data ≠ [])
    (hlength : data.length + 2 = length.toNat)
    (h : Rejected body receiver length data first second writeOk next) :
    ((frameOf length data ++ [first, second]).rtakeWhile (· = 0x23#8)).length < 4 ∧
    next = { receiver with
        palint := ((frameOf length data ++ [first, second]).rtakeWhile
          (· = 0x23#8)).length }.flagged
      (receiver.endPacket || data.any (· == 0x45#8))
      (receiver.printChar || hasNewline (data ++ [first, second])) := by
  obtain ⟨waiting, hopening, hlast⟩ := h
  have hcrc : Event.crc (frameOf length data) ∈
      (waiting.body ⟨.byte second, writeOk⟩).1 := by
    rw [hlast]
    exact List.mem_cons_self
  obtain ⟨palint, last, hcount, hstep, rfl⟩ :=
    opened_of_settled hasked hidle hne hlength hopening hcrc
  have hclosed := RunCounter.count_concat_pair_iff.mpr ⟨palint, hcount, hstep⟩
  have hframe : RunCounter.count 0x23#8 4 0 (frameOf length data ++ [first, second]) =
      some last :=
    (RunCounter.count_cons_of_step (if_neg (by decide)) _).trans hclosed
  rw [← RunCounter.count_zero_eq hframe]
  refine ⟨RunCounter.count_lt (by decide) hframe, ?_⟩
  rw [body_opened hasked hstep] at hlast
  unfold settle at hlast
  dsimp only at hlast
  split at hlast
  · split at hlast
    · simp at hlast
    · split at hlast
      · simp at hlast
      · split at hlast <;> simp at hlast
  · obtain rfl := (again_inj hlast).2
    simp [closed, flagged, hidle]

end Receiver

/--
A rejected frame goes unnoticed by every continuation if and only if `palint` was
already the number of `'#'` that the frame ends with, and the record is full or
the flags that the frame sets were set already.
-/
theorem rejected_unnoticed_iff (upload rejected : Upload) (hreach : Reachable upload)
    (hidle : upload.Idle) (length first second : Byte) (data : List Byte)
    (writeOk : Bool) (hne : data ≠ []) (hlength : data.length + 2 = length.toNat)
    (h : Rejected uploadBody upload length data first second writeOk rejected) :
    Indistinguishable uploadBody upload rejected ↔
      upload.palint =
          ((frameOf length data ++ [first, second]).rtakeWhile (· = 0x23#8)).length ∧
        (upload.oldLength = 1000 ∨
          (0x45#8 ∈ data → upload.endPacket = true) ∧
          (hasNewline (data ++ [first, second]) = true →
            upload.printChar = true ∨ upload.endPacket = true)) := by
  obtain ⟨receiver, hrep⟩ := hreach.represented
  obtain ⟨hasked, hphase⟩ := hrep.idle hidle
  obtain ⟨next, hnext, hrep'⟩ := h.image uploadBody_simulates hrep
  obtain ⟨hfew, rfl⟩ := Receiver.eq_of_rejected hasked hphase hne hlength hnext
  obtain ⟨hrecord, hold, hpalint, hprint, hend, -⟩ := hrep.vars
  have hlt : receiver.palint < 4 := hpalint ▸ hreach.palint_lt
  have hroom : receiver.record.length ≤ 1000 := by
    by_cases hempty : receiver.record = []
    · simp [hempty]
    · have := hrecord.length_le hempty
      omega
  have hmem : data.any (· == 0x45#8) = true ↔ 0x45#8 ∈ data := by
    rw [List.any_beq', List.contains_eq_mem]
    simp
  rw [indistinguishable_image hrep hrep',
    Receiver.indistinguishable_iff hasked hphase hlt hfew hroom, hold, hpalint, hprint,
    hend, hmem]

/-- A rejected frame with payload `A`, sent at the start of a call. -/
theorem rejected_unnoticed_iff_letter :
    ∃ upload rejected, Reachable upload ∧ upload.Idle ∧
      Rejected uploadBody upload 3#8 [0x41#8] 0#8 0#8 true rejected ∧
      Indistinguishable uploadBody upload rejected := by
  obtain ⟨upload, hrep, hreach, hidle⟩ := exists_asked ⟨fun _ => 0#8⟩
  have himage : Rejected Receiver.body ⟨.idle, [], 0, false, false, true, 1⟩ 3#8 [0x41#8]
      0#8 0#8 true ⟨.idle, [], 0, false, false, true, 1⟩ :=
    ⟨⟨.checksum 3#8 [0x41#8] (some 0#8), [], 0, false, false, true, 1⟩,
      by decide +kernel, by decide +kernel⟩
  obtain ⟨rejected, hrejected, -⟩ := himage.image uploadBody_simulates.symm hrep
  obtain ⟨-, -, hpalint, -⟩ := hrep.vars
  refine ⟨upload, rejected, hreach, hidle, hrejected,
    (rejected_unnoticed_iff upload rejected hreach hidle 3#8 0#8 0#8 [0x41#8] true
      (by decide) (by decide) hrejected).mpr ⟨?_, .inr ⟨?_, ?_⟩⟩⟩
  · rw [hpalint]
    decide
  · intro hend
    exact absurd hend (by decide)
  · intro hnewline
    exact absurd hnewline (by decide)

/-- The `'E'` of a rejected frame ends the upload at the next accepted frame. -/
theorem not_rejected_unnoticed :
    ¬ ∀ upload rejected length first second data writeOk,
        Reachable upload → upload.Idle → data ≠ [] →
        data.length + 2 = BitVec.toNat length →
        Rejected uploadBody upload length data first second writeOk rejected →
        Indistinguishable uploadBody upload rejected := by
  intro h
  obtain ⟨upload, hrep, hreach, hidle⟩ := exists_asked ⟨fun _ => 0#8⟩
  have himage : Rejected Receiver.body ⟨.idle, [], 0, false, false, true, 1⟩ 3#8 [0x45#8]
      0#8 0#8 true ⟨.idle, [], 0, false, true, true, 1⟩ :=
    ⟨⟨.checksum 3#8 [0x45#8] (some 0#8), [], 0, false, true, true, 1⟩,
      by decide +kernel, by decide +kernel⟩
  obtain ⟨rejected, hrejected, hrep'⟩ := himage.image uploadBody_simulates.symm hrep
  have hsame := h upload rejected 3#8 0#8 0#8 [0x45#8] true hreach hidle (by decide)
    (by decide) hrejected
  rw [indistinguishable_image hrep hrep'] at hsame
  exact absurd (hsame (received (wire [0x41#8]))) (by decide +kernel)

end BBCodeBase.SerialComm
