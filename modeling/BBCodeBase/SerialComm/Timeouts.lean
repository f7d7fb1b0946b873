import BBCodeBase.SerialComm.Acknowledgement
import BBCodeBase.SerialComm.Rejection

/-!
# Time-outs

A time-out leaves 0 in `ch`.  The test that skips it is switched off while
`chksum_flag` is set, and then the 0 is stored as a checksum byte.
-/

namespace BBCodeBase.SerialComm

open Reactive

def Timeouts (inputs : List Input) : Prop := ∀ input ∈ inputs, input.read = .timeout

/--
Of time-outs inserted in front of the inputs of a stream, all come while
`chksum_flag` is 0.
-/
def OutsideChecksum (upload : Upload) (steps : List (List Input × Input)) : Prop :=
  Along (fun upload step => uploadBody upload step.2)
    (fun upload step => step.1 ≠ [] → upload.chksumFlag = false) upload steps

theorem uploadBody_timeout {upload : Upload} {input : Input}
    (hasked : upload.questionReceived = true) (hchksum : upload.chksumFlag = false)
    (hread : input.read = .timeout) :
    uploadBody upload input = ([], .again upload) := by
  unfold uploadBody
  simp only [hread, ReadResult.char, hasked, if_true]
  unfold receiveChar
  rw [if_pos ⟨rfl, hchksum⟩]

namespace Receiver

theorem body_timeout {receiver : Receiver} {input : Input}
    (hasked : receiver.questionReceived = true)
    (hphase : receiver.phase.inChecksum = false) (hread : input.read = .timeout) :
    receiver.body input = ([], .again receiver) := by
  unfold body
  simp only [hread, ReadResult.char, hasked, if_true]
  unfold receive
  rw [if_pos ⟨rfl, hphase⟩]

/-! ## Bytes in the checksum phase -/

theorem takes_checksum {receiver : Receiver} {length : Byte} {data : List Byte}
    {first : Option Byte} {input : Input} {ch : Byte}
    (hasked : receiver.questionReceived = true)
    (hphase : receiver.phase = .checksum length data first)
    (hread : input.read.char = some ch) (hhash : ch ≠ 0x23#8) :
    receiver.Takes input ch :=
  ⟨hread, .inl hasked, fun _ => by rw [hphase]; rfl, fun h => absurd h hhash⟩

theorem body_checksum_first {receiver : Receiver} {length : Byte} {data : List Byte}
    {input : Input} {ch : Byte} (hasked : receiver.questionReceived = true)
    (hphase : receiver.phase = .checksum length data none)
    (hread : input.read.char = some ch) (hhash : ch ≠ 0x23#8) :
    ∃ next, receiver.body input = ([], .again next) ∧
      next.phase = .checksum length data (some ch) ∧ next.questionReceived = true := by
  rw [body_takes (takes_checksum hasked hphase hread hhash)]
  unfold take
  simp only [counted, hphase]
  exact ⟨_, rfl, rfl, hasked⟩

theorem replies_checksum_second {receiver : Receiver} {length first : Byte}
    {data : List Byte} {input : Input} {ch : Byte}
    (hasked : receiver.questionReceived = true)
    (hphase : receiver.phase = .checksum length data (some first))
    (hread : input.read.char = some ch) (hhash : ch ≠ 0x23#8) :
    replies (receiver.body input).1 =
      if crcLow (frameOf length data) = first ∧ crcHigh (frameOf length data) = ch then
        [0x2A#8]
      else [0x26#8] := by
  rw [body_settles hphase (takes_checksum hasked hphase hread hhash)]
  exact settle_replies _ _ _ _ _ _

theorem body_mismatch {receiver : Receiver} {length first : Byte}
    {data : List Byte} {input : Input} {ch : Byte}
    (hasked : receiver.questionReceived = true)
    (hphase : receiver.phase = .checksum length data (some first))
    (hread : input.read.char = some ch) (hhash : ch ≠ 0x23#8)
    (hmismatch : ¬ (crcLow (frameOf length data) = first ∧
      crcHigh (frameOf length data) = ch)) :
    ∃ events next, receiver.body input = (events, .again next) ∧
      replies events = [0x26#8] ∧ next.phase = .idle ∧ next.questionReceived = true := by
  have hreplies := replies_checksum_second hasked hphase hread hhash
  rw [if_neg hmismatch] at hreplies
  rw [body_settles hphase (takes_checksum hasked hphase hread hhash)] at hreplies ⊢
  rw [settle_mismatch hmismatch] at hreplies ⊢
  exact ⟨_, _, rfl, hreplies, rfl, hasked⟩

theorem body_idle_question {receiver : Receiver}
    (hasked : receiver.questionReceived = true) (hphase : receiver.phase = .idle) :
    ∃ next, receiver.body ⟨.byte 0x3F#8, true⟩ = ([.write 0x55#8], .again next) := by
  have htakes : receiver.Takes ⟨.byte 0x3F#8, true⟩ 0x3F#8 :=
    ⟨rfl, .inl hasked, nofun, nofun⟩
  rw [body_takes htakes]
  unfold take
  simp only [counted, hphase, if_true]
  exact ⟨_, rfl⟩

/-- After a wrong checksum byte the receiver is idle again and answers `'?'`. -/
theorem run_mismatch_question {receiver : Receiver} {length first : Byte}
    {data : List Byte} {input : Input} {ch : Byte} {timeouts : List Input}
    (hasked : receiver.questionReceived = true)
    (hphase : receiver.phase = .checksum length data (some first))
    (hread : input.read.char = some ch) (hhash : ch ≠ 0x23#8)
    (hmismatch : ¬ (crcLow (frameOf length data) = first ∧
      crcHigh (frameOf length data) = ch)) (htimeouts : Timeouts timeouts) :
    replies (run body receiver (input :: (timeouts ++ [⟨.byte 0x3F#8, true⟩]))).1 =
      [0x26#8, 0x55#8] := by
  obtain ⟨events, next, hbody, hreplies, hidle, hasked'⟩ :=
    body_mismatch hasked hphase hread hhash hmismatch
  obtain ⟨last, hquestion⟩ := body_idle_question hasked' hidle
  have hskipped : run body next (timeouts ++ [⟨.byte 0x3F#8, true⟩]) =
      ([.write 0x55#8], .again last) := by
    rw [run_unnoticed, run_singleton, hquestion]
    intro other hother
    exact body_timeout hasked' (by rw [hidle]; rfl) (htimeouts other hother)
  rw [run_cons_again hbody, hskipped, replies_append, hreplies]
  rfl

theorem replies_second_question {receiver : Receiver} {length first : Byte}
    {data : List Byte} (hasked : receiver.questionReceived = true)
    (hphase : receiver.phase = .checksum length data (some first)) :
    (replies (run body receiver [⟨.byte 0x3F#8, true⟩]).1).length = 1 := by
  have hplain := @replies_checksum_second receiver length first data
    ⟨.byte 0x3F#8, true⟩ 0x3F#8 hasked hphase rfl (by decide)
  rw [run_singleton, hplain]
  split <;> rfl

/-! ## A time-out in the checksum phase shows -/

theorem run_replies_cons (receiver : Receiver) (input : Input) (rest : List Input) :
    ∃ later, replies (run body receiver (input :: rest)).1 =
      replies (receiver.body input).1 ++ later := by
  obtain ⟨later, hlater⟩ := run_cons_events body receiver input rest
  exact ⟨replies later, by rw [hlater, replies_append]⟩

/-- Zeros that complete the frame are answered before the rest of the stream is read. -/
theorem second_timeout_shows {receiver : Receiver} {length first : Byte}
    {data : List Byte} {timeout : Input} {timeouts : List Input}
    (hasked : receiver.questionReceived = true)
    (hphase : receiver.phase = .checksum length data (some first))
    (hread : timeout.read = .timeout) (hreads : Timeouts timeouts) :
    ∃ ch, replies (run body receiver (timeout :: timeouts ++ [⟨.byte ch, true⟩])).1 ≠
      replies (run body receiver [⟨.byte ch, true⟩]).1 := by
  have hchar : timeout.read.char = some 0#8 := by rw [hread]; rfl
  by_cases hmatch : crcLow (frameOf length data) = first ∧
      crcHigh (frameOf length data) = 0#8
  · -- the zero is right, so that a 1 in its place is wrong
    refine ⟨1#8, ?_⟩
    obtain ⟨later, hpadded⟩ :=
      run_replies_cons receiver timeout (timeouts ++ [⟨.byte 1#8, true⟩])
    rw [replies_checksum_second hasked hphase hchar (by decide), if_pos hmatch] at hpadded
    have hplain := @replies_checksum_second receiver length first data
      ⟨.byte 1#8, true⟩ 1#8 hasked hphase rfl (by decide)
    rw [if_neg (by rintro ⟨-, h⟩; simp [hmatch.2] at h)] at hplain
    rw [List.cons_append, hpadded, run_singleton, hplain]
    simp
  · refine ⟨0x3F#8, fun heq => ?_⟩
    have hlength := congrArg List.length heq
    rw [List.cons_append, run_mismatch_question hasked hphase hchar (by decide) hmatch hreads,
      replies_second_question hasked hphase] at hlength
    cases hlength

theorem timeout_shows {receiver : Receiver} {timeouts : List Input}
    (hasked : receiver.questionReceived = true)
    (hchecksum : receiver.phase.inChecksum = true) (hreads : Timeouts timeouts)
    (hsome : timeouts ≠ []) :
    ∃ rest, rest ≠ [] ∧
      replies (run body receiver (timeouts ++ rest)).1 ≠
        replies (run body receiver rest).1 := by
  obtain ⟨timeout, timeouts, rfl⟩ := List.exists_cons_of_ne_nil hsome
  have hread : timeout.read = .timeout := hreads timeout List.mem_cons_self
  have hchar : timeout.read.char = some 0#8 := by rw [hread]; rfl
  have htail : Timeouts timeouts :=
    fun input hinput => hreads input (List.mem_cons_of_mem _ hinput)
  cases hphase : receiver.phase with
  | checksum length data first =>
      cases first with
      | some first =>
          obtain ⟨ch, hne⟩ := second_timeout_shows hasked hphase hread htail
          exact ⟨_, by simp, hne⟩
      | none =>
          obtain ⟨next, hbody, hnext, hasked'⟩ :=
            body_checksum_first hasked hphase hchar (by decide)
          cases timeouts with
          | nil =>
              -- some byte is wrong behind a zero
              obtain ⟨ch, hhash, hwrong⟩ : ∃ ch : Byte, ch ≠ 0x23#8 ∧
                  crcHigh (frameOf length data) ≠ ch := by
                by_cases hone : crcHigh (frameOf length data) = 1#8
                · exact ⟨2#8, by decide, by rw [hone]; decide⟩
                · exact ⟨1#8, by decide, hone⟩
              obtain ⟨other, hplain, hother, hasked''⟩ :=
                @body_checksum_first receiver length data ⟨.byte ch, true⟩ ch hasked hphase
                  rfl hhash
              refine ⟨[⟨.byte ch, true⟩, ⟨.byte 0x3F#8, true⟩], by simp, fun heq => ?_⟩
              have hpadded := @run_mismatch_question next length 0#8 data
                ⟨.byte ch, true⟩ ch [] hasked' hnext rfl hhash (fun h => hwrong h.2)
                (by simp [Timeouts])
              rw [List.singleton_append, run_cons_again hbody, List.nil_append] at heq
              rw [run_cons_again hplain] at heq
              have hlength := congrArg List.length heq
              rw [List.nil_append] at hpadded hlength
              rw [hpadded] at hlength
              have hone := hlength.trans (replies_second_question hasked'' hother)
              cases hone
          | cons second timeouts =>
              -- two zeros are answered, one byte is not
              have hsecond : second.read.char = some 0#8 := by
                rw [htail second List.mem_cons_self]
                rfl
              obtain ⟨other, hplain, -, -⟩ := @body_checksum_first receiver length data
                ⟨.byte 1#8, true⟩ 1#8 hasked hphase rfl (by decide)
              refine ⟨[⟨.byte 1#8, true⟩], by simp, fun heq => ?_⟩
              obtain ⟨later, hpadded⟩ :=
                run_replies_cons next second (timeouts ++ [⟨.byte 1#8, true⟩])
              rw [replies_checksum_second hasked' hnext hsecond (by decide)] at hpadded
              rw [List.cons_append, List.cons_append, run_cons_again hbody, List.nil_append,
                hpadded, run_singleton, hplain] at heq
              split at heq <;> simp [replies] at heq
  | idle => simp [hphase, Phase.inChecksum] at hchecksum
  | length => simp [hphase, Phase.inChecksum] at hchecksum
  | payload => simp [hphase, Phase.inChecksum] at hchecksum

theorem body_asked {receiver next : Receiver} {input : Input} {events : List Event}
    (hasked : receiver.questionReceived = true)
    (h : receiver.body input = (events, .again next)) : next.questionReceived = true := by
  cases body_continues h with
  | taken _ htake => exact (take_kept htake).2 hasked
  | skipped => exact hasked

end Receiver

theorem along_unnoticed {upload : Upload} {receiver : Receiver}
    {steps : List (List Input × Input)} (hrep : Represents upload receiver)
    (hasked : receiver.questionReceived = true)
    (htimeouts : ∀ step ∈ steps, Timeouts step.1)
    (h : OutsideChecksum upload steps) :
    Along (fun upload step => uploadBody upload step.2)
      (fun upload step => ∀ input ∈ step.1, uploadBody upload input = ([], .again upload))
      upload steps := by
  induction steps generalizing upload receiver with
  | nil => exact trivial
  | cons step steps ih =>
      obtain ⟨hcondition, hrest⟩ := h
      have hquestion : upload.questionReceived = true :=
        hrep.vars.2.2.2.2.2.1.trans hasked
      constructor
      · intro input hinput
        apply uploadBody_timeout hquestion
        · exact hcondition (List.ne_nil_of_mem hinput)
        · exact htimeouts step List.mem_cons_self input hinput
      · intro events next hbody
        obtain ⟨-, hexit⟩ := uploadBody_simulates upload receiver step.2 hrep
        rw [show uploadBody upload step.2 = (events, .again next) from hbody] at hexit
        generalize hpass : receiver.body step.2 = pass at hexit
        obtain ⟨events', exit⟩ := pass
        cases hexit with
        | again hrep' =>
            exact ih hrep' (Receiver.body_asked hasked hpass)
              (fun other hother => htimeouts other (List.mem_cons_of_mem _ hother))
              (hrest events next hbody)

/--
After `'?'`, time-outs in front of further input pass unnoticed, however the
stream continues, if and only if `chksum_flag` is 0; and a stream in which all
time-outs come so shows what it shows without them.
-/
theorem timeouts_unnoticed_iff (upload : Upload) (hreach : Reachable upload)
    (hasked : upload.questionReceived = true) :
    (∀ timeouts, Timeouts timeouts → timeouts ≠ [] →
      ((∀ rest, rest ≠ [] → observe (run uploadBody upload (timeouts ++ rest)) =
          observe (run uploadBody upload rest)) ↔
        upload.chksumFlag = false)) ∧
    ∀ steps : List (List Input × Input), (∀ step ∈ steps, Timeouts step.1) →
      OutsideChecksum upload steps →
      observe (run uploadBody upload (padded steps)) =
        observe (run uploadBody upload (steps.map Prod.snd)) := by
  obtain ⟨receiver, hrep⟩ := hreach.represented
  have hquestion : receiver.questionReceived = true :=
    hrep.vars.2.2.2.2.2.1.symm.trans hasked
  refine ⟨fun timeouts htimeouts hsome => ⟨fun hsame => ?_, fun hchksum rest _ => ?_⟩,
    fun steps htimeouts halong => ?_⟩
  · by_contra hchksum
    have hchecksum : receiver.phase.inChecksum = true := by
      rw [← hrep.phase.chksumFlag]
      simpa using hchksum
    obtain ⟨rest, hrest, hshows⟩ :=
      Receiver.timeout_shows hquestion hchecksum htimeouts hsome
    have heq := hsame rest hrest
    rw [observe_eq_of_simulates uploadBody_simulates hrep,
      observe_eq_of_simulates uploadBody_simulates hrep] at heq
    exact hshows (congrArg Observation.replies heq)
  · rw [run_unnoticed]
    intro input hinput
    exact uploadBody_timeout hasked hchksum (htimeouts input hinput)
  · rw [run_padded (along_unnoticed hrep hquestion htimeouts halong)]

/-- Time-outs between frames. -/
theorem timeouts_unnoticed_iff_idle :
    ∃ upload, Reachable upload ∧ upload.questionReceived = true ∧
      ∀ rest, rest ≠ [] →
        observe (run uploadBody upload ([⟨.timeout, true⟩, ⟨.timeout, true⟩] ++ rest)) =
          observe (run uploadBody upload rest) := by
  obtain ⟨upload, hrep, hreach, hidle⟩ := exists_asked ⟨fun _ => 0#8⟩
  have hunnoticed := (timeouts_unnoticed_iff upload hreach hidle.questionReceived).1
    [⟨.timeout, true⟩, ⟨.timeout, true⟩] (by simp [Timeouts]) (by simp)
  exact ⟨upload, hreach, hidle.questionReceived, hunnoticed.mpr hidle.chksumFlag⟩

/-- A time-out in front of the checksum of the frame `A` is its first checksum byte. -/
theorem not_timeouts_unnoticed :
    ¬ ∀ upload timeouts rest, Reachable upload → upload.questionReceived = true →
        Timeouts timeouts → rest ≠ [] →
        observe (run uploadBody upload (timeouts ++ rest)) =
          observe (run uploadBody upload rest) := by
  intro h
  obtain ⟨receiver, hreceiver⟩ : ∃ receiver : Receiver,
      receiver = ⟨.checksum 3#8 [0x41#8] none, [], 0, false, false, true, 1⟩ := ⟨_, rfl⟩
  have hrun : run Receiver.body .start (received [0x3F#8, 0x24#8, 3#8, 0x41#8]) =
      ([.write 0x55#8], .again receiver) := by
    rw [hreceiver]
    decide
  obtain ⟨upload, hrep, hcall⟩ := uploadData_of_again ⟨fun _ => 0#8⟩ true hrun
  have hasked : upload.questionReceived = true := by
    rw [hrep.vars.2.2.2.2.2.1, hreceiver]
  have heq := h upload [⟨.timeout, true⟩] (received [115#8, 223#8]) ⟨_, _, _, _, hcall⟩
    hasked (by simp [Timeouts]) (by simp)
  rw [observe_eq_of_simulates uploadBody_simulates hrep,
    observe_eq_of_simulates uploadBody_simulates hrep, hreceiver] at heq
  revert heq
  decide +kernel

end BBCodeBase.SerialComm
