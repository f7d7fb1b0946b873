import BBCodeBase.SerialComm.Bounds
import BBCodeBase.SerialComm.Flush
import BBCodeBase.SerialComm.Timeouts
import BBCodeBase.SerialComm.Timer

/-!
# Silence

What becomes of an upload when every further `read` times out.  Before `'?'`
each pass counts towards `bail_out`, so the upload is given up.  After it a
time-out does nothing outside a checksum, and in a checksum it is a zero byte:
at most the frame in progress is completed, and only an accepted END packet
ends the loop.
-/

namespace BBCodeBase.SerialComm

open Reactive

namespace Receiver

/-! ## Before `'?'` -/

structure Waiting (receiver : Receiver) : Prop where
  unasked : receiver.questionReceived = false
  collected : receiver.record.length + receiver.phase.data.length ≤ receiver.bailOut
  inTime : receiver.bailOut ≤ 25

def Early (receiver : Receiver) : Prop :=
  receiver.questionReceived = false → receiver.Waiting

theorem settle_counts {receiver next : Receiver} {length : Byte} {data : List Byte}
    {first second : Byte} {writeOk : Bool} {events : List Event}
    (h : receiver.settle length data first second writeOk = (events, .again next)) :
    next.bailOut = receiver.bailOut ∧
      next.record.length ≤ receiver.record.length + data.length := by
  simp only [settle] at h
  split at h
  · split at h
    · simp at h
    · split at h
      · simp at h
      · split at h
        · obtain ⟨rfl, rfl⟩ := again_inj h
          simp
        · obtain ⟨rfl, rfl⟩ := again_inj h
          simp
  · obtain ⟨rfl, rfl⟩ := again_inj h
    simp

/-- A byte that is taken adds at most itself to what has been collected. -/
theorem take_collects {receiver next : Receiver} {ch : Byte} {writeOk : Bool}
    {events : List Event} (h : receiver.take ch writeOk = (events, .again next)) :
    next.bailOut = receiver.bailOut ∧
      next.record.length + next.phase.data.length ≤
        receiver.record.length + receiver.phase.data.length + 1 := by
  cases take_taken h with
  | asked hphases hquestion =>
      rw [question_kept hquestion]
      refine ⟨rfl, ?_⟩
      rcases hphases with ⟨-, rfl⟩ | ⟨_, _, _, -, rfl⟩
      · simp only [Phase.data, List.length_nil]
        omega
      · simp only [Phase.data, List.length_nil]
        omega
  | opened hphase => simp [Phase.data]; omega
  | ignored hphase => simp [mark, hphase, Phase.data]
  | sized hphase => simp [Phase.data]; omega
  | restarted hphase =>
      refine ⟨rfl, ?_⟩
      dsimp only
      split
      · simp only [Phase.data, List.length_nil]
        omega
      · simp only [hphase, Phase.data]
        omega
  | stored hphase =>
      refine ⟨rfl, ?_⟩
      dsimp only [mark]
      split <;> simp only [hphase, Phase.data, List.length_append, List.length_singleton] <;>
        omega
  | checked hphase =>
      refine ⟨rfl, ?_⟩
      simp only [mark, hphase, Phase.data]
      omega
  | settled hphase hsettle =>
      obtain ⟨hbail, hrecord⟩ := settle_counts hsettle
      refine ⟨hbail, ?_⟩
      rw [settle_idle hsettle, hphase]
      simp only [mark, Phase.data, List.length_nil] at hrecord ⊢
      omega

/-- While `'?'` is awaited a pass that goes on counts, and collects at most one byte. -/
theorem body_collects {receiver next : Receiver} {input : Input} {events : List Event}
    (hunasked : receiver.questionReceived = false)
    (h : receiver.body input = (events, .again next)) :
    next.bailOut = receiver.bailOut + 1 ∧ receiver.bailOut < 25 ∧
      next.record.length + next.phase.data.length ≤
        receiver.record.length + receiver.phase.data.length + 1 := by
  cases body_continues h with
  | taken htakes htake =>
      have hinTime := htakes.inTime
      rw [hunasked] at hinTime
      obtain ⟨hbail, hcollected⟩ := take_collects htake
      rw [counted, hunasked] at hbail
      exact ⟨hbail, by simpa using hinTime, hcollected⟩
  | skipped _ _ hcounts =>
      obtain ⟨hbail, hbound⟩ := hcounts hunasked
      exact ⟨hbail, by omega, Nat.le_succ _⟩

theorem body_early {receiver next : Receiver} {input : Input} {events : List Event}
    (hearly : receiver.Early) (h : receiver.body input = (events, .again next)) :
    next.Early := by
  intro hunasked
  have hbefore : receiver.questionReceived = false := by
    by_contra hasked
    have hstays := body_asked (by simpa using hasked) h
    simp [hunasked] at hstays
  obtain ⟨hbail, hroom, hcollected⟩ := body_collects hbefore h
  have hwaiting := hearly hbefore
  exact ⟨hunasked, by have := hwaiting.collected; omega, by omega⟩

theorem run_early {receiver last : Receiver} {inputs : List Input} {events : List Event}
    (hearly : receiver.Early) (h : run body receiver inputs = (events, .again last)) :
    last.Early := by
  have hpreserved : Preserved body (fun _ => True) (fun _ receiver => receiver.Early) :=
    fun _ _ _ _ _ _ => body_early
  exact @Preserved.run _ _ _ _ _ _ _ hpreserved [] _ _ _ _ hearly (fun _ _ => trivial) h

theorem char_of_timeout {input : Input} (hread : input.read = .timeout) :
    input.read.char = some 0#8 := by
  rw [hread]
  rfl

/-- A time-out does not answer for `'?'`. -/
theorem body_timeout_unasked {receiver next : Receiver} {input : Input}
    {events : List Event} (hunasked : receiver.questionReceived = false)
    (hread : input.read = .timeout)
    (h : receiver.body input = (events, .again next)) : next.questionReceived = false := by
  cases body_continues h with
  | skipped => exact hunasked
  | @taken ch _ _ htakes htake =>
      have hzero : ch = 0#8 :=
        Option.some.inj (htakes.read.symm.trans (char_of_timeout hread))
      have hchecksum := htakes.kept hzero
      cases take_taken htake with
      | asked hphases =>
          rcases hphases with ⟨hphase, -⟩ | ⟨_, _, _, hphase, -⟩ <;>
            rw [show receiver.phase = _ from hphase] at hchecksum <;> cases hchecksum
      | settled _ hsettle => exact (settle_kept hsettle).2.trans hunasked
      | _ => exact hunasked

theorem Waiting.no_fault {receiver : Receiver} (h : receiver.Waiting) {input : Input}
    (hread : input.read = .timeout) : (receiver.body input).2 ≠ .fault := by
  intro hfault
  obtain ⟨ch, htakes, hoverruns⟩ := body_fault_iff.mp hfault
  have hzero : ch = 0#8 :=
    Option.some.inj (htakes.read.symm.trans (char_of_timeout hread))
  have hchecksum := htakes.kept hzero
  have hcollected := h.collected
  have hbound := h.inTime
  unfold Overruns at hoverruns
  split at hoverruns
  · next hphase => simp [hphase, Phase.inChecksum] at hchecksum
  · next hphase =>
      rw [hphase] at hcollected
      simp only [Phase.data] at hcollected
      omega
  · exact hoverruns

theorem Waiting.descends {receiver : Receiver} (h : receiver.Waiting) {input : Input}
    (hread : input.read = .timeout) :
    (Post.descending Waiting (fun receiver => 25 - receiver.bailOut)
      (25 - receiver.bailOut)).Of [] (receiver.body input) := by
  have hfault := h.no_fault hread
  cases hbody : receiver.body input with
  | mk events exit =>
      rw [hbody] at hfault
      cases exit with
      | again next =>
          have hunasked := body_timeout_unasked h.unasked hread hbody
          obtain ⟨hbail, hroom, -⟩ := body_collects h.unasked hbody
          refine ⟨body_early (fun _ => h) hbody hunasked, ?_⟩
          dsimp only
          omega
      | done last result => exact trivial
      | fault => exact hfault rfl

/-- Without a `'?'` the upload is given up within 26 reads. -/
theorem Waiting.run_ends {receiver : Receiver} (h : receiver.Waiting)
    {timeouts : List Input} (htimeouts : Timeouts timeouts)
    (hlong : 26 ≤ timeouts.length) :
    ∃ events last result, run body receiver timeouts = (events, .done last result) := by
  refine Reactive.run_ends (fun _ _ hread hwaiting => hwaiting.descends hread) h htimeouts ?_
  omega

/-! ## After `'?'` -/

structure ClosedByZeros (receiver : Receiver) (length : Byte) (data : List Byte)
    (first : Byte) : Prop where
  low : crcLow (frameOf length data) = first
  high : crcHigh (frameOf length data) = 0#8
  fits : receiver.record.length + data.length ≤ 1000
  endPacket : receiver.endPacket = true

theorem settle_exit (receiver : Receiver) (length : Byte) (data : List Byte)
    (first : Byte) (writeOk : Bool) :
    (receiver.ClosedByZeros length data first ∧
        ∃ events last, receiver.settle length data first 0#8 writeOk =
          (events, .done last .ended)) ∨
      ¬ receiver.ClosedByZeros length data first ∧
        ((receiver.settle length data first 0#8 writeOk).2 = .fault ∨
          ∃ events next, receiver.settle length data first 0#8 writeOk =
              (events, .again next) ∧
            next.phase = .idle ∧ next.questionReceived = receiver.questionReceived) := by
  unfold settle
  dsimp only
  split
  · next hmatch =>
      rw [List.length_append]
      split
      · next hfull =>
          refine .inr ⟨fun h => ?_, .inl rfl⟩
          have hfits := h.fits
          omega
      · next hroom =>
          split
          · next hend =>
              exact .inl ⟨⟨hmatch.1, hmatch.2, by omega, hend⟩, _, _, rfl⟩
          · next hopen =>
              refine .inr ⟨fun h => hopen h.endPacket, .inr ?_⟩
              split
              · exact ⟨_, _, rfl, rfl, rfl⟩
              · exact ⟨_, _, rfl, rfl, rfl⟩
  · next hmismatch =>
      exact .inr ⟨fun h => hmismatch ⟨h.low, h.high⟩, .inr ⟨_, _, rfl, rfl, rfl⟩⟩

theorem run_outside_checksum {receiver : Receiver} {timeouts : List Input}
    (hasked : receiver.questionReceived = true)
    (hphase : receiver.phase.inChecksum = false) (htimeouts : Timeouts timeouts) :
    run body receiver timeouts = ([], .again receiver) := by
  have hrun := run_unnoticed
    (fun input hinput => body_timeout hasked hphase (htimeouts input hinput)) []
  simpa using hrun

def Ends (receiver : Receiver) (inputs : List Input) : Prop :=
  ∃ events last result, run body receiver inputs = (events, .done last result)

theorem ends_second_iff {receiver : Receiver} {length first : Byte} {data : List Byte}
    {timeout : Input} {timeouts : List Input} (hasked : receiver.questionReceived = true)
    (hphase : receiver.phase = .checksum length data (some first))
    (htimeouts : Timeouts (timeout :: timeouts)) :
    receiver.Ends (timeout :: timeouts) ↔ receiver.ClosedByZeros length data first := by
  have hread := htimeouts timeout List.mem_cons_self
  have hbody := body_settles hphase
    (takes_checksum hasked hphase (char_of_timeout hread) (by decide))
  have hclosed : ((receiver.counted 0#8).mark 0#8).ClosedByZeros length data first ↔
      receiver.ClosedByZeros length data first := by
    have hmarked : ((receiver.counted 0#8).mark 0#8).endPacket = receiver.endPacket := by
      simp [mark, counted]
    constructor
    · rintro ⟨hlow, hhigh, hfits, hend⟩
      exact ⟨hlow, hhigh, hfits, hmarked.symm.trans hend⟩
    · rintro ⟨hlow, hhigh, hfits, hend⟩
      exact ⟨hlow, hhigh, hfits, hmarked.trans hend⟩
  have hexit := settle_exit ((receiver.counted 0#8).mark 0#8) length data first
    timeout.writeOk
  rw [hclosed, ← hbody] at hexit
  unfold Ends
  rcases hexit with ⟨hcloses, events, last, hdone⟩ | ⟨hopen, hfault | hagain⟩
  · exact iff_of_true ⟨events, last, .ended, run_cons_done hdone timeouts⟩ hcloses
  · refine iff_of_false ?_ hopen
    rintro ⟨events, last, result, hrun⟩
    have hpass : receiver.body timeout = ((receiver.body timeout).1, .fault) :=
      Prod.ext rfl hfault
    simp [run_cons_fault hpass] at hrun
  · refine iff_of_false ?_ hopen
    obtain ⟨events, next, hpass, hidle, hkept⟩ := hagain
    rintro ⟨later, last, result, hrun⟩
    have hrest := run_outside_checksum (hkept.trans hasked) (by rw [hidle]; rfl)
      (fun input hinput => htimeouts input (List.mem_cons_of_mem _ hinput))
    simp [run_cons_again hpass, hrest] at hrun

theorem ends_first_iff {receiver : Receiver} {length : Byte} {data : List Byte}
    {first second : Input} {timeouts : List Input}
    (hasked : receiver.questionReceived = true)
    (hphase : receiver.phase = .checksum length data none)
    (htimeouts : Timeouts (first :: second :: timeouts)) :
    receiver.Ends (first :: second :: timeouts) ↔
      receiver.ClosedByZeros length data 0#8 := by
  obtain ⟨next, hnext⟩ : ∃ next : Receiver, next =
      { (receiver.counted 0#8).mark 0#8 with
        phase := .checksum length data (some 0#8) } := ⟨_, rfl⟩
  have hread := htimeouts first List.mem_cons_self
  have hbody : receiver.body first = ([], .again next) := by
    rw [body_takes (takes_checksum hasked hphase (char_of_timeout hread) (by decide)), hnext]
    unfold take
    simp only [counted, hphase]
  have hclosed : next.ClosedByZeros length data 0#8 ↔
      receiver.ClosedByZeros length data 0#8 := by
    have hrecord : next.record = receiver.record := by rw [hnext]; rfl
    have hend : next.endPacket = receiver.endPacket := by
      rw [hnext]
      simp [mark, counted]
    constructor
    · rintro ⟨hlow, hhigh, hfits, hpacket⟩
      exact ⟨hlow, hhigh, hrecord ▸ hfits, hend ▸ hpacket⟩
    · rintro ⟨hlow, hhigh, hfits, hpacket⟩
      exact ⟨hlow, hhigh, hrecord ▸ hfits, hend ▸ hpacket⟩
  have hrest := @ends_second_iff next length 0#8 data second timeouts
    (by rw [hnext]; exact hasked) (by rw [hnext])
    (fun input hinput => htimeouts input (List.mem_cons_of_mem _ hinput))
  rw [← hclosed, ← hrest]
  unfold Ends
  rw [run_cons_again hbody]
  simp [Prod.ext_iff]

def ClosedBySilence (receiver : Receiver) : Prop :=
  ∃ length data first, receiver.phase = .checksum length data first ∧
    receiver.ClosedByZeros length data (first.getD 0#8)

theorem ends_iff {receiver : Receiver} {timeouts : List Input}
    (hasked : receiver.questionReceived = true) (htimeouts : Timeouts timeouts)
    (hlong : 2 ≤ timeouts.length) :
    receiver.Ends timeouts ↔ receiver.ClosedBySilence := by
  by_cases hchecksum : receiver.phase.inChecksum = true
  · obtain ⟨length, data, stored, hphase⟩ :
        ∃ length data stored, receiver.phase = .checksum length data stored := by
      cases hcase : receiver.phase with
      | checksum length data stored => exact ⟨length, data, stored, rfl⟩
      | _ => simp [hcase, Phase.inChecksum] at hchecksum
    obtain ⟨first, second, rest, rfl⟩ :
        ∃ first second rest, timeouts = first :: second :: rest := by
      cases timeouts with
      | nil => simp at hlong
      | cons first later =>
          cases later with
          | nil => simp at hlong
          | cons second rest => exact ⟨first, second, rest, rfl⟩
    have hends : receiver.Ends (first :: second :: rest) ↔
        receiver.ClosedByZeros length data (stored.getD 0#8) := by
      cases stored with
      | none => exact ends_first_iff hasked hphase htimeouts
      | some stored => exact ends_second_iff hasked hphase htimeouts
    rw [hends]
    constructor
    · exact fun hcloses => ⟨length, data, stored, hphase, hcloses⟩
    · rintro ⟨_, _, _, hsame, hcloses⟩
      rw [hphase] at hsame
      cases hsame
      exact hcloses
  · refine iff_of_false ?_ ?_
    · rintro ⟨events, last, result, hrun⟩
      simp [run_outside_checksum hasked (by simpa using hchecksum) htimeouts] at hrun
    · rintro ⟨length, data, first, hphase, -⟩
      exact hchecksum (by rw [hphase]; rfl)

end Receiver

/-! ## The same in the variables of `upload_data` -/

/--
The frame whose checksum is awaited would be accepted if the rest of the
checksum were zeros, and would end the upload.
-/
structure Upload.ClosedBySilence (upload : Upload) : Prop where
  chksumFlag : upload.chksumFlag = true
  endPacket : upload.endPacket = true
  fits : upload.oldLength + (upload.length - 2) ≤ 1000
  accepted : ∃ frame, upload.tempBuffer.slice? 0 upload.length = some frame ∧
    crcHigh frame = 0#8 ∧
    (upload.a = 0 ∧ crcLow frame = 0#8 ∨
      upload.a = 1 ∧ upload.chkSum.load? 0 = some (crcLow frame))

/-- Silence ends the upload: `'?'` is still awaited, or zeros complete an END packet. -/
def Upload.EndsInSilence (upload : Upload) : Prop :=
  upload.questionReceived = false ∨ upload.ClosedBySilence

theorem Represents.closedBySilence_iff {upload : Upload} {receiver : Receiver}
    (hrep : Represents upload receiver) :
    upload.ClosedBySilence ↔ receiver.ClosedBySilence := by
  have hphase := hrep.phase
  obtain ⟨-, hold, -, -, hend, -⟩ := hrep.vars
  constructor
  · rintro ⟨hchksum, hpacket, hfits, frame, hframe, hhigh, hlow⟩
    obtain ⟨length, data, stored, hcase⟩ :
        ∃ length data stored, receiver.phase = .checksum length data stored := by
      cases hcase : receiver.phase with
      | checksum length data stored => exact ⟨length, data, stored, rfl⟩
      | _ => simp [hcase, PhaseVars, hchksum] at hphase
    rw [hrep.slice_frame hcase] at hframe
    obtain rfl := Option.some.inj hframe
    rw [hcase] at hphase
    obtain ⟨-, -, -, hlength, hdata, -, hstored⟩ := hphase
    refine ⟨length, data, stored, hcase, ?_, hhigh, by omega, hend.symm.trans hpacket⟩
    cases stored with
    | none =>
        have hcount : upload.a = 0 := hstored
        rcases hlow with ⟨-, hlow⟩ | ⟨hsecond, -⟩
        · exact hlow
        · omega
    | some stored =>
        obtain ⟨hcount, hload⟩ := hstored
        rcases hlow with ⟨hnone, -⟩ | ⟨-, hlow⟩
        · omega
        · exact Option.some.inj (hlow.symm.trans hload)
  · rintro ⟨length, data, stored, hcase, hlow, hhigh, hfits, hpacket⟩
    have hframe := hrep.slice_frame hcase
    rw [hcase] at hphase
    obtain ⟨hchksum, -, -, hlength, hdata, -, hstored⟩ := hphase
    refine ⟨hchksum, hend.trans hpacket, by omega, _, hframe, hhigh, ?_⟩
    cases stored with
    | none => exact .inl ⟨hstored, hlow⟩
    | some stored =>
        obtain ⟨hcount, hload⟩ := hstored
        exact .inr ⟨hcount, by rw [hload, hlow]; rfl⟩

/-! ## `onTimer` in silence -/

theorem timeouts_replicate (count : Nat) (writeOk : Bool) :
    Timeouts (List.replicate count ⟨.timeout, writeOk⟩) := by
  intro input hinput
  rw [List.eq_of_mem_replicate hinput]

theorem uploadData_append {tempBuffer : Buffer Byte 1000} {writeOk : Bool}
    {inputs : List Input} {events : List Event} {upload : Upload}
    (h : uploadData false tempBuffer writeOk inputs = (events, .again upload))
    (rest : List Input) :
    (uploadData false tempBuffer writeOk (inputs ++ rest)).2 =
      (run uploadBody upload rest).2 := by
  have hrun : run uploadBody (.start tempBuffer true) inputs =
      ((run uploadBody (.start tempBuffer true) inputs).1, .again upload) :=
    Prod.ext rfl (Prod.mk.inj h).2
  simp [uploadData, run_append hrun]

theorem ends_image {upload : Upload} {receiver : Receiver}
    (hrep : Represents upload receiver) (inputs : List Input) :
    (∃ last result, (run uploadBody upload inputs).2 = .done last result) ↔
      receiver.Ends inputs := by
  obtain ⟨-, hexit⟩ := uploadBody_simulates.run inputs hrep
  unfold Receiver.Ends
  generalize (run uploadBody upload inputs).2 = exit at hexit
  generalize run Receiver.body receiver inputs = pass at hexit
  obtain ⟨events, final⟩ := pass
  cases hexit with
  | again => simp
  | done value => simp
  | fault => simp

/-- The activation returns, and both guards are clear again. -/
def Activation.Released (activation : Activation) : Prop :=
  ∃ events, onTimer .initial activation = (events, .again .initial)

theorem released_iff (activation : Activation) :
    activation.Released ↔
      ∃ last result, (uploadData false activation.tempBuffer activation.writeOk
        activation.inputs).2 = .done last result := by
  unfold Activation.Released
  have honTimer : onTimer .initial activation =
      andThen
        (uploadData false activation.tempBuffer activation.writeOk activation.inputs)
        (fun upload => ⟨true, upload.anyOneHere⟩)
        (fun last result => (uploadResult result, .again ⟨false, last.anyOneHere⟩)) := rfl
  rw [honTimer]
  cases hpass : uploadData false activation.tempBuffer activation.writeOk
      activation.inputs with
  | mk events exit =>
      cases exit with
      | again upload => simp [andThen, Process.initial]
      | done last result =>
          have hclears := uploadData_clears hpass
          simp [andThen, emit, Process.initial, hclears]
      | fault => simp [andThen]

/--
When only time-outs follow, the upload ends within a bounded number of reads,
and clears both guards, if and only if it still awaits `'?'` or zeros complete
an END packet; 26 reads are then enough.
-/
theorem silence_ends_iff (tempBuffer : Buffer Byte 1000) (writeOk : Bool)
    (inputs : List Input) (events : List Event) (upload : Upload)
    (h : uploadData false tempBuffer writeOk inputs = (events, .again upload)) :
    ((∃ bound, ∀ timeouts, Timeouts timeouts → bound ≤ timeouts.length →
        Activation.Released ⟨tempBuffer, writeOk, inputs ++ timeouts⟩) ↔
      upload.EndsInSilence) ∧
    (upload.EndsInSilence → ∀ timeouts, Timeouts timeouts → 26 ≤ timeouts.length →
      Activation.Released ⟨tempBuffer, writeOk, inputs ++ timeouts⟩) := by
  obtain ⟨_, receiver, -, hrun, hrep⟩ := uploadData_again h
  have hquestion : upload.questionReceived = receiver.questionReceived :=
    hrep.vars.2.2.2.2.2.1
  have hreleased : ∀ timeouts,
      Activation.Released ⟨tempBuffer, writeOk, inputs ++ timeouts⟩ ↔
        receiver.Ends timeouts := by
    intro timeouts
    rw [released_iff, uploadData_append h, ends_image hrep]
  have hends : upload.EndsInSilence → ∀ timeouts, Timeouts timeouts →
      26 ≤ timeouts.length → receiver.Ends timeouts := by
    intro hsilent timeouts htimeouts hlong
    by_cases hasked : receiver.questionReceived = true
    · rw [Receiver.ends_iff hasked htimeouts (by omega), ← hrep.closedBySilence_iff]
      rcases hsilent with hunasked | hclosed
      · simp [hquestion, hasked] at hunasked
      · exact hclosed
    · have hearly : Receiver.Early .start := fun _ => ⟨rfl, Nat.le_refl 0, Nat.zero_le 25⟩
      have hwaiting := Receiver.run_early hearly hrun (by simpa using hasked)
      exact hwaiting.run_ends htimeouts hlong
  simp only [hreleased]
  refine ⟨⟨?_, fun hsilent => ⟨26, hends hsilent⟩⟩, hends⟩
  rintro ⟨bound, hbound⟩
  by_cases hasked : receiver.questionReceived = true
  · obtain ⟨timeouts, hlist⟩ : ∃ timeouts : List Input,
        timeouts = List.replicate (bound + 2) ⟨.timeout, true⟩ := ⟨_, rfl⟩
    have htimeouts : Timeouts timeouts := hlist ▸ timeouts_replicate (bound + 2) true
    have hlength : timeouts.length = bound + 2 := by rw [hlist, List.length_replicate]
    have hcloses := hbound timeouts htimeouts (by omega)
    rw [Receiver.ends_iff hasked htimeouts (by omega), ← hrep.closedBySilence_iff] at hcloses
    exact .inr hcloses
  · exact .inl (hquestion.trans (by simpa using hasked))

/-- The device falls silent after two bytes that are not `'?'`. -/
theorem silence_ends_iff_unasked :
    Activation.Released
      ⟨⟨fun _ => 0#8⟩, true,
        received [0x41#8, 0x42#8] ++ List.replicate 26 ⟨.timeout, true⟩⟩ := by
  have hends := (silence_ends_iff ⟨fun _ => 0#8⟩ true (received [0x41#8, 0x42#8]) _ _ rfl).2
    (.inl rfl)
  exact hends _ (timeouts_replicate 26 true) (by simp)

/-- After `'?'` alone, no number of time-outs ends the upload. -/
theorem not_silence_ends :
    ¬ ∀ tempBuffer writeOk inputs events upload,
        uploadData false tempBuffer writeOk inputs = (events, .again upload) →
        ∃ bound, ∀ timeouts, Timeouts timeouts → bound ≤ timeouts.length →
          Activation.Released ⟨tempBuffer, writeOk, inputs ++ timeouts⟩ := by
  intro h
  have hrun : run Receiver.body .start (received [0x3F#8]) =
      ([.write 0x55#8], .again ⟨.idle, [], 0, false, false, true, 1⟩) := by decide
  obtain ⟨upload, hrep, hcall⟩ := uploadData_of_again ⟨fun _ => 0#8⟩ true hrun
  obtain ⟨bound, hbound⟩ := h _ _ _ _ _ hcall
  have htimeouts := timeouts_replicate bound true
  have hends := hbound _ htimeouts (by simp)
  rw [released_iff, uploadData_append hcall, ends_image hrep] at hends
  obtain ⟨events, last, result, hdone⟩ := hends
  rw [Receiver.run_outside_checksum rfl rfl htimeouts] at hdone
  simp at hdone

end BBCodeBase.SerialComm
