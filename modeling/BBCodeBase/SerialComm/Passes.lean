import BBCodeBase.SerialComm.Steps

/-!
# The bytes that a pass takes

Which byte read from the port gets past the tests at the head of the loop body,
and what the variables then say it is: a payload byte or the second checksum
byte of a frame.
-/

namespace BBCodeBase.SerialComm

open Reactive

/--
The byte gets past the tests at the head of the loop body: the upload is not
given up, a zero byte is not skipped and the byte is not the fourth `'#'`.
-/
structure Upload.Takes (upload : Upload) (input : Input) (ch : Byte) : Prop where
  read : input.read.char = some ch
  inTime : upload.questionReceived = true ∨ upload.bailOut < 25
  kept : ch = 0#8 → upload.chksumFlag = true
  noFlush : ch = 0x23#8 → upload.palint < 3

structure Upload.Stores (upload : Upload) (input : Input) (ch : Byte) : Prop where
  takes : upload.Takes input ch
  lengthFlag : upload.lengthFlag = false
  startReceive : upload.startReceive = true
  noQuestion : ch ≠ 0x3F#8
  noSof : ch ≠ 0x24#8

def Upload.CompletesChecksum (upload : Upload) (input : Input) : Prop :=
  upload.chksumFlag = true ∧ upload.a = 1 ∧ ∃ ch, upload.Takes input ch

structure Upload.Checks (upload : Upload) (input : Input) (frame : List Byte)
    (first second : Byte) : Prop where
  takes : upload.Takes input second
  chksumFlag : upload.chksumFlag = true
  last : upload.a = 1
  frame : upload.tempBuffer.slice? 0 upload.length = some frame
  first : upload.chkSum.load? 0 = some first

def Upload.Accepts (upload : Upload) (input : Input) (frame : List Byte) : Prop :=
  ∃ first second, upload.Checks input frame first second ∧
    crcLow frame = first ∧ crcHigh frame = second

namespace Receiver

structure Takes (receiver : Receiver) (input : Input) (ch : Byte) : Prop where
  read : input.read.char = some ch
  inTime : receiver.questionReceived = true ∨ receiver.bailOut < 25
  kept : ch = 0#8 → receiver.phase.inChecksum = true
  noFlush : ch = 0x23#8 → receiver.palint < 3

def counted (receiver : Receiver) (ch : Byte) : Receiver :=
  { receiver with
    palint := if ch = 0x23#8 then receiver.palint + 1 else 0
    bailOut :=
      if receiver.questionReceived then receiver.bailOut else receiver.bailOut + 1 }

theorem receive_takes {receiver : Receiver} {ch : Byte}
    (hkept : ch = 0#8 → receiver.phase.inChecksum = true)
    (hflush : ch = 0x23#8 → receiver.palint < 3) (writeOk : Bool) :
    receiver.receive ch writeOk =
      { receiver with
        palint := if ch = 0x23#8 then receiver.palint + 1 else 0 }.take ch writeOk := by
  have hkeep : ¬ (ch = 0#8 ∧ receiver.phase.inChecksum = false) := by
    rintro ⟨hzero, hphase⟩
    simp [hkept hzero] at hphase
  unfold receive count
  rw [if_neg hkeep]
  by_cases hhash : ch = 0x23#8
  · have hbelow := hflush hhash
    rw [if_pos hhash, if_neg (by omega), if_pos hhash]
  · rw [if_neg hhash, if_neg hhash]

theorem body_takes {receiver : Receiver} {input : Input} {ch : Byte}
    (h : receiver.Takes input ch) :
    receiver.body input = (receiver.counted ch).take ch input.writeOk := by
  unfold body
  rw [h.read]
  simp only
  by_cases hasked : receiver.questionReceived = true
  · rw [if_pos hasked, receive_takes h.kept h.noFlush]
    simp only [counted, if_pos hasked]
  · have hearly : receiver.bailOut < 25 := by
      rcases h.inTime with htrue | hearly
      · exact absurd htrue hasked
      · exact hearly
    rw [if_neg hasked, if_neg (by omega)]
    have hpass := @receive_takes
      { receiver with bailOut := receiver.bailOut + 1 } ch h.kept h.noFlush
    rw [hpass]
    simp only [counted, if_neg hasked]

theorem body_settles {receiver : Receiver} {input : Input} {length first second : Byte}
    {data : List Byte} (hphase : receiver.phase = .checksum length data (some first))
    (htakes : receiver.Takes input second) :
    receiver.body input =
      ((receiver.counted second).mark second).settle length data first second
        input.writeOk := by
  rw [body_takes htakes]
  unfold take
  simp only [counted, hphase]

theorem crc_mem_settle (receiver : Receiver) (length : Byte) (data : List Byte)
    (first second : Byte) (writeOk : Bool) :
    .crc (frameOf length data) ∈
      (receiver.settle length data first second writeOk).1 := by
  unfold settle
  dsimp only
  split
  · split
    · exact List.mem_cons_self
    · split
      · exact List.mem_cons_self
      · split <;> exact List.mem_cons_self
  · exact List.mem_cons_self

inductive Idles (receiver : Receiver) (input : Input) : Pass → Prop
  | readFailed : input.read.char = none →
      Idles receiver input ([], .done receiver .readFailed)
  | noQuestionMark : receiver.questionReceived = false → 25 ≤ receiver.bailOut →
      Idles receiver input
        ([.printf "No Question Mark, Quit :D"], .done receiver .noQuestionMark)
  | skipped {bailOut} : input.read.char = some 0#8 →
      receiver.phase.inChecksum = false →
      (receiver.questionReceived = true → bailOut = receiver.bailOut) →
      (receiver.questionReceived = false →
        bailOut = receiver.bailOut + 1 ∧ bailOut ≤ 25) →
      Idles receiver input ([], .again { receiver with bailOut := bailOut })
  | flushed {bailOut} : input.read.char = some 0x23#8 → 3 ≤ receiver.palint →
      Idles receiver input
        ([.printf "thrown"], .done { receiver with bailOut := bailOut } .flushed)

theorem receive_idles {receiver : Receiver} {input : Input} {ch : Byte} {bailOut : Nat}
    (hread : input.read.char = some ch)
    (hnot : (ch = 0#8 → receiver.phase.inChecksum = true) →
      (ch = 0x23#8 → receiver.palint < 3) → False)
    (hasked : receiver.questionReceived = true → bailOut = receiver.bailOut)
    (hwaiting : receiver.questionReceived = false →
      bailOut = receiver.bailOut + 1 ∧ bailOut ≤ 25) (writeOk : Bool) :
    Idles receiver input
      ({ receiver with bailOut := bailOut }.receive ch writeOk) := by
  unfold receive count
  split
  · next hskip =>
      obtain ⟨rfl, hphase⟩ := hskip
      exact .skipped hread hphase hasked hwaiting
  · next hkeep =>
      have hflush : ch = 0x23#8 ∧ 3 ≤ receiver.palint := by
        by_contra hpass
        refine hnot (fun hzero => ?_) (fun hhash => ?_)
        · simpa [hzero] using hkeep
        · simpa [hhash] using hpass
      obtain ⟨rfl, hfull⟩ := hflush
      rw [if_pos rfl, if_pos (by simp only; omega)]
      exact .flushed hread hfull

theorem body_idles {receiver : Receiver} {input : Input}
    (h : ∀ ch, ¬ receiver.Takes input ch) :
    Idles receiver input (receiver.body input) := by
  unfold body
  cases hread : input.read.char with
  | none => exact .readFailed hread
  | some ch =>
      simp only
      by_cases hasked : receiver.questionReceived = true
      · rw [if_pos hasked]
        refine @receive_idles receiver input ch receiver.bailOut hread ?_ (fun _ => rfl)
          (by simp [hasked]) input.writeOk
        intro hkept hflush
        exact h ch ⟨hread, .inl hasked, hkept, hflush⟩
      · rw [if_neg hasked]
        split
        · exact .noQuestionMark (by simpa using hasked) (by omega)
        · next hearly =>
            refine @receive_idles receiver input ch (receiver.bailOut + 1) hread ?_
              (by simp [hasked]) (fun _ => ⟨rfl, by omega⟩) input.writeOk
            intro hkept hflush
            exact h ch ⟨hread, .inr (by omega), hkept, hflush⟩

/-- A pass that goes on takes a byte, or it skips a zero byte and at most counts it. -/
inductive Continues (receiver : Receiver) (input : Input) :
    List Event → Receiver → Prop
  | taken {ch events next} : receiver.Takes input ch →
      (receiver.counted ch).take ch input.writeOk = (events, .again next) →
      Continues receiver input events next
  | skipped {bailOut} : input.read.char = some 0#8 →
      receiver.phase.inChecksum = false →
      (receiver.questionReceived = false →
        bailOut = receiver.bailOut + 1 ∧ bailOut ≤ 25) →
      Continues receiver input [] { receiver with bailOut := bailOut }

theorem body_continues {receiver next : Receiver} {input : Input} {events : List Event}
    (h : receiver.body input = (events, .again next)) :
    Continues receiver input events next := by
  by_cases htakes : ∃ ch, receiver.Takes input ch
  · obtain ⟨ch, htakes⟩ := htakes
    rw [body_takes htakes] at h
    exact .taken htakes h
  · have hidles := body_idles fun ch htake => htakes ⟨ch, htake⟩
    rw [h] at hidles
    generalize hpass : (events, Exit.again next) = pass at hidles
    cases hidles with
    | skipped hread hphase _ hcounts =>
        obtain ⟨rfl, rfl⟩ := again_inj hpass
        exact .skipped hread hphase hcounts
    | _ => simp at hpass

end Receiver

/-! ## The same in the variables of `upload_data` -/

theorem Represents.takes_iff {upload : Upload} {receiver : Receiver}
    (hrep : Represents upload receiver) {input : Input} {ch : Byte} :
    upload.Takes input ch ↔ receiver.Takes input ch := by
  have hchksum := hrep.phase.chksumFlag
  obtain ⟨-, -, hpalint, -, -, hquestion, hbail⟩ := hrep.vars
  constructor
  · rintro ⟨hread, hinTime, hkept, hflush⟩
    rw [hquestion, hbail] at hinTime
    rw [hchksum] at hkept
    rw [hpalint] at hflush
    exact ⟨hread, hinTime, hkept, hflush⟩
  · rintro ⟨hread, hinTime, hkept, hflush⟩
    rw [← hquestion, ← hbail] at hinTime
    rw [← hchksum] at hkept
    rw [← hpalint] at hflush
    exact ⟨hread, hinTime, hkept, hflush⟩

theorem Represents.payload_of_start {upload : Upload} {receiver : Receiver}
    (hrep : Represents upload receiver) (hstart : upload.startReceive = true)
    (hlengthFlag : upload.lengthFlag = false) :
    ∃ length data sofData, receiver.phase = .payload length data sofData := by
  have hphase := hrep.phase
  cases hcase : receiver.phase with
  | payload length data sofData => exact ⟨length, data, sofData, rfl⟩
  | idle => simp [hcase, PhaseVars, hstart] at hphase
  | length => simp [hcase, PhaseVars, hlengthFlag] at hphase
  | checksum => simp [hcase, PhaseVars, hstart] at hphase

theorem Represents.payload_vars {upload : Upload} {receiver : Receiver}
    {length : Byte} {data : List Byte} {sofData : BitVec 32}
    (hrep : Represents upload receiver)
    (hcase : receiver.phase = .payload length data sofData) :
    upload.length = length.toNat ∧ upload.num = data.length := by
  have hphase := hrep.phase
  rw [hcase] at hphase
  obtain ⟨-, -, -, -, -, hlength, hnum, -⟩ := hphase
  exact ⟨hlength, hnum⟩

theorem Represents.stores_iff {upload : Upload} {receiver : Receiver}
    (hrep : Represents upload receiver) {input : Input} {ch : Byte} :
    upload.Stores input ch ↔
      receiver.Takes input ch ∧ ch ≠ 0x3F#8 ∧ ch ≠ 0x24#8 ∧
        ∃ length data sofData, receiver.phase = .payload length data sofData := by
  constructor
  · rintro ⟨htakes, hlengthFlag, hstart, hquestion, hsof⟩
    exact ⟨hrep.takes_iff.mp htakes, hquestion, hsof,
      hrep.payload_of_start hstart hlengthFlag⟩
  · rintro ⟨htakes, hquestion, hsof, length, data, sofData, hcase⟩
    have hphase := hrep.phase
    rw [hcase] at hphase
    obtain ⟨-, hlengthFlag, hstart, -⟩ := hphase
    exact ⟨hrep.takes_iff.mpr htakes, hlengthFlag, hstart, hquestion, hsof⟩

theorem Represents.slice_record {upload : Upload} {receiver : Receiver}
    (hrep : Represents upload receiver) :
    upload.finalChar.slice? 0 upload.oldLength = some receiver.record := by
  obtain ⟨hholds, hold, -⟩ := hrep.vars
  rw [hold]
  exact hholds.slice?

theorem Represents.slice_frame {upload : Upload} {receiver : Receiver}
    {length : Byte} {data : List Byte} {first : Option Byte}
    (hrep : Represents upload receiver)
    (hcase : receiver.phase = .checksum length data first) :
    upload.tempBuffer.slice? 0 upload.length = some (frameOf length data) := by
  have hphase := hrep.phase
  rw [hcase] at hphase
  obtain ⟨-, -, -, hlength, hdata, htemp, -⟩ := hphase
  rw [hlength, ← hdata]
  exact htemp.slice?

theorem Represents.checks_iff {upload : Upload} {receiver : Receiver}
    (hrep : Represents upload receiver) {input : Input} {frame : List Byte}
    {first second : Byte} :
    upload.Checks input frame first second ↔
      receiver.Takes input second ∧
        ∃ length data, receiver.phase = .checksum length data (some first) ∧
          frame = frameOf length data := by
  have hphase := hrep.phase
  constructor
  · rintro ⟨htakes, hchksum, hlast, hframe, hfirst⟩
    refine ⟨hrep.takes_iff.mp htakes, ?_⟩
    cases hcase : receiver.phase with
    | idle => simp [hcase, PhaseVars, hchksum] at hphase
    | length => simp [hcase, PhaseVars, hchksum] at hphase
    | payload => simp [hcase, PhaseVars, hchksum] at hphase
    | checksum length data stored =>
        rw [hrep.slice_frame hcase] at hframe
        cases stored with
        | none => simp [hcase, PhaseVars, hlast] at hphase
        | some stored =>
            rw [hcase] at hphase
            obtain ⟨-, -, -, -, -, -, -, hload⟩ := hphase
            rw [hload] at hfirst
            obtain rfl := Option.some.inj hfirst
            exact ⟨length, data, rfl, (Option.some.inj hframe).symm⟩
  · rintro ⟨htakes, length, data, hcase, rfl⟩
    have hframe := hrep.slice_frame hcase
    rw [hcase] at hphase
    obtain ⟨hchksum, -, -, -, -, -, hlast, hload⟩ := hphase
    exact ⟨hrep.takes_iff.mpr htakes, hchksum, hlast, hframe, hload⟩

theorem Represents.completes_iff {upload : Upload} {receiver : Receiver}
    (hrep : Represents upload receiver) {input : Input} :
    upload.CompletesChecksum input ↔
      ∃ length data first second, receiver.phase = .checksum length data (some first) ∧
        receiver.Takes input second := by
  have hphase := hrep.phase
  constructor
  · rintro ⟨hchksum, hlast, ch, htakes⟩
    cases hcase : receiver.phase with
    | checksum length data first =>
        cases first with
        | none => simp [hcase, PhaseVars, hlast] at hphase
        | some first =>
            exact ⟨length, data, first, ch, rfl, hrep.takes_iff.mp htakes⟩
    | idle => simp [hcase, PhaseVars, hchksum] at hphase
    | length => simp [hcase, PhaseVars, hchksum] at hphase
    | payload => simp [hcase, PhaseVars, hchksum] at hphase
  · rintro ⟨length, data, first, second, hcase, htakes⟩
    rw [hcase] at hphase
    obtain ⟨hchksum, -, -, -, -, -, hlast, -⟩ := hphase
    exact ⟨hchksum, hlast, second, hrep.takes_iff.mpr htakes⟩

theorem Represents.accepts_iff {upload : Upload} {receiver : Receiver}
    (hrep : Represents upload receiver) {input : Input} {frame : List Byte} :
    upload.Accepts input frame ↔
      receiver.Takes input (crcHigh frame) ∧
        ∃ length data, receiver.phase = .checksum length data (some (crcLow frame)) ∧
          frame = frameOf length data := by
  constructor
  · rintro ⟨first, second, hchecks, rfl, rfl⟩
    exact hrep.checks_iff.mp hchecks
  · intro h
    exact ⟨_, _, hrep.checks_iff.mpr h, rfl, rfl⟩

end BBCodeBase.SerialComm
