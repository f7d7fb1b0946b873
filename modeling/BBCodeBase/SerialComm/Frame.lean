import BBCodeBase.Foundation.RunCounter
import BBCodeBase.SerialComm.Steps
import Mathlib.Algebra.Group.Nat.Defs

/-!
# Frames on the wire

What `upload_data` does with a frame `'$'`, length, payload, two checksum bytes
that arrives while no frame is in progress.  The payload bytes pass the tests
for NUL, `'#'`, `'?'` and `'$'` before they are stored.
-/

namespace BBCodeBase.SerialComm

open Reactive

def Plain (ch : Byte) : Prop := ch ≠ 0#8 ∧ ch ≠ 0x24#8 ∧ ch ≠ 0x3F#8

instance (ch : Byte) : Decidable (Plain ch) := inferInstanceAs (Decidable (_ ∧ _))

def hasNewline (bytes : List Byte) : Bool :=
  bytes.any fun ch => ch == 0x0A#8 || ch == 0x0D#8

@[simp] theorem received_append (first second : List Byte) :
    received (first ++ second) = received first ++ received second :=
  List.map_append

@[simp] theorem received_cons (ch : Byte) (bytes : List Byte) :
    received (ch :: bytes) = ⟨.byte ch, true⟩ :: received bytes := rfl

@[simp] theorem received_nil : received [] = [] := rfl

namespace Receiver

/-! ## A byte on its way to `take` -/

theorem body_of_step {receiver : Receiver} {ch : Byte} {palint : Nat}
    (hasked : receiver.questionReceived = true)
    (hread : ch ≠ 0#8 ∨ receiver.phase.inChecksum = true)
    (hstep : RunCounter.step 0x23#8 4 receiver.palint ch = some palint)
    (writeOk : Bool) :
    receiver.body ⟨.byte ch, writeOk⟩ =
      { receiver with palint := palint }.take ch writeOk := by
  have hkeep : ¬ (ch = 0#8 ∧ receiver.phase.inChecksum = false) := by
    rintro ⟨hzero, hphase⟩
    rcases hread with h | h
    · exact h hzero
    · simp [h] at hphase
  simp only [body, ReadResult.char]
  rw [if_pos hasked]
  unfold receive count
  rw [if_neg hkeep]
  unfold RunCounter.step at hstep
  split at hstep
  · next hhash =>
      rw [if_pos hhash]
      split at hstep
      · obtain rfl := Option.some.inj hstep
        rw [if_neg (by omega)]
      · cases hstep
  · next hother =>
      obtain rfl := Option.some.inj hstep
      rw [if_neg hother]

theorem body_of_step_none {receiver : Receiver} {ch : Byte}
    (hasked : receiver.questionReceived = true)
    (hstep : RunCounter.step 0x23#8 4 receiver.palint ch = none)
    (writeOk : Bool) :
    receiver.body ⟨.byte ch, writeOk⟩ = ([.printf "thrown"], .done receiver .flushed) := by
  unfold RunCounter.step at hstep
  split at hstep
  · next hhash =>
      subst hhash
      split at hstep
      · cases hstep
      · simp only [body, ReadResult.char]
        rw [if_pos hasked]
        unfold receive count
        rw [if_neg (by simp), if_pos rfl, if_pos (by omega)]
  · cases hstep

/-! ## The payload of a frame -/

def stored (receiver : Receiver) (bytes : List Byte) (phase : Phase)
    (palint : Nat) : Receiver :=
  { receiver with
    phase := phase
    palint := palint
    endPacket := receiver.endPacket || bytes.any (· == 0x45#8)
    printChar := receiver.printChar || hasNewline bytes }

theorem body_payload_plain {receiver : Receiver} {ch length : Byte}
    {data : List Byte} {sofData : BitVec 32} {palint : Nat}
    (hasked : receiver.questionReceived = true)
    (hphase : receiver.phase = .payload length data sofData) (hplain : Plain ch)
    (hroom : data.length + 2 < length.toNat)
    (hstep : RunCounter.step 0x23#8 4 receiver.palint ch = some palint)
    (writeOk : Bool) :
    receiver.body ⟨.byte ch, writeOk⟩ =
      ([], .again (receiver.stored [ch]
        (if data.length + 3 = length.toNat then .checksum length (data ++ [ch]) none
          else .payload length (data ++ [ch]) sofData) palint)) := by
  have hlength := length.isLt
  rw [body_of_step hasked (.inl hplain.1) hstep]
  unfold take
  simp only [hphase]
  rw [if_neg hplain.2.2, if_neg hplain.2.1, if_neg (by omega)]
  simp [mark, stored, Phase.inChecksum, hasNewline, Bool.or_assoc]

theorem run_payload {receiver : Receiver} {length : Byte} {data bytes : List Byte}
    {sofData : BitVec 32} {palint : Nat}
    (hasked : receiver.questionReceived = true)
    (hphase : receiver.phase = .payload length data sofData)
    (hplain : ∀ ch ∈ bytes, Plain ch) (hne : bytes ≠ [])
    (hlength : data.length + bytes.length + 2 = length.toNat)
    (hcount : RunCounter.count 0x23#8 4 receiver.palint bytes = some palint) :
    run body receiver (received bytes) =
      ([], .again (receiver.stored bytes (.checksum length (data ++ bytes) none)
        palint)) := by
  induction bytes generalizing receiver data with
  | nil => exact absurd rfl hne
  | cons ch bytes ih =>
      simp only [List.length_cons] at hlength
      cases hstep : RunCounter.step 0x23#8 4 receiver.palint ch with
      | none => simp [RunCounter.count, hstep] at hcount
      | some next =>
          rw [RunCounter.count_cons_of_step hstep] at hcount
          have hbody := body_payload_plain hasked hphase
            (hplain ch List.mem_cons_self) (by omega) hstep true
          rw [received_cons, run_cons_again hbody]
          by_cases hlast : bytes = []
          · subst hlast
            obtain rfl := Option.some.inj hcount
            rw [if_pos (by simpa using hlength)]
            rfl
          · have hpos := List.length_pos_iff.mpr hlast
            rw [if_neg (by omega)]
            have hrest := @ih (receiver.stored [ch]
              (.payload length (data ++ [ch]) sofData) next) (data ++ [ch]) hasked rfl
              (fun other h => hplain other (List.mem_cons_of_mem _ h)) hlast
              (by simp; omega) hcount
            rw [hrest]
            simp [stored, hasNewline, Bool.or_assoc]

/-! ## A whole frame up to its last byte -/

def opened (receiver : Receiver) (length : Byte) (data : List Byte) (first : Byte)
    (palint : Nat) : Receiver :=
  { receiver with
    phase := .checksum length data (some first)
    palint := palint
    endPacket := receiver.endPacket || data.any (· == 0x45#8)
    printChar := receiver.printChar || hasNewline (data ++ [first]) }

theorem run_header {receiver : Receiver} {length : Byte} {palint : Nat}
    (hasked : receiver.questionReceived = true) (hidle : receiver.phase = .idle)
    (hlength : 0 < length.toNat)
    (hstep : RunCounter.step 0x23#8 4 0 length = some palint) :
    run body receiver (received [0x24#8, length]) =
      ([], .again
        { receiver with phase := .payload length [] 1#32, palint := palint }) := by
  have hne : length ≠ 0#8 := by
    rintro rfl
    simp at hlength
  have hsof : receiver.body ⟨.byte 0x24#8, true⟩ =
      ([], .again { receiver with phase := .length, palint := 0 }) := by
    rw [body_of_step hasked (.inl (by decide)) (if_neg (by decide))]
    unfold take
    simp [hidle]
  have hlast : { receiver with phase := .length, palint := 0 }.body ⟨.byte length, true⟩ =
      ([], .again
        { receiver with phase := .payload length [] 1#32, palint := palint }) := by
    apply body_of_step
    · exact hasked
    · exact .inl hne
    · exact hstep
  rw [received_cons, run_cons_again hsof, received_cons, received_nil, run_singleton,
    hlast]
  rfl

theorem run_opening {receiver : Receiver} {length first : Byte} {data : List Byte}
    {palint : Nat} (hasked : receiver.questionReceived = true)
    (hidle : receiver.phase = .idle) (hplain : ∀ ch ∈ data, Plain ch)
    (hne : data ≠ []) (hlength : data.length + 2 = length.toNat)
    (hcount : RunCounter.count 0x23#8 4 0 (length :: data ++ [first]) = some palint) :
    run body receiver (received (frameOf length data ++ [first])) =
      ([], .again (receiver.opened length data first palint)) := by
  cases hhead : RunCounter.step 0x23#8 4 0 length with
  | none => simp [RunCounter.count, hhead] at hcount
  | some middle =>
      rw [List.cons_append, RunCounter.count_cons_of_step hhead,
        RunCounter.count_append] at hcount
      cases hdata : RunCounter.count 0x23#8 4 middle data with
      | none => simp [hdata] at hcount
      | some later =>
          rw [hdata, Option.bind_some, RunCounter.count_singleton] at hcount
          have hheader := run_header hasked hidle (by omega) hhead
          have hpayload : run body
              { receiver with phase := .payload length [] 1#32, palint := middle }
              (received data) =
              ([], .again (receiver.stored data (.checksum length data none) later)) :=
            @run_payload _ length [] data 1#32 later (by exact hasked) rfl hplain hne
              (by simpa using hlength) hdata
          have hsplit : received (frameOf length data ++ [first]) =
              received [0x24#8, length] ++ (received data ++ received [first]) := by
            simp [frameOf]
          have hlast : run body
              (receiver.stored data (.checksum length data none) later)
              (received [first]) =
              ([], .again (receiver.opened length data first palint)) := by
            rw [received_cons, received_nil, run_singleton,
              @body_of_step (receiver.stored data (.checksum length data none) later)
                first palint hasked (.inr rfl) hcount]
            unfold take
            simp [stored, opened, mark, Phase.inChecksum, hasNewline, Bool.or_assoc]
          rw [hsplit]
          exact run_append_again hheader (run_append_again hpayload hlast)

/-! ## What a silent pass does -/

theorem question_kept {receiver next : Receiver} {phase : Phase} {writeOk : Bool}
    {events : List Event} (h : receiver.question phase writeOk = (events, .again next)) :
    next = { receiver with phase := phase, questionReceived := true } := by
  unfold question at h
  cases writeOk with
  | false => simp at h
  | true => exact (again_inj h).2.symm

theorem settle_kept {receiver next : Receiver} {length : Byte} {data : List Byte}
    {first second : Byte} {writeOk : Bool} {events : List Event}
    (h : receiver.settle length data first second writeOk = (events, .again next)) :
    (next.palint = receiver.palint ∨ next.palint = 0 ∧ events ≠ []) ∧
      next.questionReceived = receiver.questionReceived := by
  simp only [settle] at h
  split at h
  · split at h
    · simp at h
    · split at h
      · simp at h
      · split at h
        · obtain ⟨rfl, rfl⟩ := again_inj h
          exact ⟨.inr ⟨rfl, by simp⟩, rfl⟩
        · obtain ⟨rfl, rfl⟩ := again_inj h
          exact ⟨.inr ⟨rfl, by simp⟩, rfl⟩
  · obtain ⟨rfl, rfl⟩ := again_inj h
    exact ⟨.inl rfl, rfl⟩

theorem settle_idle {receiver next : Receiver} {length : Byte} {data : List Byte}
    {first second : Byte} {writeOk : Bool} {events : List Event}
    (h : receiver.settle length data first second writeOk = (events, .again next)) :
    next.phase = .idle := by
  simp only [settle] at h
  split at h
  · split at h
    · simp at h
    · split at h
      · simp at h
      · split at h
        · obtain ⟨-, rfl⟩ := again_inj h
          rfl
        · obtain ⟨-, rfl⟩ := again_inj h
          rfl
  · obtain ⟨-, rfl⟩ := again_inj h
    rfl

theorem take_kept {receiver next : Receiver} {ch : Byte} {writeOk : Bool}
    {events : List Event} (h : receiver.take ch writeOk = (events, .again next)) :
    (next.palint = receiver.palint ∨ next.palint = 0 ∧ events ≠ []) ∧
      (receiver.questionReceived = true → next.questionReceived = true) := by
  cases take_taken h with
  | asked _ hquestion =>
      rw [question_kept hquestion]
      exact ⟨.inl rfl, fun _ => rfl⟩
  | settled _ hsettle =>
      obtain ⟨hpalint, hasked⟩ := settle_kept hsettle
      exact ⟨hpalint, hasked.trans⟩
  | _ => exact ⟨.inl rfl, id⟩

theorem body_palint_lt {receiver next : Receiver} {input : Input}
    {events : List Event} (hlt : receiver.palint < 4)
    (h : receiver.body input = (events, .again next)) : next.palint < 4 := by
  rcases again_cases h with ⟨-, hsame, -⟩ | ⟨previous, ch, hsame, -, -, htake⟩
  · exact hsame.palint hlt
  · have := hsame.palint hlt
    rcases (take_kept htake).1 with hkept | ⟨hreset, -⟩
    · omega
    · omega

theorem body_silent {receiver next : Receiver} {ch : Byte} {writeOk : Bool}
    (hasked : receiver.questionReceived = true)
    (hread : ch ≠ 0#8 ∨ receiver.phase.inChecksum = true)
    (h : receiver.body ⟨.byte ch, writeOk⟩ = ([], .again next)) :
    RunCounter.step 0x23#8 4 receiver.palint ch = some next.palint ∧
      next.questionReceived = true := by
  cases hstep : RunCounter.step 0x23#8 4 receiver.palint ch with
  | none => simp [body_of_step_none hasked hstep] at h
  | some palint =>
      rw [body_of_step hasked hread hstep] at h
      obtain ⟨hpalint, hquestion⟩ := take_kept h
      refine ⟨?_, hquestion hasked⟩
      rcases hpalint with hkept | ⟨-, hevents⟩
      · rw [hkept]
      · exact absurd rfl hevents

theorem run_silent {receiver last : Receiver} {bytes : List Byte}
    (hasked : receiver.questionReceived = true) (hread : ∀ ch ∈ bytes, ch ≠ 0#8)
    (h : run body receiver (received bytes) = ([], .again last)) :
    RunCounter.count 0x23#8 4 receiver.palint bytes = some last.palint ∧
      last.questionReceived = true := by
  induction bytes generalizing receiver with
  | nil =>
      obtain rfl := (again_inj h).2
      exact ⟨rfl, hasked⟩
  | cons ch bytes ih =>
      obtain ⟨emitted, next, later, hbody, hlater, hevents⟩ := run_cons_eq_again h
      obtain ⟨rfl, rfl⟩ := List.nil_eq_append_iff.mp hevents
      obtain ⟨hstep, hnext⟩ :=
        body_silent hasked (.inl (hread ch List.mem_cons_self)) hbody
      rw [RunCounter.count_cons_of_step hstep]
      exact ih hnext (fun other h => hread other (List.mem_cons_of_mem _ h)) hlater

/-! ## A byte that is not stored leaves the frame one byte short -/

def Short (length : Byte) (stored sofs : Nat) (phase : Phase) : Prop :=
  ∃ data sofData, phase = .payload length data sofData ∧
    data.length ≤ stored ∧ 0 < sofData.toNat ∧ sofData.toNat ≤ sofs

theorem take_short {receiver next : Receiver} {length ch : Byte}
    {data : List Byte} {sofData : BitVec 32} {writeOk : Bool} {events : List Event}
    (hphase : receiver.phase = .payload length data sofData)
    (hpos : 0 < sofData.toNat) (hsof : sofData.toNat + 1 < 2 ^ 32)
    (h : receiver.take ch writeOk = (events, .again next)) :
    (next.phase = .checksum length (data ++ [ch]) none ∧
        data.length + 3 = length.toNat ∧ ch ≠ 0x24#8 ∧ ch ≠ 0x3F#8) ∨
      Short length (data.length + if ch = 0x24#8 ∨ ch = 0x3F#8 then 0 else 1)
        (sofData.toNat + 1) next.phase := by
  cases take_taken h with
  | asked hasked hquestion =>
      rcases hasked with ⟨hidle, -⟩ | ⟨size, other, sofs, hpayload, rfl⟩
      · rw [hphase] at hidle
        cases hidle
      · rw [hphase] at hpayload
        cases hpayload
        rw [question_kept hquestion]
        exact .inr ⟨[], sofData, rfl, Nat.zero_le _, hpos, Nat.le_succ _⟩
  | restarted hpayload hdollar =>
      rw [hphase] at hpayload
      cases hpayload
      have hnext : (sofData + 1#32).toNat = sofData.toNat + 1 := by
        rw [BitVec.toNat_add]
        exact Nat.mod_eq_of_lt hsof
      have hnowrap : sofData + 1#32 ≠ 1#32 := by
        intro hwrap
        rw [hwrap] at hnext
        simp at hnext
        omega
      exact .inr ⟨data, sofData + 1#32, if_neg hnowrap, by omega, by omega, by omega⟩
  | stored hpayload hmark hdollar =>
      rw [hphase] at hpayload
      cases hpayload
      by_cases hfull : data.length + 3 = length.toNat
      · exact .inl ⟨if_pos hfull, hfull, hdollar, hmark⟩
      · refine .inr ⟨data ++ [ch], sofData, if_neg hfull, ?_, hpos, by omega⟩
        simp [hmark, hdollar]
  | opened hidle => rw [hphase] at hidle; cases hidle
  | ignored hidle => rw [hphase] at hidle; cases hidle
  | sized hlength => rw [hphase] at hlength; cases hlength
  | checked hchecksum => rw [hphase] at hchecksum; cases hchecksum
  | settled hchecksum _ => rw [hphase] at hchecksum; cases hchecksum

theorem body_short {receiver next : Receiver} {length ch : Byte}
    {stored sofs : Nat} {writeOk : Bool} {events : List Event}
    (hphase : Short length stored sofs receiver.phase) (hsof : sofs + 1 < 2 ^ 32)
    (h : receiver.body ⟨.byte ch, writeOk⟩ = (events, .again next)) :
    (∃ data, next.phase = .checksum length data none ∧ length.toNat ≤ stored + 3 ∧
        Plain ch) ∨
      Short length (stored + if Plain ch then 1 else 0) (sofs + 1) next.phase := by
  obtain ⟨data, sofData, hphase, hstored, hpos, hsofs⟩ := hphase
  rcases again_cases h with
    ⟨-, hsame, hzero⟩ | ⟨previous, other, hsame, hch, hzero, htake⟩
  · exact .inr ⟨data, sofData, hsame.phase.trans hphase, by omega, hpos, by omega⟩
  · obtain rfl : ch = other := Option.some.inj hch
    have hne : ch ≠ 0#8 := by
      intro h
      have := hzero h
      simp [hphase, Phase.inChecksum] at this
    rcases take_short (hsame.phase.trans hphase) hpos (by omega) htake with
      ⟨hnext, hfull, hdollar, hmark⟩ | ⟨data', sofData', hnext, hdata, hpos', hsofs'⟩
    · exact .inl ⟨_, hnext, by omega, hne, hdollar, hmark⟩
    · refine .inr ⟨data', sofData', hnext, ?_, hpos', by omega⟩
      by_cases hdrop : ch = 0x24#8 ∨ ch = 0x3F#8
      · rw [if_pos hdrop] at hdata
        omega
      · have hplain : Plain ch := ⟨hne, not_or.mp hdrop⟩
        rw [if_neg hdrop] at hdata
        rw [if_pos hplain]
        omega

theorem run_short {receiver last : Receiver} {length : Byte} {stored sofs : Nat}
    {bytes : List Byte} {events : List Event}
    (hphase : Short length stored sofs receiver.phase)
    (hsof : sofs + bytes.length < 2 ^ 32)
    (hroom : stored + (bytes.filter (Plain ·)).length + 2 < length.toNat)
    (h : run body receiver (received bytes) = (events, .again last)) :
    Short length (stored + (bytes.filter (Plain ·)).length) (sofs + bytes.length)
      last.phase := by
  induction bytes generalizing receiver stored sofs events with
  | nil =>
      obtain rfl := (again_inj h).2
      exact hphase
  | cons ch bytes ih =>
      obtain ⟨emitted, next, later, hbody, hlater, -⟩ := run_cons_eq_again h
      simp only [List.length_cons] at hsof ⊢
      have hcount : (List.filter (Plain ·) (ch :: bytes)).length =
          (if Plain ch then 1 else 0) + (bytes.filter (Plain ·)).length := by
        rw [List.filter_cons]
        by_cases hplain : Plain ch <;> simp [hplain, Nat.add_comm]
      rw [hcount] at hroom ⊢
      rcases body_short hphase (by omega) hbody with ⟨data, hnext, hfull, hplain⟩ | hnext
      · rw [if_pos hplain] at hroom
        omega
      · have := ih hnext (by omega) (by omega) hlater
        rwa [Nat.add_assoc, Nat.add_assoc, Nat.add_comm 1] at this

/-! ## The last byte of a frame -/

def closed (receiver : Receiver) (length : Byte) (data : List Byte)
    (first second : Byte) (palint : Nat) : Receiver :=
  { receiver with
    phase := .checksum length data (some first)
    palint := palint
    endPacket := receiver.endPacket || data.any (· == 0x45#8)
    printChar := receiver.printChar || hasNewline (data ++ [first, second]) }

theorem body_opened {receiver : Receiver} {length first second : Byte}
    {data : List Byte} {palint last : Nat}
    (hasked : receiver.questionReceived = true)
    (hstep : RunCounter.step 0x23#8 4 palint second = some last) (writeOk : Bool) :
    (receiver.opened length data first palint).body ⟨.byte second, writeOk⟩ =
      (receiver.closed length data first second last).settle length data first second
        writeOk := by
  rw [@body_of_step (receiver.opened length data first palint) second last hasked
    (.inr rfl) hstep]
  unfold take
  simp [opened, closed, mark, Phase.inChecksum, hasNewline, Bool.or_assoc]

theorem take_crc {receiver : Receiver} {ch : Byte} {writeOk : Bool} {frame : List Byte}
    (h : Event.crc frame ∈ (receiver.take ch writeOk).1) :
    ∃ length data first, receiver.phase = .checksum length data (some first) := by
  cases receiver.take_decides ch writeOk with
  | inl hundecided => exact absurd h (hundecided.1 frame)
  | inr hsettled =>
      obtain ⟨length, data, first, hphase, -⟩ := hsettled
      exact ⟨length, data, first, hphase⟩

theorem body_crc {receiver : Receiver} {input : Input} {frame : List Byte}
    (h : Event.crc frame ∈ (receiver.body input).1) :
    ∃ length data first, receiver.phase = .checksum length data (some first) := by
  have hdispatch := body_dispatch receiver input
  generalize receiver.body input = pass at hdispatch h
  cases hdispatch with
  | left => simp at h
  | skipped => simp at h
  | taken hsame => simpa only [hsame.phase] using take_crc h

theorem plain_of_settled {receiver waiting : Receiver} {length first : Byte}
    {data : List Byte} {events : List Event} {input : Input} {frame : List Byte}
    (hasked : receiver.questionReceived = true) (hidle : receiver.phase = .idle)
    (hlength : data.length + 2 = length.toNat)
    (hrun : run body receiver (received (frameOf length data ++ [first])) =
      (events, .again waiting))
    (hcrc : Event.crc frame ∈ (waiting.body input).1) :
    ∀ ch ∈ data, Plain ch := by
  obtain ⟨other, stored, checksum, hphase⟩ := body_crc hcrc
  by_contra hdropped
  have hfewer : (data.filter (Plain ·)).length < data.length := by
    apply List.length_filter_lt_length_iff_exists.mpr
    simpa using hdropped
  obtain ⟨palint, hhead, -⟩ := @RunCounter.step_of_lt _ _ 0x23#8 4 0 (by decide) length
  have hsplit : received (frameOf length data ++ [first]) =
      received [0x24#8, length] ++ (received data ++ received [first]) := by
    simp [frameOf]
  rw [hsplit, run_append (run_header hasked hidle (by omega) hhead),
    List.nil_append] at hrun
  obtain ⟨_, middle, later, hdata, hlast, -⟩ := run_append_split hrun
  have hsmall := length.isLt
  have hopen : Short length 0 1 (.payload length [] 1#32) :=
    ⟨[], 1#32, rfl, Nat.le_refl _, by decide, by decide⟩
  have hshort := run_short hopen (by omega) (by omega) hdata
  rw [received_cons, received_nil, run_singleton] at hlast
  rcases body_short hshort (by omega) hlast with
    ⟨_, hnext, -, -⟩ | ⟨_, _, hnext, -⟩
  · simp [hphase] at hnext
  · simp [hphase] at hnext

theorem opened_of_settled {receiver waiting : Receiver} {length first second : Byte}
    {data : List Byte} {writeOk : Bool} {frame : List Byte}
    (hasked : receiver.questionReceived = true) (hidle : receiver.phase = .idle)
    (hne : data ≠ []) (hlength : data.length + 2 = length.toNat)
    (hrun : run body receiver (received (frameOf length data ++ [first])) =
      ([], .again waiting))
    (hcrc : Event.crc frame ∈ (waiting.body ⟨.byte second, writeOk⟩).1) :
    ∃ palint last,
      RunCounter.count 0x23#8 4 0 (length :: data ++ [first]) = some palint ∧
      RunCounter.step 0x23#8 4 palint second = some last ∧
      waiting = receiver.opened length data first palint := by
  have hplain := plain_of_settled hasked hidle hlength hrun hcrc
  have hread : ∀ ch ∈ frameOf length data, ch ≠ 0#8 := by
    intro ch hmem
    rcases List.mem_cons.mp hmem with rfl | hmem
    · decide
    · rcases List.mem_cons.mp hmem with rfl | hmem
      · rintro rfl
        simp at hlength
      · exact (hplain ch hmem).1
  have hframe := hrun
  rw [received_append] at hframe
  obtain ⟨_, middle, _, hbytes, hfirst, hevents⟩ := run_append_split hframe
  obtain ⟨rfl, rfl⟩ := List.nil_eq_append_iff.mp hevents
  obtain ⟨hcount, hmiddle⟩ := run_silent hasked hread hbytes
  rw [frameOf, RunCounter.count_cons_of_step (if_neg (by decide))] at hcount
  have hopened : ∃ palint,
      RunCounter.count 0x23#8 4 0 (length :: data ++ [first]) = some palint := by
    rw [RunCounter.count_append, hcount, Option.bind_some, RunCounter.count_singleton]
    by_cases hzero : first = 0#8
    · exact ⟨0, if_neg (by rw [hzero]; decide)⟩
    · rw [received_cons, received_nil, run_singleton] at hfirst
      exact ⟨_, (body_silent hmiddle (.inl hzero) hfirst).1⟩
  obtain ⟨palint, hopened⟩ := hopened
  have hwaiting := run_opening hasked hidle hplain hne hlength hopened
  rw [hrun] at hwaiting
  obtain rfl := (again_inj hwaiting).2
  cases hstep : RunCounter.step 0x23#8 4 palint second with
  | none =>
      rw [@body_of_step_none (receiver.opened length data first palint) _ hasked
        hstep] at hcrc
      simp at hcrc
  | some last => exact ⟨palint, last, hopened, hstep, rfl⟩

theorem settle_mismatch {receiver : Receiver} {length first second : Byte}
    {data : List Byte} (h : ¬ (crcLow (frameOf length data) = first ∧
      crcHigh (frameOf length data) = second)) (writeOk : Bool) :
    receiver.settle length data first second writeOk =
      (.crc (frameOf length data) :: .write 0x26#8 :: replyFailed writeOk,
        .again { receiver with phase := .idle }) :=
  if_neg h

theorem run_frame {receiver : Receiver} {length first second : Byte}
    {data : List Byte} {palint : Nat} (hasked : receiver.questionReceived = true)
    (hidle : receiver.phase = .idle) (hplain : ∀ ch ∈ data, Plain ch)
    (hne : data ≠ []) (hlength : data.length + 2 = length.toNat)
    (hcount : RunCounter.count 0x23#8 4 0 (length :: data ++ [first, second]) =
      some palint) :
    run body receiver (received (frameOf length data ++ [first, second])) =
      (receiver.closed length data first second palint).settle length data first second
        true := by
  have hsplit : received (frameOf length data ++ [first, second]) =
      received (frameOf length data ++ [first]) ++ received [second] := by simp
  obtain ⟨middle, hopened, hstep⟩ := RunCounter.count_concat_pair_iff.mp hcount
  rw [hsplit, run_append (run_opening hasked hidle hplain hne hlength hopened),
    List.nil_append, received_cons, received_nil, run_singleton]
  exact body_opened hasked hstep true

end Receiver

/-! ## Accepted frames -/

theorem Reachable.palint_lt {upload : Upload} (h : Reachable upload) :
    upload.palint < 4 := by
  obtain ⟨tempBuffer, writeOk, inputs, events, hrun⟩ := h
  obtain ⟨later, receiver, -, himage, hrep⟩ := uploadData_again hrun
  have hkept : Preserved Receiver.body (fun _ => True)
      (fun _ receiver => receiver.palint < 4) :=
    fun _ _ _ _ _ _ hlt hbody => Receiver.body_palint_lt hlt hbody
  have hlt := @Preserved.run _ _ _ _ _ _ _ hkept [] _ _ _ _ (by decide)
    (fun _ _ => trivial) himage
  rw [hrep.vars.2.2.1]
  exact hlt

/-- `'?'` has been answered and no frame is in progress. -/
structure Upload.Idle (upload : Upload) : Prop where
  questionReceived : upload.questionReceived = true
  sofData : upload.sofData = 0#32
  lengthFlag : upload.lengthFlag = false
  startReceive : upload.startReceive = false
  chksumFlag : upload.chksumFlag = false

theorem Represents.idle {upload : Upload} {receiver : Receiver}
    (hrep : Represents upload receiver) (hidle : upload.Idle) :
    receiver.questionReceived = true ∧ receiver.phase = .idle := by
  obtain ⟨hphase, ⟨-, -, -, -, -, hquestion, -⟩, -⟩ := hrep
  obtain ⟨hasked, -, hlengthFlag, hstart, hchksum⟩ := hidle
  refine ⟨hquestion.symm.trans hasked, ?_⟩
  cases h : receiver.phase with
  | idle => rfl
  | length => simp [h, PhaseVars, hlengthFlag] at hphase
  | payload => simp [h, PhaseVars, hstart] at hphase
  | checksum => simp [h, PhaseVars, hchksum] at hphase

theorem Represents.upload_idle {upload : Upload} {receiver : Receiver}
    (hrep : Represents upload receiver) (hasked : receiver.questionReceived = true)
    (hidle : receiver.phase = .idle) : upload.Idle := by
  obtain ⟨hphase, ⟨-, -, -, -, -, hquestion, -⟩, -⟩ := hrep
  rw [hidle] at hphase
  obtain ⟨hchksum, hlengthFlag, hstart, hsof, -⟩ := hphase
  exact ⟨hquestion.trans hasked, hsof, hlengthFlag, hstart, hchksum⟩

theorem exists_asked (tempBuffer : Buffer Byte 1000) :
    ∃ upload, Represents upload ⟨.idle, [], 0, false, false, true, 1⟩ ∧
      Reachable upload ∧ upload.Idle := by
  obtain ⟨upload, hrep, hcall⟩ := uploadData_of_again tempBuffer true
    (show run Receiver.body .start (received [0x3F#8]) =
      ([.write 0x55#8], .again ⟨.idle, [], 0, false, false, true, 1⟩) by decide)
  exact ⟨upload, hrep, ⟨_, _, _, _, hcall⟩, hrep.upload_idle rfl rfl⟩

def frameFor (payload : List Byte) : List Byte :=
  frameOf (BitVec.ofNat 8 (payload.length + 2)) payload

def wire (payload : List Byte) : List Byte :=
  frameFor payload ++ [crcLow (frameFor payload), crcHigh (frameFor payload)]

/--
Sent to a machine in this state, the frame with this payload has no effect on
the outside until its last byte, and that byte makes the machine check the CRC
of the whole frame and answer `'*'`.
-/
def Accepted {σ : Type} (body : Body σ Input Event Return) (state : σ)
    (payload : List Byte) : Prop :=
  ∃ waiting events exit,
    run body state (received (frameFor payload ++ [crcLow (frameFor payload)])) =
      ([], .again waiting) ∧
    run body state (received (wire payload)) =
      (.crc (frameFor payload) :: .ack payload :: events, exit) ∧
    exit ≠ .fault

def GoesOn {σ : Type} (body : Body σ Input Event Return) (state : σ)
    (payload : List Byte) : Prop :=
  ∃ events next, run body state (received (wire payload)) = (events, .again next)

structure GetsThrough (oldLength : Nat) (payload : List Byte) : Prop where
  plain : ∀ ch ∈ payload, Plain ch
  noFlush : ¬ List.replicate 4 0x23#8 <:+: wire payload
  room : oldLength + payload.length ≤ 1000

theorem count_frame_iff (length first second : Byte) (data : List Byte) :
    (∃ palint, RunCounter.count 0x23#8 4 0 (length :: data ++ [first, second]) =
        some palint) ↔
      ¬ List.replicate 4 0x23#8 <:+: frameOf length data ++ [first, second] := by
  have hsof : RunCounter.count 0x23#8 4 0 (frameOf length data ++ [first, second]) =
      RunCounter.count 0x23#8 4 0 (length :: data ++ [first, second]) :=
    RunCounter.count_cons_of_step (if_neg (by decide)) _
  rw [← RunCounter.count_zero_isSome_iff (by decide), hsof]

theorem toNat_lengthByte {payload : List Byte} (hmax : payload.length ≤ 253) :
    payload.length + 2 = (BitVec.ofNat 8 (payload.length + 2)).toNat := by
  rw [BitVec.toNat_ofNat]
  omega

namespace Receiver

def accept (receiver : Receiver) (payload : List Byte) : Pass :=
  let frame := frameFor payload
  let events := [.crc frame, .ack payload]
  let checksum := [crcLow frame, crcHigh frame]
  let receiver :=
    { receiver with
      palint := 0
      record := receiver.record ++ payload
      endPacket := receiver.endPacket || payload.any (· == 0x45#8)
      printChar := receiver.printChar || hasNewline (payload ++ checksum) }
  if receiver.endPacket then (events, .done receiver .ended)
  else if receiver.printChar then
    (events ++ receiver.record.flatMap printRecordChar,
      .again { receiver with printChar := false, record := [] })
  else (events, .again receiver)

theorem run_wire {receiver : Receiver} {payload : List Byte}
    (hasked : receiver.questionReceived = true) (hidle : receiver.phase = .idle)
    (hpos : 1 ≤ payload.length) (hmax : payload.length ≤ 253)
    (hthrough : GetsThrough receiver.record.length payload) :
    run body receiver (received (wire payload)) = receiver.accept payload := by
  obtain ⟨hplain, hflush, hroom⟩ := hthrough
  have hne : payload ≠ [] := List.length_pos_iff.mp hpos
  obtain ⟨palint, hcount⟩ := (count_frame_iff _ _ _ _).mpr hflush
  have hframe := run_frame hasked hidle hplain hne (toNat_lengthByte hmax) hcount
  refine hframe.trans ?_
  unfold settle
  rw [if_pos ⟨rfl, rfl⟩]
  simp only [closed, replyFailed, if_true, List.length_append]
  rw [if_neg (by omega), accept, hidle]
  rfl

theorem accept_goesOn_iff (receiver : Receiver) (payload : List Byte) :
    (∃ events next, receiver.accept payload = (events, .again next)) ↔
      receiver.endPacket = false ∧ 0x45#8 ∉ payload := by
  have hend : (receiver.endPacket || payload.any (· == 0x45#8)) = false ↔
      receiver.endPacket = false ∧ 0x45#8 ∉ payload := by
    rw [Bool.or_eq_false_iff, List.any_beq', List.contains_eq_mem]
    simp
  rw [← hend]
  unfold accept
  cases receiver.endPacket || payload.any (· == 0x45#8) with
  | true => simp
  | false =>
      simp only [Bool.false_eq_true, if_false, iff_true]
      split
      · exact ⟨_, _, rfl⟩
      · exact ⟨_, _, rfl⟩

theorem accept_events (receiver : Receiver) (payload : List Byte) :
    ∃ events exit, receiver.accept payload =
        (.crc (frameFor payload) :: .ack payload :: events, exit) ∧
      exit ≠ .fault := by
  unfold accept
  dsimp only
  split
  · exact ⟨_, _, rfl, by simp⟩
  · split
    · exact ⟨_, _, rfl, by simp⟩
    · exact ⟨_, _, rfl, by simp⟩

theorem getsThrough_of_accepted {receiver : Receiver} {payload : List Byte}
    (hasked : receiver.questionReceived = true) (hidle : receiver.phase = .idle)
    (hpos : 1 ≤ payload.length) (hmax : payload.length ≤ 253)
    (h : Accepted body receiver payload) :
    GetsThrough receiver.record.length payload := by
  obtain ⟨waiting, events, exit, hopening, hwire, hfault⟩ := h
  have hne : payload ≠ [] := List.length_pos_iff.mp hpos
  have hlength := toNat_lengthByte hmax
  have hsplit : received (wire payload) =
      received (frameFor payload ++ [crcLow (frameFor payload)]) ++
        received [crcHigh (frameFor payload)] := by
    simp [wire]
  rw [hsplit, run_append hopening, List.nil_append, received_cons, received_nil,
    run_singleton] at hwire
  have hcrc : Event.crc (frameFor payload) ∈
      (waiting.body ⟨.byte (crcHigh (frameFor payload)), true⟩).1 := by
    rw [(Prod.mk.inj hwire).1]
    exact List.mem_cons_self
  obtain ⟨palint, last, hcount, hstep, rfl⟩ :=
    opened_of_settled hasked hidle hne hlength hopening hcrc
  have hclosed := RunCounter.count_concat_pair_iff.mpr ⟨palint, hcount, hstep⟩
  refine ⟨plain_of_settled hasked hidle hlength hopening hcrc,
    (count_frame_iff _ _ _ _).mp ⟨last, hclosed⟩, ?_⟩
  by_contra hfull
  rw [body_opened hasked hstep] at hwire
  unfold settle at hwire
  rw [if_pos ⟨rfl, rfl⟩] at hwire
  simp only [closed, List.length_append] at hwire
  rw [if_pos (by omega)] at hwire
  exact hfault (Prod.mk.inj hwire).2.symm

theorem accepted_of_getsThrough {receiver : Receiver} {payload : List Byte}
    (hasked : receiver.questionReceived = true) (hidle : receiver.phase = .idle)
    (hpos : 1 ≤ payload.length) (hmax : payload.length ≤ 253)
    (h : GetsThrough receiver.record.length payload) :
    Accepted body receiver payload := by
  have hne : payload ≠ [] := List.length_pos_iff.mp hpos
  obtain ⟨palint, hcount⟩ := (count_frame_iff _ _ _ _).mpr h.noFlush
  obtain ⟨middle, hopened, -⟩ := RunCounter.count_concat_pair_iff.mp hcount
  obtain ⟨events, exit, haccept, hfault⟩ := receiver.accept_events payload
  refine ⟨_, events, exit, run_opening hasked hidle h.plain hne
    (toNat_lengthByte hmax) hopened, ?_, hfault⟩
  rw [run_wire hasked hidle hpos hmax h, haccept]

end Receiver

/-! ## The same for `upload_data` -/

theorem Accepted.image {σ τ : Type} {related : σ → τ → Prop}
    {left : Body σ Input Event Return} {right : Body τ Input Event Return}
    (hsim : Simulates related left right) {state : σ} {image : τ}
    (hrel : related state image) {payload : List Byte}
    (h : Accepted left state payload) : Accepted right image payload := by
  obtain ⟨waiting, events, exit, hopening, hwire, hfault⟩ := h
  obtain ⟨waiting', hopening', -⟩ := hsim.run_again hrel hopening
  obtain ⟨exit', hwire', hexit⟩ := hsim.run_image hrel hwire
  refine ⟨waiting', events, exit', hopening', hwire', ?_⟩
  rintro rfl
  cases hexit
  exact hfault rfl

theorem GoesOn.image {σ τ : Type} {related : σ → τ → Prop}
    {left : Body σ Input Event Return} {right : Body τ Input Event Return}
    (hsim : Simulates related left right) {state : σ} {image : τ}
    (hrel : related state image) {payload : List Byte}
    (h : GoesOn left state payload) : GoesOn right image payload := by
  obtain ⟨events, next, hrun⟩ := h
  obtain ⟨next', hrun', -⟩ := hsim.run_again hrel hrun
  exact ⟨events, next', hrun'⟩

/--
For every idle state of `upload_data`, the frame is accepted if and only if all
of its bytes get through; the upload goes on after it when no `'E'` was seen.
-/
theorem frame_accepted_iff (upload : Upload) (hreach : Reachable upload)
    (hidle : upload.Idle) (payload : List Byte) (hpos : 1 ≤ payload.length)
    (hmax : payload.length ≤ 253) :
    (Accepted uploadBody upload payload ↔ GetsThrough upload.oldLength payload) ∧
    (Accepted uploadBody upload payload ∧ GoesOn uploadBody upload payload ↔
      GetsThrough upload.oldLength payload ∧
        upload.endPacket = false ∧ 0x45#8 ∉ payload) := by
  obtain ⟨receiver, hrep⟩ := hreach.represented
  obtain ⟨hasked, hphase⟩ := hrep.idle hidle
  obtain ⟨-, hold, -, -, hend, -⟩ := hrep.vars
  have hsame : Accepted uploadBody upload payload ↔
      Accepted Receiver.body receiver payload :=
    ⟨.image uploadBody_simulates hrep, .image uploadBody_simulates.symm hrep⟩
  have hgoes : GoesOn uploadBody upload payload ↔
      GoesOn Receiver.body receiver payload :=
    ⟨.image uploadBody_simulates hrep, .image uploadBody_simulates.symm hrep⟩
  have haccepted : Accepted Receiver.body receiver payload ↔
      GetsThrough receiver.record.length payload :=
    ⟨Receiver.getsThrough_of_accepted hasked hphase hpos hmax,
      Receiver.accepted_of_getsThrough hasked hphase hpos hmax⟩
  rw [hsame, hgoes, hold, hend, haccepted]
  refine ⟨Iff.rfl, and_congr_right fun hthrough => ?_⟩
  rw [GoesOn, Receiver.run_wire hasked hphase hpos hmax hthrough,
    Receiver.accept_goesOn_iff]

/-- The first frame of a call, with payload `A`. -/
theorem frame_accepted_iff_letter :
    ∃ upload, Reachable upload ∧ upload.Idle ∧ Accepted uploadBody upload [0x41#8] := by
  obtain ⟨upload, hrep, hreach, hidle⟩ := exists_asked ⟨fun _ => 0#8⟩
  have hold : upload.oldLength = 0 := hrep.vars.2.1
  refine ⟨upload, hreach, hidle,
    (frame_accepted_iff upload hreach hidle [0x41#8] (by decide) (by decide)).1.mpr ?_⟩
  rw [hold]
  exact ⟨by decide, by decide +kernel, by decide⟩

/-- A payload byte `'$'` is taken as a SOF and lost. -/
theorem not_frame_accepted :
    ¬ ∀ upload, Reachable upload → upload.Idle → ∀ payload : List Byte,
        1 ≤ payload.length → payload.length ≤ 253 →
        Accepted uploadBody upload payload := by
  intro h
  obtain ⟨upload, hrep, hreach, hidle⟩ := exists_asked ⟨fun _ => 0#8⟩
  have haccepted := (h upload hreach hidle [0x24#8] (by decide) (by decide)).image
    uploadBody_simulates hrep
  have hthrough := Receiver.getsThrough_of_accepted rfl rfl (by decide) (by decide)
    haccepted
  exact absurd (hthrough.plain 0x24#8 (by decide)) (by decide)

end BBCodeBase.SerialComm
