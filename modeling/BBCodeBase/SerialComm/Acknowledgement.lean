import BBCodeBase.SerialComm.Frame
import BBCodeBase.SerialComm.Passes

/-!
# What an acknowledgement says

An observer notes the bytes of the frame in progress as they arrive, without
looking at `temp_buffer`.  Every reply answers a complete checksum phase, and
the frame whose CRC is computed is the one that was noted.
-/

namespace BBCodeBase.SerialComm

open Reactive

/-- The length byte, the payload bytes stored since, and the checksum bytes. -/
structure Assembly where
  length : Byte
  stored : List Byte
  checksum : List Byte
  deriving DecidableEq, Repr

def Assembly.empty : Assembly := ⟨0#8, [], []⟩

def Assembly.frame (assembly : Assembly) : List Byte :=
  0x24#8 :: assembly.length :: assembly.stored

/-- What the byte read in this pass adds to the frame in progress. -/
def Assembly.note (assembly : Assembly) (upload : Upload) (ch : Byte) : Assembly :=
  if upload.lengthFlag then ⟨ch, [], []⟩
  else if upload.startReceive then
    if ch = 0x3F#8 then { assembly with stored := [] }
    else if ch = 0x24#8 then assembly
    else { assembly with stored := assembly.stored ++ [ch] }
  else if upload.chksumFlag then
    { assembly with checksum := assembly.checksum ++ [ch] }
  else assembly

def Assembly.observe (assembly : Assembly) (upload : Upload) (input : Input) : Assembly :=
  match input.read.char with
  | none => assembly
  | some ch =>
      if ch = 0#8 ∧ upload.chksumFlag = false then assembly
      else assembly.note upload ch

def assembled (upload : Upload) (assembly : Assembly) : List Input → Assembly
  | [] => assembly
  | input :: rest =>
      match uploadBody upload input with
      | (_, .again next) => assembled next (assembly.observe upload input) rest
      | _ => assembly.observe upload input

def Event.crc? : Event → Option (List Byte)
  | .crc frame => some frame
  | _ => none

def computed (events : List Event) : List (List Byte) := events.filterMap Event.crc?

theorem computed_append (first second : List Event) :
    computed (first ++ second) = computed first ++ computed second :=
  List.filterMap_append ..

theorem computed_printRecord (record : List Byte) :
    computed (record.flatMap printRecordChar) = [] := by
  induction record with
  | nil => rfl
  | cons ch record ih =>
      rw [List.flatMap_cons, computed_append, ih, List.append_nil]
      unfold printRecordChar
      split <;> rfl

/-! ## The notes are the frame of the receiver -/

def Noted (phase : Phase) (assembly : Assembly) : Prop :=
  match phase with
  | .payload length data _ => assembly = ⟨length, data, []⟩
  | .checksum length data first => assembly = ⟨length, data, first.toList⟩
  | _ => True

theorem observe_takes {upload : Upload} {input : Input} {ch : Byte}
    (h : upload.Takes input ch) (assembly : Assembly) :
    assembly.observe upload input = assembly.note upload ch := by
  unfold Assembly.observe
  rw [h.read]
  dsimp only
  rw [if_neg]
  rintro ⟨hzero, hchksum⟩
  simp [h.kept hzero] at hchksum

theorem observe_skipped {upload : Upload} {input : Input}
    (hread : input.read.char = some 0#8) (hchksum : upload.chksumFlag = false)
    (assembly : Assembly) : assembly.observe upload input = assembly := by
  unfold Assembly.observe
  rw [hread]
  dsimp only
  rw [if_pos ⟨rfl, hchksum⟩]

theorem note_payload {upload : Upload} {receiver : Receiver} {length : Byte}
    {data : List Byte} {sofData : BitVec 32} (hrep : Represents upload receiver)
    (hcase : receiver.phase = .payload length data sofData) (assembly : Assembly)
    (ch : Byte) :
    assembly.note upload ch =
      if ch = 0x3F#8 then { assembly with stored := [] }
      else if ch = 0x24#8 then assembly
      else { assembly with stored := assembly.stored ++ [ch] } := by
  have hphase := hrep.phase
  rw [hcase] at hphase
  obtain ⟨-, hlengthFlag, hstart, -⟩ := hphase
  unfold Assembly.note
  rw [if_neg (by simp [hlengthFlag]), if_pos hstart]

theorem note_checksum {upload : Upload} {receiver : Receiver} {length : Byte}
    {data : List Byte} {first : Option Byte} (hrep : Represents upload receiver)
    (hcase : receiver.phase = .checksum length data first) (assembly : Assembly)
    (ch : Byte) :
    assembly.note upload ch =
      { assembly with checksum := assembly.checksum ++ [ch] } := by
  have hphase := hrep.phase
  rw [hcase] at hphase
  obtain ⟨hchksum, hlengthFlag, hstart, -⟩ := hphase
  unfold Assembly.note
  rw [if_neg (by simp [hlengthFlag]), if_neg (by simp [hstart]), if_pos hchksum]

theorem noted_takes {upload : Upload} {receiver next : Receiver} {assembly : Assembly}
    {ch : Byte} {writeOk : Bool} {events : List Event}
    (hrep : Represents upload receiver) (hnoted : Noted receiver.phase assembly)
    (h : (receiver.counted ch).take ch writeOk = (events, .again next)) :
    Noted next.phase (assembly.note upload ch) := by
  unfold Receiver.take at h
  cases hcase : receiver.phase with
  | idle =>
      simp only [Receiver.counted, hcase] at h
      split at h
      · rw [Receiver.question_kept h]
        trivial
      · split at h
        · obtain ⟨-, rfl⟩ := again_inj h
          trivial
        · obtain ⟨-, rfl⟩ := again_inj h
          simp [Receiver.mark, Noted]
  | length =>
      simp only [Receiver.counted, hcase] at h
      obtain ⟨-, rfl⟩ := again_inj h
      have hphase := hrep.phase
      rw [hcase] at hphase
      obtain ⟨-, hlengthFlag, -⟩ := hphase
      unfold Assembly.note
      rw [if_pos hlengthFlag]
      rfl
  | payload length data sofData =>
      simp only [Receiver.counted, hcase] at h
      rw [note_payload hrep hcase]
      rw [hcase] at hnoted
      obtain rfl : assembly = _ := hnoted
      split at h
      · next hquestion =>
          rw [Receiver.question_kept h, if_pos hquestion]
          rfl
      · next hquestion =>
          rw [if_neg hquestion]
          split at h
          · next hsof =>
              obtain ⟨-, rfl⟩ := again_inj h
              rw [if_pos hsof]
              dsimp only
              split
              · trivial
              · rfl
          · next hsof =>
              rw [if_neg hsof]
              split at h
              · simp at h
              · obtain ⟨-, rfl⟩ := again_inj h
                dsimp only
                split <;> rfl
  | checksum length data first =>
      simp only [Receiver.counted, hcase] at h
      cases first with
      | none =>
          obtain ⟨-, rfl⟩ := again_inj h
          rw [note_checksum hrep hcase]
          rw [hcase] at hnoted
          obtain rfl : assembly = _ := hnoted
          rfl
      | some first =>
          rw [Receiver.settle_idle h]
          trivial

theorem noted_body {upload : Upload} {receiver next : Receiver} {assembly : Assembly}
    {input : Input} {events : List Event} (hrep : Represents upload receiver)
    (hnoted : Noted receiver.phase assembly)
    (h : receiver.body input = (events, .again next)) :
    Noted next.phase (assembly.observe upload input) := by
  cases Receiver.body_continues h with
  | taken htakes htake =>
      rw [observe_takes (hrep.takes_iff.mpr htakes)]
      exact noted_takes hrep hnoted htake
  | skipped hread hphase =>
      rw [observe_skipped hread (hrep.phase.chksumFlag.trans hphase)]
      exact hnoted

theorem noted_run {upload last : Upload} {receiver : Receiver} {assembly : Assembly}
    {inputs : List Input} {events : List Event} (hrep : Represents upload receiver)
    (hnoted : Noted receiver.phase assembly)
    (h : run uploadBody upload inputs = (events, .again last)) :
    ∃ final, Represents last final ∧
      Noted final.phase (assembled upload assembly inputs) := by
  induction inputs generalizing upload receiver assembly events with
  | nil =>
      obtain ⟨-, rfl⟩ := again_inj h
      exact ⟨receiver, hrep, hnoted⟩
  | cons input inputs ih =>
      obtain ⟨emitted, next, later, hbody, hlater, -⟩ := run_cons_eq_again h
      obtain ⟨hevents, hexit⟩ := uploadBody_simulates upload receiver input hrep
      rw [hbody] at hexit
      generalize hpass : receiver.body input = pass at hexit
      obtain ⟨events', exit⟩ := pass
      cases hexit with
      | again hrep' =>
          simp only [assembled, hbody]
          exact ih hrep' (noted_body hrep hnoted hpass) hlater

/-! ## The replies of one pass -/

namespace Receiver

theorem settle_replies (receiver : Receiver) (length : Byte) (data : List Byte)
    (first second : Byte) (writeOk : Bool) :
    replies (receiver.settle length data first second writeOk).1 =
      if crcLow (frameOf length data) = first ∧ crcHigh (frameOf length data) = second then
        [0x2A#8]
      else [0x26#8] := by
  have haccept : replies
      (.crc (frameOf length data) :: .ack data :: replyFailed writeOk) = [0x2A#8] := by
    cases writeOk <;> rfl
  unfold settle
  dsimp only
  split
  · split
    · exact haccept
    · split
      · exact haccept
      · split
        · rw [replies_append, haccept, replies_printRecord]
          rfl
        · exact haccept
  · cases writeOk <;> rfl

def Quiet (events : List Event) : Prop :=
  events = [] ∨ events = [.write 0x55#8] ∨ ∃ message, events = [.printf message]

theorem question_quiet (receiver : Receiver) (phase : Phase) (writeOk : Bool) :
    Quiet (receiver.question phase writeOk).1 := by
  cases writeOk <;> exact .inr (.inl rfl)

/-- Only the second checksum byte of a frame is answered with `'*'` or `'&'`. -/
theorem take_quiet_or_settles (receiver : Receiver) (ch : Byte) (writeOk : Bool) :
    Quiet (receiver.take ch writeOk).1 ∨
      ∃ length data first, receiver.phase = .checksum length data (some first) := by
  unfold take
  cases receiver.phase with
  | idle =>
      left
      dsimp only
      split
      · exact question_quiet _ _ _
      · split <;> exact .inl rfl
  | length => exact .inl (.inl rfl)
  | payload length data sofData =>
      left
      dsimp only
      split
      · exact question_quiet _ _ _
      · split
        · exact .inl rfl
        · split <;> exact .inl rfl
  | checksum length data first =>
      cases first with
      | none => exact .inl (.inl rfl)
      | some first => exact .inr ⟨length, data, first, rfl⟩

theorem body_quiet {receiver : Receiver} {input : Input}
    (h : ¬ ∃ length data first second, receiver.phase = .checksum length data (some first) ∧
      receiver.Takes input second) : Quiet (receiver.body input).1 := by
  by_cases htakes : ∃ ch, receiver.Takes input ch
  · obtain ⟨ch, htakes⟩ := htakes
    rw [body_takes htakes]
    rcases (receiver.counted ch).take_quiet_or_settles ch input.writeOk with hquiet | hsettles
    · exact hquiet
    · obtain ⟨length, data, first, hphase⟩ := hsettles
      exact absurd ⟨length, data, first, ch, hphase, htakes⟩ h
  · have hidles := body_idles (fun ch htake => htakes ⟨ch, htake⟩)
    generalize receiver.body input = pass at hidles
    cases hidles with
    | readFailed => exact .inl rfl
    | noQuestionMark => exact .inr (.inr ⟨_, rfl⟩)
    | skipped => exact .inl rfl
    | flushed => exact .inr (.inr ⟨_, rfl⟩)

theorem settle_computed (receiver : Receiver) (length : Byte) (data : List Byte)
    (first second : Byte) (writeOk : Bool) :
    computed (receiver.settle length data first second writeOk).1 =
      [frameOf length data] := by
  have haccept : computed
      (.crc (frameOf length data) :: .ack data :: replyFailed writeOk) =
        [frameOf length data] := by
    cases writeOk <;> rfl
  unfold settle
  dsimp only
  split
  · split
    · exact haccept
    · split
      · exact haccept
      · split
        · rw [computed_append, haccept, computed_printRecord]
          rfl
        · exact haccept
  · cases writeOk <;> rfl

theorem settle_acked (receiver : Receiver) (length : Byte) (data : List Byte)
    (first second : Byte) (writeOk : Bool) :
    acked (receiver.settle length data first second writeOk).1 =
      if crcLow (frameOf length data) = first ∧ crcHigh (frameOf length data) = second then
        [data]
      else [] := by
  have haccept := (adds_accept (frameOf length data) data writeOk).acked
  unfold settle
  dsimp only
  split
  · split
    · exact haccept
    · split
      · exact haccept
      · split
        · rw [acked_append, haccept, (adds_printRecord writeOk _).acked]
          rfl
        · exact haccept
  · exact (adds_reject _ writeOk).acked

end Receiver

/--
What a pass may send and accept when `assembly` is what has been noted of the
frame in progress.
-/
structure Sound (upload : Upload) (input : Input) (assembly : Assembly) : Prop where
  answered : upload.CompletesChecksum input →
    replies (uploadBody upload input).1 = [0x2A#8] ∨
      replies (uploadBody upload input).1 = [0x26#8]
  silent : ¬ upload.CompletesChecksum input →
    0x2A#8 ∉ replies (uploadBody upload input).1 ∧
      0x26#8 ∉ replies (uploadBody upload input).1
  checksum : 0x2A#8 ∈ replies (uploadBody upload input).1 →
    assembly.stored.length + 2 = assembly.length.toNat ∧
      assembly.checksum = [crcLow assembly.frame, crcHigh assembly.frame]
  computed : ∀ frame ∈ computed (uploadBody upload input).1, frame = assembly.frame
  accepted : ∀ payload ∈ acked (uploadBody upload input).1, payload = assembly.stored
  record : ∀ next record, (uploadBody upload input).2 = .again next →
    0x2A#8 ∈ replies (uploadBody upload input).1 →
    upload.finalChar.slice? 0 upload.oldLength = some record →
    next.finalChar.slice? 0 next.oldLength = some (record ++ assembly.stored) ∨
      next.oldLength = 0 ∧
        fileBytes (uploadBody upload input).1 = recordText (record ++ assembly.stored)

theorem quiet_traces {events : List Event} (h : Receiver.Quiet events) :
    0x2A#8 ∉ replies events ∧ 0x26#8 ∉ replies events ∧ computed events = [] ∧
      acked events = [] ∧ fileBytes events = [] ∧ dayFileBytes events = [] := by
  rcases h with rfl | rfl | ⟨message, rfl⟩
  · exact ⟨by decide, by decide, rfl, rfl, rfl, rfl⟩
  · exact ⟨by decide, by decide, rfl, rfl, rfl, rfl⟩
  · exact ⟨by simp [replies, Event.reply?], by simp [replies, Event.reply?], rfl, rfl,
      rfl, rfl⟩

theorem sound_of_quiet {upload : Upload} {input : Input} {assembly : Assembly}
    (hquiet : Receiver.Quiet (uploadBody upload input).1)
    (hnot : ¬ upload.CompletesChecksum input) : Sound upload input assembly := by
  obtain ⟨hstar, hnak, hcomputed, hacked, -⟩ := quiet_traces hquiet
  refine ⟨fun h => absurd h hnot, fun _ => ⟨hstar, hnak⟩, fun h => absurd h hstar, ?_, ?_,
    fun _ _ _ h => absurd h hstar⟩
  · simp [hcomputed]
  · simp [hacked]

/-- An accepted payload is either added to the record or completes its output. -/
theorem record_of_acked {upload next : Upload} {receiver : Receiver} {input : Input}
    {data record : List Byte} (hrep : Represents upload receiver)
    (hdata : receiver.phase.data = data)
    (hnext : (uploadBody upload input).2 = .again next)
    (hacked : acked (uploadBody upload input).1 = [data])
    (hrecord : upload.finalChar.slice? 0 upload.oldLength = some record) :
    next.finalChar.slice? 0 next.oldLength = some (record ++ data) ∨
      next.oldLength = 0 ∧
        fileBytes (uploadBody upload input).1 = recordText (record ++ data) := by
  rw [hrep.slice_record] at hrecord
  obtain rfl := Option.some.inj hrecord
  obtain ⟨hevents, hexit⟩ := uploadBody_simulates upload receiver input hrep
  rw [hnext] at hexit
  generalize hpass : receiver.body input = pass at hevents hexit
  obtain ⟨events, exit⟩ := pass
  cases hexit with
  | @again _ image hrep' =>
      rw [hevents] at hacked ⊢
      cases Receiver.body_again hpass with
      | quiet hadds => simp [hadds.acked] at hacked
      | buffered hadds hsame hrecord =>
          left
          rw [hrep'.slice_record, hrecord, hsame, hdata]
      | printed hadds hsame hrecord =>
          right
          obtain ⟨-, hold, -⟩ := hrep'.vars
          rw [hold, hrecord]
          refine ⟨rfl, ?_⟩
          rw [hadds.file, hsame, hdata]

theorem sound_of_settles {upload : Upload} {receiver : Receiver} {input : Input}
    {assembly : Assembly} {length first second : Byte} {data : List Byte}
    (hrep : Represents upload receiver)
    (hphase : receiver.phase = .checksum length data (some first))
    (htakes : receiver.Takes input second) (hnoted : Noted receiver.phase assembly) :
    Sound upload input (assembly.observe upload input) := by
  have hassembly : assembly.observe upload input = ⟨length, data, [first, second]⟩ := by
    rw [observe_takes (hrep.takes_iff.mpr htakes), note_checksum hrep hphase]
    rw [hphase] at hnoted
    obtain rfl : assembly = _ := hnoted
    rfl
  have hdata : data.length + 2 = length.toNat := by
    have hvars := hrep.phase
    rw [hphase] at hvars
    obtain ⟨-, -, -, -, hdata, -⟩ := hvars
    exact hdata
  have hcompletes : upload.CompletesChecksum input :=
    hrep.completes_iff.mpr ⟨length, data, first, second, hphase, htakes⟩
  obtain ⟨hevents, -⟩ := uploadBody_simulates upload receiver input hrep
  have hbody := Receiver.body_settles hphase htakes
  have hreplies := Receiver.settle_replies
    ((receiver.counted second).mark second) length data first second input.writeOk
  have hcomputed := Receiver.settle_computed
    ((receiver.counted second).mark second) length data first second input.writeOk
  have hacked := Receiver.settle_acked
    ((receiver.counted second).mark second) length data first second input.writeOk
  rw [← hbody, ← hevents] at hreplies hcomputed hacked
  rw [hassembly]
  split at hreplies
  · next hmatch =>
      rw [if_pos hmatch] at hacked
      refine ⟨fun _ => .inl hreplies, fun h => absurd hcompletes h, fun _ => ⟨hdata, ?_⟩,
        ?_, ?_, fun next record hnext _ hrecord => ?_⟩
      · rw [← hmatch.1, ← hmatch.2]
        rfl
      · simp [hcomputed, frameOf, Assembly.frame]
      · simp [hacked]
      · exact record_of_acked hrep (by rw [hphase]; rfl) hnext hacked hrecord
  · next hmismatch =>
      rw [if_neg hmismatch] at hacked
      have hnoStar : 0x2A#8 ∉ replies (uploadBody upload input).1 := by
        rw [hreplies]
        decide
      refine ⟨fun _ => .inr hreplies, fun h => absurd hcompletes h,
        fun h => absurd h hnoStar, ?_, ?_, fun _ _ _ h => absurd h hnoStar⟩
      · simp [hcomputed, frameOf, Assembly.frame]
      · simp [hacked]

/--
After any inputs, the next pass answers exactly the complete checksum phases,
and acknowledges, computes and accepts only what has been noted.
-/
theorem upload_acknowledges (tempBuffer : Buffer Byte 1000) (writeOk : Bool)
    (inputs : List Input) (events : List Event) (upload : Upload) (input : Input)
    (h : uploadData false tempBuffer writeOk inputs = (events, .again upload)) :
    Sound upload input
      ((assembled (.start tempBuffer true) .empty inputs).observe upload input) := by
  obtain ⟨-, hexit⟩ := Prod.mk.inj h
  have hrun : run uploadBody (.start tempBuffer true) inputs =
      ((run uploadBody (.start tempBuffer true) inputs).1, .again upload) :=
    Prod.ext rfl hexit
  obtain ⟨receiver, hrep, hnoted⟩ :=
    noted_run (represents_start tempBuffer true) (by trivial) hrun
  by_cases hcompletes : upload.CompletesChecksum input
  · obtain ⟨length, data, first, second, hphase, htakes⟩ :=
      hrep.completes_iff.mp hcompletes
    exact sound_of_settles hrep hphase htakes hnoted
  · obtain ⟨hevents, -⟩ := uploadBody_simulates upload receiver input hrep
    apply sound_of_quiet _ hcompletes
    rw [hevents]
    apply Receiver.body_quiet
    rwa [← hrep.completes_iff]

/-- The last checksum byte of the frame `A`. -/
theorem upload_acknowledges_letter :
    ∃ events upload,
      uploadData false ⟨fun _ => 0#8⟩ true (received [0x3F#8, 0x24#8, 3#8, 0x41#8, 115#8]) =
          (events, .again upload) ∧
        Sound upload ⟨.byte 223#8, true⟩
          ((assembled (.start ⟨fun _ => 0#8⟩ true) .empty
            (received [0x3F#8, 0x24#8, 3#8, 0x41#8, 115#8])).observe upload
              ⟨.byte 223#8, true⟩) := by
  have hrun : run Receiver.body .start
      (received [0x3F#8, 0x24#8, 3#8, 0x41#8, 115#8]) =
        ([.write 0x55#8],
          .again ⟨.checksum 3#8 [0x41#8] (some 115#8), [], 0, false, false, true, 1⟩) := by
    decide
  obtain ⟨upload, -, hcall⟩ := uploadData_of_again ⟨fun _ => 0#8⟩ true hrun
  exact ⟨_, upload, hcall, upload_acknowledges _ _ _ _ upload _ hcall⟩

end BBCodeBase.SerialComm
