import BBCodeBase.Foundation.Rules
import BBCodeBase.SerialComm.Acknowledgement
import Mathlib.Data.List.DropRight

/-!
# Complete records

A newline completes a record.  `print_char` remembers a newline wherever it
arrived, in a payload or outside, and only the next accepted frame clears it, so
that a frame without a newline may be output before its record is complete.
-/

namespace BBCodeBase.SerialComm

open Reactive

/-! ## The property and the condition -/

/--
Record bytes are output only with an accepted payload that contains a newline,
and an accepted payload without one stays in the record buffer.
-/
structure CompleteOnly (upload : Upload) (input : Input) : Prop where
  output : fileBytes (uploadBody upload input).1 ≠ [] ∨
      dayFileBytes (uploadBody upload input).1 ≠ [] →
    ∃ payload, acked (uploadBody upload input).1 = [payload] ∧
      hasNewline payload = true
  buffered : ∀ payload next record, acked (uploadBody upload input).1 = [payload] →
    hasNewline payload = false → (uploadBody upload input).2 = .again next →
    upload.finalChar.slice? 0 upload.oldLength = some record →
    next.finalChar.slice? 0 next.oldLength = some (record ++ payload)

/--
A frame that is accepted, fits the record and does not end the upload has its
own newline if one has arrived, anywhere, since the last output.
-/
def Upload.NoStaleNewline (upload : Upload) (input : Input) : Prop :=
  ∀ frame, upload.Accepts input frame → upload.endPacket = false →
    upload.oldLength + (upload.length - 2) ≤ 1000 →
    upload.printChar = true ∨ hasNewline [crcHigh frame] = true →
    hasNewline (frame.drop 2) = true

/-! ## Newlines that are marked -/

namespace Receiver

structure Marked (receiver : Receiver) : Prop where
  newline : hasNewline receiver.phase.data = true → receiver.printChar = true
  stored : receiver.phase.inChecksum = true → receiver.phase.data ≠ []

theorem marked_of_data_nil {receiver : Receiver} (hdata : receiver.phase.data = [])
    (hphase : receiver.phase.inChecksum = false) : receiver.Marked where
  newline := by simp [hdata, hasNewline]
  stored := by simp [hphase]

theorem marked_of_same {previous receiver : Receiver}
    (hsame : SameFrame previous receiver) (h : receiver.Marked) : previous.Marked where
  newline := by
    rw [hsame.phase, hsame.printChar]
    exact h.newline
  stored := by
    rw [hsame.phase]
    exact h.stored

theorem hasNewline_append (first second : List Byte) :
    hasNewline (first ++ second) = (hasNewline first || hasNewline second) :=
  List.any_append

theorem mark_printChar (receiver : Receiver) (ch : Byte) :
    (receiver.mark ch).printChar = (receiver.printChar || hasNewline [ch]) := by
  simp [mark, hasNewline, Bool.or_assoc]

theorem take_marked {receiver next : Receiver} {ch : Byte} {writeOk : Bool}
    {events : List Event} (hmarked : receiver.Marked)
    (h : receiver.take ch writeOk = (events, .again next)) : next.Marked := by
  cases take_taken h with
  | asked hphase hquestion =>
      rw [question_kept hquestion]
      rcases hphase with ⟨-, rfl⟩ | ⟨length, data, sofData, -, rfl⟩
      · exact marked_of_data_nil rfl rfl
      · exact marked_of_data_nil rfl rfl
  | opened => exact marked_of_data_nil rfl rfl
  | ignored hphase =>
      apply marked_of_data_nil
      · simp [mark, hphase, Phase.data]
      · simp [mark, hphase, Phase.inChecksum]
  | sized => exact marked_of_data_nil rfl rfl
  | @restarted length data sofData hphase =>
      have hnewline := hmarked.newline
      rw [hphase] at hnewline
      split
      · exact marked_of_data_nil rfl rfl
      · exact ⟨hnewline, by simp [Phase.inChecksum]⟩
  | @stored length data sofData hphase =>
      have hnewline : hasNewline (data ++ [ch]) = true →
          (receiver.mark ch).printChar = true := by
        intro h
        rw [hasNewline_append] at h
        rw [mark_printChar]
        cases hch : hasNewline [ch] with
        | true => simp
        | false =>
            rw [hch, Bool.or_false] at h
            simp [hmarked.newline (by rwa [hphase])]
      split
      · exact ⟨hnewline, fun _ => by simp [Phase.data]⟩
      · exact ⟨hnewline, by simp [Phase.inChecksum]⟩
  | @checked length data hphase =>
      have hnewline := hmarked.newline
      have hstored := hmarked.stored
      rw [hphase] at hnewline hstored
      refine ⟨fun h => ?_, hstored⟩
      have hprint : (receiver.mark ch).printChar = true := by
        rw [mark_printChar, hnewline h, Bool.true_or]
      exact hprint
  | settled _ hsettle =>
      have hidle := settle_idle hsettle
      apply marked_of_data_nil
      · rw [hidle]
        rfl
      · rw [hidle]
        rfl

theorem body_marked {receiver next : Receiver} {input : Input} {events : List Event}
    (hmarked : receiver.Marked) (h : receiver.body input = (events, .again next)) :
    next.Marked := by
  rcases again_cases h with ⟨-, hsame, -⟩ | ⟨previous, ch, hsame, -, -, htake⟩
  · exact marked_of_same hsame hmarked
  · exact take_marked (marked_of_same hsame hmarked) htake

/-! ## What becomes of an accepted frame -/

inductive Settled (receiver : Receiver) (data : List Byte) (accepted : Prop) :
    Pass → Prop
  | rejected {events next} : ¬ accepted → acked events = [] → fileBytes events = [] →
      dayFileBytes events = [] → Settled receiver data accepted (events, .again next)
  | overrun {events} : accepted → 1000 < receiver.record.length + data.length →
      fileBytes events = [] → dayFileBytes events = [] →
      Settled receiver data accepted (events, .fault)
  | ended {events last} : accepted → receiver.endPacket = true →
      fileBytes events = [] → dayFileBytes events = [] →
      Settled receiver data accepted (events, .done last .ended)
  | printed {events next} : accepted → receiver.endPacket = false →
      receiver.record.length + data.length ≤ 1000 → receiver.printChar = true →
      acked events = [data] → next.record = [] →
      Settled receiver data accepted (events, .again next)
  | kept {events next} : accepted → receiver.printChar = false →
      acked events = [data] → fileBytes events = [] → dayFileBytes events = [] →
      next.record = receiver.record ++ data →
      Settled receiver data accepted (events, .again next)

theorem settle_settled (receiver : Receiver) (length : Byte) (data : List Byte)
    (first second : Byte) (writeOk : Bool) :
    Settled receiver data
      (crcLow (frameOf length data) = first ∧ crcHigh (frameOf length data) = second)
      (receiver.settle length data first second writeOk) := by
  have hadds := adds_accept (frameOf length data) data writeOk
  unfold settle
  dsimp only
  split
  · next hmatch =>
      rw [List.length_append]
      split
      · next hfull => exact .overrun hmatch hfull hadds.file hadds.dayFile
      · next hroom =>
          split
          · next hend => exact .ended hmatch hend hadds.file hadds.dayFile
          · next hopen =>
              have hopen : receiver.endPacket = false := by simpa using hopen
              split
              · next hprint =>
                  refine .printed hmatch hopen (by omega) hprint ?_ rfl
                  exact (hadds.append (adds_printRecord writeOk _)).acked
              · next hkeep =>
                  exact .kept hmatch (by simpa using hkeep) hadds.acked hadds.file
                    hadds.dayFile rfl
  · next hmismatch =>
      have hreject := adds_reject (frameOf length data) writeOk
      exact .rejected hmismatch hreject.acked hreject.file hreject.dayFile

end Receiver

/-! ## One pass -/

theorem completeOnly_of_silent {upload : Upload} {input : Input}
    (hacked : acked (uploadBody upload input).1 = [])
    (hfile : fileBytes (uploadBody upload input).1 = [])
    (hdayFile : dayFileBytes (uploadBody upload input).1 = []) :
    CompleteOnly upload input := by
  refine ⟨fun h => ?_, fun payload next record h => ?_⟩
  · simp [hfile, hdayFile] at h
  · simp [hacked] at h

theorem completeOnly_of_settled {upload : Upload} {receiver : Receiver} {input : Input}
    {length first second : Byte} {data : List Byte} (hrep : Represents upload receiver)
    (hmarked : receiver.Marked)
    (hphase : receiver.phase = .checksum length data (some first))
    (htakes : receiver.Takes input second) :
    CompleteOnly upload input ↔
      ((crcLow (frameOf length data) = first ∧ crcHigh (frameOf length data) = second) →
        receiver.endPacket = false →
        receiver.record.length + data.length ≤ 1000 →
        (receiver.printChar || hasNewline [second]) = true → hasNewline data = true) := by
  obtain ⟨hevents, hexit⟩ := uploadBody_simulates upload receiver input hrep
  have hsettled := Receiver.settle_settled
    ((receiver.counted second).mark second) length data first second input.writeOk
  rw [← Receiver.body_settles hphase htakes] at hsettled
  have hend : ((receiver.counted second).mark second).endPacket = receiver.endPacket := by
    simp [Receiver.mark, Receiver.counted, hphase, Phase.inChecksum]
  have hprintChar : ((receiver.counted second).mark second).printChar =
      (receiver.printChar || hasNewline [second]) := Receiver.mark_printChar _ _
  have hrecord : ((receiver.counted second).mark second).record = receiver.record := rfl
  generalize receiver.body input = pass at hevents hexit hsettled
  cases hsettled with
  | rejected hmismatch hacked hfile hdayFile =>
      refine ⟨fun _ hmatch => absurd hmatch hmismatch, fun _ => ?_⟩
      apply completeOnly_of_silent <;> rwa [hevents]
  | overrun hmatch hfull hfile hdayFile =>
      refine ⟨fun _ _ _ hroom => ?_, fun _ => ⟨fun h => ?_, ?_⟩⟩
      · rw [hrecord] at hfull
        omega
      · simp [hevents, hfile, hdayFile] at h
      · intro payload next record _ _ hnext
        rw [hnext] at hexit
        cases hexit
  | ended hmatch hended hfile hdayFile =>
      refine ⟨fun _ _ hopen => ?_, fun _ => ⟨fun h => ?_, ?_⟩⟩
      · rw [hend, hopen] at hended
        cases hended
      · simp [hevents, hfile, hdayFile] at h
      · intro payload next record _ _ hnext
        rw [hnext] at hexit
        cases hexit
  | @printed events image hmatch hopen hroom hprint hacked hempty =>
      rw [hend] at hopen
      rw [hprintChar] at hprint
      constructor
      · intro hcomplete _ _ _ _
        by_contra hplain
        generalize hlast : (uploadBody upload input).2 = exit at hexit
        cases hexit with
        | @again next _ hrep' =>
            have hbuffered := hcomplete.buffered data next receiver.record
              (by rw [hevents]; exact hacked) (by simpa using hplain) hlast
              hrep.slice_record
            rw [hrep'.slice_record, hempty] at hbuffered
            have hdata := hmarked.stored (by rw [hphase]; rfl)
            rw [hphase] at hdata
            have := Option.some.inj hbuffered
            simp only [List.nil_eq, List.append_eq_nil_iff] at this
            exact hdata this.2
      · intro hfresh
        have hnewline := hfresh hmatch hopen hroom hprint
        refine ⟨fun _ => ⟨data, by rw [hevents]; exact hacked, hnewline⟩, ?_⟩
        intro payload next record hpayload hplain
        rw [hevents, hacked] at hpayload
        obtain rfl := List.singleton_inj.mp hpayload
        simp [hnewline] at hplain
  | @kept events image hmatch hkeep hacked hfile hdayFile himage =>
      rw [hprintChar] at hkeep
      refine ⟨fun _ _ _ _ hprint => by simp [hkeep] at hprint, fun _ => ⟨fun h => ?_, ?_⟩⟩
      · simp [hevents, hfile, hdayFile] at h
      · intro payload next record hpayload _ hnext hslice
        rw [hevents, hacked] at hpayload
        obtain rfl := List.singleton_inj.mp hpayload
        rw [hrep.slice_record] at hslice
        obtain rfl := Option.some.inj hslice
        rw [hnext] at hexit
        cases hexit with
        | again hrep' => rw [hrep'.slice_record, himage, hrecord]

theorem completeOnly_iff {upload : Upload} {receiver : Receiver} {input : Input}
    (hrep : Represents upload receiver) (hmarked : receiver.Marked) :
    CompleteOnly upload input ↔ upload.NoStaleNewline input := by
  by_cases hcompletes : upload.CompletesChecksum input
  · obtain ⟨length, data, first, second, hphase, htakes⟩ := hrep.completes_iff.mp hcompletes
    rw [completeOnly_of_settled hrep hmarked hphase htakes]
    have hvars := hrep.phase
    rw [hphase] at hvars
    obtain ⟨-, -, -, hlength, hdata, -⟩ := hvars
    obtain ⟨-, hold, -, hprint, hend, -⟩ := hrep.vars
    have hroom : upload.oldLength + (upload.length - 2) =
        receiver.record.length + data.length := by omega
    constructor
    · intro hfresh frame haccepts hopen hfits hnewline
      obtain ⟨htakes', length', data', hphase', rfl⟩ := hrep.accepts_iff.mp haccepts
      rw [hphase] at hphase'
      cases hphase'
      obtain rfl := Option.some.inj (htakes.read.symm.trans htakes'.read)
      apply hfresh ⟨rfl, rfl⟩ (hend.symm.trans hopen) (hroom ▸ hfits)
      rw [hprint] at hnewline
      simpa using hnewline
    · rintro hfresh ⟨rfl, rfl⟩ hopen hfits hnewline
      apply hfresh (frameOf length data) _ (hend.trans hopen) (hroom ▸ hfits)
      · rw [hprint]
        simpa using hnewline
      · exact hrep.accepts_iff.mpr ⟨htakes, length, data, hphase, rfl⟩
  · obtain ⟨hevents, -⟩ := uploadBody_simulates upload receiver input hrep
    have hquiet : Receiver.Quiet (uploadBody upload input).1 := by
      rw [hevents]
      apply Receiver.body_quiet
      rwa [← hrep.completes_iff]
    obtain ⟨-, -, -, hacked, hfile, hdayFile⟩ := quiet_traces hquiet
    refine ⟨fun _ frame haccepts => ?_, fun _ => completeOnly_of_silent hacked hfile hdayFile⟩
    obtain ⟨first, second, hchecks, -⟩ := haccepts
    exact absurd ⟨hchecks.chksumFlag, hchecks.last, second, hchecks.takes⟩ hcompletes

/-! ## Whole runs -/

/-- The payloads up to the last one with a newline. -/
def completed (payloads : List (List Byte)) : List (List Byte) :=
  payloads.rdropWhile fun payload => !hasNewline payload

def pending (payloads : List (List Byte)) : List (List Byte) :=
  payloads.rtakeWhile fun payload => !hasNewline payload

theorem completed_append_pending (payloads : List (List Byte)) :
    completed payloads ++ pending payloads = payloads :=
  List.rdropWhile_append_rtakeWhile ..

theorem completed_concat (payloads : List (List Byte)) (payload : List Byte) :
    completed (payloads ++ [payload]) =
      if hasNewline payload then payloads ++ [payload] else completed payloads := by
  unfold completed
  rw [List.rdropWhile_concat]
  cases hasNewline payload <;> simp

theorem pending_concat (payloads : List (List Byte)) (payload : List Byte) :
    pending (payloads ++ [payload]) =
      if hasNewline payload then [] else pending payloads ++ [payload] := by
  unfold pending
  rw [List.rtakeWhile_concat]
  cases hasNewline payload <;> simp

structure Clean (events : List Event) (receiver : Receiver) : Prop where
  file : fileBytes events = recordText (completed (acked events)).flatten
  dayFile : dayFileBytes events = recordText (completed (acked events)).flatten
  record : receiver.record = (pending (acked events)).flatten

namespace Receiver

theorem body_quiet_or_settled (receiver : Receiver) (input : Input) :
    Quiet (receiver.body input).1 ∨
      ∃ length data first second,
        receiver.phase = .checksum length data (some first) ∧
          Settled ((receiver.counted second).mark second) data
            (crcLow (frameOf length data) = first ∧
              crcHigh (frameOf length data) = second)
            (receiver.body input) := by
  by_cases hcompletes : ∃ length data first second,
      receiver.phase = .checksum length data (some first) ∧ receiver.Takes input second
  · obtain ⟨length, data, first, second, hphase, htakes⟩ := hcompletes
    refine .inr ⟨length, data, first, second, hphase, ?_⟩
    rw [body_settles hphase htakes]
    exact settle_settled _ _ _ _ _ _
  · exact .inl (body_quiet hcompletes)

theorem body_of_acked {receiver : Receiver} {input : Input} {events : List Event}
    {exit : Exit Receiver Return} {data : List Byte}
    (h : receiver.body input = (events, exit)) (hacked : acked events = [data]) :
    ∃ length data first second,
      receiver.phase = .checksum length data (some first) ∧
        Settled ((receiver.counted second).mark second) data
          (crcLow (frameOf length data) = first ∧ crcHigh (frameOf length data) = second)
          (events, exit) := by
  rcases receiver.body_quiet_or_settled input with hquiet | hsettled
  · obtain ⟨-, -, -, hnone, -⟩ := quiet_traces hquiet
    simp [h, hacked] at hnone
  · rwa [h] at hsettled

/-- A payload with a newline does not stay in the record. -/
theorem plain_of_kept {receiver next : Receiver} {input : Input} {events : List Event}
    {data : List Byte} (hmarked : receiver.Marked)
    (h : receiver.body input = (events, .again next)) (hacked : acked events = [data])
    (hnext : next.record = receiver.record ++ data) (hdata : data = receiver.phase.data) :
    hasNewline data = false := by
  obtain ⟨length, _, first, second, hphase, hsettled⟩ := body_of_acked h hacked
  cases hsettled with
  | rejected _ hnone => simp [hacked] at hnone
  | printed _ _ _ _ _ hempty =>
      rw [hempty] at hnext
      simp only [List.nil_eq, List.append_eq_nil_iff] at hnext
      rw [hnext.2]
      rfl
  | kept _ hkeep =>
      rw [mark_printChar, Bool.or_eq_false_iff] at hkeep
      by_contra hnewline
      have hprint := hmarked.newline (by rw [← hdata]; simpa using hnewline)
      have hclear : receiver.printChar = false := hkeep.1
      simp [hprint] at hclear

end Receiver

theorem Clean.step {history events : List Event} {upload next : Upload}
    {receiver image : Receiver} {input : Input} (hclean : Clean history receiver)
    (hrep : Represents upload receiver) (hrep' : Represents next image)
    (hmarked : receiver.Marked) (hcomplete : CompleteOnly upload input)
    (hpass : uploadBody upload input = (events, .again next))
    (hbody : receiver.body input = (events, .again image)) :
    Clean (history ++ events) image := by
  have hevents : (uploadBody upload input).1 = events := by rw [hpass]
  cases Receiver.body_again hbody with
  | quiet hadds hrecord =>
      refine ⟨?_, ?_, ?_⟩
      · simp [hadds.file, hadds.acked, hclean.file]
      · simp [hadds.dayFile, hadds.acked, hclean.dayFile]
      · simp [hadds.acked, hrecord, hclean.record]
  | buffered hadds hdata hrecord =>
      have hplain := Receiver.plain_of_kept hmarked hbody hadds.acked hrecord hdata
      refine ⟨?_, ?_, ?_⟩
      · simp [hadds.file, hadds.acked, completed_concat, hplain, hclean.file]
      · simp [hadds.dayFile, hadds.acked, completed_concat, hplain, hclean.dayFile]
      · simp [hadds.acked, pending_concat, hplain, hrecord, hclean.record]
  | @printed data hadds hdata hempty =>
      have hnewline : hasNewline data = true := by
        by_contra hplain
        have hbuffered := hcomplete.buffered data next receiver.record
          (by rw [hevents, hadds.acked]) (by simpa using hplain) (by rw [hpass])
          hrep.slice_record
        rw [hrep'.slice_record, hempty] at hbuffered
        have hnone := Option.some.inj hbuffered
        simp only [List.nil_eq, List.append_eq_nil_iff] at hnone
        obtain ⟨_, _, _, _, hphase, -⟩ := Receiver.body_of_acked hbody hadds.acked
        apply hmarked.stored (by rw [hphase]; rfl)
        rw [← hdata, hnone.2]
      have htext : recordText (completed (acked history)).flatten ++
          recordText (receiver.record ++ data) =
            recordText (acked history ++ [data]).flatten := by
        rw [← recordText_append, hclean.record, ← List.append_assoc, ← List.flatten_append,
          completed_append_pending]
        simp
      refine ⟨?_, ?_, ?_⟩
      · rw [fileBytes_append, acked_append, hadds.acked, completed_concat, hnewline,
          if_pos rfl, hclean.file, hadds.file, htext]
      · rw [dayFileBytes_append, acked_append, hadds.acked, completed_concat, hnewline,
          if_pos rfl, hclean.dayFile, hadds.dayFile, htext]
      · rw [acked_append, hadds.acked, pending_concat, hnewline, if_pos rfl, hempty]
        rfl

theorem clean_run {history events : List Event} {upload last : Upload}
    {receiver : Receiver} {inputs : List Input} (hclean : Clean history receiver)
    (hrep : Represents upload receiver) (hmarked : receiver.Marked)
    (halong : Along uploadBody CompleteOnly upload inputs)
    (hrun : run uploadBody upload inputs = (events, .again last)) :
    ∃ final, Represents last final ∧ Clean (history ++ events) final := by
  induction inputs generalizing history upload receiver events with
  | nil =>
      obtain ⟨rfl, rfl⟩ := again_inj hrun
      exact ⟨receiver, hrep, by simpa using hclean⟩
  | cons input inputs ih =>
      obtain ⟨emitted, next, later, hpass, hlater, rfl⟩ := run_cons_eq_again hrun
      obtain ⟨hevents, hexit⟩ := uploadBody_simulates upload receiver input hrep
      rw [hpass] at hevents hexit
      generalize hbody : receiver.body input = pass at hevents hexit
      obtain ⟨events', exit⟩ := pass
      obtain rfl : emitted = events' := hevents
      cases hexit with
      | again hrep' =>
          rw [← List.append_assoc]
          exact ih (hclean.step hrep hrep' hmarked halong.1 hpass hbody) hrep'
            (Receiver.body_marked hmarked hbody) (halong.2 emitted next hpass) hlater

theorem flushed_silent {upload last : Upload} {receiver : Receiver} {input : Input}
    {events : List Event} (hrep : Represents upload receiver)
    (h : uploadBody upload input = (events, .done last .flushed)) :
    acked events = [] ∧ fileBytes events = [] ∧ dayFileBytes events = [] := by
  obtain ⟨hevents, hexit⟩ := uploadBody_simulates upload receiver input hrep
  rw [h] at hevents hexit
  rcases receiver.body_quiet_or_settled input with hquiet | hsettled
  · obtain ⟨-, -, -, hacked, hfile, hdayFile⟩ := quiet_traces hquiet
    rw [← hevents] at hacked hfile hdayFile
    exact ⟨hacked, hfile, hdayFile⟩
  · obtain ⟨_, _, _, _, -, hsettled⟩ := hsettled
    generalize receiver.body input = pass at hexit hsettled
    cases hsettled <;> cases hexit

/-- When four `'#'` flush the upload, nothing of the open record has been output. -/
def FlushesUnprinted (tempBuffer : Buffer Byte 1000) (writeOk : Bool)
    (inputs : List Input) : Prop :=
  ∀ first, first <+: inputs → ∀ events last,
    uploadData false tempBuffer writeOk first = (events, .done last .flushed) →
    fileBytes events = recordText (completed (acked events)).flatten ∧
      dayFileBytes events = recordText (completed (acked events)).flatten

theorem flushesUnprinted_of_along {tempBuffer : Buffer Byte 1000} {writeOk : Bool}
    {inputs : List Input}
    (halong : Along uploadBody CompleteOnly (.start tempBuffer true) inputs) :
    FlushesUnprinted tempBuffer writeOk inputs := by
  intro first hfirst events last hrun
  obtain ⟨before, input, rest, early, upload, late, rfl, hbefore, hlast, rfl⟩ :=
    uploadData_done hrun
  obtain ⟨hearly, hexit⟩ := Prod.mk.inj hbefore
  have hprefix : before <+: inputs := (List.prefix_append before _).trans hfirst
  have hstart : Clean (pollEvents writeOk) .start := by
    cases writeOk <;> exact ⟨rfl, rfl, rfl⟩
  obtain ⟨receiver, hrep, hclean⟩ := clean_run hstart (represents_start tempBuffer true)
    (Receiver.marked_of_data_nil rfl rfl) (halong.first hprefix)
    (Prod.ext rfl hexit : run uploadBody (.start tempBuffer true) before =
      ((run uploadBody (.start tempBuffer true) before).1, .again upload))
  rw [hearly] at hclean
  obtain ⟨hacked, hfile, hdayFile⟩ := flushed_silent hrep hlast
  rw [fileBytes_append, dayFileBytes_append, acked_append, hacked, hfile, hdayFile,
    List.append_nil, List.append_nil, List.append_nil]
  exact ⟨hclean.file, hclean.dayFile⟩

/--
Only complete records are output, by every pass and up to every flush, if and
only if no pass accepts a frame without a newline after a stale one.
-/
theorem complete_records_iff (tempBuffer : Buffer Byte 1000) (writeOk : Bool)
    (inputs : List Input) :
    (Along uploadBody CompleteOnly (.start tempBuffer true) inputs ∧
        FlushesUnprinted tempBuffer writeOk inputs) ↔
      Along uploadBody Upload.NoStaleNewline (.start tempBuffer true) inputs := by
  have hiff := @along_iff _ _ _ _ uploadBody
    (fun upload => ∃ receiver, Represents upload receiver ∧ receiver.Marked)
    CompleteOnly Upload.NoStaleNewline ?_ ?_ (.start tempBuffer true) ?_ inputs
  · rw [← hiff]
    exact ⟨fun h => h.1, fun h => ⟨h, flushesUnprinted_of_along h⟩⟩
  · rintro upload input events next ⟨receiver, hrep, hmarked⟩ hpass
    obtain ⟨-, hexit⟩ := uploadBody_simulates upload receiver input hrep
    rw [hpass] at hexit
    generalize hbody : receiver.body input = pass at hexit
    obtain ⟨events', exit⟩ := pass
    cases hexit with
    | again hrep' => exact ⟨_, hrep', Receiver.body_marked hmarked hbody⟩
  · rintro upload input ⟨receiver, hrep, hmarked⟩
    exact completeOnly_iff hrep hmarked
  · exact ⟨.start, represents_start tempBuffer true,
      Receiver.marked_of_data_nil rfl rfl⟩

/-- After a newline between frames, the frame `A` is output at once. -/
theorem not_complete_records :
    ¬ ∀ tempBuffer inputs, Along uploadBody CompleteOnly (.start tempBuffer true) inputs := by
  intro h
  obtain ⟨receiver, hreceiver⟩ : ∃ receiver : Receiver,
      receiver = ⟨.checksum 3#8 [0x41#8] (some 115#8), [], 0, true, false, true, 1⟩ :=
    ⟨_, rfl⟩
  have hrun : run Receiver.body .start
      (received [0x3F#8, 0x0A#8, 0x24#8, 3#8, 0x41#8, 115#8]) =
        ([.write 0x55#8], .again receiver) := by
    rw [hreceiver]
    decide
  obtain ⟨upload, himage, hrep⟩ :=
    uploadBody_simulates.symm.run_again (represents_start ⟨fun _ => 0#8⟩ true) hrun
  have hcomplete := (h ⟨fun _ => 0#8⟩ (received
    ([0x3F#8, 0x0A#8, 0x24#8, 3#8, 0x41#8, 115#8] ++ [223#8]))).pass himage
  obtain ⟨hevents, -⟩ := uploadBody_simulates upload receiver ⟨.byte 223#8, true⟩ hrep
  have hpass : (receiver.body ⟨.byte 223#8, true⟩).1 =
      [.crc [0x24#8, 3#8, 0x41#8], .ack [0x41#8], .printfChar 0x41#8,
        .fprintfChar 0x41#8, .fprintfChar1 0x41#8] := by
    rw [hreceiver]
    decide +kernel
  obtain ⟨payload, hacked, hnewline⟩ := hcomplete.output (by
    rw [hevents, hpass]
    exact .inl (by decide))
  rw [hevents, hpass] at hacked
  obtain rfl := List.singleton_inj.mp (hacked : [[0x41#8]] = [payload])
  simp [hasNewline] at hnewline

end BBCodeBase.SerialComm
