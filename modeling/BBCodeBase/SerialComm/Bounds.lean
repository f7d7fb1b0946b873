import BBCodeBase.Foundation.Rules
import BBCodeBase.SerialComm.Frame
import BBCodeBase.SerialComm.Updates

/-!
# The arrays of the receiver

`num` is compared with `length - 2` by equality, and nothing limits the record
in `final_char`.  The indices stay inside the arrays exactly as long as no frame
with a length byte below 3 fills `temp_buffer`, no accepted frame takes the
record beyond `final_char`, and `temp_buffer` has a NUL behind every frame that
is checked, where the debug log stops reading it as a string.
-/

namespace BBCodeBase.SerialComm

open Reactive

/-! ## Leaving the bounds -/

namespace Receiver

theorem settle_fault_iff {receiver : Receiver} {length : Byte} {data : List Byte}
    {first second : Byte} {writeOk : Bool} :
    (receiver.settle length data first second writeOk).2 = .fault ↔
      (crcLow (frameOf length data) = first ∧ crcHigh (frameOf length data) = second) ∧
        1000 < receiver.record.length + data.length := by
  unfold settle
  dsimp only
  split
  · next hmatch =>
      rw [List.length_append]
      split
      · next hfull => exact ⟨fun _ => ⟨hmatch, hfull⟩, fun _ => rfl⟩
      · next hroom =>
          refine ⟨fun hfault => ?_, fun h => absurd h.2 hroom⟩
          split at hfault
          · cases hfault
          · split at hfault <;> cases hfault
  · next hmismatch => exact ⟨nofun, fun h => absurd h.1 hmismatch⟩

theorem question_ne_fault (receiver : Receiver) (phase : Phase) (writeOk : Bool) :
    (receiver.question phase writeOk).2 ≠ .fault := by
  cases writeOk <;> nofun

def Overruns (receiver : Receiver) (ch : Byte) : Prop :=
  match receiver.phase with
  | .payload _ data _ => ch ≠ 0x3F#8 ∧ ch ≠ 0x24#8 ∧ 1000 ≤ data.length + 2
  | .checksum length data (some first) =>
      (crcLow (frameOf length data) = first ∧ crcHigh (frameOf length data) = ch) ∧
        1000 < receiver.record.length + data.length
  | _ => False

theorem take_fault_iff (receiver : Receiver) (ch : Byte) (writeOk : Bool) :
    (receiver.take ch writeOk).2 = .fault ↔ receiver.Overruns ch := by
  unfold take Overruns
  cases receiver.phase with
  | idle =>
      dsimp only
      split
      · simp [question_ne_fault]
      · split <;> simp
  | length => simp
  | payload length data sofData =>
      dsimp only
      split
      · next hquestion => simp [question_ne_fault, hquestion]
      · next hquestion =>
          split
          · next hsof => simp [hsof]
          · next hsof =>
              split
              · next hfull => simp [hquestion, hsof, hfull]
              · next hroom => simp [hroom]
  | checksum length data first =>
      cases first with
      | none => simp
      | some first => exact settle_fault_iff

theorem body_fault_iff {receiver : Receiver} {input : Input} :
    (receiver.body input).2 = .fault ↔
      ∃ ch, receiver.Takes input ch ∧ receiver.Overruns ch := by
  by_cases htakes : ∃ ch, receiver.Takes input ch
  · obtain ⟨ch, htakes⟩ := htakes
    rw [body_takes htakes, take_fault_iff]
    constructor
    · exact fun hoverruns => ⟨ch, htakes, hoverruns⟩
    · rintro ⟨other, hother, hoverruns⟩
      obtain rfl := Option.some.inj (htakes.read.symm.trans hother.read)
      exact hoverruns
  · have hidles := body_idles (fun ch h => htakes ⟨ch, h⟩)
    refine ⟨fun hfault => ?_, fun ⟨ch, h, _⟩ => absurd ⟨ch, h⟩ htakes⟩
    generalize receiver.body input = pass at hidles hfault
    cases hidles <;> cases hfault

/-! ## The payload in progress -/

/-- The payload is new, as it was, or longer by the byte that was stored. -/
inductive Filled (receiver : Receiver) (input : Input) (length : Byte) :
    List Byte → Prop
  | empty : Filled receiver input length []
  | kept {data sofData} : receiver.phase = .payload length data sofData →
      Filled receiver input length data
  | grown {ch data sofData} : receiver.Takes input ch → ch ≠ 0x3F#8 → ch ≠ 0x24#8 →
      receiver.phase = .payload length data sofData →
      data.length + 3 ≠ length.toNat → Filled receiver input length (data ++ [ch])

theorem body_filled {receiver next : Receiver} {input : Input} {events : List Event}
    {length : Byte} {data : List Byte} {sofData : BitVec 32}
    (h : receiver.body input = (events, .again next))
    (hnext : next.phase = .payload length data sofData) :
    Filled receiver input length data := by
  cases body_continues h with
  | skipped => exact .kept hnext
  | taken htakes htake =>
      cases take_taken htake with
      | asked hphase hquestion =>
          rw [question_kept hquestion] at hnext
          obtain rfl := hnext
          rcases hphase with ⟨-, hidle⟩ | ⟨length', data', sofData', -, hphase⟩
          · cases hidle
          · cases hphase
            exact .empty
      | opened => cases hnext
      | ignored hphase =>
          have hidle : receiver.phase = .idle := hphase
          simp [mark, counted, hidle] at hnext
      | sized =>
          cases hnext
          exact .empty
      | restarted hphase =>
          dsimp only at hnext
          split at hnext
          · cases hnext
          · cases hnext
            exact .kept hphase
      | stored hphase hquestion hsof =>
          dsimp only at hnext
          split at hnext
          · cases hnext
          · next hshort =>
              cases hnext
              exact .grown htakes hquestion hsof hphase hshort
      | checked => cases hnext
      | settled _ hsettle => simp [settle_idle hsettle] at hnext

def Filling (receiver : Receiver) : Prop :=
  ∀ length data sofData, receiver.phase = .payload length data sofData →
    3 ≤ length.toNat → data.length + 3 ≤ length.toNat

theorem body_filling {receiver next : Receiver} {input : Input} {events : List Event}
    (hfilling : receiver.Filling) (h : receiver.body input = (events, .again next)) :
    next.Filling := by
  intro length data sofData hnext hlength
  cases body_filled h hnext with
  | empty => simpa using hlength
  | kept hphase => exact hfilling length data _ hphase hlength
  | @grown ch before sofData' _ _ _ hphase hshort =>
      have := hfilling length before _ hphase hlength
      simp only [List.length_append, List.length_singleton]
      omega

end Receiver

/-! ## Whole runs -/

/-- The invariants of the loop; a pass that leaves an array ends in `fault`. -/
def InBounds : Exit Upload Return → Prop
  | .again upload => upload.num + 2 < 1000 ∧ upload.oldLength ≤ 1000
  | .done _ _ => True
  | .fault => False

/--
The pass does not store the 998th byte of a frame whose length byte is below 3,
and does not accept a frame for which `final_char` has no room.
-/
structure Upload.Fits (upload : Upload) (input : Input) : Prop where
  payload : ∀ ch, upload.Stores input ch → upload.length < 3 → upload.num + 3 < 1000
  record : ∀ frame, upload.Accepts input frame →
    upload.oldLength + (upload.length - 2) ≤ 1000

structure Bounded (upload : Upload) : Prop where
  represented : ∃ receiver, Represents upload receiver ∧ receiver.Filling
  inBounds : InBounds (.again upload)

theorem Represents.oldLength_le {upload : Upload} {receiver : Receiver}
    (hrep : Represents upload receiver) : upload.oldLength ≤ 1000 := by
  obtain ⟨hrecord, hold, -⟩ := hrep.vars
  rw [hold]
  by_cases hnil : receiver.record = []
  · simp [hnil]
  · have := hrecord.length_le hnil
    omega

/-- A pass that meets the condition leaves no array. -/
theorem overruns_of_fits {upload : Upload} {receiver : Receiver} {input : Input}
    {ch : Byte} (hrep : Represents upload receiver) (hfits : upload.Fits input)
    (hnum : upload.num + 2 < 1000) (htakes : receiver.Takes input ch) :
    ¬ receiver.Overruns ch := by
  unfold Receiver.Overruns
  intro hoverruns
  split at hoverruns
  · next length data sofData hcase =>
      obtain ⟨-, hstored⟩ := hrep.payload_vars hcase
      omega
  · next length data first hcase =>
      obtain ⟨⟨hlow, hhigh⟩, hfull⟩ := hoverruns
      have haccepts : upload.Accepts input (frameOf length data) :=
        ⟨first, ch, hrep.checks_iff.mpr ⟨htakes, length, data, hcase, rfl⟩, hlow, hhigh⟩
      have hroom := hfits.record _ haccepts
      have hphase := hrep.phase
      rw [hcase] at hphase
      obtain ⟨-, -, -, hlength, hdata, -⟩ := hphase
      obtain ⟨-, hold, -⟩ := hrep.vars
      omega
  · exact hoverruns

theorem num_of_fits {upload next : Upload} {receiver receiver' : Receiver}
    {input : Input} {events : List Event} (hrep : Represents upload receiver)
    (hrep' : Represents next receiver') (hfilling : receiver.Filling)
    (hfits : upload.Fits input) (hnum : upload.num + 2 < 1000)
    (hcounted : next.num ≤ upload.num ∨
      next.startReceive = true ∧ next.lengthFlag = false)
    (hbody : receiver.body input = (events, .again receiver')) :
    next.num + 2 < 1000 := by
  rcases hcounted with hkept | ⟨hstart, hlengthFlag⟩
  · omega
  · obtain ⟨length, data, sofData, hcase⟩ := hrep'.payload_of_start hstart hlengthFlag
    rw [(hrep'.payload_vars hcase).2]
    cases Receiver.body_filled hbody hcase with
    | empty => simp
    | kept hphase =>
        obtain ⟨-, hbefore⟩ := hrep.payload_vars hphase
        omega
    | @grown ch before sofData' htakes hquestion hsof hphase hshort =>
        obtain ⟨hlength, hbefore⟩ := hrep.payload_vars hphase
        rw [List.length_append, List.length_singleton]
        by_cases hlong : 3 ≤ length.toNat
        · have := hfilling length before sofData' hphase hlong
          have := length.isLt
          omega
        · have hstores : upload.Stores input ch := hrep.stores_iff.mpr
            ⟨htakes, hquestion, hsof, length, before, sofData', hphase⟩
          have := hfits.payload ch hstores (by omega)
          omega

theorem uploadBody_keeps {upload : Upload} {input : Input} (hbounded : Bounded upload)
    (hfits : upload.Fits input) (history : List Event) :
    (Post.keeping (fun _ upload => Bounded upload) (fun _ exit => InBounds exit)).Of
      history (uploadBody upload input) := by
  obtain ⟨⟨receiver, hrep, hfilling⟩, hnum, -⟩ := hbounded
  obtain ⟨-, hexit⟩ := uploadBody_simulates upload receiver input hrep
  have hupdated := uploadBody_updated upload input
  cases hpass : uploadBody upload input with
  | mk events exit =>
      cases himage : receiver.body input with
      | mk events' exit' =>
          rw [hpass, himage] at hexit
          rw [hpass] at hupdated
          cases hexit with
          | @again next receiver' hrep' =>
              refine ⟨⟨receiver', hrep', Receiver.body_filling hfilling himage⟩, ?_,
                hrep'.oldLength_le⟩
              exact num_of_fits hrep hrep' hfilling hfits hnum (hupdated next rfl).counts
                himage
          | done => exact trivial
          | fault =>
              have hfault : (receiver.body input).2 = .fault := by rw [himage]
              obtain ⟨ch, htakes, hoverruns⟩ := Receiver.body_fault_iff.mp hfault
              exact absurd hoverruns (overruns_of_fits hrep hfits hnum htakes)

/-- A pass that stores too many bytes or accepts too long a record breaks the bounds. -/
theorem uploadBody_breaks {upload : Upload} {input : Input} (hbounded : Bounded upload)
    (hnot : ¬ upload.Fits input) : ¬ InBounds (uploadBody upload input).2 := by
  obtain ⟨⟨receiver, hrep, hfilling⟩, hnum, -⟩ := hbounded
  obtain ⟨-, hexit⟩ := uploadBody_simulates upload receiver input hrep
  by_cases hpayload : ∀ ch, upload.Stores input ch → upload.length < 3 →
      upload.num + 3 < 1000
  · have hrecord : ∃ frame, upload.Accepts input frame ∧
        ¬ upload.oldLength + (upload.length - 2) ≤ 1000 := by
      by_contra hnone
      apply hnot
      refine ⟨hpayload, fun frame haccepts => ?_⟩
      by_contra hfull
      exact hnone ⟨frame, haccepts, hfull⟩
    obtain ⟨frame, haccepts, hfull⟩ := hrecord
    obtain ⟨htakes, length, data, hcase, rfl⟩ := hrep.accepts_iff.mp haccepts
    have hphase := hrep.phase
    rw [hcase] at hphase
    obtain ⟨-, -, -, hlength, hdata, -⟩ := hphase
    obtain ⟨-, hold, -⟩ := hrep.vars
    have hfault : (receiver.body input).2 = .fault := by
      apply Receiver.body_fault_iff.mpr
      refine ⟨_, htakes, ?_⟩
      simp only [Receiver.Overruns, hcase]
      exact ⟨⟨trivial, trivial⟩, by omega⟩
    rw [hfault] at hexit
    generalize (uploadBody upload input).2 = exit at hexit ⊢
    cases hexit
    exact id
  · obtain ⟨ch, hstores, hlength, hlast⟩ : ∃ ch, upload.Stores input ch ∧
        upload.length < 3 ∧ ¬ upload.num + 3 < 1000 := by
      simpa using hpayload
    obtain ⟨htakes, hquestion, hsof, length, data, sofData, hcase⟩ :=
      hrep.stores_iff.mp hstores
    obtain ⟨hlengthVar, hstored⟩ := hrep.payload_vars hcase
    have hbody : ∃ next, receiver.body input = ([], .again next) ∧
        next.phase = .payload length (data ++ [ch]) sofData := by
      rw [Receiver.body_takes htakes]
      simp only [Receiver.take, Receiver.counted, hcase]
      rw [if_neg hquestion, if_neg hsof, if_neg (by omega), if_neg (by omega)]
      exact ⟨_, rfl, rfl⟩
    obtain ⟨receiver', hbody, hnext⟩ := hbody
    rw [hbody] at hexit
    generalize (uploadBody upload input).2 = exit at hexit ⊢
    cases hexit with
    | @again next _ hrep' =>
        obtain ⟨-, hgrown⟩ := hrep'.payload_vars hnext
        rw [List.length_append, List.length_singleton] at hgrown
        rintro ⟨hbound, -⟩
        omega

theorem uploadBody_decides :
    Decides uploadBody (fun _ => True) (fun _ upload => Bounded upload) Upload.Fits
      (fun _ exit => InBounds exit) where
  holds := fun _ _ h => h.inBounds
  keeps := fun history _ _ _ hbounded hfits => uploadBody_keeps hbounded hfits history
  breaks := fun _ _ _ _ hbounded hnot => uploadBody_breaks hbounded hnot

theorem bounded_start (tempBuffer : Buffer Byte 1000) (anyOneHere : Bool) :
    Bounded (.start tempBuffer anyOneHere) where
  represented := ⟨.start, represents_start tempBuffer anyOneHere, fun _ _ _ h => by
    cases h⟩
  inBounds := ⟨by simp [Upload.start], by simp [Upload.start]⟩

theorem passes_inBounds_iff (tempBuffer : Buffer Byte 1000) (writeOk : Bool)
    (inputs : List Input) :
    (∀ first, first <+: inputs →
        InBounds (uploadData false tempBuffer writeOk first).2) ↔
      Along uploadBody Upload.Fits (.start tempBuffer true) inputs := by
  have hrun := @Decides.run_iff _ _ _ _ _ _ _ _ _ [] _ inputs uploadBody_decides
    (bounded_start tempBuffer true) (fun _ _ => trivial)
  exact hrun

/-! ## The debug log -/

/--
`fprintf(debug, "DATA : %s", temp_buffer)` reads up to the first NUL, which has
to be in the array.
-/
def Upload.LogsInside (upload : Upload) (input : Input) : Prop :=
  upload.CompletesChecksum input → (upload.tempBuffer.indexOf? 0#8).isSome

def Upload.Terminated (upload : Upload) (input : Input) : Prop :=
  upload.CompletesChecksum input →
    ∃ index, upload.length ≤ index ∧ upload.tempBuffer.load? index = some 0#8

def Phase.frame : Phase → List Byte
  | .idle | .length => []
  | .payload size data _ => frameOf size data
  | .checksum size data _ => frameOf size data

namespace Receiver

/-- No byte of the frame in progress is NUL, since a zero byte is skipped. -/
def NonNul (receiver : Receiver) : Prop := 0#8 ∉ receiver.phase.frame

theorem take_nonNul {receiver next : Receiver} {ch : Byte} {writeOk : Bool}
    {events : List Event} (hnonNul : receiver.NonNul)
    (hkept : ch = 0#8 → receiver.phase.inChecksum = true)
    (h : receiver.take ch writeOk = (events, .again next)) : next.NonNul := by
  unfold NonNul at hnonNul ⊢
  have hne : receiver.phase.inChecksum = false → 0#8 ≠ ch := by
    rintro houtside rfl
    simp [houtside] at hkept
  cases take_taken h with
  | asked hphase hquestion =>
      rw [question_kept hquestion]
      rcases hphase with ⟨-, rfl⟩ | ⟨length, data, sofData, hphase, rfl⟩
      · exact List.not_mem_nil
      · rw [hphase] at hnonNul
        simp only [Phase.frame, frameOf, List.mem_cons, not_or] at hnonNul ⊢
        exact ⟨hnonNul.1, hnonNul.2.1, List.not_mem_nil⟩
  | opened => exact List.not_mem_nil
  | ignored => exact hnonNul
  | sized hphase =>
      have hlength := hne (by rw [hphase]; rfl)
      simpa [Phase.frame, frameOf] using hlength
  | restarted hphase =>
      rw [hphase] at hnonNul
      dsimp only
      split
      · exact List.not_mem_nil
      · exact hnonNul
  | @stored length data sofData hphase =>
      have hstored := hne (by rw [hphase]; rfl)
      have hlonger : 0#8 ∉ frameOf length (data ++ [ch]) := by
        rw [hphase] at hnonNul
        simp only [Phase.frame, frameOf, List.mem_cons, List.mem_append, not_or,
          List.not_mem_nil, or_false] at hnonNul ⊢
        exact ⟨hnonNul.1, hnonNul.2.1, hnonNul.2.2, hstored⟩
      dsimp only
      split
      · exact hlonger
      · exact hlonger
  | checked hphase =>
      rw [hphase] at hnonNul
      exact hnonNul
  | settled _ hsettle =>
      rw [settle_idle hsettle]
      exact List.not_mem_nil

theorem body_nonNul {receiver next : Receiver} {input : Input} {events : List Event}
    (hnonNul : receiver.NonNul) (h : receiver.body input = (events, .again next)) :
    next.NonNul := by
  cases body_continues h with
  | skipped => exact hnonNul
  | @taken ch _ _ htakes htake =>
      have hcounted : (receiver.counted ch).NonNul := hnonNul
      exact take_nonNul hcounted htakes.kept htake

end Receiver

def Assembling (upload : Upload) : Prop :=
  ∃ receiver, Represents upload receiver ∧ receiver.Filling ∧ receiver.NonNul

theorem Assembling.next {upload next : Upload} {input : Input} {events : List Event}
    (h : Assembling upload) (hbody : uploadBody upload input = (events, .again next)) :
    Assembling next := by
  obtain ⟨receiver, hrep, hfilling, hnonNul⟩ := h
  obtain ⟨-, hexit⟩ := uploadBody_simulates upload receiver input hrep
  rw [hbody] at hexit
  cases himage : receiver.body input with
  | mk events' exit =>
      rw [himage] at hexit
      cases hexit with
      | again hnext =>
          exact ⟨_, hnext, Receiver.body_filling hfilling himage,
            Receiver.body_nonNul hnonNul himage⟩

theorem assembling_start (tempBuffer : Buffer Byte 1000) (anyOneHere : Bool) :
    Assembling (.start tempBuffer anyOneHere) := by
  refine ⟨.start, represents_start tempBuffer anyOneHere, ?_, List.not_mem_nil⟩
  intro length data sofData hphase
  cases hphase

theorem logsInside_iff {upload : Upload} (h : Assembling upload) (input : Input) :
    upload.LogsInside input ↔ upload.Terminated input := by
  obtain ⟨receiver, hrep, -, hnonNul⟩ := h
  refine imp_congr_right fun hcompletes => ?_
  obtain ⟨length, data, first, second, hcase, -⟩ := hrep.completes_iff.mp hcompletes
  have hphase := hrep.phase
  rw [hcase] at hphase
  obtain ⟨-, -, -, hlength, hdata, htemp, -⟩ := hphase
  unfold Receiver.NonNul at hnonNul
  rw [hcase] at hnonNul
  rw [Buffer.indexOf?_isSome_iff]
  constructor
  · rintro ⟨index, hload⟩
    refine ⟨index, ?_, hload⟩
    by_contra hinside
    have hindex : index < (frameOf length data).length := by
      simp only [frameOf, List.length_cons]
      omega
    have hframe := htemp index hindex
    rw [Nat.zero_add, hload, Option.some.injEq] at hframe
    apply hnonNul
    rw [hframe]
    exact List.getElem_mem hindex
  · rintro ⟨index, -, hload⟩
    exact ⟨index, hload⟩

/-- At no moment of the call is there an access outside an array. -/
structure UploadInBounds (tempBuffer : Buffer Byte 1000) (writeOk : Bool)
    (inputs : List Input) : Prop where
  passes : ∀ first, first <+: inputs →
    InBounds (uploadData false tempBuffer writeOk first).2
  log : Along uploadBody Upload.LogsInside (.start tempBuffer true) inputs

/--
The accesses stay inside the arrays, at every moment of the call, if and only if
every pass stores, accepts and logs what fits.
-/
theorem upload_inBounds_iff (tempBuffer : Buffer Byte 1000) (writeOk : Bool)
    (inputs : List Input) :
    UploadInBounds tempBuffer writeOk inputs ↔
      Along uploadBody (fun upload input => upload.Fits input ∧ upload.Terminated input)
        (.start tempBuffer true) inputs := by
  have hpasses := passes_inBounds_iff tempBuffer writeOk inputs
  have hlog := @along_iff _ _ _ _ uploadBody Assembling _ _
    (fun _ _ _ _ => Assembling.next)
    (fun _ input hassembling => logsInside_iff hassembling input) _
    (assembling_start tempBuffer true) inputs
  rw [along_and_iff, ← hpasses, ← hlog]
  constructor
  · exact fun h => ⟨h.passes, h.log⟩
  · exact fun h => ⟨h.1, h.2⟩

/-! ## A length byte of 1 -/

def overlong (count : Nat) : Receiver :=
  ⟨.payload 1#8 (List.replicate count 0x41#8) 1#32, [], 0, false, false, true, 1⟩

theorem overlong_body {count : Nat} (hroom : count + 2 < 1000) :
    (overlong count).body ⟨.byte 0x41#8, true⟩ = ([], .again (overlong (count + 1))) := by
  have hmore : ¬ (count + 3 = (1#8 : Byte).toNat) := by simp
  rw [Receiver.body_of_step rfl (.inl (by decide)) rfl]
  simp only [Receiver.take, overlong, List.length_replicate]
  rw [if_neg (by decide), if_neg (by decide), if_neg (by omega), if_neg hmore,
    List.replicate_succ']
  rfl

theorem run_overlong {count : Nat} (hroom : count ≤ 998) :
    run Receiver.body .start (received (0x3F#8 :: 0x24#8 :: 1#8 ::
      List.replicate count 0x41#8)) =
      ([.write 0x55#8], .again (overlong count)) := by
  induction count with
  | zero => decide
  | succ count ih =>
      have hsplit : received (0x3F#8 :: 0x24#8 :: 1#8 ::
          List.replicate (count + 1) 0x41#8) =
          received (0x3F#8 :: 0x24#8 :: 1#8 :: List.replicate count 0x41#8) ++
            [⟨.byte 0x41#8, true⟩] := by
        simp [List.replicate_succ', received]
      have hlast : run Receiver.body (overlong count) [⟨.byte 0x41#8, true⟩] =
          ([], .again (overlong (count + 1))) := by
        rw [run_singleton, overlong_body (by omega)]
      rw [hsplit, run_append_again (ih (by omega)) hlast]
      rfl

theorem overlong_overruns {count : Nat} (hfull : 1000 ≤ count + 2) :
    (run Receiver.body (overlong count) [⟨.byte 0x41#8, true⟩]).2 = .fault := by
  rw [run_singleton, Receiver.body_fault_iff]
  refine ⟨0x41#8, ⟨rfl, .inl rfl, nofun, nofun⟩, ?_⟩
  simpa [Receiver.Overruns, overlong] using hfull

/-- After 998 bytes of a frame with length byte 1, the next goes to `temp_buffer[1000]`. -/
theorem not_upload_inBounds :
    ¬ ∀ tempBuffer writeOk inputs, UploadInBounds tempBuffer writeOk inputs := by
  intro h
  obtain ⟨count, hcount⟩ : ∃ count, count = 998 := ⟨_, rfl⟩
  have hbounds := (h ⟨fun _ => 0#8⟩ true
    (received (0x3F#8 :: 0x24#8 :: 1#8 :: List.replicate count 0x41#8) ++
      [⟨.byte 0x41#8, true⟩])).passes _ (List.prefix_refl _)
  obtain ⟨-, hexit⟩ := uploadBody_simulates.run
    (received (0x3F#8 :: 0x24#8 :: 1#8 :: List.replicate count 0x41#8) ++
      [⟨.byte 0x41#8, true⟩])
    (represents_start ⟨fun _ => 0#8⟩ true)
  rw [run_append (run_overlong (by omega)), overlong_overruns (by omega)] at hexit
  simp only [uploadData, Bool.false_eq_true, if_false] at hbounds
  generalize (run uploadBody _ _).2 = exit at hexit hbounds
  cases hexit
  exact hbounds

/-! ## Where the NUL comes from -/

/-- There is a NUL in reach of no frame with a length byte from 3 on. -/
def Upload.Erased (upload : Upload) : Prop :=
  ∃ index, 255 ≤ index ∧ upload.tempBuffer.load? index = some 0#8

def Upload.Delimited (upload : Upload) : Prop :=
  upload.startReceive = true → upload.lengthFlag = false → 3 ≤ upload.length

theorem Upload.Erased.next {upload next : Upload} {events : List Event}
    (herased : upload.Erased) (h : Assembling upload) (hdelimited : upload.Delimited)
    (hupdates : Updates upload events next) : next.Erased := by
  obtain ⟨index, hfar, hload⟩ := herased
  refine ⟨index, hfar, ?_⟩
  cases hupdates with
  | kept _ _ htemp => rw [htemp, hload]
  | header hindex _ hstore => rw [Buffer.load?_store? hstore, if_neg (by omega), hload]
  | payload hstart hlengthFlag _ hstore =>
      obtain ⟨receiver, hrep, hfilling, -⟩ := h
      obtain ⟨length, data, sofData, hcase⟩ := hrep.payload_of_start hstart hlengthFlag
      obtain ⟨hlength, hstored⟩ := hrep.payload_vars hcase
      have hlong := hdelimited hstart hlengthFlag
      have hfull := hfilling length data sofData hcase (by omega)
      have hbyte := length.isLt
      rw [Buffer.load?_store? hstore, if_neg (by omega), hload]
  | checked _ _ hzero => exact hzero index hload

theorem Upload.Erased.terminated {upload : Upload} (herased : upload.Erased)
    (h : Assembling upload) (input : Input) : upload.Terminated input := by
  intro hcompletes
  obtain ⟨receiver, hrep, -, -⟩ := h
  obtain ⟨index, hfar, hload⟩ := herased
  obtain ⟨length, data, first, second, hcase, -⟩ := hrep.completes_iff.mp hcompletes
  have hphase := hrep.phase
  rw [hcase] at hphase
  obtain ⟨-, -, -, hlength, -⟩ := hphase
  have hbyte := length.isLt
  exact ⟨index, by omega, hload⟩

theorem erased_of_completes {upload next : Upload} {input : Input} {events : List Event}
    (h : Assembling upload) (hcompletes : upload.CompletesChecksum input)
    (hbody : uploadBody upload input = (events, .again next)) : next.Erased := by
  obtain ⟨receiver, hrep, -, -⟩ := h
  obtain ⟨length, data, first, second, hcase, htakes⟩ := hrep.completes_iff.mp hcompletes
  obtain ⟨hevents, -⟩ := uploadBody_simulates upload receiver input hrep
  have hcrc : Event.crc (frameOf length data) ∈ events := by
    rw [hbody, Receiver.body_settles hcase htakes] at hevents
    dsimp only at hevents
    rw [hevents]
    exact Receiver.crc_mem_settle _ _ _ _ _ _
  have hupdates := uploadBody_updated upload input next (by rw [hbody])
  rw [hbody] at hupdates
  cases hupdates with
  | kept hnone => exact absurd hcrc (hnone _)
  | header => cases hcrc
  | payload => cases hcrc
  | checked _ hcleared => exact ⟨255, Nat.le_refl _, hcleared 255 (by omega)⟩

/--
A frame that is checked leaves NULs behind, so with length bytes from 3 on only
the first frame that a call checks can be logged beyond `temp_buffer`.
-/
theorem logsInside_after_check {tempBuffer : Buffer Byte 1000} {first rest : List Input}
    {input : Input} {before events : List Event} {middle next : Upload}
    (hrun : run uploadBody (.start tempBuffer true) first = (before, .again middle))
    (hcompletes : middle.CompletesChecksum input)
    (hbody : uploadBody middle input = (events, .again next))
    (hdelimited : Along uploadBody (fun upload _ => upload.Delimited) next rest) :
    Along uploadBody Upload.LogsInside next rest := by
  have hpreserved : Preserved uploadBody (fun _ => True) fun _ => Assembling := by
    intro history upload input emitted next _ hassembling hnext
    exact hassembling.next hnext
  have hmiddle : Assembling middle :=
    @Preserved.run _ _ _ _ _ _ _ hpreserved [] _ _ _ _ (assembling_start tempBuffer true)
      (fun _ _ => trivial) hrun
  have hnext : Assembling next ∧ next.Erased :=
    ⟨hmiddle.next hbody, erased_of_completes hmiddle hcompletes hbody⟩
  refine @Along.keeps _ _ _ _ uploadBody
    (fun upload => Assembling upload ∧ upload.Erased) _ _ ?_ ?_ _ _ hnext hdelimited
  · rintro upload input emitted later ⟨hassembling, herased⟩ hlong hlater
    have hupdates := uploadBody_updated upload input later (by rw [hlater])
    exact ⟨hassembling.next hlater, herased.next hassembling hlong hupdates⟩
  · rintro upload input ⟨hassembling, herased⟩
    exact (logsInside_iff hassembling input).mpr (herased.terminated hassembling input)

end BBCodeBase.SerialComm
