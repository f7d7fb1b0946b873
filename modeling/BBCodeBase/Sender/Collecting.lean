import BBCodeBase.Foundation.Gather
import BBCodeBase.Sender.Stdin

/-!
# Collecting a batch

What the reading loop of `session_transfer` is for, without its array: lines are
put together until there are at least `SESSION_SIZE` bytes or the input pauses,
and then the text goes off as a batch.  Every pass of `session_transfer`, in
whatever state, does with standard input what `collect` says.
-/

namespace BBCodeBase.Sender

open Reactive

variable {stack : Stack} {data : SessionData} {session : Session} {tasks : Tasks}
  {history : List Event} {text : List Byte} {hostName : List Byte}

/-- What is stored and handed over when a line comes to the text, and what is left of it. -/
def collect (text : List Byte) (line : Line) : List Event × List Byte :=
  let text := text ++ line.text
  if line.chars ≠ [] ∧ text.length < sessionSize then (line.events, text)
  else if text = [] then (line.events, [])
  else (line.events ++ [.batch text], [])

def Event.ofStdin : Event → Bool
  | .stored _ => true
  | .batch _ => true
  | _ => false

def stdinEvents (history : List Event) : List Event := history.filter Event.ofStdin

theorem stdinEvents_append (events : List Event) :
    stdinEvents (history ++ events) = stdinEvents history ++ stdinEvents events :=
  List.filter_append _ _

theorem stdinEvents_line (line : Line) : stdinEvents line.events = line.events := by
  unfold Line.events
  split <;> rfl

theorem consumed_stdinEvents (history : List Event) :
    consumed (stdinEvents history) = consumed history := by
  induction history with
  | nil => rfl
  | cons event history ih =>
      have hcons : ∀ events, consumed (event :: events) = event.stdin ++ consumed events :=
        fun _ => rfl
      rw [hcons, ← ih, stdinEvents, List.filter_cons]
      cases event <;> rfl

theorem batches_stdinEvents (history : List Event) :
    batches (stdinEvents history) = batches history := by
  unfold batches stdinEvents
  rw [List.filterMap_filter]
  congr 1
  funext event
  cases event <;> rfl

def Transfer.Collects (text : List Byte) : Transfer → Prop
  | .reading _ _ data numBytes =>
      HoldsText data text ∧ numBytes = text.length ∧ text.length < sessionSize
  | _ => text = []

def Transfer.takes (transfer : Transfer) (text : List Byte) (input : Input) :
    List Event × List Byte :=
  match transfer, input with
  | .reading _ _ _ _, .fgets line => collect text line
  | _, _ => ([], text)

def collectPost (events : List Event) (text : List Byte) : Post Transfer Event Empty where
  again := fun history transfer => stdinEvents history = events ∧ transfer.Collects text
  done := fun _ _ _ => True
  fault := fun _ => True

/-! ## The calls leave standard input alone -/

theorem stdinEvents_keptByCalls (events : List Event) :
    KeptByCalls fun history => stdinEvents history = events := by
  intro history event hcall h
  have hother : stdinEvents [event] = [] := by
    cases event <;> first | rfl | cases hcall
  rw [stdinEvents_append, hother, List.append_nil, h]

theorem sessionConnect_collects (session : Session) (tasks : Tasks) :
    (collectPost (stdinEvents history) []).Of history
      (sessionConnect stack hostName session tasks) := by
  have hsocket : stdinEvents (history ++ [.socket]) = stdinEvents history := by
    rw [stdinEvents_append]
    exact List.append_nil _
  unfold sessionConnect sessionBuildParameters
  rw [Post.of_emit_iff, Post.of_andThen_iff]
  apply ((stdinEvents_keptByCalls (stdinEvents history)).learnNewPort hsocket).weaken
  · exact fun _ _ hevents => ⟨hevents, rfl⟩
  · exact fun _ _ value => nomatch value
  · exact fun _ _ => trivial

theorem afterLearn_collects (exchange : Exchange) (ret : Int) :
    (collectPost (stdinEvents history) []).Of history
      (afterLearn stack hostName exchange ret) := by
  unfold afterLearn
  split
  · exact sessionConnect_collects _ _
  · apply Post.of_again_iff.mpr
    exact ⟨rfl, holdsText_zeroData, rfl, by decide⟩

/-- `session_handle` ends, or goes on; either way nothing is collected. -/
theorem handling_collects {pass : List Event × Exit Handle Int} {events : List Event}
    (hpass : (steadyContract fun history => stdinEvents history = events).handle.Of
      history pass) :
    (collectPost events []).Of history
      (andThen pass (Transfer.handling · data) (afterHandle data)) := by
  rw [Post.of_andThen_iff]
  apply hpass.weaken
  · exact fun _ _ hevents => ⟨hevents, rfl⟩
  · intro history handle ret hevents
    have hreading : (collectPost events []).Of history (afterHandle data handle ret) := by
      apply Post.of_again_iff.mpr
      rw [fill_eq_zeroData]
      exact ⟨hevents, holdsText_zeroData, rfl, by decide⟩
    exact hreading
  · exact fun _ _ => trivial

theorem steady_stdinEvents (events : List Event) (data : SessionData) :
    (steadyContract fun history => stdinEvents history = events).Chained stack data := by
  apply steadyContract_chained (stdinEvents_keptByCalls events)
  intro history value h
  rw [stdinEvents_append, h]
  exact List.append_nil _

/-! ## A pass of the reading loop -/

theorem sessionSendBatch_collects (htext : HoldsText data text) :
    (collectPost
        (stdinEvents history ++ if text = [] then [] else [.batch text]) []).Of history
      (sessionSendBatch stack data session tasks text.length) := by
  unfold sessionSendBatch
  by_cases hnone : text = []
  case pos =>
      have hempty : text.length = 0 := List.length_eq_zero_iff.mpr hnone
      rw [if_pos hnone, if_pos hempty, List.append_nil]
      apply Post.of_again_iff.mpr
      exact ⟨rfl, hnone ▸ htext, rfl, by decide⟩
  case neg =>
      have hlong : text.length ≠ 0 := fun hempty => hnone (List.length_eq_zero_iff.mp hempty)
      rw [if_neg hnone, if_neg hlong, Post.of_emit_iff, htext.slice?]
      apply handling_collects
      have hbatch : stdinEvents (history ++ [.batch text] ++ [.called .sessionHandle]) =
          stdinEvents history ++ [.batch text] := by
        rw [stdinEvents_append, stdinEvents_append]
        exact List.append_nil _
      apply (steady_stdinEvents _ data).sessionHandle
      exact (stdinEvents_keptByCalls _).sessionHandshake hbatch

theorem sessionReadLine_collects (htext : HoldsText data text)
    (hroom : text.length < sessionSize) (line : Line) :
    (collectPost (stdinEvents history ++ (collect text line).1) (collect text line).2).Of
      history (sessionReadLine stack data session tasks text.length line) := by
  have ⟨next, hstore, hnext⟩ := htext.storeLine hroom line
  have hline : stdinEvents (history ++ line.events) = stdinEvents history ++ line.events := by
    rw [stdinEvents_append, stdinEvents_line]
  simp only [sessionReadLine, hstore, hnext.strlen]
  rw [Post.of_emit_iff]
  unfold collect
  dsimp only
  split
  case isTrue hmore =>
      apply Post.of_again_iff.mpr
      exact ⟨hline, hnext, rfl, hmore.2⟩
  case isFalse =>
      have hsend := @sessionSendBatch_collects stack next session tasks
        (history ++ line.events) _ hnext
      rw [hline] at hsend
      split
      case isTrue hnone =>
          rw [if_pos hnone, List.append_nil] at hsend
          exact hsend
      case isFalse hsome =>
          rw [if_neg hsome, List.append_assoc] at hsend
          exact hsend

/-- The step: in every state a pass collects as `collect` says. -/
theorem sessionTransferLoop_collects {transfer : Transfer} (h : transfer.Collects text)
    (input : Input) :
    (collectPost (stdinEvents history ++ (transfer.takes text input).1)
        (transfer.takes text input).2).Of history
      (sessionTransferLoop stack hostName transfer input) := by
  cases transfer with
  | learning exchange =>
      obtain rfl : text = [] := h
      simp only [Transfer.takes, List.append_nil, sessionTransferLoop]
      rw [Post.of_andThen_iff]
      apply ((stdinEvents_keptByCalls (stdinEvents history)).learnNewPortLoop rfl input).weaken
      · exact fun _ _ hevents => ⟨hevents, rfl⟩
      · intro events exchange ret hevents
        have hafter := @afterLearn_collects stack events hostName exchange ret
        rw [hevents] at hafter
        exact hafter
      · exact fun _ _ => trivial
  | reading session tasks data numBytes =>
      obtain ⟨htext, rfl, hroom⟩ := h
      cases input with
      | recv result =>
          apply Post.of_again_iff.mpr
          exact ⟨(List.append_nil _).symm, htext, rfl, hroom⟩
      | fgets line => exact sessionReadLine_collects htext hroom line
      | wakeUp task junk =>
          have htimeout := @KeptByCalls.timeout session tasks history _
            (stdinEvents_keptByCalls (stdinEvents history)) rfl task junk
          exact ⟨htimeout.trans (List.append_nil _).symm, htext, rfl, hroom⟩
  | handling handle data =>
      obtain rfl : text = [] := h
      simp only [Transfer.takes, List.append_nil, sessionTransferLoop]
      apply handling_collects
      apply (steady_stdinEvents _ data).sessionHandleLoop
      exact (stdinEvents_keptByCalls _).callLoop rfl handle.phase input

/-! ## What has been collected -/

theorem Transfer.Collects.collected_eq {transfer : Transfer} (h : transfer.Collects text) :
    transfer.collected = text := by
  cases transfer with
  | learning exchange => exact h.symm
  | reading session tasks data numBytes => exact h.1.sessionText_eq
  | handling handle data => exact h.symm

theorem Transfer.Collects.inBounds {transfer : Transfer} (h : transfer.Collects text) :
    transfer.InBounds := by
  cases transfer with
  | learning exchange => trivial
  | handling handle data => trivial
  | reading session tasks data numBytes =>
      obtain ⟨htext, rfl, hroom⟩ := h
      refine ⟨by omega, fun line => ?_⟩
      obtain ⟨next, hstore, -⟩ := htext.storeLine hroom line
      rw [hstore]
      rfl

theorem consumed_collect (text : List Byte) (line : Line) :
    consumed (collect text line).1 = line.chars := by
  have hline : consumed line.events = line.chars := consumed_line [] line
  unfold collect
  dsimp only
  split
  · exact hline
  · split
    · exact hline
    · rw [consumed_concat, hline]
      exact List.append_nil _

/-- A pass reads the line it is given, and nothing on any other input. -/
theorem sessionTransferLoop_consumed {transfer next : Transfer} (h : transfer.Collects text)
    {input : Input} {events : List Event}
    (hpass : sessionTransferLoop stack hostName transfer input = (events, .again next)) :
    consumed events = consumed (transfer.takes text input).1 := by
  have hcollects := @sessionTransferLoop_collects stack [] text hostName transfer h input
  rw [hpass] at hcollects
  obtain ⟨hevents, -⟩ := hcollects
  rw [← consumed_stdinEvents events]
  exact congrArg consumed hevents

/-! ## Invariants of what is collected -/

def Collecting (kept : List Event → List Byte → Prop) (history : List Event)
    (transfer : Transfer) : Prop :=
  ∃ text, transfer.Collects text ∧ kept (stdinEvents history) text

def collectingPost (kept : List Event → List Byte → Prop) : Post Transfer Event Empty where
  again := Collecting kept
  done := fun _ _ _ => True
  fault := fun _ => True

structure KeptByCollect (allowed : Line → Prop) (kept : List Event → List Byte → Prop) :
    Prop where
  start : kept [] []
  collect : ∀ events text line, allowed line → text.length < sessionSize →
    kept events text → kept (events ++ (collect text line).1) (collect text line).2

def Input.line : Input → Option Line
  | .fgets line => some line
  | _ => none

variable {allowed : Line → Prop} {kept : List Event → List Byte → Prop}

theorem KeptByCollect.sessionConnect (h : KeptByCollect allowed kept) (session : Session)
    (tasks : Tasks) :
    (collectingPost kept).Of [] (sessionConnect stack hostName session tasks) := by
  apply (sessionConnect_collects session tasks).weaken
  · rintro events transfer ⟨hevents, hcollects⟩
    refine ⟨[], hcollects, ?_⟩
    rw [hevents]
    exact h.start
  · exact fun _ _ _ _ => trivial
  · exact fun _ _ => trivial

theorem KeptByCollect.sessionTransferLoop (h : KeptByCollect allowed kept)
    {transfer : Transfer} (hcollecting : Collecting kept history transfer) {input : Input}
    (hinput : ∀ line ∈ input.line, allowed line) :
    (collectingPost kept).Of history (sessionTransferLoop stack hostName transfer input) := by
  obtain ⟨text, hcollects, hkept⟩ := hcollecting
  have htakes : kept (stdinEvents history ++ (transfer.takes text input).1)
      (transfer.takes text input).2 := by
    unfold Transfer.takes
    split
    case h_1 session tasks data numBytes line =>
        exact h.collect _ _ _ (hinput line rfl) hcollects.2.2 hkept
    case h_2 => rwa [List.append_nil]
  apply (sessionTransferLoop_collects hcollects input).weaken
  · rintro events next ⟨hevents, hnext⟩
    refine ⟨_, hnext, ?_⟩
    rw [hevents]
    exact htakes
  · exact fun _ _ _ _ => trivial
  · exact fun _ _ => trivial

theorem batched_keptByCollect (stack : Stack) :
    KeptByCollect (fun line => 0#8 ∉ line.chars) (Batched stack) where
  start := batched_start
  collect := by
    intro events text line hline hroom h
    have hlonger := h.line hline
    unfold Sender.collect
    dsimp only
    split
    case isTrue => exact hlonger
    case isFalse =>
        split
        case isTrue hnone => rwa [hnone] at hlonger
        case isFalse hsome =>
            rw [← List.append_assoc]
            apply hlonger.batch hsome
            have hfits := line.fits
            have htext := line.length_text_le
            rw [List.length_append]
            omega

/-! ## Where the batches are cut -/

def Event.stored? : Event → Option (List Byte)
  | .stored chars => some chars
  | _ => none

def linesRead (events : List Event) : List (List Byte) := events.filterMap Event.stored?

theorem flatten_linesRead (events : List Event) :
    (linesRead events).flatten = consumed events := by
  induction events with
  | nil => rfl
  | cons event events ih =>
      have hconsumed : consumed (event :: events) = event.stdin ++ consumed events := rfl
      rw [hconsumed, ← ih]
      cases event <;> rfl

theorem linesRead_line {line : Line} (hline : line.chars ≠ []) (events : List Event) :
    linesRead (events ++ line.events) = linesRead events ++ [line.chars] := by
  rw [linesRead, List.filterMap_append, Line.events, if_neg hline]
  rfl

theorem linesRead_batch (events : List Event) (bytes : List Byte) :
    linesRead (events ++ [.batch bytes]) = linesRead events := by
  rw [linesRead, List.filterMap_append]
  exact List.append_nil _

def CompleteLine (chars : List Byte) : Prop :=
  Gather.gather (Gather.isLine 0x0A#8 199) [] (Gather.single chars) = ([chars], [])

theorem CompleteLine.ne_nil {chars : List Byte} (h : CompleteLine chars) : chars ≠ [] := by
  rintro rfl
  cases h

def sessionFull (text : List Byte) : Bool := decide (sessionSize ≤ text.length)

/-- The batches are the lines, put together until there are `SESSION_SIZE` bytes. -/
structure Cut (events : List Event) (text : List Byte) : Prop where
  complete : ∀ line ∈ linesRead events, CompleteLine line
  short : ∀ line ∈ linesRead events, line.length < maxRecordSize
  gathered : Gather.gather sessionFull [] (linesRead events) = (batches events, text)

theorem cut_keptByCollect :
    KeptByCollect (fun line => 0#8 ∉ line.chars ∧ CompleteLine line.chars) Cut where
  start := ⟨fun _ hmem => absurd hmem List.not_mem_nil,
    fun _ hmem => absurd hmem List.not_mem_nil, rfl⟩
  collect := by
    rintro events text line ⟨hline, hcomplete⟩ hroom h
    have hne := hcomplete.ne_nil
    have hgather := Gather.gather_concat h.gathered line.chars
    have hlines : ∀ chars ∈ linesRead events ++ [line.chars],
        CompleteLine chars ∧ chars.length < maxRecordSize := by
      intro chars hmem
      rcases List.mem_append.mp hmem with hold | hnew
      · exact ⟨h.complete chars hold, h.short chars hold⟩
      · rw [List.mem_singleton.mp hnew]
        exact ⟨hcomplete, line.fits⟩
    unfold Sender.collect
    dsimp only
    rw [line.text_eq_chars hline]
    split
    case isTrue hmore =>
        have hnotFull : sessionFull (text ++ line.chars) = false := by
          rw [sessionFull, decide_eq_false_iff_not]
          omega
        rw [hnotFull, if_neg Bool.false_ne_true] at hgather
        refine ⟨?_, ?_, ?_⟩
        all_goals rw [linesRead_line hne]
        · exact fun chars hmem => (hlines chars hmem).1
        · exact fun chars hmem => (hlines chars hmem).2
        · rw [batches_line]
          exact hgather
    case isFalse hmany =>
        have hfull : sessionFull (text ++ line.chars) = true := by
          rw [sessionFull, decide_eq_true_eq]
          exact Nat.le_of_not_lt fun hless => hmany ⟨hne, hless⟩
        rw [hfull, if_pos rfl] at hgather
        rw [if_neg (List.append_ne_nil_of_right_ne_nil text hne), ← List.append_assoc]
        refine ⟨?_, ?_, ?_⟩
        all_goals rw [linesRead_batch, linesRead_line hne]
        · exact fun chars hmem => (hlines chars hmem).1
        · exact fun chars hmem => (hlines chars hmem).2
        · rw [batches_concat, batches_line]
          exact hgather

end BBCodeBase.Sender
