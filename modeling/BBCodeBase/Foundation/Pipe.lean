import BBCodeBase.Foundation.Rules

/-!
# Two loops with a pipe between them

What the passes of the writer give out goes into a queue one element at a time,
and the reader takes it out in pieces.  The two loops take their passes in any
order; the writer waits until everything it has given out is in the queue.

A contract has an invariant for each of the loops.  The writer guarantees that
what it gives out is good, and the reader may rely on it: given that both keep
their part, every run of the two together keeps both, and loses no element.
-/

namespace Pipe

open Reactive

variable {σ ι ε ρ τ κ ξ α β : Type}

/--
`fetch` takes a piece out of the queue, or waits for more; the reader does so
where it is `reading`, and `piece` is the input that it goes on with.
-/
structure Ends (σ ι ε ρ τ κ ξ α β : Type) where
  writer : Body σ ι ε ρ
  written : ε → List α
  reader : Body τ κ ξ Empty
  reading : τ → Bool
  fetch : (closed : Bool) → List α → Option (β × List α)
  piece : β → κ
  isPiece : κ → Bool

/-- There is no writer any more when it has returned. -/
structure State (σ τ α : Type) where
  writer : Option σ
  unwritten : List α
  queue : List α
  reader : τ

inductive Step (ι κ : Type) where
  | write (input : ι)
  | put
  | fetch
  | other (input : κ)
  deriving DecidableEq, Repr

def State.closed (state : State σ τ α) : Bool :=
  state.writer.isNone && state.unwritten.isEmpty

def State.took (state : State σ τ α) (queue : List α) :
    List ξ × Exit τ Empty → List (ε ⊕ ξ) × Exit (State σ τ α) Empty
  | (events, .again reader) =>
      (events.map .inr, .again { state with queue := queue, reader := reader })
  | (_, .done _ value) => nomatch value
  | (events, .fault) => (events.map .inr, .fault)

namespace Ends

variable (ends : Ends σ ι ε ρ τ κ ξ α β)

def takes (state : State σ τ α) : Step ι κ → Option (κ × List α)
  | .fetch =>
      if ends.reading state.reader then
        match ends.fetch state.closed state.queue with
        | none => none
        | some (read, queue) => some (ends.piece read, queue)
      else none
  | .other input => if ends.isPiece input then none else some (input, state.queue)
  | _ => none

def wrote (state : State σ τ α) :
    List ε × Exit σ ρ → List (ε ⊕ ξ) × Exit (State σ τ α) Empty
  | (events, .again writer) =>
      (events.map .inl, .again
        { state with writer := some writer, unwritten := events.flatMap ends.written })
  | (events, .done _ _) =>
      (events.map .inl, .again
        { state with writer := none, unwritten := events.flatMap ends.written })
  | (events, .fault) => (events.map .inl, .fault)

def body : Body (State σ τ α) (Step ι κ) (ε ⊕ ξ) Empty := fun state step =>
  match step with
  | .write input =>
      match state.writer, state.unwritten with
      | some writer, [] => ends.wrote state (ends.writer writer input)
      | _, _ => ([], .again state)
  | .put =>
      match state.unwritten with
      | [] => ([], .again state)
      | element :: unwritten =>
          ([], .again
            { state with unwritten := unwritten, queue := state.queue ++ [element] })
  | step =>
      match ends.takes state step with
      | none => ([], .again state)
      | some (input, queue) => state.took queue (ends.reader state.reader input)

def start (first : List ε × Exit σ ρ) (second : List ξ × Exit τ Empty) :
    List (ε ⊕ ξ) × Exit (State σ τ α) Empty :=
  match second with
  | (events, .again reader) =>
      emit (events.map .inr) (ends.wrote ⟨none, [], [], reader⟩ first)
  | (_, .done _ value) => nomatch value
  | (events, .fault) => (events.map .inr, .fault)

end Ends

/-! ## The events of either loop -/

def lefts (history : List (ε ⊕ ξ)) : List ε := history.filterMap Sum.getLeft?

def rights (history : List (ε ⊕ ξ)) : List ξ := history.filterMap Sum.getRight?

theorem lefts_append (history events : List (ε ⊕ ξ)) :
    lefts (history ++ events) = lefts history ++ lefts events :=
  List.filterMap_append

theorem rights_append (history events : List (ε ⊕ ξ)) :
    rights (history ++ events) = rights history ++ rights events :=
  List.filterMap_append

@[simp] theorem lefts_inl (events : List ε) :
    lefts (events.map .inl : List (ε ⊕ ξ)) = events := by
  simp [lefts, List.filterMap_map, Function.comp_def]

@[simp] theorem lefts_inr (events : List ξ) :
    lefts (events.map .inr : List (ε ⊕ ξ)) = [] := by
  simp [lefts, List.filterMap_map, Function.comp_def]

@[simp] theorem rights_inl (events : List ε) :
    rights (events.map .inl : List (ε ⊕ ξ)) = [] := by
  simp [rights, List.filterMap_map, Function.comp_def]

@[simp] theorem rights_inr (events : List ξ) :
    rights (events.map .inr : List (ε ⊕ ξ)) = events := by
  simp [rights, List.filterMap_map, Function.comp_def]

/-! ## Contracts -/

/-- `taken` is what an event of the reader shows of the pieces it has taken. -/
structure Contract (σ ε τ κ ξ α : Type) where
  writer : List ε → σ → Prop
  ended : List ε → Prop
  reader : List ξ → τ → Prop
  allowed : κ → Prop
  good : α → Prop
  taken : ξ → List α

namespace Contract

variable (contract : Contract σ ε τ κ ξ α)

def writes : Post σ ε ρ where
  again := contract.writer
  done := fun events _ _ => contract.ended events
  fault := fun _ => True

def reads : Post τ ξ Empty where
  again := contract.reader
  done := fun _ _ _ => True
  fault := fun _ => True

def Meets (ends : Ends σ ι ε ρ τ κ ξ α β) (condition : τ → κ → Prop)
    (state : State σ τ α) (step : Step ι κ) : Prop :=
  ∀ input queue, ends.takes state step = some (input, queue) →
    condition state.reader input

/-- Each of the loops keeps its part, the reader where its passes meet the condition. -/
structure Kept (ends : Ends σ ι ε ρ τ κ ξ α β) (condition : τ → κ → Prop) : Prop where
  write : ∀ history writer input, contract.writer history writer →
    contract.writes.Of history (ends.writer writer input)
  writer_good : ∀ history writer, contract.writer history writer →
    ∀ element ∈ history.flatMap ends.written, contract.good element
  ended_good : ∀ history, contract.ended history →
    ∀ element ∈ history.flatMap ends.written, contract.good element
  read : ∀ history reader input, contract.allowed input → condition reader input →
    contract.reader history reader → contract.reads.Of history (ends.reader reader input)
  fetch_allowed : ∀ closed queue read rest,
    (closed = true → ∃ history, contract.ended history) →
    (∀ element ∈ queue, contract.good element) →
    ends.fetch closed queue = some (read, rest) → contract.allowed (ends.piece read)
  other_allowed : ∀ input, ends.isPiece input = false → contract.allowed input
  piece_taken : ∀ history reader closed queue read rest events next,
    contract.reader history reader → ends.reading reader = true →
    ends.fetch closed queue = some (read, rest) →
    ends.reader reader (ends.piece read) = (events, .again next) →
    events.flatMap contract.taken ++ rest = queue
  other_taken : ∀ history reader input events next,
    contract.reader history reader → ends.isPiece input = false →
    ends.reader reader input = (events, .again next) →
    events.flatMap contract.taken = []

structure Holds (ends : Ends σ ι ε ρ τ κ ξ α β) (history : List (ε ⊕ ξ))
    (state : State σ τ α) : Prop where
  writer : match state.writer with
    | some writer => contract.writer (lefts history) writer
    | none => contract.ended (lefts history)
  reader : contract.reader (rights history) state.reader
  conserved : (lefts history).flatMap ends.written =
    (rights history).flatMap contract.taken ++ state.queue ++ state.unwritten

variable {contract} {ends : Ends σ ι ε ρ τ κ ξ α β} {condition : τ → κ → Prop}
  {history : List (ε ⊕ ξ)} {state : State σ τ α}

def post (contract : Contract σ ε τ κ ξ α) (ends : Ends σ ι ε ρ τ κ ξ α β) :
    Post (State σ τ α) (ε ⊕ ξ) Empty where
  again := contract.Holds ends
  done := fun _ _ _ => True
  fault := fun _ => True

theorem Holds.good (h : contract.Holds ends history state)
    (hkept : contract.Kept ends condition) :
    ∀ element ∈ (lefts history).flatMap ends.written, contract.good element := by
  have hwriter := h.writer
  cases hstate : state.writer with
  | some writer =>
      rw [hstate] at hwriter
      exact hkept.writer_good _ writer hwriter
  | none =>
      rw [hstate] at hwriter
      exact hkept.ended_good _ hwriter

theorem Holds.queue_good (h : contract.Holds ends history state)
    (hkept : contract.Kept ends condition) :
    ∀ element ∈ state.queue, contract.good element := by
  intro element hmem
  apply h.good hkept
  rw [h.conserved]
  exact List.mem_append_left _ (List.mem_append_right _ hmem)

theorem Holds.wrote (hreader : contract.reader (rights history) state.reader)
    (hconserved : (lefts history).flatMap ends.written =
      (rights history).flatMap contract.taken ++ state.queue)
    {pass : List ε × Exit σ ρ} (hpass : contract.writes.Of (lefts history) pass) :
    (contract.post ends).Of history (ends.wrote state pass) := by
  obtain ⟨events, exit⟩ := pass
  have hrights : rights (history ++ events.map .inl) = rights history := by
    rw [rights_append, rights_inl, List.append_nil]
  have hlefts : lefts (history ++ events.map .inl) = lefts history ++ events := by
    rw [lefts_append, lefts_inl]
  have hmore : (lefts history ++ events).flatMap ends.written =
      (rights history).flatMap contract.taken ++ state.queue ++
        events.flatMap ends.written := by
    rw [List.flatMap_append, hconserved]
  cases exit with
  | again writer =>
      constructor
      · rw [hlefts]
        exact hpass
      · rwa [hrights]
      · rw [hrights, hlefts]
        exact hmore
  | done last value =>
      constructor
      · rw [hlefts]
        exact hpass
      · rwa [hrights]
      · rw [hrights, hlefts]
        exact hmore
  | fault => trivial

theorem Holds.took (h : contract.Holds ends history state) {queue : List α}
    {pass : List ξ × Exit τ Empty} (hpass : contract.reads.Of (rights history) pass)
    (htaken : ∀ events next, pass = (events, .again next) →
      events.flatMap contract.taken ++ queue = state.queue) :
    (contract.post ends).Of history (state.took queue pass) := by
  obtain ⟨events, exit⟩ := pass
  cases exit with
  | again reader =>
      have hrights : rights (history ++ events.map .inr) = rights history ++ events := by
        rw [rights_append, rights_inr]
      have hlefts : lefts (history ++ events.map .inr) = lefts history := by
        rw [lefts_append, lefts_inr, List.append_nil]
      constructor
      · rw [hlefts]
        exact h.writer
      · rw [hrights]
        exact hpass
      · rw [hrights, hlefts, List.flatMap_append, h.conserved, ← htaken events reader rfl]
        simp
  | done last value => exact nomatch value
  | fault => trivial

theorem Holds.takes (h : contract.Holds ends history state)
    (hkept : contract.Kept ends condition) {step : Step ι κ} {input : κ} {queue : List α}
    (htakes : ends.takes state step = some (input, queue)) :
    contract.allowed input ∧
      ∀ events next, ends.reader state.reader input = (events, .again next) →
        events.flatMap contract.taken ++ queue = state.queue := by
  cases step with
  | write other => cases htakes
  | put => cases htakes
  | fetch =>
      simp only [Ends.takes] at htakes
      split at htakes
      case isFalse => cases htakes
      case isTrue hreading =>
          cases hfetch : ends.fetch state.closed state.queue with
          | none => simp [hfetch] at htakes
          | some result =>
              obtain ⟨read, rest⟩ := result
              obtain ⟨rfl, rfl⟩ : ends.piece read = input ∧ rest = queue := by
                simpa [hfetch] using htakes
              constructor
              · apply hkept.fetch_allowed _ _ _ _ _ (h.queue_good hkept) hfetch
                intro hclosed
                have hwriter := h.writer
                have hnone : state.writer = none := by
                  simp only [State.closed, Bool.and_eq_true, Option.isNone_iff_eq_none] at hclosed
                  exact hclosed.1
                rw [hnone] at hwriter
                exact ⟨_, hwriter⟩
              · intro events next hpass
                exact hkept.piece_taken _ _ _ _ _ _ _ _ h.reader hreading hfetch hpass
  | other other =>
      simp only [Ends.takes] at htakes
      split at htakes
      case isTrue => cases htakes
      case isFalse hother =>
          obtain ⟨rfl, rfl⟩ : other = input ∧ state.queue = queue := by simpa using htakes
          have hpiece : ends.isPiece other = false := Bool.eq_false_iff.mpr hother
          constructor
          · exact hkept.other_allowed _ hpiece
          · intro events next hpass
            rw [hkept.other_taken _ _ _ _ _ h.reader hpiece hpass, List.nil_append]

theorem Kept.body (hkept : contract.Kept ends condition) {step : Step ι κ}
    (hmeets : Meets ends condition state step) (h : contract.Holds ends history state) :
    (contract.post ends).Of history (ends.body state step) := by
  have hsame : (contract.post ends).Of history ([], .again state) :=
    Post.of_again_iff.mpr h
  have hreads : ∀ input queue, ends.takes state step = some (input, queue) →
      (contract.post ends).Of history
        (state.took queue (ends.reader state.reader input)) := by
    intro input queue htakes
    obtain ⟨hallowed, htaken⟩ := h.takes hkept htakes
    have hpass := hkept.read _ _ _ hallowed (hmeets input queue htakes) h.reader
    exact h.took hpass htaken
  unfold Ends.body
  cases step with
  | write input =>
      dsimp only
      split
      case h_1 writer hwriter hempty =>
          have hholds := h.writer
          rw [hwriter] at hholds
          have hconserved := h.conserved
          rw [hempty, List.append_nil] at hconserved
          exact Holds.wrote h.reader hconserved (hkept.write _ _ _ hholds)
      case h_2 => exact hsame
  | put =>
      dsimp only
      cases hunwritten : state.unwritten with
      | nil => exact hsame
      | cons element unwritten =>
          have hconserved := h.conserved
          rw [hunwritten] at hconserved
          apply Post.of_again_iff.mpr
          refine ⟨h.writer, h.reader, hconserved.trans ?_⟩
          simp
  | fetch =>
      dsimp only
      split
      case h_1 => exact hsame
      case h_2 input queue htakes => exact hreads input queue htakes
  | other other =>
      dsimp only
      split
      case h_1 => exact hsame
      case h_2 input queue htakes => exact hreads input queue htakes

theorem Holds.start (first : List ε × Exit σ ρ) (second : List ξ × Exit τ Empty)
    (hfirst : contract.writes.Of [] first) (hsecond : contract.reads.Of [] second)
    (htaken : ∀ events reader, second = (events, .again reader) →
      events.flatMap contract.taken = []) :
    (contract.post ends).Of [] (ends.start first second) := by
  obtain ⟨events, exit⟩ := second
  cases exit with
  | again reader =>
      apply Post.of_emit_iff.mpr
      rw [List.nil_append]
      apply Holds.wrote
      · rw [rights_inr]
        exact hsecond
      · rw [lefts_inr, rights_inr, htaken events reader rfl]
        rfl
      · rw [lefts_inr]
        exact hfirst
  | done last value => exact nomatch value
  | fault => trivial

/-- The rule of the pipe, for runs whose steps meet the condition. -/
theorem Kept.enter (hkept : contract.Kept ends condition)
    {first : List ε × Exit σ ρ} {second : List ξ × Exit τ Empty}
    (hfirst : contract.writes.Of [] first) (hsecond : contract.reads.Of [] second)
    (htaken : ∀ events reader, second = (events, .again reader) →
      events.flatMap contract.taken = []) {steps : List (Step ι κ)}
    (hmeets : AlongFrom (ends.start first second) ends.body (Meets ends condition) steps) :
    (contract.post ends).Of []
      (enter (ends.start first second) ends.body steps) := by
  have hstart := @Holds.start _ _ _ _ _ _ _ _ _ contract ends _ _ hfirst hsecond htaken
  cases hpass : ends.start first second with
  | mk events exit =>
      rw [hpass] at hstart
      cases exit with
      | again state =>
          apply Post.of_emit_iff.mpr
          exact Post.Of.along (fun _ _ _ hmet hholds => hkept.body hmet hholds) hstart
            (hmeets events state hpass)
      | done state value => exact hstart
      | fault => exact hstart

theorem Kept.enter_any (hkept : contract.Kept ends fun _ _ => True)
    {first : List ε × Exit σ ρ} {second : List ξ × Exit τ Empty}
    (hfirst : contract.writes.Of [] first) (hsecond : contract.reads.Of [] second)
    (htaken : ∀ events reader, second = (events, .again reader) →
      events.flatMap contract.taken = []) (steps : List (Step ι κ)) :
    (contract.post ends).Of []
      (Reactive.enter (ends.start first second) ends.body steps) := by
  apply hkept.enter hfirst hsecond htaken
  intro _ state _
  exact along_of_forall (fun _ _ _ _ _ _ => trivial) state

end Contract

end Pipe
