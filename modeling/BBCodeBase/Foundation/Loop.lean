import Mathlib.Data.List.Basic

/-!
# Loops driven by an input stream

A loop body reads one input, emits events, and then either goes round again,
leaves the loop with a value, or executes an operation whose effect is
undefined.  `run` executes a body over a finite stream of inputs; a stream that
is used up before the loop ends leaves the loop waiting at its head.
-/

namespace Reactive

inductive Exit (σ ρ : Type) where
  | again (state : σ)
  | done (state : σ) (value : ρ)
  | fault
  deriving DecidableEq, Repr

def Exit.value? {σ ρ : Type} : Exit σ ρ → Option ρ
  | .done _ value => some value
  | _ => none

abbrev Body (σ ι ε ρ : Type) := σ → ι → List ε × Exit σ ρ

variable {σ τ ι ε ρ : Type}

theorem again_inj {events later : List ε} {state next : σ}
    (h : (events, (Exit.again state : Exit σ ρ)) = (later, .again next)) :
    events = later ∧ state = next := by
  rw [Prod.mk.injEq, Exit.again.injEq] at h
  exact h

def run (body : Body σ ι ε ρ) : σ → List ι → List ε × Exit σ ρ
  | state, [] => ([], .again state)
  | state, input :: rest =>
      match body state input with
      | (events, .again next) =>
          (events ++ (run body next rest).1, (run body next rest).2)
      | (events, .done last value) => (events, .done last value)
      | (events, .fault) => (events, .fault)

@[simp] theorem run_nil (body : Body σ ι ε ρ) (state : σ) :
    run body state [] = ([], .again state) := rfl

theorem run_cons_again {body : Body σ ι ε ρ} {state next : σ} {input : ι}
    {events : List ε} (h : body state input = (events, .again next))
    (rest : List ι) :
    run body state (input :: rest) =
      (events ++ (run body next rest).1, (run body next rest).2) := by
  simp only [run, h]

theorem run_cons_done {body : Body σ ι ε ρ} {state last : σ} {input : ι}
    {events : List ε} {value : ρ}
    (h : body state input = (events, .done last value)) (rest : List ι) :
    run body state (input :: rest) = (events, .done last value) := by
  simp only [run, h]

theorem run_cons_fault {body : Body σ ι ε ρ} {state : σ} {input : ι}
    {events : List ε} (h : body state input = (events, .fault))
    (rest : List ι) :
    run body state (input :: rest) = (events, .fault) := by
  simp only [run, h]

theorem run_singleton (body : Body σ ι ε ρ) (state : σ) (input : ι) :
    run body state [input] = body state input := by
  simp only [run]
  cases h : body state input with
  | mk events exit => cases exit <;> simp

theorem run_cons_eq_again {body : Body σ ι ε ρ} {state last : σ} {input : ι}
    {rest : List ι} {events : List ε}
    (h : run body state (input :: rest) = (events, .again last)) :
    ∃ emitted next later,
      body state input = (emitted, .again next) ∧
      run body next rest = (later, .again last) ∧
      events = emitted ++ later := by
  cases hbody : body state input with
  | mk emitted exit =>
      cases exit with
      | again next =>
          rw [run_cons_again hbody, Prod.mk.injEq] at h
          exact ⟨emitted, next, (run body next rest).1, rfl,
            Prod.ext rfl h.2, h.1.symm⟩
      | done final value => simp [run_cons_done hbody] at h
      | fault => simp [run_cons_fault hbody] at h

theorem run_append {body : Body σ ι ε ρ} {state next : σ} {first : List ι}
    {events : List ε} (h : run body state first = (events, .again next))
    (rest : List ι) :
    run body state (first ++ rest) =
      (events ++ (run body next rest).1, (run body next rest).2) := by
  induction first generalizing state events with
  | nil =>
      simp only [run_nil, Prod.mk.injEq, Exit.again.injEq] at h
      obtain ⟨rfl, rfl⟩ := h
      simp
  | cons input first ih =>
      obtain ⟨emitted, middle, later, hbody, hlater, rfl⟩ := run_cons_eq_again h
      rw [List.cons_append, run_cons_again hbody, ih hlater]
      simp

theorem run_append_again {body : Body σ ι ε ρ} {state middle last : σ}
    {first rest : List ι} {before after : List ε}
    (hfirst : run body state first = (before, .again middle))
    (hrest : run body middle rest = (after, .again last)) :
    run body state (first ++ rest) = (before ++ after, .again last) := by
  rw [run_append hfirst, hrest]

theorem run_append_split {body : Body σ ι ε ρ} {state last : σ}
    {first rest : List ι} {events : List ε}
    (h : run body state (first ++ rest) = (events, .again last)) :
    ∃ before middle after,
      run body state first = (before, .again middle) ∧
      run body middle rest = (after, .again last) ∧
      events = before ++ after := by
  induction first generalizing state events with
  | nil => exact ⟨[], state, events, rfl, h, rfl⟩
  | cons input first ih =>
      obtain ⟨emitted, next, later, hbody, hlater, rfl⟩ := run_cons_eq_again h
      obtain ⟨before, middle, after, hfirst, hrest, rfl⟩ := ih hlater
      refine ⟨emitted ++ before, middle, after, ?_, hrest, ?_⟩
      · rw [run_cons_again hbody, hfirst]
      · rw [List.append_assoc]

theorem run_done_split {body : Body σ ι ε ρ} {state last : σ}
    {inputs : List ι} {events : List ε} {value : ρ}
    (h : run body state inputs = (events, .done last value)) :
    ∃ first input rest before middle after,
      inputs = first ++ input :: rest ∧
      run body state first = (before, .again middle) ∧
      body middle input = (after, .done last value) ∧
      events = before ++ after := by
  induction inputs generalizing state events with
  | nil => simp at h
  | cons input inputs ih =>
      cases hbody : body state input with
      | mk emitted exit =>
          cases exit with
          | again next =>
              rw [run_cons_again hbody, Prod.mk.injEq] at h
              obtain ⟨rfl, hexit⟩ := h
              have hlater : run body next inputs =
                  ((run body next inputs).1, .done last value) :=
                Prod.ext rfl hexit
              obtain ⟨first, final, rest, before, middle, after,
                rfl, hfirst, hlast, hsplit⟩ := ih hlater
              refine ⟨input :: first, final, rest, emitted ++ before, middle,
                after, rfl, ?_, hlast, ?_⟩
              · rw [run_cons_again hbody, hfirst]
              · rw [hsplit, List.append_assoc]
          | done final result =>
              rw [run_cons_done hbody] at h
              exact ⟨[], input, inputs, [], state, events, rfl, rfl,
                hbody.trans h, rfl⟩
          | fault => simp [run_cons_fault hbody] at h

/-- A loop behind code that runs up to its head first. -/
def enter (start : List ε × Exit σ ρ) (body : Body σ ι ε ρ) (inputs : List ι) :
    List ε × Exit σ ρ :=
  match start with
  | (events, .again state) =>
      (events ++ (run body state inputs).1, (run body state inputs).2)
  | (events, .done state value) => (events, .done state value)
  | (events, .fault) => (events, .fault)

/-! ## Sequential composition -/

def emit (events : List ε) (pass : List ε × Exit σ ρ) : List ε × Exit σ ρ :=
  (events ++ pass.1, pass.2)

/-- A pass of an inner loop within an outer one, which takes over when it is done. -/
def andThen {ξ : Type} (pass : List ε × Exit σ ρ) (again : σ → τ)
    (done : σ → ρ → List ε × Exit τ ξ) : List ε × Exit τ ξ :=
  match pass with
  | (events, .again state) => (events, .again (again state))
  | (events, .done state value) => emit events (done state value)
  | (events, .fault) => (events, .fault)

theorem andThen_emit {ξ : Type} (events : List ε) (pass : List ε × Exit σ ρ)
    (again : σ → τ) (done : σ → ρ → List ε × Exit τ ξ) :
    andThen (emit events pass) again done = emit events (andThen pass again done) := by
  obtain ⟨later, exit⟩ := pass
  cases exit with
  | again state => rfl
  | done state value => simp only [andThen, emit, List.append_assoc]
  | fault => rfl

/-! ## Invariants -/

def Preserved (body : Body σ ι ε ρ) (allowed : ι → Prop)
    (invariant : List ε → σ → Prop) : Prop :=
  ∀ history state input events next, allowed input →
    invariant history state → body state input = (events, .again next) →
    invariant (history ++ events) next

theorem Preserved.run {body : Body σ ι ε ρ} {allowed : ι → Prop}
    {invariant : List ε → σ → Prop} (h : Preserved body allowed invariant)
    {history : List ε} {state last : σ} {inputs : List ι} {events : List ε}
    (hstart : invariant history state)
    (hallowed : ∀ input ∈ inputs, allowed input)
    (hrun : run body state inputs = (events, .again last)) :
    invariant (history ++ events) last := by
  induction inputs generalizing history state events with
  | nil =>
      simp only [run_nil, Prod.mk.injEq, Exit.again.injEq] at hrun
      obtain ⟨rfl, rfl⟩ := hrun
      simpa using hstart
  | cons input inputs ih =>
      obtain ⟨emitted, next, later, hbody, hlater, rfl⟩ := run_cons_eq_again hrun
      have hnext := h history state input emitted next
        (hallowed input List.mem_cons_self) hstart hbody
      rw [← List.append_assoc]
      exact ih hnext
        (fun other hother => hallowed other (List.mem_cons_of_mem _ hother)) hlater

/-- Every pass of the run meets a condition on its input and the state it starts in. -/
def Along (body : Body σ ι ε ρ) (condition : σ → ι → Prop) : σ → List ι → Prop
  | _, [] => True
  | state, input :: rest =>
      condition state input ∧
        ∀ events next, body state input = (events, .again next) →
          Along body condition next rest

/-! ## Inputs that pass unnoticed -/

theorem run_unnoticed {body : Body σ ι ε ρ} {state : σ} {inputs : List ι}
    (h : ∀ input ∈ inputs, body state input = ([], .again state)) (rest : List ι) :
    run body state (inputs ++ rest) = run body state rest := by
  induction inputs with
  | nil => rfl
  | cons input inputs ih =>
      rw [List.cons_append, run_cons_again (h input List.mem_cons_self),
        ih fun other hother => h other (List.mem_cons_of_mem _ hother)]
      rfl

/-- A stream with further inputs inserted in front of each of its inputs. -/
def padded (steps : List (List ι × ι)) : List ι :=
  steps.flatMap fun step => step.1 ++ [step.2]

theorem run_padded {body : Body σ ι ε ρ} {state : σ} {steps : List (List ι × ι)}
    (h : Along (fun state step => body state step.2)
      (fun state step => ∀ input ∈ step.1, body state input = ([], .again state))
      state steps) :
    run body state (padded steps) = run body state (steps.map Prod.snd) := by
  induction steps generalizing state with
  | nil => rfl
  | cons step steps ih =>
      obtain ⟨hunnoticed, hrest⟩ := h
      have hsplit : padded (step :: steps) = step.1 ++ step.2 :: padded steps := by
        simp [padded]
      rw [hsplit, run_unnoticed hunnoticed, List.map_cons]
      cases hbody : body state step.2 with
      | mk events exit =>
          cases exit with
          | again next =>
              rw [run_cons_again hbody, run_cons_again hbody, ih (hrest events next hbody)]
          | done last value => rw [run_cons_done hbody, run_cons_done hbody]
          | fault => rw [run_cons_fault hbody, run_cons_fault hbody]

theorem run_cons_events (body : Body σ ι ε ρ) (state : σ) (input : ι) (rest : List ι) :
    ∃ later, (run body state (input :: rest)).1 = (body state input).1 ++ later := by
  cases hbody : body state input with
  | mk events exit =>
      cases exit with
      | again next => exact ⟨_, by rw [run_cons_again hbody]⟩
      | done last value => exact ⟨[], by rw [run_cons_done hbody, List.append_nil]⟩
      | fault => exact ⟨[], by rw [run_cons_fault hbody, List.append_nil]⟩

/-! ## Lockstep simulation -/

inductive ExitRel (related : σ → τ → Prop) : Exit σ ρ → Exit τ ρ → Prop
  | again {left right} : related left right →
      ExitRel related (.again left) (.again right)
  | done {left right} (value : ρ) :
      ExitRel related (.done left value) (.done right value)
  | fault : ExitRel related .fault .fault

def Simulates (related : σ → τ → Prop) (left : Body σ ι ε ρ)
    (right : Body τ ι ε ρ) : Prop :=
  ∀ (state : σ) (image : τ) (input : ι), related state image →
    (left state input).1 = (right image input).1 ∧
      ExitRel related (left state input).2 (right image input).2

theorem Simulates.run {related : σ → τ → Prop} {left : Body σ ι ε ρ}
    {right : Body τ ι ε ρ} (h : Simulates related left right)
    (inputs : List ι) {state : σ} {image : τ} (hrel : related state image) :
    (run left state inputs).1 = (run right image inputs).1 ∧
      ExitRel related (run left state inputs).2 (run right image inputs).2 := by
  induction inputs generalizing state image with
  | nil => exact ⟨rfl, .again hrel⟩
  | cons input inputs ih =>
      obtain ⟨hevents, hexit⟩ := h state image input hrel
      cases hleft : left state input with
      | mk events exit =>
          cases hright : right image input with
          | mk events' exit' =>
              rw [hleft, hright] at hevents hexit
              simp only at hevents hexit
              subst hevents
              cases hexit with
              | again hnext =>
                  rw [run_cons_again hleft, run_cons_again hright]
                  obtain ⟨hlater, hlast⟩ := ih hnext
                  exact ⟨by rw [hlater], hlast⟩
              | done value =>
                  rw [run_cons_done hleft, run_cons_done hright]
                  exact ⟨rfl, .done value⟩
              | fault =>
                  rw [run_cons_fault hleft, run_cons_fault hright]
                  exact ⟨rfl, .fault⟩

theorem ExitRel.symm {related : σ → τ → Prop} {left : Exit σ ρ} {right : Exit τ ρ}
    (h : ExitRel related left right) :
    ExitRel (fun image state => related state image) right left := by
  cases h with
  | again hrel => exact .again hrel
  | done value => exact .done value
  | fault => exact .fault

theorem Simulates.symm {related : σ → τ → Prop} {left : Body σ ι ε ρ}
    {right : Body τ ι ε ρ} (h : Simulates related left right) :
    Simulates (fun image state => related state image) right left := by
  intro image state input hrel
  obtain ⟨hevents, hexit⟩ := h state image input hrel
  exact ⟨hevents.symm, hexit.symm⟩

theorem Simulates.run_image {related : σ → τ → Prop} {left : Body σ ι ε ρ}
    {right : Body τ ι ε ρ} (h : Simulates related left right)
    {inputs : List ι} {state : σ} {image : τ} {events : List ε} {exit : Exit σ ρ}
    (hrel : related state image)
    (hrun : Reactive.run left state inputs = (events, exit)) :
    ∃ final, Reactive.run right image inputs = (events, final) ∧
      ExitRel related exit final := by
  obtain ⟨hevents, hexit⟩ := h.run inputs hrel
  rw [hrun] at hevents hexit
  exact ⟨_, Prod.ext hevents.symm rfl, hexit⟩

theorem Simulates.run_again {related : σ → τ → Prop} {left : Body σ ι ε ρ}
    {right : Body τ ι ε ρ} (h : Simulates related left right)
    {inputs : List ι} {state last : σ} {image : τ} {events : List ε}
    (hrel : related state image)
    (hrun : Reactive.run left state inputs = (events, .again last)) :
    ∃ final, Reactive.run right image inputs = (events, .again final) ∧
      related last final := by
  obtain ⟨exit, hright, hexit⟩ := h.run_image hrel hrun
  cases hexit with
  | again hfinal => exact ⟨_, hright, hfinal⟩

theorem Simulates.enter {related : σ → τ → Prop} {left : Body σ ι ε ρ}
    {right : Body τ ι ε ρ} (h : Simulates related left right)
    {start : List ε × Exit σ ρ} {image : List ε × Exit τ ρ} (hevents : start.1 = image.1)
    (hexit : ExitRel related start.2 image.2) (inputs : List ι) :
    (Reactive.enter start left inputs).1 = (Reactive.enter image right inputs).1 ∧
      ExitRel related (Reactive.enter start left inputs).2
        (Reactive.enter image right inputs).2 := by
  obtain ⟨events, exit⟩ := start
  obtain ⟨_, final⟩ := image
  obtain rfl : events = _ := hevents
  cases hexit with
  | again hrel =>
      obtain ⟨hlater, hlast⟩ := h.run inputs hrel
      exact ⟨congrArg (events ++ ·) hlater, hlast⟩
  | done value => exact ⟨rfl, .done value⟩
  | fault => exact ⟨rfl, .fault⟩

/-! ## Inputs seen through a function -/

theorem run_map {κ : Type} (body : Body σ ι ε ρ) (view : κ → ι) (state : σ)
    (inputs : List κ) :
    run body state (inputs.map view) =
      run (fun state input => body state (view input)) state inputs := by
  induction inputs generalizing state with
  | nil => rfl
  | cons input inputs ih => simp only [List.map_cons, run, ih]

theorem enter_map {κ : Type} (start : List ε × Exit σ ρ) (body : Body σ ι ε ρ)
    (view : κ → ι) (inputs : List κ) :
    enter start body (inputs.map view) =
      enter start (fun state input => body state (view input)) inputs := by
  obtain ⟨events, exit⟩ := start
  cases exit with
  | again state => simp only [enter, run_map]
  | done state value => rfl
  | fault => rfl

end Reactive
