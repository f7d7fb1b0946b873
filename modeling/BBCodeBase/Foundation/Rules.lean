import BBCodeBase.Foundation.Loop

/-!
# Rules for passes and runs

A postcondition says, for each way a pass may end, what holds of all the events
emitted so far and of the state.  The rules follow the way passes are put
together: events in front, one pass after another, an inner loop within an
outer one, and the passes of a run.
-/

namespace Reactive

variable {σ τ ι ε ρ ξ : Type}

structure Post (σ ε ρ : Type) where
  again : List ε → σ → Prop
  done : List ε → σ → ρ → Prop
  fault : List ε → Prop

def Post.Of (post : Post σ ε ρ) (history : List ε) : List ε × Exit σ ρ → Prop
  | (events, .again state) => post.again (history ++ events) state
  | (events, .done state value) => post.done (history ++ events) state value
  | (events, .fault) => post.fault (history ++ events)

theorem Post.of_again_iff {post : Post σ ε ρ} {history : List ε} {state : σ} :
    post.Of history ([], .again state) ↔ post.again history state := by
  simp only [Post.Of, List.append_nil]

theorem Post.of_fault_iff {post : Post σ ε ρ} {history : List ε} :
    post.Of history ([], .fault) ↔ post.fault history := by
  simp only [Post.Of, List.append_nil]

theorem Post.of_emit_iff {post : Post σ ε ρ} {history events : List ε}
    {pass : List ε × Exit σ ρ} :
    post.Of history (emit events pass) ↔ post.Of (history ++ events) pass := by
  cases pass with
  | mk later exit =>
      cases exit <;> simp only [emit, Post.Of, List.append_assoc]

theorem Post.Of.weaken {post weaker : Post σ ε ρ} {history : List ε}
    {pass : List ε × Exit σ ρ} (h : post.Of history pass)
    (hagain : ∀ events state, post.again events state → weaker.again events state)
    (hdone : ∀ events state value, post.done events state value →
      weaker.done events state value)
    (hfault : ∀ events, post.fault events → weaker.fault events) :
    weaker.Of history pass := by
  cases pass with
  | mk events exit =>
      cases exit with
      | again state => exact hagain _ _ h
      | done state value => exact hdone _ _ _ h
      | fault => exact hfault _ h

theorem Post.of_forall {post : Post σ ε ρ} {history : List ε}
    {pass : List ε × Exit σ ρ} (hagain : ∀ events state, post.again events state)
    (hdone : ∀ events state value, post.done events state value)
    (hfault : ∀ events, post.fault events) : post.Of history pass := by
  cases pass with
  | mk events exit =>
      cases exit with
      | again state => exact hagain _ _
      | done state value => exact hdone _ _ _
      | fault => exact hfault _

def Post.and (first second : Post σ ε ρ) : Post σ ε ρ where
  again := fun events state => first.again events state ∧ second.again events state
  done := fun events state value =>
    first.done events state value ∧ second.done events state value
  fault := fun events => first.fault events ∧ second.fault events

theorem Post.Of.and {first second : Post σ ε ρ} {history : List ε}
    {pass : List ε × Exit σ ρ} (hfirst : first.Of history pass)
    (hsecond : second.Of history pass) : (first.and second).Of history pass := by
  cases pass with
  | mk events exit =>
      cases exit with
      | again state => exact ⟨hfirst, hsecond⟩
      | done state value => exact ⟨hfirst, hsecond⟩
      | fault => exact ⟨hfirst, hsecond⟩

/-- What a pass has to meet for the pass that contains it to meet `post`. -/
def Post.before (post : Post τ ε ξ) (again : σ → τ)
    (done : σ → ρ → List ε × Exit τ ξ) : Post σ ε ρ where
  again := fun events state => post.again events (again state)
  done := fun events state value => post.Of events (done state value)
  fault := post.fault

/-- The rule of sequential composition. -/
theorem Post.of_andThen_iff {post : Post τ ε ξ} {history : List ε}
    {pass : List ε × Exit σ ρ} {again : σ → τ} {done : σ → ρ → List ε × Exit τ ξ} :
    post.Of history (andThen pass again done) ↔
      (post.before again done).Of history pass := by
  cases pass with
  | mk events exit =>
      cases exit with
      | again state => exact Iff.rfl
      | done state value => exact Post.of_emit_iff
      | fault => exact Iff.rfl

/-- The rule of iteration. -/
theorem Post.Of.run {body : Body σ ι ε ρ} {allowed : ι → Prop} {post : Post σ ε ρ}
    (hbody : ∀ history state input, allowed input → post.again history state →
      post.Of history (body state input))
    {history : List ε} {state : σ} (hstart : post.again history state)
    {inputs : List ι} (hallowed : ∀ input ∈ inputs, allowed input) :
    post.Of history (run body state inputs) := by
  induction inputs generalizing history state with
  | nil => simpa only [run_nil, Post.Of, List.append_nil] using hstart
  | cons input inputs ih =>
      have hfirst := hbody history state input (hallowed input List.mem_cons_self)
        hstart
      cases hpass : body state input with
      | mk events exit =>
          rw [hpass] at hfirst
          cases exit with
          | again next =>
              rw [run_cons_again hpass]
              apply Post.of_emit_iff.mpr
              apply ih hfirst
              intro other hother
              exact hallowed other (List.mem_cons_of_mem _ hother)
          | done last value =>
              rw [run_cons_done hpass]
              exact hfirst
          | fault =>
              rw [run_cons_fault hpass]
              exact hfirst

theorem Post.Of.run_any {body : Body σ ι ε ρ} {post : Post σ ε ρ}
    (hbody : ∀ history state input, post.again history state →
      post.Of history (body state input))
    {history : List ε} {state : σ} (hstart : post.again history state) (inputs : List ι) :
    post.Of history (Reactive.run body state inputs) :=
  Post.Of.run (fun history state input (_ : True) => hbody history state input) hstart
    (fun _ _ => trivial)

theorem Post.Of.enter {start : List ε × Exit σ ρ} {body : Body σ ι ε ρ}
    {allowed : ι → Prop} {post : Post σ ε ρ} (hstart : post.Of [] start)
    (hbody : ∀ history state input, allowed input → post.again history state →
      post.Of history (body state input))
    {inputs : List ι} (hallowed : ∀ input ∈ inputs, allowed input) :
    post.Of [] (enter start body inputs) := by
  cases start with
  | mk events exit =>
      cases exit with
      | again state =>
          apply Post.of_emit_iff.mpr
          exact Post.Of.run hbody hstart hallowed
      | done state value => exact hstart
      | fault => exact hstart

/-! ## Runs cut short -/

theorem run_append_done {body : Body σ ι ε ρ} {state last : σ} {first : List ι}
    {events : List ε} {value : ρ}
    (h : run body state first = (events, .done last value)) (rest : List ι) :
    run body state (first ++ rest) = (events, .done last value) := by
  obtain ⟨before, input, later, emitted, middle, after, rfl, hfirst, hlast, rfl⟩ :=
    run_done_split h
  rw [List.append_assoc, List.cons_append, run_append hfirst, run_cons_done hlast]

theorem run_append_fault {body : Body σ ι ε ρ} {state : σ} {first : List ι}
    {events : List ε} (h : run body state first = (events, .fault)) (rest : List ι) :
    run body state (first ++ rest) = (events, .fault) := by
  induction first generalizing state events with
  | nil => simp at h
  | cons input first ih =>
      rw [List.cons_append]
      cases hbody : body state input with
      | mk emitted exit =>
          cases exit with
          | again next =>
              rw [run_cons_again hbody] at h ⊢
              obtain ⟨rfl, hexit⟩ := Prod.mk.inj h
              rw [ih (Prod.ext rfl hexit)]
          | done last value => simp [run_cons_done hbody] at h
          | fault =>
              rw [run_cons_fault hbody] at h ⊢
              exact h

/-- A run that is cut short has emitted a first part of the events. -/
theorem run_events_first {body : Body σ ι ε ρ} {state : σ} {first inputs : List ι}
    (hfirst : first <+: inputs) :
    (run body state first).1 <+: (run body state inputs).1 := by
  obtain ⟨rest, rfl⟩ := hfirst
  cases hrun : run body state first with
  | mk events exit =>
      cases exit with
      | again next =>
          rw [run_append hrun]
          exact List.prefix_append _ _
      | done last value => simp [run_append_done hrun]
      | fault => simp [run_append_fault hrun]

/-! ## Properties of every moment of a run -/

/-- At every moment the property holds of the events so far and of how the run stands. -/
def Throughout (start : List ε × Exit σ ρ) (body : Body σ ι ε ρ)
    (property : List ε → Exit σ ρ → Prop) (inputs : List ι) : Prop :=
  ∀ first, first <+: inputs →
    property (enter start body first).1 (enter start body first).2

def AlongFrom (start : List ε × Exit σ ρ) (body : Body σ ι ε ρ)
    (condition : σ → ι → Prop) (inputs : List ι) : Prop :=
  ∀ events state, start = (events, .again state) → Along body condition state inputs

theorem along_congr {body : Body σ ι ε ρ} {first second : σ → ι → Prop}
    (h : ∀ state input, first state input ↔ second state input) (state : σ)
    (inputs : List ι) : Along body first state inputs ↔ Along body second state inputs := by
  have heq : first = second := funext fun state => funext fun input => propext (h state input)
  rw [heq]

theorem alongFrom_congr {start : List ε × Exit σ ρ} {body : Body σ ι ε ρ}
    {first second : σ → ι → Prop}
    (h : ∀ state input, first state input ↔ second state input) (inputs : List ι) :
    AlongFrom start body first inputs ↔ AlongFrom start body second inputs := by
  unfold AlongFrom
  simp only [along_congr h]

/-- Under an invariant of the loop, conditions that agree hold along the same runs. -/
theorem along_iff {body : Body σ ι ε ρ} {invariant : σ → Prop}
    {first second : σ → ι → Prop}
    (hkept : ∀ state input events next, invariant state →
      body state input = (events, .again next) → invariant next)
    (hiff : ∀ state input, invariant state → (first state input ↔ second state input))
    {state : σ} (hstate : invariant state) (inputs : List ι) :
    Along body first state inputs ↔ Along body second state inputs := by
  induction inputs generalizing state with
  | nil => exact Iff.rfl
  | cons input inputs ih =>
      refine and_congr (hiff state input hstate) ?_
      refine forall_congr' fun events => forall_congr' fun next => ?_
      refine forall_congr' fun hbody => ?_
      exact ih (hkept state input events next hstate hbody)

theorem along_and_iff {body : Body σ ι ε ρ} {first second : σ → ι → Prop} {state : σ}
    {inputs : List ι} :
    Along body (fun state input => first state input ∧ second state input) state inputs ↔
      Along body first state inputs ∧ Along body second state inputs := by
  induction inputs generalizing state with
  | nil => simp [Along]
  | cons input inputs ih =>
      constructor
      · rintro ⟨⟨hfirst, hsecond⟩, hrest⟩
        refine ⟨⟨hfirst, fun events next hbody => ?_⟩, ⟨hsecond, fun events next hbody => ?_⟩⟩
        · exact (ih.mp (hrest events next hbody)).1
        · exact (ih.mp (hrest events next hbody)).2
      · rintro ⟨⟨hfirst, hfirsts⟩, ⟨hsecond, hseconds⟩⟩
        refine ⟨⟨hfirst, hsecond⟩, fun events next hbody => ?_⟩
        exact ih.mpr ⟨hfirsts events next hbody, hseconds events next hbody⟩

theorem along_of_forall {body : Body σ ι ε ρ} {condition : σ → ι → Prop} {inputs : List ι}
    (h : ∀ input ∈ inputs, ∀ state, condition state input) (state : σ) :
    Along body condition state inputs := by
  induction inputs generalizing state with
  | nil => trivial
  | cons input inputs ih =>
      refine ⟨h input List.mem_cons_self state, fun _ next _ => ?_⟩
      exact ih (fun other hother => h other (List.mem_cons_of_mem _ hother)) next

/-- An invariant that the passes meeting the condition keep. -/
theorem Along.keeps {body : Body σ ι ε ρ} {invariant : σ → Prop}
    {condition property : σ → ι → Prop}
    (hkept : ∀ state input events next, invariant state → condition state input →
      body state input = (events, .again next) → invariant next)
    (hproperty : ∀ state input, invariant state → property state input)
    {state : σ} {inputs : List ι} (hstate : invariant state)
    (h : Along body condition state inputs) : Along body property state inputs := by
  induction inputs generalizing state with
  | nil => exact trivial
  | cons input inputs ih =>
      refine ⟨hproperty state input hstate, fun events next hbody => ?_⟩
      exact ih (hkept state input events next hstate h.1 hbody) (h.2 events next hbody)

/-- The rule of iteration for passes that meet a condition on the state and the input. -/
theorem Post.Of.along {body : Body σ ι ε ρ} {condition : σ → ι → Prop} {post : Post σ ε ρ}
    (hbody : ∀ history state input, condition state input → post.again history state →
      post.Of history (body state input))
    {history : List ε} {state : σ} (hstart : post.again history state) {inputs : List ι}
    (h : Along body condition state inputs) :
    post.Of history (Reactive.run body state inputs) := by
  induction inputs generalizing history state with
  | nil => exact Post.of_again_iff.mpr hstart
  | cons input inputs ih =>
      obtain ⟨hcondition, hrest⟩ := h
      have hfirst := hbody history state input hcondition hstart
      cases hpass : body state input with
      | mk events exit =>
          rw [hpass] at hfirst
          cases exit with
          | again next =>
              rw [run_cons_again hpass]
              exact Post.of_emit_iff.mpr (ih hfirst (hrest events next hpass))
          | done last value =>
              rw [run_cons_done hpass]
              exact hfirst
          | fault =>
              rw [run_cons_fault hpass]
              exact hfirst

theorem Along.first {body : Body σ ι ε ρ} {condition : σ → ι → Prop} {state : σ}
    {first inputs : List ι} (hfirst : first <+: inputs)
    (h : Along body condition state inputs) : Along body condition state first := by
  induction first generalizing state inputs with
  | nil => exact trivial
  | cons input first ih =>
      obtain ⟨rest, rfl⟩ := hfirst
      refine ⟨h.1, fun events next hbody => ?_⟩
      exact ih ⟨rest, rfl⟩ (h.2 events next hbody)

/-- The condition holds of the pass that follows any first part of the run. -/
theorem Along.pass {body : Body σ ι ε ρ} {condition : σ → ι → Prop}
    {state middle : σ} {first rest : List ι} {input : ι} {events : List ε}
    (h : Along body condition state (first ++ input :: rest))
    (hrun : run body state first = (events, .again middle)) : condition middle input := by
  induction first generalizing state events with
  | nil =>
      obtain ⟨-, rfl⟩ := again_inj hrun
      exact h.1
  | cons other first ih =>
      obtain ⟨emitted, next, later, hbody, hlater, -⟩ := run_cons_eq_again hrun
      exact ih (h.2 emitted next hbody) hlater

def Post.keeping (invariant : List ε → σ → Prop)
    (property : List ε → Exit σ ρ → Prop) : Post σ ε ρ where
  again := invariant
  done := fun events state value => property events (.done state value)
  fault := fun events => property events .fault

/--
Under an invariant the condition decides, pass by pass, whether the property
survives: a pass that meets it keeps both, a pass that does not breaks the
property at once.
-/
structure Decides (body : Body σ ι ε ρ) (allowed : ι → Prop)
    (invariant : List ε → σ → Prop) (condition : σ → ι → Prop)
    (property : List ε → Exit σ ρ → Prop) : Prop where
  holds : ∀ history state, invariant history state → property history (.again state)
  keeps : ∀ history state input, allowed input → invariant history state →
    condition state input →
    (Post.keeping invariant property).Of history (body state input)
  breaks : ∀ history state input, allowed input → invariant history state →
    ¬ condition state input →
    ¬ property (history ++ (body state input).1) (body state input).2

section Decides

variable {body : Body σ ι ε ρ} {allowed : ι → Prop} {invariant : List ε → σ → Prop}
  {condition : σ → ι → Prop} {property : List ε → Exit σ ρ → Prop}
  {history : List ε} {state : σ} {inputs : List ι}

theorem Decides.along_of (h : Decides body allowed invariant condition property)
    (hinvariant : invariant history state) (hallowed : ∀ input ∈ inputs, allowed input)
    (hproperty : ∀ first, first <+: inputs →
      property (history ++ (run body state first).1) (run body state first).2) :
    Along body condition state inputs := by
  induction inputs generalizing history state with
  | nil => exact trivial
  | cons input inputs ih =>
      have hinput : allowed input := hallowed input List.mem_cons_self
      have hcondition : condition state input := by
        by_contra hnot
        have hfirst := hproperty [input] ⟨inputs, rfl⟩
        rw [run_singleton] at hfirst
        exact h.breaks history state input hinput hinvariant hnot hfirst
      constructor
      · exact hcondition
      · intro events next hbody
        have hnext := h.keeps history state input hinput hinvariant hcondition
        rw [hbody] at hnext
        apply ih hnext fun other hother => hallowed other (List.mem_cons_of_mem _ hother)
        intro first hfirst
        have hlonger := hproperty (input :: first)
          (List.cons_prefix_cons.mpr ⟨rfl, hfirst⟩)
        rw [run_cons_again hbody] at hlonger
        rw [List.append_assoc]
        exact hlonger

theorem Decides.of_along (h : Decides body allowed invariant condition property)
    (hinvariant : invariant history state) (hallowed : ∀ input ∈ inputs, allowed input)
    (halong : Along body condition state inputs) {first : List ι}
    (hfirst : first <+: inputs) :
    property (history ++ (run body state first).1) (run body state first).2 := by
  induction inputs generalizing history state first with
  | nil =>
      rw [List.prefix_nil.mp hfirst]
      simpa using h.holds history state hinvariant
  | cons input inputs ih =>
      cases first with
      | nil => simpa using h.holds history state hinvariant
      | cons other first =>
          rw [List.cons_prefix_cons] at hfirst
          rw [hfirst.1]
          have hkept := h.keeps history state input (hallowed input List.mem_cons_self)
            hinvariant halong.1
          cases hbody : body state input with
          | mk events exit =>
              rw [hbody] at hkept
              cases exit with
              | again next =>
                  rw [run_cons_again hbody, ← List.append_assoc]
                  apply ih hkept _ (halong.2 events next hbody) hfirst.2
                  intro other hother
                  exact hallowed other (List.mem_cons_of_mem _ hother)
              | done last value =>
                  rw [run_cons_done hbody]
                  exact hkept
              | fault =>
                  rw [run_cons_fault hbody]
                  exact hkept

theorem Decides.run_iff (h : Decides body allowed invariant condition property)
    (hinvariant : invariant history state)
    (hallowed : ∀ input ∈ inputs, allowed input) :
    (∀ first, first <+: inputs →
        property (history ++ (run body state first).1) (run body state first).2) ↔
      Along body condition state inputs :=
  ⟨h.along_of hinvariant hallowed, fun halong _ => h.of_along hinvariant hallowed halong⟩

theorem Decides.throughout_iff (h : Decides body allowed invariant condition property)
    {start : List ε × Exit σ ρ} (hstart : (Post.keeping invariant property).Of [] start)
    (hallowed : ∀ input ∈ inputs, allowed input) :
    Throughout start body property inputs ↔ AlongFrom start body condition inputs := by
  cases start with
  | mk events exit =>
      cases exit with
      | again state =>
          have hrun := h.run_iff hstart hallowed
          constructor
          · intro hthroughout emitted other heq
            cases heq
            exact hrun.mp hthroughout
          · intro halong
            exact hrun.mpr (halong events state rfl)
      | done state value =>
          constructor
          · intro _ emitted other heq
            cases heq
          · intro _ first _
            exact hstart
      | fault =>
          constructor
          · intro _ emitted other heq
            cases heq
          · intro _ first _
            exact hstart

end Decides

/-! ## Termination -/

def Post.descending (invariant : σ → Prop) (measure : σ → Nat) (bound : Nat) :
    Post σ ε ρ where
  again := fun _ next => invariant next ∧ measure next < bound
  done := fun _ _ _ => True
  fault := fun _ => False

/-- The rule of termination: the loop ends before it has read more than its measure. -/
theorem run_ends {body : Body σ ι ε ρ} {allowed : ι → Prop} {invariant : σ → Prop}
    {measure : σ → Nat}
    (hbody : ∀ state input, allowed input → invariant state →
      (Post.descending invariant measure (measure state)).Of [] (body state input))
    {state : σ} {inputs : List ι} (hstate : invariant state)
    (hallowed : ∀ input ∈ inputs, allowed input) (hlong : measure state < inputs.length) :
    ∃ events last value, run body state inputs = (events, .done last value) := by
  induction inputs generalizing state with
  | nil => simp at hlong
  | cons input inputs ih =>
      have hfirst := hbody state input (hallowed input List.mem_cons_self) hstate
      cases hpass : body state input with
      | mk events exit =>
          rw [hpass] at hfirst
          cases exit with
          | again next =>
              obtain ⟨hnext, hless⟩ := hfirst
              have hlater : measure next < inputs.length := by
                rw [List.length_cons] at hlong
                omega
              obtain ⟨later, last, value, hrun⟩ := ih hnext
                (fun other hother => hallowed other (List.mem_cons_of_mem _ hother)) hlater
              exact ⟨events ++ later, last, value, by rw [run_cons_again hpass, hrun]⟩
          | done last value => exact ⟨events, last, value, run_cons_done hpass inputs⟩
          | fault => exact absurd hfirst id

/-! ## Conditions on single events -/

def Meets (emits : ε → Prop) (returns : ρ → Prop) (pass : List ε × Exit σ ρ) : Prop :=
  (∀ event ∈ pass.1, emits event) ∧
    ∀ last value, pass.2 = .done last value → returns value

theorem meets_again_iff {emits : ε → Prop} {returns : ρ → Prop} {events : List ε}
    {state : σ} : Meets emits returns (events, (.again state : Exit σ ρ)) ↔
      ∀ event ∈ events, emits event := by
  simp [Meets]

theorem meets_done_iff {emits : ε → Prop} {returns : ρ → Prop} {events : List ε}
    {last : σ} {value : ρ} : Meets emits returns (events, .done last value) ↔
      (∀ event ∈ events, emits event) ∧ returns value := by
  simp [Meets]

theorem meets_fault_iff {emits : ε → Prop} {returns : ρ → Prop} {events : List ε} :
    Meets emits returns (events, (.fault : Exit σ ρ)) ↔
      ∀ event ∈ events, emits event := by
  simp [Meets]

theorem meets_emit_iff {emits : ε → Prop} {returns : ρ → Prop} {events : List ε}
    {pass : List ε × Exit σ ρ} : Meets emits returns (emit events pass) ↔
      (∀ event ∈ events, emits event) ∧ Meets emits returns pass := by
  simp [Meets, emit, or_imp, forall_and, and_assoc]

theorem meets_iff_of_related {emits : ε → Prop} {returns : ρ → Prop}
    {related : σ → τ → Prop} {pass : List ε × Exit σ ρ} {image : List ε × Exit τ ρ}
    (hevents : pass.1 = image.1) (hexit : ExitRel related pass.2 image.2) :
    Meets emits returns pass ↔ Meets emits returns image := by
  obtain ⟨events, exit⟩ := pass
  obtain ⟨later, final⟩ := image
  obtain rfl : events = later := hevents
  cases hexit with
  | again => rw [meets_again_iff, meets_again_iff]
  | done value => rw [meets_done_iff, meets_done_iff]
  | fault => rw [meets_fault_iff, meets_fault_iff]

/-- A run meets the conditions when each of its passes does. -/
theorem meets_run_iff {emits : ε → Prop} {returns : ρ → Prop} {body : Body σ ι ε ρ}
    {state : σ} {inputs : List ι} : Meets emits returns (run body state inputs) ↔
      Along body (fun state input => Meets emits returns (body state input))
        state inputs := by
  induction inputs generalizing state with
  | nil => simp [Meets, Along]
  | cons input inputs ih =>
      unfold Along
      cases hbody : body state input with
      | mk events exit =>
          cases exit with
          | again next =>
              have hsplit : run body state (input :: inputs) =
                  emit events (run body next inputs) := run_cons_again hbody inputs
              rw [hsplit, meets_emit_iff, ih, meets_again_iff]
              constructor
              · rintro ⟨hevents, hrest⟩
                refine ⟨hevents, fun _ other heq => ?_⟩
                obtain ⟨-, rfl⟩ := again_inj heq
                exact hrest
              · rintro ⟨hevents, hrest⟩
                exact ⟨hevents, hrest events next rfl⟩
          | done last value => simp [run_cons_done hbody]
          | fault => simp [run_cons_fault hbody]

end Reactive
