import BBCodeBase.Foundation.Loop

/-!
# What a loop can still reach

From a state a goal can be reached when some stream of inputs leads there, each
of them allowed in the state it is read in.  A goal that a state cannot miss for
ever, because every state of an invariant can reach it or come closer, can be
reached from the whole invariant.
-/

namespace Reactive

variable {σ ι ε ρ : Type}

def Reaches (body : Body σ ι ε ρ) (allowed : σ → ι → Prop) (state : σ) (goal : σ → Prop) :
    Prop :=
  ∃ inputs events last, Along body allowed state inputs ∧
    run body state inputs = (events, .again last) ∧ goal last

variable {body : Body σ ι ε ρ} {allowed : σ → ι → Prop} {state : σ} {goal middle : σ → Prop}

theorem Along.append {next : σ} {first rest : List ι} {events : List ε}
    (hfirst : Along body allowed state first)
    (hrun : run body state first = (events, .again next))
    (hrest : Along body allowed next rest) : Along body allowed state (first ++ rest) := by
  induction first generalizing state events with
  | nil =>
      obtain ⟨-, rfl⟩ := again_inj hrun
      exact hrest
  | cons input first ih =>
      refine ⟨hfirst.1, fun emitted middle hbody => ?_⟩
      obtain ⟨_, _, later, hpass, hlater, -⟩ := run_cons_eq_again hrun
      rw [hbody] at hpass
      obtain ⟨-, rfl⟩ := again_inj hpass
      exact ih (hfirst.2 emitted middle hbody) hlater

theorem Reaches.refl (h : goal state) : Reaches body allowed state goal :=
  ⟨[], [], state, trivial, rfl, h⟩

theorem Reaches.trans (h : Reaches body allowed state middle)
    (hrest : ∀ next, middle next → Reaches body allowed next goal) :
    Reaches body allowed state goal := by
  obtain ⟨first, before, next, hfirst, hrun, hmiddle⟩ := h
  obtain ⟨later, after, last, hlater, hgoes, hgoal⟩ := hrest next hmiddle
  exact ⟨first ++ later, before ++ after, last, hfirst.append hrun hlater,
    run_append_again hrun hgoes, hgoal⟩

theorem Reaches.step {input : ι} {events : List ε} {next : σ} (hinput : allowed state input)
    (hbody : body state input = (events, .again next))
    (h : Reaches body allowed next goal) : Reaches body allowed state goal := by
  apply @Reaches.trans _ _ _ _ _ _ _ _ (· = next)
  · refine ⟨[input], events, next, ⟨hinput, fun _ _ _ => trivial⟩, ?_, rfl⟩
    rw [run_singleton, hbody]
  · rintro _ rfl
    exact h

/-- The rule of descent. -/
theorem Reaches.of_descending {invariant : σ → Prop} (measure : σ → Nat)
    (hcloser : ∀ state, invariant state → Reaches body allowed state fun next =>
      goal next ∨ invariant next ∧ measure next < measure state)
    (h : invariant state) : Reaches body allowed state goal := by
  generalize hbound : measure state = bound
  induction bound using Nat.strongRecOn generalizing state with
  | _ bound ih =>
      apply (hcloser state h).trans
      rintro next (hgoal | ⟨hnext, hless⟩)
      · exact .refl hgoal
      · exact ih (measure next) (hbound ▸ hless) hnext rfl

end Reactive
