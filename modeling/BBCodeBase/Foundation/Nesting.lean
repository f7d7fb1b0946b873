import BBCodeBase.Foundation.Rules

/-!
# Handlers that are entered again while they run

A handler is executed one statement at a time, and a further activation of it
may be entered between any two statements.  It returns before the activations
below it go on, so the activations form a stack, the innermost one first.  They
share a state and have a frame each.

A region is a part of the handler behind a guard that is tested in one
statement and set in a later one.  An activation that is entered between the
two finds the guard open as well, but it is through with the region when the
one below it goes on.
-/

namespace Nesting

open Reactive

/-- `entered` counts the activations that have been entered so far. -/
structure State (γ φ : Type) where
  shared : γ
  frames : List φ
  entered : Nat

inductive Move (α : Type) where
  | enter (input : α)
  | step
  deriving DecidableEq, Repr

abbrev Statement (γ φ ε : Type) := γ → φ → List ε × Exit (γ × φ) Unit

variable {γ φ ε α ρ : Type}

def initial (shared : γ) : State γ φ := ⟨shared, [], 0⟩

def body (start : Nat → α → φ) (statement : Statement γ φ ε) :
    Body (State γ φ) (Move α) ε ρ
  | state, .enter input =>
      ([], .again ⟨state.shared, start state.entered input :: state.frames,
        state.entered + 1⟩)
  | state, .step =>
      match state.frames with
      | [] => ([], .again state)
      | frame :: frames =>
          andThen (statement state.shared frame)
            (fun next => ⟨next.1, next.2 :: frames, state.entered⟩)
            (fun last _ => ([], .again ⟨last.1, frames, state.entered⟩))

inductive Stage where
  | outside
  | admitted
  | inside
  deriving DecidableEq, Repr

/-- A statement outside changes nothing, and goes past the guard only if nobody is inside. -/
def outsidePost (stage : φ → Stage) (held : List ε → γ → φ → Prop) (history : List ε)
    (shared : γ) : Post (γ × φ) ε Unit where
  again := fun events next => events = history ∧ next.1 = shared ∧
    (stage next.2 = .outside ∨ stage next.2 = .admitted ∧
      ∀ other, stage other = .inside → ¬ held history shared other)
  done := fun events last _ => events = history ∧ last.1 = shared
  fault := fun _ => True

def admittedPost (stage : φ → Stage) (held : List ε → γ → φ → Prop) :
    Post (γ × φ) ε Unit where
  again := fun events next => stage next.2 = .inside ∧ held events next.1 next.2
  done := fun _ _ _ => False
  fault := fun _ => True

def insidePost (stage : φ → Stage) (free : List ε → γ → Prop)
    (held : List ε → γ → φ → Prop) : Post (γ × φ) ε Unit where
  again := fun events next =>
    stage next.2 = .inside ∧ held events next.1 next.2 ∨
      stage next.2 = .outside ∧ free events next.1
  done := fun _ _ _ => False
  fault := fun _ => True

/--
The conditions under which a region keeps its activations apart.  After a
history of events the shared state is `free` while no activation is inside, and
`held` by the one that is.
-/
structure Region (start : Nat → α → φ) (statement : Statement γ φ ε)
    (stage : φ → Stage) (free : List ε → γ → Prop)
    (held : List ε → γ → φ → Prop) : Prop where
  starts : ∀ number input, stage (start number input) = .outside
  outside : ∀ {history shared frame}, stage frame = .outside →
    (outsidePost stage held history shared).Of history (statement shared frame)
  admitted : ∀ {history shared frame}, stage frame = .admitted → free history shared →
    (admittedPost stage held).Of history (statement shared frame)
  inside : ∀ {history shared frame}, stage frame = .inside → held history shared frame →
    (insidePost stage free held).Of history (statement shared frame)

section Region

variable {start : Nat → α → φ} {statement : Statement γ φ ε} {stage : φ → Stage}
  {free : List ε → γ → Prop} {held : List ε → γ → φ → Prop}

structure Kept (stage : φ → Stage) (free : List ε → γ → Prop)
    (held : List ε → γ → φ → Prop) (history : List ε) (state : State γ φ) : Prop where
  apart : state.frames.Pairwise fun upper lower =>
    stage upper = .outside ∨ stage lower ≠ .inside
  held : ∀ frame ∈ state.frames, stage frame = .inside → held history state.shared frame
  free : (∀ frame ∈ state.frames, stage frame ≠ .inside) → free history state.shared

theorem kept_initial {shared : γ} (h : free [] shared) :
    Kept stage free held [] (initial shared) where
  apart := .nil
  held := fun _ hmem => absurd hmem List.not_mem_nil
  free := fun _ => h

/-- Below a frame that is admitted or inside, no activation is inside. -/
theorem Kept.below {history : List ε} {state : State γ φ}
    (h : Kept stage free held history state) {frame : φ} {frames : List φ}
    (hframes : state.frames = frame :: frames) (hstage : stage frame ≠ .outside) :
    ∀ other ∈ frames, stage other ≠ .inside := by
  intro other hother
  have hapart := h.apart
  rw [hframes, List.pairwise_cons] at hapart
  exact (hapart.1 other hother).resolve_left hstage

theorem length_inside_le_one {frames : List φ}
    (h : frames.Pairwise fun upper lower =>
      stage upper = .outside ∨ stage lower ≠ .inside) :
    (frames.filter fun frame => stage frame = .inside).length ≤ 1 := by
  induction frames with
  | nil => simp
  | cons frame frames ih =>
      rw [List.pairwise_cons] at h
      by_cases hinside : stage frame = .inside
      · have hnone : frames.filter (fun other => stage other = .inside) = [] := by
          rw [List.filter_eq_nil_iff]
          intro other hother
          have hbelow := h.1 other hother
          rw [hinside] at hbelow
          simpa using hbelow
        simp [hinside, hnone]
      · simpa [hinside] using ih h.2

/-! ## One move -/

variable {history : List ε} {shared : γ} {frame : φ} {frames : List φ} {entered : Nat}

/-- The frames below the innermost one, none of which is inside. -/
theorem Kept.replace {events : List ε} {next : γ} {top : φ}
    (hkept : Kept stage free held history ⟨shared, frame :: frames, entered⟩)
    (hbelow : ∀ other ∈ frames, stage other ≠ .inside)
    (hheld : stage top = .inside → held events next top)
    (hfree : stage top ≠ .inside → free events next) :
    Kept stage free held events ⟨next, top :: frames, entered⟩ where
  apart := List.pairwise_cons.mpr
    ⟨fun other hmem => .inr (hbelow other hmem), (List.pairwise_cons.mp hkept.apart).2⟩
  held := by
    intro other hmem hinside
    rcases List.mem_cons.mp hmem with rfl | hlower
    · exact hheld hinside
    · exact absurd hinside (hbelow other hlower)
  free := fun hnone => hfree (hnone top List.mem_cons_self)

theorem Kept.pop (hkept : Kept stage free held history ⟨shared, frame :: frames, entered⟩)
    (houtside : stage frame = .outside) :
    Kept stage free held history ⟨shared, frames, entered⟩ where
  apart := (List.pairwise_cons.mp hkept.apart).2
  held := fun other hmem => hkept.held other (List.mem_cons_of_mem _ hmem)
  free := by
    intro hnone
    apply hkept.free
    intro other hmem
    rcases List.mem_cons.mp hmem with rfl | hbelow
    · simp [houtside]
    · exact hnone other hbelow

theorem Kept.push {top : φ}
    (hkept : Kept stage free held history ⟨shared, frames, entered⟩)
    (houtside : stage top = .outside) (number : Nat) :
    Kept stage free held history ⟨shared, top :: frames, number⟩ where
  apart := List.pairwise_cons.mpr ⟨fun _ _ => .inl houtside, hkept.apart⟩
  held := by
    intro other hmem hinside
    rcases List.mem_cons.mp hmem with rfl | hbelow
    · rw [houtside] at hinside
      cases hinside
    · exact hkept.held other hbelow hinside
  free := fun hnone => hkept.free fun other hmem =>
    hnone other (List.mem_cons_of_mem _ hmem)

def keptPost (stage : φ → Stage) (free : List ε → γ → Prop)
    (held : List ε → γ → φ → Prop) : Post (State γ φ) ε ρ where
  again := Kept stage free held
  done := fun _ _ _ => False
  fault := fun _ => True

theorem Kept.step (h : Region start statement stage free held)
    (hkept : Kept stage free held history ⟨shared, frame :: frames, entered⟩) :
    (@keptPost _ _ _ ρ stage free held).Of history
      (body start statement ⟨shared, frame :: frames, entered⟩ .step) := by
  unfold body
  rw [Post.of_andThen_iff]
  cases hstage : stage frame with
  | outside =>
      refine (h.outside hstage).weaken ?_ ?_ fun _ _ => trivial
      · rintro events ⟨next, top⟩ ⟨rfl, rfl, houtside | ⟨hadmitted, hguard⟩⟩
        · exact (hkept.pop hstage).push houtside _
        · -- the guard is open, so nobody is inside and the state is free
          have hnone : ∀ other ∈ frame :: frames, stage other ≠ .inside :=
            fun other hmem hinside =>
              hguard other hinside (hkept.held other hmem hinside)
          have hbelow : ∀ other ∈ frames, stage other ≠ .inside :=
            fun other hmem => hnone other (List.mem_cons_of_mem _ hmem)
          refine hkept.replace hbelow (fun hinside => ?_) (fun _ => hkept.free hnone)
          rw [hadmitted] at hinside
          cases hinside
      · rintro events ⟨last, top⟩ _ ⟨rfl, rfl⟩
        have hpopped : (@keptPost _ _ _ ρ stage free held).Of events
            ([], .again ⟨last, frames, entered⟩) :=
          Post.of_again_iff.mpr (hkept.pop hstage)
        exact hpopped
  | admitted =>
      have hbelow := hkept.below rfl (by simp [hstage])
      have hfree : free history shared := by
        apply hkept.free
        intro other hmem
        rcases List.mem_cons.mp hmem with rfl | hlower
        · simp [hstage]
        · exact hbelow other hlower
      refine (h.admitted hstage hfree).weaken ?_ (fun _ _ _ => False.elim)
        fun _ _ => trivial
      rintro events ⟨next, top⟩ ⟨hinside, hnext⟩
      exact hkept.replace hbelow (fun _ => hnext) (absurd hinside)
  | inside =>
      have hbelow := hkept.below rfl (by simp [hstage])
      have hheld := hkept.held frame List.mem_cons_self hstage
      refine (h.inside hstage hheld).weaken ?_ (fun _ _ _ => False.elim)
        fun _ _ => trivial
      rintro events ⟨next, top⟩ (⟨hinside, hnext⟩ | ⟨houtside, hnext⟩)
      · exact hkept.replace hbelow (fun _ => hnext) (absurd hinside)
      · refine hkept.replace hbelow (fun hinside => ?_) (fun _ => hnext)
        rw [houtside] at hinside
        cases hinside

theorem Kept.move (h : Region start statement stage free held) {state : State γ φ}
    (hkept : Kept stage free held history state) (move : Move α) :
    (@keptPost _ _ _ ρ stage free held).Of history (body start statement state move) := by
  cases move with
  | enter input =>
      exact Post.of_again_iff.mpr (hkept.push (h.starts _ _) _)
  | step =>
      obtain ⟨shared, frames, entered⟩ := state
      cases frames with
      | nil => exact Post.of_again_iff.mpr hkept
      | cons frame frames => exact hkept.step h

/-- More can be kept in a region that keeps its activations apart already. -/
theorem Region.and (h : Region start statement stage free held)
    {also : List ε → γ → Prop} {alsoHeld : List ε → γ → φ → Prop}
    (hadmitted : ∀ {history shared frame}, stage frame = .admitted →
      free history shared → also history shared →
      (admittedPost stage alsoHeld).Of history (statement shared frame))
    (hinside : ∀ {history shared frame}, stage frame = .inside →
      held history shared frame → alsoHeld history shared frame →
      (insidePost stage also alsoHeld).Of history (statement shared frame)) :
    Region start statement stage
      (fun history shared => free history shared ∧ also history shared)
      (fun history shared frame => held history shared frame ∧
        alsoHeld history shared frame) where
  starts := h.starts
  outside := by
    intro history shared frame houtside
    refine (h.outside houtside).weaken ?_ (fun _ _ _ hdone => hdone) fun _ _ => trivial
    rintro events next ⟨hevents, hshared, hnext⟩
    refine ⟨hevents, hshared, hnext.imp_right ?_⟩
    rintro ⟨hadmitted, hguard⟩
    exact ⟨hadmitted, fun other hother hboth => hguard other hother hboth.1⟩
  admitted := by
    intro history shared frame hstage hfree
    refine ((h.admitted hstage hfree.1).and (hadmitted hstage hfree.1 hfree.2)).weaken
      ?_ (fun _ _ _ hdone => hdone.1) fun _ _ => trivial
    rintro events next ⟨⟨hnext, hheld⟩, -, halso⟩
    exact ⟨hnext, hheld, halso⟩
  inside := by
    intro history shared frame hstage hheld
    refine ((h.inside hstage hheld.1).and (hinside hstage hheld.1 hheld.2)).weaken
      ?_ (fun _ _ _ hdone => hdone.1) fun _ _ => trivial
    rintro events next ⟨⟨hnext, hfirst⟩ | ⟨hnext, hfirst⟩, ⟨hother, hsecond⟩ | ⟨hother, hsecond⟩⟩
    · exact .inl ⟨hnext, hfirst, hsecond⟩
    · rw [hnext] at hother
      cases hother
    · rw [hnext] at hother
      cases hother
    · exact .inr ⟨hnext, hfirst, hsecond⟩

/-! ## Whole runs -/

theorem Region.run (h : Region start statement stage free held) {moves : List (Move α)}
    (hfree : free [] shared) {events : List ε} {last : State γ φ}
    (hrun : run (body start statement) (initial shared) moves =
      (events, (.again last : Exit (State γ φ) ρ))) :
    Kept stage free held events last := by
  have hpost := Post.Of.run_any (fun _ _ move hkept => Kept.move h hkept move)
    (show (@keptPost _ _ _ ρ stage free held).again [] (initial shared) from
      kept_initial hfree)
    moves
  rw [hrun] at hpost
  exact hpost

end Region

end Nesting
