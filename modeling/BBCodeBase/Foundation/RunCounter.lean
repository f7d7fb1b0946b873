import Mathlib.Data.List.DropRight

/-!
# Counting consecutive occurrences of a symbol

A counter that is incremented by one symbol and reset by every other one, and
that gives `none` when it reaches its limit: an escape sequence of `limit`
equal symbols in a stream.
-/

namespace RunCounter

variable {α : Type} [DecidableEq α] {symbol : α} {limit : Nat}

def step (symbol : α) (limit n : Nat) (x : α) : Option Nat :=
  if x = symbol then if n + 1 < limit then some (n + 1) else none else some 0

def count (symbol : α) (limit : Nat) : Nat → List α → Option Nat
  | n, [] => some n
  | n, x :: rest =>
      match step symbol limit n x with
      | none => none
      | some next => count symbol limit next rest

theorem step_of_lt {n : Nat} (h : n + 1 < limit) (x : α) :
    ∃ next, step symbol limit n x = some next ∧ next ≤ n + 1 := by
  unfold step
  by_cases hx : x = symbol
  · exact ⟨n + 1, by rw [if_pos hx, if_pos h], Nat.le_refl _⟩
  · exact ⟨0, if_neg hx, Nat.zero_le _⟩

theorem count_cons_of_step {n next : Nat} {x : α}
    (h : step symbol limit n x = some next) (rest : List α) :
    count symbol limit n (x :: rest) = count symbol limit next rest := by
  simp only [count, h]

theorem count_append (n : Nat) (first second : List α) :
    count symbol limit n (first ++ second) =
      (count symbol limit n first).bind
        (fun middle => count symbol limit middle second) := by
  induction first generalizing n with
  | nil => rfl
  | cons x first ih =>
      simp only [List.cons_append, count]
      cases step symbol limit n x with
      | none => rfl
      | some next => exact ih next

theorem count_singleton (n : Nat) (x : α) :
    count symbol limit n [x] = step symbol limit n x := by
  cases h : step symbol limit n x <;> simp [count, h]

theorem count_concat (n : Nat) (xs : List α) (x : α) :
    count symbol limit n (xs ++ [x]) =
      (count symbol limit n xs).bind (step symbol limit · x) := by
  rw [count_append]
  simp only [count_singleton]

theorem count_concat_pair_iff {n last : Nat} {xs : List α} {x y : α} :
    count symbol limit n (xs ++ [x, y]) = some last ↔
      ∃ middle, count symbol limit n (xs ++ [x]) = some middle ∧
        step symbol limit middle y = some last := by
  have hsplit : xs ++ [x, y] = (xs ++ [x]) ++ [y] := by simp
  rw [hsplit, count_concat, Option.bind_eq_some_iff]

theorem count_of_not_mem {rest : List α} (h : symbol ∉ rest) (hne : rest ≠ [])
    (n : Nat) : count symbol limit n rest = some 0 := by
  induction rest generalizing n with
  | nil => exact absurd rfl hne
  | cons x rest ih =>
      simp only [List.mem_cons, not_or] at h
      have hstep : step symbol limit n x = some 0 := if_neg (Ne.symm h.1)
      rw [count_cons_of_step hstep]
      by_cases hrest : rest = []
      · rw [hrest]
        rfl
      · exact ih h.2 hrest 0

theorem count_lt {n last : Nat} {xs : List α} (hn : n < limit)
    (h : count symbol limit n xs = some last) : last < limit := by
  induction xs generalizing n with
  | nil =>
      obtain rfl := Option.some.inj h
      exact hn
  | cons x xs ih =>
      cases hstep : step symbol limit n x with
      | none => simp [count, hstep] at h
      | some next =>
          rw [count_cons_of_step hstep] at h
          apply ih _ h
          unfold step at hstep
          split at hstep
          · split at hstep
            · simp only [Option.some.injEq] at hstep
              omega
            · cases hstep
          · simp only [Option.some.injEq] at hstep
            omega

theorem count_eq_none_iff {n : Nat} (hn : n < limit) (xs : List α) :
    count symbol limit n xs = none ↔
      List.replicate (limit - n) symbol <+: xs ∨
        List.replicate limit symbol <:+: xs := by
  induction xs generalizing n with
  | nil =>
      simp [count]
      omega
  | cons x xs ih =>
      have hsucc : List.replicate (limit - n) symbol =
          symbol :: List.replicate (limit - (n + 1)) symbol := by
        rw [← List.replicate_succ]
        congr 1
        omega
      rw [List.infix_cons_iff, hsucc, List.cons_prefix_cons]
      by_cases hx : x = symbol
      · subst hx
        have hfull : List.replicate limit x <+: x :: xs →
            List.replicate (limit - (n + 1)) x <+: xs := by
          intro hstarts
          have hle : List.replicate (limit - n) x <+: List.replicate limit x := by
            refine ⟨List.replicate n x, ?_⟩
            rw [← List.replicate_add]
            congr 1
            omega
          have := hle.trans hstarts
          rw [hsucc, List.cons_prefix_cons] at this
          exact this.2
        by_cases hlast : n + 1 < limit
        · have hstep : step x limit n x = some (n + 1) := by simp [step, hlast]
          rw [count_cons_of_step hstep, ih hlast]
          constructor
          · rintro (h | h)
            · exact .inl ⟨rfl, h⟩
            · exact .inr (.inr h)
          · rintro (⟨-, h⟩ | h | h)
            · exact .inl h
            · exact .inl (hfull h)
            · exact .inr h
        · have hstep : step x limit n x = none := by simp [step, hlast]
          have hzero : limit - (n + 1) = 0 := by omega
          simp [count, hstep, hzero]
      · have hstep : step symbol limit n x = some 0 := if_neg hx
        have hne : ¬ symbol = x := fun h => hx h.symm
        have hhead : ¬ List.replicate limit symbol <+: x :: xs := by
          intro hstarts
          rw [show limit = limit - 1 + 1 by omega, List.replicate_succ,
            List.cons_prefix_cons] at hstarts
          exact hne hstarts.1
        rw [count_cons_of_step hstep, ih (by omega), Nat.sub_zero]
        constructor
        · rintro (h | h)
          · exact .inr (.inr h.isInfix)
          · exact .inr (.inr h)
        · rintro (⟨h, -⟩ | h | h)
          · exact absurd h hne
          · exact absurd h hhead
          · exact .inr h

theorem count_zero_isSome_iff (hpos : 0 < limit) (xs : List α) :
    (∃ last, count symbol limit 0 xs = some last) ↔
      ¬ List.replicate limit symbol <:+: xs := by
  rw [← Option.ne_none_iff_exists', Ne, count_eq_none_iff hpos, Nat.sub_zero]
  constructor
  · intro h hinfix
    exact h (.inr hinfix)
  · rintro h (hstarts | hinfix)
    · exact h hstarts.isInfix
    · exact h hinfix

theorem count_zero_eq {xs : List α} {last : Nat}
    (h : count symbol limit 0 xs = some last) :
    last = (xs.rtakeWhile (· = symbol)).length := by
  induction xs using List.reverseRecOn generalizing last with
  | nil =>
      obtain rfl := Option.some.inj h
      rfl
  | append_singleton xs x ih =>
      rw [count_append] at h
      cases hfirst : count symbol limit 0 xs with
      | none => simp [hfirst] at h
      | some middle =>
          rw [hfirst, Option.bind_some, count_singleton] at h
          rw [List.rtakeWhile_concat]
          unfold step at h
          by_cases hx : x = symbol
          · rw [if_pos hx] at h
            split at h
            · obtain rfl := Option.some.inj h
              simp [hx, ih hfirst]
            · cases h
          · rw [if_neg hx] at h
            obtain rfl := Option.some.inj h
            simp [hx]

end RunCounter
