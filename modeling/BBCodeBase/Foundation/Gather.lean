import Mathlib.Data.List.Basic

/-!
# Collecting the pieces of a stream

`gather` puts pieces together and lets the collection go as soon as it is full.
What has been let go depends on the stream alone, and a longer stream only adds
to it.

`readLine` takes one line off a stream, as a bounded read of a file does: it
waits until the line is complete or as long as it may be, unless the stream is
closed.  The lines it takes are what `gather` makes of the single elements.
-/

namespace Gather

variable {α : Type} {full : List α → Bool} {held : List α} {pieces : List (List α)}

/-- The full collections, and what is held after the last of them. -/
def gather (full : List α → Bool) : List α → List (List α) → List (List α) × List α
  | held, [] => ([], held)
  | held, piece :: rest =>
      if full (held ++ piece) then
        ((held ++ piece) :: (gather full [] rest).1, (gather full [] rest).2)
      else gather full (held ++ piece) rest

theorem gather_cons_full {piece : List α} (h : full (held ++ piece) = true)
    (rest : List (List α)) :
    gather full held (piece :: rest) =
      ((held ++ piece) :: (gather full [] rest).1, (gather full [] rest).2) := by
  rw [gather, if_pos h]

theorem gather_cons_held {piece : List α} (h : full (held ++ piece) = false)
    (rest : List (List α)) :
    gather full held (piece :: rest) = gather full (held ++ piece) rest := by
  rw [gather, h, if_neg Bool.false_ne_true]

theorem gather_append (held : List α) (first rest : List (List α)) :
    gather full held (first ++ rest) =
      ((gather full held first).1 ++ (gather full (gather full held first).2 rest).1,
        (gather full (gather full held first).2 rest).2) := by
  induction first generalizing held with
  | nil => simp [gather]
  | cons piece first ih =>
      rw [List.cons_append]
      cases hfull : full (held ++ piece) with
      | true => rw [gather_cons_full hfull, gather_cons_full hfull, ih, List.cons_append]
      | false => rw [gather_cons_held hfull, gather_cons_held hfull, ih]

theorem gather_first (held : List α) (first rest : List (List α)) :
    (gather full held first).1 <+: (gather full held (first ++ rest)).1 := by
  rw [gather_append]
  exact List.prefix_append _ _

theorem gather_concat {collections : List (List α)} {text : List α}
    (h : gather full held pieces = (collections, text)) (piece : List α) :
    gather full held (pieces ++ [piece]) =
      if full (text ++ piece) then (collections ++ [text ++ piece], [])
      else (collections, text ++ piece) := by
  rw [gather_append, h]
  cases hfull : full (text ++ piece) with
  | true => simp [gather, hfull]
  | false => simp [gather, hfull]

/-- A collection is let go with the piece that makes it full. -/
theorem mem_gather (hheld : full held = false) (hempty : full [] = false)
    {collection : List α} (h : collection ∈ (gather full held pieces).1) :
    ∃ before piece, collection = before ++ piece ∧ piece ∈ pieces ∧
      full before = false ∧ full collection = true := by
  induction pieces generalizing held with
  | nil => exact absurd h List.not_mem_nil
  | cons piece pieces ih =>
      cases hfull : full (held ++ piece) with
      | true =>
          rw [gather_cons_full hfull] at h
          cases List.mem_cons.mp h with
          | inl hfirst =>
              exact ⟨held, piece, hfirst, List.mem_cons_self, hheld, hfirst ▸ hfull⟩
          | inr hlater =>
              obtain ⟨before, last, heq, hmem, hbefore, hlast⟩ := ih hempty hlater
              exact ⟨before, last, heq, List.mem_cons_of_mem _ hmem, hbefore, hlast⟩
      | false =>
          rw [gather_cons_held hfull] at h
          obtain ⟨before, last, heq, hmem, hbefore, hlast⟩ := ih hfull h
          exact ⟨before, last, heq, List.mem_cons_of_mem _ hmem, hbefore, hlast⟩

/-- Pieces that are full on their own are let go one by one. -/
theorem gather_flatMap {β : Type} {split : β → List (List α)} {whole : β → List α}
    {items : List β} (h : ∀ item ∈ items, gather full [] (split item) = ([whole item], [])) :
    gather full [] (items.flatMap split) = (items.map whole, []) := by
  induction items with
  | nil => rfl
  | cons item items ih =>
      rw [List.flatMap_cons, gather_append, h item List.mem_cons_self,
        ih fun other hother => h other (List.mem_cons_of_mem _ hother)]
      rfl

/-! ## Lines -/

section Lines

variable [DecidableEq α] {mark : α} {limit : Nat} {closed : Bool}
  {stream line rest : List α}

/-- Up to and including the first `mark`, but at most `limit` elements. -/
def readLine (mark : α) : (limit : Nat) → (closed : Bool) → List α →
    Option (List α × List α)
  | 0, _, stream => some ([], stream)
  | _ + 1, closed, [] => if closed then some ([], []) else none
  | limit + 1, closed, ch :: stream =>
      if ch = mark then some ([ch], stream)
      else
        match readLine mark limit closed stream with
        | none => none
        | some (line, rest) => some (ch :: line, rest)

theorem readLine_append (h : readLine mark limit closed stream = some (line, rest)) :
    line ++ rest = stream := by
  fun_induction readLine mark limit closed stream generalizing line rest with
  | case1 => simp_all
  | case2 => simp_all
  | case3 => simp at h
  | case4 closed limit stream =>
      obtain ⟨rfl, rfl⟩ : [mark] = line ∧ stream = rest := by simpa using h
      rfl
  | case5 => simp at h
  | case6 limit closed ch stream hne later left hread ih =>
      obtain ⟨rfl, rfl⟩ : ch :: later = line ∧ left = rest := by simpa using h
      rw [List.cons_append, ih hread]

theorem length_readLine_le (h : readLine mark limit closed stream = some (line, rest)) :
    line.length ≤ limit := by
  fun_induction readLine mark limit closed stream generalizing line rest with
  | case1 => simp_all
  | case2 => simp_all
  | case3 => simp at h
  | case4 closed limit stream =>
      obtain ⟨rfl, rfl⟩ : [mark] = line ∧ stream = rest := by simpa using h
      simp
  | case5 => simp at h
  | case6 limit closed ch stream hne later left hread ih =>
      obtain ⟨rfl, rfl⟩ : ch :: later = line ∧ left = rest := by simpa using h
      have hrest := ih hread
      rw [List.length_cons]
      omega

/-- A closed stream is read at once. -/
theorem readLine_closed (mark : α) (limit : Nat) (stream : List α) :
    ∃ line rest, readLine mark limit true stream = some (line, rest) := by
  induction limit generalizing stream with
  | zero => exact ⟨[], stream, rfl⟩
  | succ limit ih =>
      cases stream with
      | nil => exact ⟨[], [], rfl⟩
      | cons ch stream =>
          obtain ⟨line, rest, hread⟩ := ih stream
          by_cases hmark : ch = mark
          · exact ⟨[ch], stream, by rw [readLine, if_pos hmark]⟩
          · exact ⟨ch :: line, rest, by rw [readLine, if_neg hmark, hread]⟩

/-- Only at the end of the stream nothing is read. -/
theorem readLine_eq_nil (hlimit : 0 < limit)
    (h : readLine mark limit closed stream = some ([], rest)) : stream = [] := by
  fun_cases readLine mark limit closed stream with
  | case1 => omega
  | case2 => rfl
  | case3 => rfl
  | case4 => simp [readLine] at h
  | case5 => simp_all [readLine]
  | case6 => simp_all [readLine]

def isLine (mark : α) (limit : Nat) (chars : List α) : Bool :=
  chars.getLast? == some mark || decide (limit ≤ chars.length)

theorem isLine_concat (held : List α) (ch : α) :
    isLine mark limit (held ++ [ch]) =
      (ch == mark || decide (limit ≤ held.length + 1)) := by
  simp [isLine]

def single (chars : List α) : List (List α) := chars.map fun ch => [ch]

/-- From an open stream only complete lines are read. -/
theorem gather_readLine {total : Nat} (hlimit : 0 < limit)
    (htotal : held.length + limit = total)
    (h : readLine mark limit false stream = some (line, rest)) :
    gather (isLine mark total) held (single line) = ([held ++ line], []) := by
  induction limit generalizing held stream line rest with
  | zero => omega
  | succ limit ih =>
      cases stream with
      | nil => simp [readLine] at h
      | cons ch stream =>
          have hfull : isLine mark total (held ++ [ch]) =
              (ch == mark || decide (limit = 0)) := by
            rw [isLine_concat]
            congr 2
            apply propext
            omega
          unfold readLine at h
          split at h
          case isTrue hmark =>
              obtain ⟨rfl, rfl⟩ : [ch] = line ∧ stream = rest := by simpa using h
              have hlast : isLine mark total (held ++ [ch]) = true := by
                rw [hfull, hmark, beq_self_eq_true, Bool.true_or]
              rw [single, List.map_singleton, gather_cons_full hlast]
              rfl
          case isFalse hother =>
              cases limit with
              | zero =>
                  obtain ⟨rfl, rfl⟩ : [ch] = line ∧ stream = rest := by
                    simpa [readLine] using h
                  simp [single, gather, hfull]
              | succ limit =>
                  cases hread : readLine mark (limit + 1) false stream with
                  | none => simp [hread] at h
                  | some read =>
                      obtain ⟨later, left⟩ := read
                      obtain ⟨rfl, rfl⟩ : ch :: later = line ∧ left = rest := by
                        simpa [hread] using h
                      have hheld : isLine mark total (held ++ [ch]) = false := by
                        simp [hfull, hother]
                      have hlonger : (held ++ [ch]).length + (limit + 1) = total := by
                        rw [List.length_append, List.length_singleton]
                        omega
                      have hlater := ih (Nat.succ_pos limit) hlonger hread
                      rw [List.append_assoc] at hlater
                      rw [single, List.map_cons, gather_cons_held hheld]
                      exact hlater

def completeLines (mark : α) (limit : Nat) (stream : List α) : List (List α) :=
  (gather (isLine mark limit) [] (single stream)).1

/-- The lines read so far are the first lines of the stream they were read from. -/
theorem lines_first {lines : List (List α)}
    (h : ∀ line ∈ lines, gather (isLine mark limit) [] (single line) = ([line], []))
    (rest : List α) :
    lines <+: completeLines mark limit (lines.flatten ++ rest) := by
  have hlines := @gather_flatMap _ _ _ single id lines h
  have hsingle : single (lines.flatten ++ rest) = lines.flatMap single ++ single rest := by
    rw [single, List.map_append, List.map_flatten]
    rfl
  rw [completeLines, hsingle]
  have hprefix := @gather_first _ (isLine mark limit) [] (lines.flatMap single) (single rest)
  rwa [hlines, List.map_id] at hprefix

end Lines

end Gather
