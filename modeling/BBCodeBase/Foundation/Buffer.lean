import Mathlib.Data.List.OfFn
import Mathlib.Logic.Function.Basic

/-!
# Arrays of a fixed size with checked access

A C array of `size` elements.  Reads and writes are partial: an index outside
the array gives `none`, where the C program has undefined behaviour.  `Holds`
relates a stretch of the array to the list of values stored there.
-/

structure Buffer (α : Type) (size : Nat) where
  cells : Fin size → α

namespace Buffer

variable {α : Type} {size : Nat}

def load? (buffer : Buffer α size) (index : Nat) : Option α :=
  if h : index < size then some (buffer.cells ⟨index, h⟩) else none

def store? (buffer : Buffer α size) (index : Nat) (value : α) :
    Option (Buffer α size) :=
  if h : index < size then
    some ⟨Function.update buffer.cells ⟨index, h⟩ value⟩
  else none

def slice? (buffer : Buffer α size) (start count : Nat) : Option (List α) :=
  (List.range' start count).mapM buffer.load?

def storeList? (buffer : Buffer α size) (start : Nat) : List α → Option (Buffer α size)
  | [] => some buffer
  | value :: rest => do
      let next ← buffer.store? start value
      next.storeList? (start + 1) rest

def indexOf? [DecidableEq α] (buffer : Buffer α size) (value : α) : Option Nat :=
  (List.range' 0 size).find? fun index => buffer.load? index == some value

/-- `for (q = 0; q < count; q++) buffer[q] = value`, for `count` within bounds. -/
def fill (buffer : Buffer α size) (count : Nat) (value : α) : Buffer α size :=
  ⟨fun index => if index.val < count then value else buffer.cells index⟩

def Holds (buffer : Buffer α size) (start : Nat) (values : List α) : Prop :=
  ∀ offset (h : offset < values.length),
    buffer.load? (start + offset) = some values[offset]

theorem load?_eq_none {buffer : Buffer α size} {index : Nat} (h : size ≤ index) :
    buffer.load? index = none := by
  simp [load?, Nat.not_lt.mpr h]

theorem lt_of_load? {buffer : Buffer α size} {index : Nat} {value : α}
    (h : buffer.load? index = some value) : index < size := by
  by_contra hlarge
  simp [load?_eq_none (Nat.not_lt.mp hlarge)] at h

theorem store?_isSome (buffer : Buffer α size) {index : Nat} (value : α)
    (h : index < size) : ∃ next, buffer.store? index value = some next := by
  exact ⟨_, dif_pos h⟩

theorem store?_eq_none {buffer : Buffer α size} {index : Nat} {value : α}
    (h : size ≤ index) : buffer.store? index value = none := by
  simp [store?, Nat.not_lt.mpr h]

theorem load?_store? {buffer next : Buffer α size} {index : Nat} {value : α}
    (h : buffer.store? index value = some next) (other : Nat) :
    next.load? other = if other = index then some value else buffer.load? other := by
  unfold store? at h
  split at h
  case isTrue hindex =>
      obtain rfl := Option.some.inj h
      by_cases hother : other < size
      · by_cases heq : other = index
        · subst heq
          simp [load?, hother]
        · have hne : (⟨other, hother⟩ : Fin size) ≠ ⟨index, hindex⟩ := by
            simpa using heq
          simp [load?, hother, heq]
      · have hne : other ≠ index := by omega
        simp [load?, hother, hne]
  case isFalse => cases h

theorem load?_storeList? {buffer next : Buffer α size} {start : Nat} {values : List α}
    (h : buffer.storeList? start values = some next) {other : Nat}
    (houtside : other < start ∨ start + values.length ≤ other) :
    next.load? other = buffer.load? other := by
  induction values generalizing buffer start with
  | nil =>
      obtain rfl := Option.some.inj h
      rfl
  | cons value values ih =>
      simp only [storeList?, Option.bind_eq_bind, Option.bind_eq_some_iff] at h
      obtain ⟨middle, hmiddle, hrest⟩ := h
      simp only [List.length_cons] at houtside
      rw [ih hrest (by omega), load?_store? hmiddle, if_neg (by omega)]

theorem storeList?_eq_none {buffer : Buffer α size} {start : Nat} {values : List α}
    (hstart : start ≤ size) (hlong : size < start + values.length) :
    buffer.storeList? start values = none := by
  induction values generalizing buffer start with
  | nil =>
      rw [List.length_nil] at hlong
      omega
  | cons value values ih =>
      rw [List.length_cons] at hlong
      cases hnext : buffer.store? start value with
      | none => simp [storeList?, hnext]
      | some next =>
          have hlater : start + 1 ≤ size := by
            by_contra hlarge
            simp [store?_eq_none (show size ≤ start by omega)] at hnext
          simp only [storeList?, hnext, Option.bind_eq_bind, Option.bind_some]
          exact ih hlater (by omega)

theorem load?_fill {buffer : Buffer α size} {count index : Nat} {value : α}
    (hsize : index < size) :
    (buffer.fill count value).load? index =
      if index < count then some value else buffer.load? index := by
  simp only [load?, fill, dif_pos hsize]
  split <;> rfl

theorem indexOf?_isSome_iff [DecidableEq α] {buffer : Buffer α size} {value : α} :
    (buffer.indexOf? value).isSome ↔ ∃ index, buffer.load? index = some value := by
  unfold indexOf?
  rw [List.find?_isSome]
  constructor
  · rintro ⟨index, -, hfound⟩
    exact ⟨index, by simpa using hfound⟩
  · rintro ⟨index, hload⟩
    refine ⟨index, ?_, by simpa using hload⟩
    rw [List.mem_range'_1]
    have hsize := lt_of_load? hload
    omega

/-! ## Stretches of an array -/

theorem Holds.nil (buffer : Buffer α size) (start : Nat) :
    buffer.Holds start [] := by
  intro offset h
  simp at h

theorem Holds.append {buffer : Buffer α size} {start : Nat}
    {first second : List α} (hfirst : buffer.Holds start first)
    (hsecond : buffer.Holds (start + first.length) second) :
    buffer.Holds start (first ++ second) := by
  intro offset h
  by_cases hlow : offset < first.length
  · rw [List.getElem_append_left hlow]
    exact hfirst offset hlow
  · have hhigh : offset - first.length < second.length := by
      simp only [List.length_append] at h
      omega
    rw [List.getElem_append_right (by omega)]
    have := hsecond (offset - first.length) hhigh
    rwa [show start + first.length + (offset - first.length) = start + offset
      by omega] at this

theorem Holds.left {buffer : Buffer α size} {start : Nat}
    {first second : List α} (h : buffer.Holds start (first ++ second)) :
    buffer.Holds start first := by
  intro offset hoffset
  rw [h offset (by simp only [List.length_append]; omega),
    List.getElem_append_left hoffset]

theorem Holds.right {buffer : Buffer α size} {start : Nat}
    {first second : List α} (h : buffer.Holds start (first ++ second)) :
    buffer.Holds (start + first.length) second := by
  intro offset hoffset
  rw [Nat.add_assoc, h (first.length + offset)
    (by simp only [List.length_append]; omega),
    List.getElem_append_right (by omega)]
  simp

theorem Holds.singleton {buffer : Buffer α size} {start : Nat} {value : α}
    (h : buffer.load? start = some value) : buffer.Holds start [value] := by
  intro offset hoffset
  obtain rfl : offset = 0 := by simpa using hoffset
  simpa using h

theorem Holds.store? {buffer next : Buffer α size} {start index : Nat}
    {values : List α} {value : α} (h : buffer.Holds start values)
    (hstore : buffer.store? index value = some next)
    (houtside : index < start ∨ start + values.length ≤ index) :
    next.Holds start values := by
  intro offset hoffset
  rw [load?_store? hstore, if_neg (by omega)]
  exact h offset hoffset

theorem Holds.snoc {buffer next : Buffer α size} {start : Nat}
    {values : List α} {value : α} (h : buffer.Holds start values)
    (hstore : buffer.store? (start + values.length) value = some next) :
    next.Holds start (values ++ [value]) :=
  (h.store? hstore (.inr (Nat.le_refl _))).append
    (.singleton (by rw [load?_store? hstore, if_pos rfl]))

theorem Holds.storeList? {buffer : Buffer α size} {start : Nat}
    {values rest : List α} (h : buffer.Holds start values)
    (hroom : start + values.length + rest.length ≤ size) :
    ∃ next, buffer.storeList? (start + values.length) rest = some next ∧
      next.Holds start (values ++ rest) := by
  induction rest generalizing buffer values with
  | nil => exact ⟨buffer, rfl, by simpa using h⟩
  | cons value rest ih =>
      simp only [List.length_cons] at hroom
      have ⟨middle, hmiddle⟩ :=
        buffer.store?_isSome value (show start + values.length < size by omega)
      have hextended := h.snoc hmiddle
      have ⟨next, hnext, hholds⟩ := ih hextended
        (by simp only [List.length_append, List.length_singleton]; omega)
      refine ⟨next, ?_, ?_⟩
      · rw [List.length_append, List.length_singleton, ← Nat.add_assoc] at hnext
        simpa only [Buffer.storeList?, hmiddle, Option.bind_eq_bind, Option.bind_some]
          using hnext
      · simpa only [List.append_assoc, List.singleton_append] using hholds

theorem Holds.length_le {buffer : Buffer α size} {start : Nat}
    {values : List α} (h : buffer.Holds start values) (hne : values ≠ []) :
    start + values.length ≤ size := by
  have hpos := List.length_pos_iff.mpr hne
  have := lt_of_load? (h (values.length - 1) (by omega))
  omega

theorem Holds.load? {buffer : Buffer α size} {start : Nat} {values rest : List α}
    {value : α} (h : buffer.Holds start (values ++ value :: rest)) :
    buffer.load? (start + values.length) = some value := by
  have hvalue := h values.length (by simp)
  simpa using hvalue

theorem Holds.indexOf? [DecidableEq α] {buffer : Buffer α size} {values : List α}
    {value : α} (h : buffer.Holds 0 (values ++ [value])) (hnot : value ∉ values) :
    buffer.indexOf? value = some values.length := by
  have hsize := h.length_le (by simp)
  have hload := h.load?
  simp only [List.length_append, List.length_singleton, Nat.zero_add] at hsize hload
  unfold Buffer.indexOf?
  rw [List.find?_range'_eq_some]
  refine ⟨by simp [hload], by simp; omega, ?_⟩
  intro index _ hindex
  have hbefore := h.left index hindex
  rw [Nat.zero_add] at hbefore
  simp only [hbefore]
  have hne : values[index] ≠ value := by
    intro heq
    exact hnot (heq ▸ List.getElem_mem hindex)
  simpa using hne

theorem Holds.slice? {buffer : Buffer α size} {start : Nat} {values : List α}
    (h : buffer.Holds start values) :
    buffer.slice? start values.length = some values := by
  unfold Buffer.slice?
  induction values generalizing start with
  | nil => rfl
  | cons value values ih =>
      have hhead : buffer.load? start = some value := h 0 (by simp)
      have hsplit : buffer.Holds start ([value] ++ values) := h
      have htail : buffer.Holds (start + 1) values := hsplit.right
      simp only [List.length_cons, List.range'_succ, List.mapM_cons, hhead]
      rw [ih htail]
      rfl

theorem Holds.slice?_drop {buffer : Buffer α size} {start offset count : Nat}
    {values : List α} (h : buffer.Holds start values)
    (hcount : offset + count ≤ values.length) :
    buffer.slice? (start + offset) count = some ((values.drop offset).take count) := by
  have hsplit : values =
      values.take offset ++ ((values.drop offset).take count ++
        (values.drop offset).drop count) := by
    rw [List.take_append_drop, List.take_append_drop]
  rw [hsplit] at h
  have hslice := h.right.left.slice?
  rw [List.length_take, List.length_take, List.length_drop] at hslice
  rwa [show min offset values.length = offset by omega,
    show min count (values.length - offset) = count by omega] at hslice

end Buffer
