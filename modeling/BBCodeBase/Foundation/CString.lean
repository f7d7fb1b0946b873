import BBCodeBase.Foundation.Buffer

/-!
# Strings with a terminator

Strings that end with a null element, in arrays of a fixed size.  The functions
of `string.h` are partial: `strlen` runs off an array without a terminator, and
a copy that does not fit writes behind the array.
-/

/-- The elements before the terminator. -/
structure CString (α : Type) (null : α) where
  chars : List α
  noNull : null ∉ chars
  deriving DecidableEq

namespace CString

variable {α : Type} {null : α}

def length (string : CString α null) : Nat := string.chars.length

def take (string : CString α null) (count : Nat) : CString α null :=
  ⟨string.chars.take count, fun h => string.noNull (List.mem_of_mem_take h)⟩

def append (first second : CString α null) : CString α null :=
  ⟨first.chars ++ second.chars, fun h =>
    (List.mem_append.mp h).elim first.noNull second.noNull⟩

def first (string : CString α null) : α := string.chars.headD null

@[simp] theorem length_chars (string : CString α null) :
    string.chars.length = string.length := rfl

@[simp] theorem chars_take (string : CString α null) (count : Nat) :
    (string.take count).chars = string.chars.take count := rfl

@[simp] theorem chars_append (first second : CString α null) :
    (first.append second).chars = first.chars ++ second.chars := rfl

theorem take_length_le {string : CString α null} {count : Nat}
    (h : string.length ≤ count) : string.take count = string := by
  simp only [take, List.take_of_length_le h]

theorem append_take {first second : CString α null} {count : Nat}
    (h : first.length ≤ count) :
    first.append (second.take (count - first.length)) =
      (first.append second).take count := by
  simp only [take, append, length, mk.injEq] at h ⊢
  rw [List.take_append, List.take_of_length_le h]

end CString

namespace Buffer

variable {α : Type} {size : Nat} {null : α}

def HoldsString (buffer : Buffer α size) (start : Nat) (string : CString α null) :
    Prop :=
  buffer.Holds start (string.chars ++ [null])

def strlen? [DecidableEq α] (buffer : Buffer α size) (null : α) : Option Nat :=
  buffer.indexOf? null

/-- `strncpy(&buffer[start], string, count)`, which fills up with terminators. -/
def strncpy? (buffer : Buffer α size) (start : Nat) (string : CString α null)
    (count : Nat) : Option (Buffer α size) :=
  buffer.storeList? start ((string.chars ++ List.replicate count null).take count)

theorem HoldsString.strlen? [DecidableEq α] {buffer : Buffer α size}
    {string : CString α null} (h : buffer.HoldsString 0 string) :
    buffer.strlen? null = some string.length :=
  h.indexOf? string.noNull

/-- An array that the string fills to its end has no terminator. -/
theorem Holds.strlen?_eq_none [DecidableEq α] {buffer : Buffer α size}
    {string : CString α null} (h : buffer.Holds 0 string.chars)
    (hfull : string.length = size) : buffer.strlen? null = none := by
  unfold Buffer.strlen?
  cases hfound : buffer.indexOf? null with
  | none => rfl
  | some length =>
      have hsome : (buffer.indexOf? null).isSome := by rw [hfound]; rfl
      obtain ⟨index, hload⟩ := indexOf?_isSome_iff.mp hsome
      have hindex : index < string.chars.length := by
        have := lt_of_load? hload
        unfold CString.length at hfull
        omega
      have hchar := h index hindex
      rw [Nat.zero_add, hload] at hchar
      have hmem := List.getElem_mem hindex
      rw [← Option.some.inj hchar] at hmem
      exact absurd hmem string.noNull

theorem HoldsString.length_lt {buffer : Buffer α size} {start : Nat}
    {string : CString α null} (h : buffer.HoldsString start string) :
    start + string.length < size := by
  have := h.length_le (by simp)
  simp only [List.length_append, List.length_singleton] at this
  exact this

theorem HoldsString.append {buffer : Buffer α size} {start : Nat}
    {first second : CString α null} (hfirst : buffer.Holds start first.chars)
    (hsecond : buffer.HoldsString (start + first.length) second) :
    buffer.HoldsString start (first.append second) := by
  unfold HoldsString
  rw [CString.chars_append, List.append_assoc]
  exact hfirst.append hsecond

theorem Holds.of_load? {buffer next : Buffer α size} {start : Nat} {values : List α}
    (h : buffer.Holds start values)
    (hsame : ∀ index < start + values.length, next.load? index = buffer.load? index) :
    next.Holds start values := by
  intro offset hoffset
  rw [hsame (start + offset) (by omega)]
  exact h offset hoffset

/-- What a copy into the cells from `start` on leaves alone. -/
def SameOutside (buffer next : Buffer α size) (start count : Nat) : Prop :=
  ∀ index, index < start ∨ start + count ≤ index → next.load? index = buffer.load? index

theorem strncpy?_spec (buffer : Buffer α size) {start count : Nat}
    (string : CString α null) (hroom : start + count ≤ size) :
    ∃ next, buffer.strncpy? start string count = some next ∧
      next.Holds start ((string.chars ++ List.replicate count null).take count) ∧
      buffer.SameOutside next start count := by
  have hlength : ((string.chars ++ List.replicate count null).take count).length = count := by
    simp
  have hfits : start + ([] : List α).length +
      ((string.chars ++ List.replicate count null).take count).length ≤ size := by
    rw [hlength]
    exact hroom
  obtain ⟨next, hnext, hholds⟩ := (Holds.nil buffer start).storeList? hfits
  refine ⟨next, hnext, hholds, fun index houtside => ?_⟩
  apply load?_storeList? hnext
  rw [hlength]
  exact houtside

/-- The string is shorter than `count`: its terminator is copied with it. -/
theorem strncpy?_fits (buffer : Buffer α size) {start count : Nat}
    {string : CString α null} (hroom : start + count ≤ size)
    (hfits : string.length < count) :
    ∃ next, buffer.strncpy? start string count = some next ∧
      next.HoldsString start string ∧ buffer.SameOutside next start count := by
  obtain ⟨next, hnext, hholds, hsame⟩ := buffer.strncpy?_spec string hroom
  have hsplit : (string.chars ++ List.replicate count null).take count =
      (string.chars ++ [null]) ++ List.replicate (count - string.length - 1) null := by
    unfold CString.length at hfits ⊢
    rw [List.take_append, List.take_of_length_le (Nat.le_of_lt hfits), List.take_replicate,
      List.append_assoc, List.singleton_append, ← List.replicate_succ]
    congr 2
    omega
  rw [hsplit] at hholds
  exact ⟨next, hnext, hholds.left, hsame⟩

/-- The string is cut at `count`, and no terminator is copied. -/
theorem strncpy?_cut (buffer : Buffer α size) {start count : Nat}
    {string : CString α null} (hroom : start + count ≤ size)
    (hlong : count ≤ string.length) :
    ∃ next, buffer.strncpy? start string count = some next ∧
      next.Holds start (string.take count).chars ∧
      buffer.SameOutside next start count := by
  obtain ⟨next, hnext, hholds, hsame⟩ := buffer.strncpy?_spec string hroom
  rw [List.take_append_of_le_length hlong] at hholds
  exact ⟨next, hnext, hholds, hsame⟩

end Buffer
