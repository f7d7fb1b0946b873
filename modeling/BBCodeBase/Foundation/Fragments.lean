import Mathlib.Algebra.Order.Floor.Div
import Mathlib.GroupTheory.GroupAction.Ring
import Mathlib.Data.List.Basic

/-!
# Cutting a list into fragments

All fragments but the last have the given size; together they are the list.
-/

namespace Fragments

variable {α : Type} {size : Nat}

def fragment (size : Nat) (values : List α) (index : Nat) : List α :=
  (values.drop (index * size)).take size

theorem length_fragment (values : List α) (index : Nat) :
    (fragment size values index).length = min size (values.length - index * size) := by
  rw [fragment, List.length_take, List.length_drop]

theorem lt_ceilDiv_iff (hsize : 0 < size) {count index : Nat} :
    index < count ⌈/⌉ size ↔ index * size < count := by
  rw [← not_le, ← not_le, ceilDiv_le_iff_le_mul hsize, Nat.mul_comm]

theorem ceilDiv_eq (hsize : 0 < size) (count : Nat) :
    count ⌈/⌉ size = count / size + if count % size = 0 then 0 else 1 := by
  have hsplit := Nat.div_add_mod count size
  have hmod := Nat.mod_lt count hsize
  apply le_antisymm
  · rw [ceilDiv_le_iff_le_mul hsize, Nat.mul_add]
    split <;> omega
  · split
    case isTrue hexact =>
        rw [Nat.add_zero, Nat.div_le_iff_le_mul_add_pred hsize]
        have := (ceilDiv_le_iff_le_mul hsize).mp (le_refl (count ⌈/⌉ size))
        omega
    case isFalse hrest =>
        rw [Nat.succ_le_iff, lt_ceilDiv_iff hsize, Nat.mul_comm]
        omega

theorem take_succ_mul (values : List α) (index : Nat) :
    values.take ((index + 1) * size) =
      values.take (index * size) ++ fragment size values index := by
  rw [Nat.succ_mul, List.take_add]
  rfl

theorem take_ceilDiv_mul (hsize : 0 < size) (values : List α) :
    values.take (values.length ⌈/⌉ size * size) = values := by
  apply List.take_of_length_le
  rw [Nat.mul_comm]
  exact (ceilDiv_le_iff_le_mul hsize).mp (le_refl _)

theorem flatten_range (values : List α) (count : Nat) :
    ((List.range count).map (fragment size values)).flatten =
      values.take (count * size) := by
  induction count with
  | zero => simp
  | succ count ih =>
      rw [List.range_succ, List.map_append, List.flatten_append, ih, take_succ_mul]
      simp

theorem flatten_fragments (hsize : 0 < size) (values : List α) :
    ((List.range (values.length ⌈/⌉ size)).map (fragment size values)).flatten =
      values := by
  rw [flatten_range, take_ceilDiv_mul hsize]

end Fragments
