import Mathlib.Algebra.Group.Nat.Defs
import Mathlib.Logic.Function.Basic

/-!
# Decimal numbers run together

The digits of a number, and what numbers written one behind the other without a
separator read as: again the digits of one number.
-/

namespace Decimal

def digits (number : Nat) : List Char := Nat.toDigits 10 number

/-- The power of ten by which a number moves when `behind` is written after it. -/
def scale (behind : Nat) : Nat := 10 ^ (digits behind).length

theorem digits_injective : Function.Injective digits := by
  intro first second h
  have hvalue := congrArg (fun chars => Nat.ofDigitChars 10 chars 0) h
  simpa [digits] using hvalue

theorem digits_lt_ten {number : Nat} (h : number < 10) :
    digits number = [number.digitChar] :=
  Nat.toDigits_of_lt_base h

theorem digits_ten_le {number : Nat} (h : 10 ≤ number) :
    digits number = digits (number / 10) ++ digits (number % 10) := by
  rw [digits_lt_ten (Nat.mod_lt number (by decide))]
  exact Nat.toDigits_of_base_le (by decide) h

theorem scale_lt_ten {number : Nat} (h : number < 10) : scale number = 10 := by
  simp [scale, digits_lt_ten h]

theorem scale_ten_le {number : Nat} (h : 10 ≤ number) :
    scale number = scale (number / 10) * 10 := by
  rw [scale, digits_ten_le h, List.length_append, Nat.pow_add,
    digits_lt_ten (Nat.mod_lt number (by decide))]
  rfl

theorem scale_lt_hundred {number : Nat} (hlow : 10 ≤ number) (hhigh : number < 100) :
    scale number = 100 := by
  rw [scale_ten_le hlow, scale_lt_ten (by omega)]

theorem scale_eq {number : Nat} (h : number < 100) :
    scale number = if number < 10 then 10 else 100 := by
  split
  case isTrue hsmall => exact scale_lt_ten hsmall
  case isFalse hlarge => exact scale_lt_hundred (Nat.le_of_not_lt hlarge) h

theorem digits_append {number : Nat} (hpos : 0 < number) (behind : Nat) :
    digits number ++ digits behind = digits (number * scale behind + behind) := by
  induction behind using Nat.strongRecOn with
  | ind behind ih =>
      by_cases hsmall : behind < 10
      · rw [scale_lt_ten hsmall, Nat.mul_comm]
        rw [digits_lt_ten hsmall, ← Nat.toDigits_of_lt_base hsmall]
        exact Nat.toDigits_append_toDigits (by decide) hpos hsmall
      · have hten : 10 ≤ behind := Nat.le_of_not_lt hsmall
        have hshorter := ih (behind / 10) (by omega)
        have hlast : behind % 10 < 10 := Nat.mod_lt behind (by decide)
        have hfront : 0 < number * scale (behind / 10) + behind / 10 := by
          have hbehind : 0 < behind / 10 := by omega
          exact Nat.add_pos_right _ hbehind
        have hvalue : 10 * (number * scale (behind / 10) + behind / 10) + behind % 10 =
            number * scale behind + behind := by
          rw [scale_ten_le hten, ← Nat.mul_assoc]
          omega
        rw [digits_ten_le hten, ← List.append_assoc, hshorter, ← hvalue]
        exact Nat.toDigits_append_toDigits (by decide) hfront hlast

/-- Three numbers run together. -/
theorem digits_append_append {number : Nat} (hpos : 0 < number) (middle last : Nat) :
    digits number ++ digits middle ++ digits last =
      digits ((number * scale middle + middle) * scale last + last) := by
  have hscale : 0 < scale middle := Nat.pow_pos (by decide)
  have hfront : 0 < number * scale middle + middle :=
    Nat.add_pos_left (Nat.mul_pos hpos hscale) _
  rw [digits_append hpos, digits_append hfront]

end Decimal
