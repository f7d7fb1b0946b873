import BBCodeBase.Foundation.ShiftRegister
import Mathlib.Algebra.Polynomial.Expand
import Mathlib.FieldTheory.Finite.Basic

/-!
# Words widened with their sign

A register that absorbs words widened with copies of their top bit holds more
than the remainder of the division: what it holds in addition depends on the
top bits of the words only.
-/

namespace BitPolynomial

open Polynomial

variable {v w : Nat}

/-! ## Wide registers -/

theorem lsbFirst_setWidth_of_le (h : v ≤ w) (word : BitVec w) :
    lsbFirst (word.setWidth v) = (lsbFirst word).take v := by
  apply List.ext_getElem
  · simp [h]
  · intro index hleft hright
    have hindex : index < v := by simpa using hleft
    rw [getElem_lsbFirst, BitVec.getLsbD_setWidth, List.getElem_take, getElem_lsbFirst]
    simp [hindex]

@[simp] theorem ofBits_lsbFirst_zero : ofBits (lsbFirst (0#w)) = 0 := by
  have hzero : lsbFirst (0#w) = List.replicate w false := by
    apply List.ext_getElem
    · simp
    · intro index hleft hright
      simp [getElem_lsbFirst]
  rw [hzero, ofBits_replicate_false]

/-- The low bits of a register are the high coefficients. -/
theorem degree_lt_iff_setWidth_eq_zero (h : v ≤ w) (word : BitVec w) :
    (ofBits (lsbFirst word)).degree < (w - v : Nat) ↔ word.setWidth v = 0#v := by
  have hsplit : ofBits (lsbFirst word) =
      ofBits (lsbFirst (word.setWidth v)) * X ^ (w - v) +
        ofBits ((lsbFirst word).drop v) := by
    conv_lhs => rw [← List.take_append_drop v (lsbFirst word)]
    rw [ofBits_append, lsbFirst_setWidth_of_le h, List.length_drop, length_lsbFirst]
  have hhigh : (ofBits ((lsbFirst word).drop v)).degree < (w - v : Nat) := by
    simpa using degree_ofBits_lt ((lsbFirst word).drop v)
  constructor
  · intro hdegree
    have hproduct : (ofBits (lsbFirst (word.setWidth v)) * X ^ (w - v)).degree <
        ((w - v : Nat) : WithBot Nat) := by
      rw [eq_sub_of_add_eq hsplit.symm]
      exact lt_of_le_of_lt (degree_sub_le _ _) (max_lt hdegree hhigh)
    apply ofBits_lsbFirst_injective
    rw [ofBits_lsbFirst_zero]
    by_contra hne
    rw [degree_mul, degree_X_pow] at hproduct
    have hpos := zero_le_degree_iff.mpr hne
    exact absurd hproduct (not_lt_of_ge (le_add_of_nonneg_left hpos))
  · intro hzero
    rw [hsplit, hzero, ofBits_lsbFirst_zero, zero_mul, zero_add]
    exact hhigh

theorem generator_setWidth (h : v ≤ w) (taps : BitVec v) :
    generator (taps.setWidth w) = X ^ (w - v) * generator taps := by
  rw [generator, generator, ofBits_lsbFirst_setWidth h, mul_add, ← pow_add,
    Nat.sub_add_cancel h, mul_comm (X ^ (w - v)) (ofBits _)]

/-! ## Sign extension -/

theorem lsbFirst_signExtend (h : v ≤ w) (word : BitVec v) :
    lsbFirst (word.signExtend w) = lsbFirst word ++ List.replicate (w - v) word.msb := by
  apply List.ext_getElem
  · simp [h]
  · intro index hleft hright
    have hindex : index < w := by simpa using hleft
    rw [getElem_lsbFirst, BitVec.getLsbD_signExtend, List.getElem_append]
    by_cases hlow : index < v
    · simp [hindex, hlow, getElem_lsbFirst]
    · simp [hindex, hlow]

noncomputable abbrev ones (count : Nat) : (ZMod 2)[X] := ofBits (List.replicate count true)

theorem X_add_one_mul_ones (count : Nat) : (X + 1) * ones count = X ^ count + 1 := by
  induction count with
  | zero =>
      rw [ones, List.replicate_zero, ofBits_nil, mul_zero, pow_zero,
        CharTwo.add_self_eq_zero]
  | succ count ih =>
      rw [ones, List.replicate_succ, ofBits_cons, mul_add, ih, List.length_replicate]
      simp only [Bool.toNat_true, Nat.cast_one, C_1, one_mul]
      linear_combination (X ^ count) * (CharTwo.two_eq_zero : (2 : (ZMod 2)[X]) = 0)

theorem ofBits_replicate (count : Nat) (bit : Bool) :
    ofBits (List.replicate count bit) = C (bit.toNat : ZMod 2) * ones count := by
  cases bit <;> simp

theorem ofBits_lsbFirst_signExtend (h : v ≤ w) (word : BitVec v) :
    ofBits (lsbFirst (word.signExtend w)) =
      ofBits (lsbFirst word) * X ^ (w - v) +
        C (word.msb.toNat : ZMod 2) * ones (w - v) := by
  rw [lsbFirst_signExtend h, ofBits_append, List.length_replicate, ofBits_replicate]

theorem expand_two_pow (count : Nat) (polynomial : (ZMod 2)[X]) :
    expand (ZMod 2) (2 ^ count) polynomial = polynomial ^ 2 ^ count := by
  induction count with
  | zero => rw [pow_zero, expand_one, pow_one]
  | succ count ih =>
      rw [pow_succ', expand_mul, ih, ZMod.expand_card, ← pow_mul, mul_comm]

/-- A word goes into the register with its sign. -/
def absorbSigned (taps register : BitVec w) (word : BitVec v) : BitVec w :=
  (shift taps)^[v] (register ^^^ word.signExtend w)

def topBits (words : List (BitVec v)) : List Bool := words.map (·.msb)

theorem residue_absorbSigned (hv : v ≤ w) (taps signed register : BitVec w)
    (word : BitVec v) :
    residue taps (ofBits (lsbFirst (absorbSigned taps signed word)) +
        ofBits (lsbFirst (absorb taps register word))) =
      residue taps (X ^ v * (ofBits (lsbFirst signed) + ofBits (lsbFirst register) +
        C (word.msb.toNat : ZMod 2) * ones (w - v))) := by
  have htwo : (2 : (ZMod 2)[X]) = 0 := CharTwo.two_eq_zero
  rw [absorbSigned, absorb, map_add, residue_iterate_shift, residue_iterate_shift,
    ofBits_lsbFirst_xor, ofBits_lsbFirst_xor, ofBits_lsbFirst_signExtend hv,
    ofBits_lsbFirst_setWidth hv, ← map_pow, ← map_mul, ← map_mul, ← map_add]
  congr 1
  linear_combination (X ^ v * ofBits (lsbFirst word) * X ^ (w - v)) * htwo

/-- What the signs add to the register is the division of the top bits, spread out. -/
theorem residue_foldl_absorbSigned (hv : v ≤ w) (taps signed register : BitVec w)
    (words : List (BitVec v)) :
    residue taps (ofBits (lsbFirst (words.foldl (absorbSigned taps) signed)) +
        ofBits (lsbFirst (words.foldl (absorb taps) register))) =
      residue taps ((ofBits (lsbFirst signed) + ofBits (lsbFirst register)) *
          X ^ (v * words.length) +
        X ^ v * ones (w - v) * expand (ZMod 2) v (ofBits (topBits words))) := by
  induction words generalizing signed register with
  | nil => simp [topBits]
  | cons word words ih =>
      have hhead := residue_absorbSigned hv taps signed register word
      have htops : ofBits (topBits (word :: words)) =
          C (word.msb.toNat : ZMod 2) * X ^ words.length + ofBits (topBits words) := by
        simp [topBits, ofBits_cons]
      rw [List.foldl_cons, List.foldl_cons, ih, map_add, map_mul, hhead, htops,
        ← map_mul, ← map_add, map_add (expand (ZMod 2) v), map_mul (expand (ZMod 2) v),
        expand_C, map_pow, expand_X, List.length_cons]
      congr 1
      ring

end BitPolynomial
