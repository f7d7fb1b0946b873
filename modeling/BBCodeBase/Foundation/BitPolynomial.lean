import Mathlib.Algebra.Polynomial.Div
import Mathlib.Algebra.Field.ZMod
import Mathlib.Algebra.CharP.Two
import Mathlib.Data.BitVec

/-!
# Bit strings as polynomials over GF(2)

The first bit of a string is the coefficient of the highest power, as in the
order of transmission.
-/

namespace BitPolynomial

open Polynomial

noncomputable def ofBits : List Bool → (ZMod 2)[X]
  | [] => 0
  | bit :: bits => C (bit.toNat : ZMod 2) * X ^ bits.length + ofBits bits

@[simp] theorem ofBits_nil : ofBits [] = 0 := rfl

theorem ofBits_cons (bit : Bool) (bits : List Bool) :
    ofBits (bit :: bits) = C (bit.toNat : ZMod 2) * X ^ bits.length + ofBits bits := rfl

theorem ofBits_append (first second : List Bool) :
    ofBits (first ++ second) = ofBits first * X ^ second.length + ofBits second := by
  induction first with
  | nil => simp
  | cons bit first ih =>
      rw [List.cons_append, ofBits_cons, ofBits_cons, ih, List.length_append, pow_add]
      ring

@[simp] theorem ofBits_replicate_false (count : Nat) :
    ofBits (List.replicate count false) = 0 := by
  induction count with
  | zero => rfl
  | succ count ih => simp [List.replicate_succ, ofBits_cons, ih]

theorem eq_replicate_false {bits : List Bool} (h : true ∉ bits) :
    bits = List.replicate bits.length false := by
  apply List.eq_replicate_iff.mpr
  refine ⟨rfl, fun bit hbit => ?_⟩
  cases bit with
  | false => rfl
  | true => exact absurd hbit h

theorem degree_ofBits_lt (bits : List Bool) : (ofBits bits).degree < bits.length := by
  induction bits with
  | nil => simp
  | cons bit bits ih =>
      rw [ofBits_cons]
      apply lt_of_le_of_lt (degree_add_le _ _)
      apply max_lt
      · apply lt_of_le_of_lt (degree_C_mul_X_pow_le _ _)
        exact_mod_cast Nat.lt_succ_self bits.length
      · apply lt_trans ih
        exact_mod_cast Nat.lt_succ_self bits.length

theorem coeff_ofBits_cons (bit : Bool) (bits : List Bool) :
    (ofBits (bit :: bits)).coeff bits.length = (bit.toNat : ZMod 2) := by
  rw [ofBits_cons, coeff_add, coeff_C_mul_X_pow, if_pos rfl,
    coeff_eq_zero_of_degree_lt (degree_ofBits_lt bits), add_zero]

theorem coeff_ofBits {bits : List Bool} {index : Nat} (h : index < bits.length) :
    (ofBits bits).coeff (bits.length - 1 - index) = (bits[index].toNat : ZMod 2) := by
  induction bits generalizing index with
  | nil => simp at h
  | cons bit bits ih =>
      cases index with
      | zero => simpa using coeff_ofBits_cons bit bits
      | succ index =>
          have hindex : index < bits.length := by simpa using h
          rw [ofBits_cons, coeff_add, coeff_C_mul_X_pow, if_neg (by simp; omega), zero_add,
            List.getElem_cons_succ, ← ih hindex]
          congr 1
          simp
          omega

theorem toNat_cast_injective {first second : Bool}
    (h : (first.toNat : ZMod 2) = (second.toNat : ZMod 2)) : first = second := by
  cases first <;> cases second <;> simp_all

theorem ofBits_injective {first second : List Bool}
    (hlength : first.length = second.length) (h : ofBits first = ofBits second) :
    first = second := by
  induction first generalizing second with
  | nil => exact (List.length_eq_zero_iff.mp hlength.symm).symm
  | cons bit first ih =>
      cases second with
      | nil => simp at hlength
      | cons other second =>
          have htail : first.length = second.length := by simpa using hlength
          have hhead : bit = other := by
            have hcoeff := congrArg (coeff · first.length) h
            simp only [coeff_ofBits_cons] at hcoeff
            rw [htail, coeff_ofBits_cons] at hcoeff
            exact toNat_cast_injective hcoeff
          rw [ofBits_cons, ofBits_cons, hhead, htail] at h
          rw [hhead, ih htail (add_left_cancel h)]

theorem ofBits_eq_zero {bits : List Bool} (h : ofBits bits = 0) : true ∉ bits := by
  have hzero : bits = List.replicate bits.length false := by
    apply ofBits_injective (by simp)
    rw [h, ofBits_replicate_false]
  rw [hzero]
  simp

theorem ofBits_zipWith_xor {first second : List Bool}
    (hlength : first.length = second.length) :
    ofBits (List.zipWith xor first second) = ofBits first + ofBits second := by
  induction first generalizing second with
  | nil =>
      rw [List.length_eq_zero_iff.mp hlength.symm]
      simp
  | cons bit first ih =>
      cases second with
      | nil => simp at hlength
      | cons other second =>
          have htail : first.length = second.length := by simpa using hlength
          have hbit : ((bit ^^ other).toNat : ZMod 2) = bit.toNat + other.toNat := by
            cases bit <;> cases other <;> simp [CharTwo.add_self_eq_zero]
          rw [List.zipWith_cons_cons, ofBits_cons, ofBits_cons, ofBits_cons, ih htail,
            hbit, List.length_zipWith, htail, min_self, C_add]
          ring

theorem eval_one_ofBits (bits : List Bool) :
    (ofBits bits).eval 1 = (bits.count true : ZMod 2) := by
  induction bits with
  | nil => simp
  | cons bit bits ih =>
      rw [ofBits_cons, eval_add, ih]
      cases bit <;> simp [add_comm]

theorem X_dvd_ofBits_add_last (bits : List Bool) :
    X ∣ ofBits bits + C ((bits.getLastD false).toNat : ZMod 2) := by
  induction bits using List.reverseRecOn with
  | nil => simp
  | append_singleton bits bit ih =>
      refine ⟨ofBits bits, ?_⟩
      rw [ofBits_append, List.getLastD_concat, ofBits_cons, ofBits_nil, List.length_singleton,
        pow_one, List.length_nil, pow_zero, mul_one, add_zero, add_assoc,
        CharTwo.add_self_eq_zero, add_zero, mul_comm]

/-! ## Words, least significant bit first -/

variable {w : Nat}

def lsbFirst (word : BitVec w) : List Bool := List.ofFn fun index : Fin w => word[index]

@[simp] theorem length_lsbFirst (word : BitVec w) : (lsbFirst word).length = w := by
  simp [lsbFirst]

theorem getElem_lsbFirst (word : BitVec w) {index : Nat}
    (h : index < (lsbFirst word).length) :
    (lsbFirst word)[index] = word.getLsbD index := by
  simp [lsbFirst, BitVec.getLsbD_eq_getElem (by simpa using h : index < w)]

theorem lsbFirst_injective {first second : BitVec w}
    (h : lsbFirst first = lsbFirst second) : first = second := by
  apply BitVec.eq_of_getLsbD_eq
  intro index hindex
  rw [← getElem_lsbFirst first (by simpa using hindex),
    ← getElem_lsbFirst second (by simpa using hindex)]
  simp only [h]

theorem lsbFirst_xor (first second : BitVec w) :
    lsbFirst (first ^^^ second) =
      List.zipWith xor (lsbFirst first) (lsbFirst second) := by
  apply List.ext_getElem
  · simp
  · intro index hleft hright
    simp [getElem_lsbFirst]

theorem lsbFirst_append {v : Nat} (high : BitVec v) (low : BitVec w) :
    lsbFirst (high ++ low) = lsbFirst low ++ lsbFirst high := by
  apply List.ext_getElem
  · simp [Nat.add_comm]
  · intro index hleft hright
    rw [getElem_lsbFirst, BitVec.getLsbD_append, List.getElem_append]
    by_cases hlow : index < w
    · simp [hlow, getElem_lsbFirst]
    · simp [hlow, getElem_lsbFirst]

theorem lsbFirst_setWidth {v : Nat} (h : v ≤ w) (word : BitVec v) :
    lsbFirst (word.setWidth w) = lsbFirst word ++ List.replicate (w - v) false := by
  apply List.ext_getElem
  · simp [h]
  · intro index hleft hright
    have hindex : index < w := by simpa using hleft
    rw [getElem_lsbFirst, BitVec.getLsbD_setWidth, List.getElem_append]
    split
    · rw [getElem_lsbFirst]
      simp [hindex]
    · next hlow =>
        have hhigh : v ≤ index := by simpa using hlow
        simp [BitVec.getLsbD_of_ge word index hhigh]

theorem ofBits_lsbFirst_xor (first second : BitVec w) :
    ofBits (lsbFirst (first ^^^ second)) =
      ofBits (lsbFirst first) + ofBits (lsbFirst second) := by
  rw [lsbFirst_xor, ofBits_zipWith_xor (by simp)]

theorem ofBits_lsbFirst_setWidth {v : Nat} (h : v ≤ w) (word : BitVec v) :
    ofBits (lsbFirst (word.setWidth w)) = ofBits (lsbFirst word) * X ^ (w - v) := by
  rw [lsbFirst_setWidth h, ofBits_append]
  simp

theorem ofBits_lsbFirst_injective {first second : BitVec w}
    (h : ofBits (lsbFirst first) = ofBits (lsbFirst second)) : first = second :=
  lsbFirst_injective (ofBits_injective (by simp) h)

end BitPolynomial
