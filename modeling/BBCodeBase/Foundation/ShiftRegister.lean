import BBCodeBase.Foundation.BitPolynomial
import Mathlib.RingTheory.AdjoinRoot

/-!
# Division by a shift register

A register that shifts towards its least significant bit and feeds the bit that
falls out back into its taps holds the remainder of a polynomial division, with
the coefficients reflected: its least significant bit is the highest one.
-/

namespace BitPolynomial

open Polynomial

variable {w : Nat}

/-- The generator whose terms below `X ^ w` are the taps. -/
noncomputable def generator (taps : BitVec w) : (ZMod 2)[X] :=
  X ^ w + ofBits (lsbFirst taps)

theorem degree_ofBits_lsbFirst_lt (word : BitVec w) :
    (ofBits (lsbFirst word)).degree < w := by
  simpa using degree_ofBits_lt (lsbFirst word)

theorem generator_monic (taps : BitVec w) : (generator taps).Monic :=
  monic_X_pow_add (degree_ofBits_lsbFirst_lt taps)

@[simp] theorem degree_generator (taps : BitVec w) : (generator taps).degree = w := by
  have hlower : (ofBits (lsbFirst taps)).degree < (X ^ w : (ZMod 2)[X]).degree := by
    rw [degree_X_pow]
    exact degree_ofBits_lsbFirst_lt taps
  rw [generator, degree_add_eq_left_of_degree_lt hlower, degree_X_pow]

theorem eq_of_dvd_sub {taps : BitVec w} {first second : (ZMod 2)[X]}
    (hfirst : first.degree < w) (hsecond : second.degree < w)
    (h : generator taps ∣ first - second) : first = second := by
  by_contra hne
  apply (generator_monic taps).not_dvd_of_degree_lt (sub_ne_zero.mpr hne) _ h
  rw [degree_generator]
  exact lt_of_le_of_lt (degree_sub_le _ _) (max_lt hfirst hsecond)

/-! ## Residues -/

noncomputable abbrev residue (taps : BitVec w) :
    (ZMod 2)[X] →+* AdjoinRoot (generator taps) :=
  AdjoinRoot.mk (generator taps)

theorem eq_of_residue_eq {taps : BitVec w} {first second : (ZMod 2)[X]}
    (hfirst : first.degree < w) (hsecond : second.degree < w)
    (h : residue taps first = residue taps second) : first = second :=
  eq_of_dvd_sub hfirst hsecond (AdjoinRoot.mk_eq_mk.mp h)

theorem residue_modByMonic (taps : BitVec w) (polynomial : (ZMod 2)[X]) :
    residue taps (polynomial %ₘ generator taps) = residue taps polynomial := by
  have hsplit := congrArg (residue taps) (modByMonic_add_div polynomial (generator taps))
  rw [map_add, map_mul, residue, AdjoinRoot.mk_self, zero_mul, add_zero] at hsplit
  exact hsplit

theorem residue_X_pow (taps : BitVec w) :
    residue taps (X ^ w) = residue taps (ofBits (lsbFirst taps)) := by
  rw [residue, AdjoinRoot.mk_eq_mk, CharTwo.sub_eq_add]
  exact dvd_rfl

theorem residue_lsbFirst_injective {taps first second : BitVec w}
    (h : residue taps (ofBits (lsbFirst first)) =
      residue taps (ofBits (lsbFirst second))) : first = second := by
  apply ofBits_lsbFirst_injective
  apply eq_of_residue_eq _ _ h
  · exact degree_ofBits_lsbFirst_lt first
  · exact degree_ofBits_lsbFirst_lt second

/-! ## One bit at a time -/

def shift (taps register : BitVec w) : BitVec w :=
  if register.getLsbD 0 then (register >>> 1) ^^^ taps else register >>> 1

theorem lsbFirst_ushiftRight (register : BitVec (w + 1)) :
    ∃ rest, lsbFirst register = register.getLsbD 0 :: rest ∧
      lsbFirst (register >>> 1) = rest ++ [false] := by
  have hhead : lsbFirst register =
      register.getLsbD 0 :: (lsbFirst register).tail := by
    rw [lsbFirst, List.ofFn_succ, List.tail_cons]
    rfl
  refine ⟨(lsbFirst register).tail, hhead, ?_⟩
  apply List.ext_getElem
  · simp
  · intro index hleft hright
    rw [getElem_lsbFirst, BitVec.getLsbD_ushiftRight, List.getElem_append]
    split
    · rw [List.getElem_tail, getElem_lsbFirst, Nat.add_comm 1 index]
    · next hlast =>
        have hindex : w + 1 ≤ 1 + index := by
          simp only [List.length_tail, length_lsbFirst] at hlast
          omega
        simp [BitVec.getLsbD_of_ge register _ hindex]

theorem X_mul_lsbFirst (register : BitVec w) :
    X * ofBits (lsbFirst register) =
      C ((register.getLsbD 0).toNat : ZMod 2) * X ^ w +
        ofBits (lsbFirst (register >>> 1)) := by
  cases w with
  | zero => simp [lsbFirst, BitVec.eq_nil register]
  | succ w =>
      obtain ⟨rest, hregister, hshifted⟩ := lsbFirst_ushiftRight register
      have hlength : rest.length = w := by
        simpa using (congrArg List.length hregister).symm
      rw [hregister, hshifted, ofBits_cons, ofBits_append, hlength]
      simp only [List.length_singleton, ofBits_cons, ofBits_nil, Bool.toNat_false,
        Nat.cast_zero, C_0, zero_mul, add_zero]
      ring

theorem residue_shift (taps register : BitVec w) :
    residue taps (ofBits (lsbFirst (shift taps register))) =
      residue taps X * residue taps (ofBits (lsbFirst register)) := by
  rw [← map_mul, X_mul_lsbFirst, map_add, map_mul, residue_X_pow]
  unfold shift
  cases register.getLsbD 0 with
  | false => simp
  | true =>
      rw [if_pos rfl, ofBits_lsbFirst_xor, map_add, add_comm]
      simp

theorem residue_iterate_shift (taps register : BitVec w) (count : Nat) :
    residue taps (ofBits (lsbFirst ((shift taps)^[count] register))) =
      residue taps X ^ count * residue taps (ofBits (lsbFirst register)) := by
  induction count with
  | zero => simp
  | succ count ih =>
      rw [Function.iterate_succ_apply', residue_shift, ih, pow_succ]
      ring

theorem iterate_shift_eq_self {taps : BitVec w} {count : Nat}
    (h : generator taps ∣ X ^ count + 1) (register : BitVec w) :
    (shift taps)^[count] register = register := by
  apply @residue_lsbFirst_injective _ taps
  have hone : residue taps X ^ count = 1 := by
    rw [← map_pow, ← map_one (residue taps), residue, AdjoinRoot.mk_eq_mk,
      CharTwo.sub_eq_add]
    exact h
  rw [residue_iterate_shift, hone, one_mul]

theorem generator_isCoprime_X {taps : BitVec w} (h : (generator taps).coeff 0 = 1) :
    IsCoprime (generator taps) X := by
  refine ⟨1, -divX (generator taps), ?_⟩
  have hsplit := divX_mul_X_add (generator taps)
  rw [h, C_1] at hsplit
  calc 1 * generator taps + -divX (generator taps) * X
      = 1 * (divX (generator taps) * X + 1) + -divX (generator taps) * X := by
        rw [hsplit]
    _ = 1 := by ring

theorem shift_injective {taps : BitVec w} (h : (generator taps).coeff 0 = 1) :
    Function.Injective (shift taps) := by
  intro first second heq
  apply @residue_lsbFirst_injective _ taps
  have hresidue := congrArg (fun word => residue taps (ofBits (lsbFirst word))) heq
  simp only [residue_shift] at hresidue
  rw [← map_mul, ← map_mul, residue, AdjoinRoot.mk_eq_mk, ← mul_sub] at hresidue
  rw [residue, AdjoinRoot.mk_eq_mk]
  exact (generator_isCoprime_X h).dvd_of_dvd_mul_left hresidue

/-- None of the next `count` shifts of the register brings it to `start`. -/
def avoids (taps start : BitVec w) : Nat → BitVec w → Bool
  | 0, _ => true
  | count + 1, register =>
      shift taps register != start && avoids taps start count (shift taps register)

theorem iterate_shift_ne {taps start register : BitVec w} {count apart : Nat}
    (h : avoids taps start count register = true) (hpos : 0 < apart)
    (hapart : apart ≤ count) : (shift taps)^[apart] register ≠ start := by
  induction count generalizing register apart with
  | zero => omega
  | succ count ih =>
      obtain ⟨hfirst, hrest⟩ : shift taps register ≠ start ∧
          avoids taps start count (shift taps register) = true := by
        simpa [avoids] using h
      obtain ⟨before, rfl⟩ := Nat.exists_eq_add_of_lt hpos
      rw [Nat.zero_add, Function.iterate_succ_apply]
      cases before with
      | zero => exact hfirst
      | succ before => exact ih hrest (Nat.succ_pos before) (by omega)

/-! ## Whole words at a time -/

def absorb {v : Nat} (taps register : BitVec w) (word : BitVec v) : BitVec w :=
  (shift taps)^[v] (register ^^^ word.setWidth w)

theorem residue_absorb {v : Nat} (hv : v ≤ w) (taps register : BitVec w)
    (word : BitVec v) :
    residue taps (ofBits (lsbFirst (absorb taps register word))) =
      residue taps
        (ofBits (lsbFirst register) * X ^ v + ofBits (lsbFirst word) * X ^ w) := by
  have hpower : (X : (ZMod 2)[X]) ^ w = X ^ (w - v) * X ^ v := by
    rw [← pow_add, Nat.sub_add_cancel hv]
  rw [absorb, residue_iterate_shift, ofBits_lsbFirst_xor, ofBits_lsbFirst_setWidth hv,
    hpower, ← map_pow, ← map_mul]
  congr 1
  ring

/--
The remainder of a division that starts with `preset` in the register: the
preset stands in front of the message, and zeros of its length follow.
-/
noncomputable def remainder (taps preset : BitVec w) (bits : List Bool) :
    (ZMod 2)[X] :=
  (ofBits (lsbFirst preset) * X ^ bits.length + ofBits bits * X ^ w) %ₘ
    generator taps

theorem degree_remainder_lt (taps preset : BitVec w) (bits : List Bool) :
    (remainder taps preset bits).degree < w := by
  rw [← degree_generator taps]
  exact degree_modByMonic_lt _ (generator_monic taps)

theorem residue_remainder (taps preset : BitVec w) (bits : List Bool) :
    residue taps (remainder taps preset bits) =
      residue taps (ofBits (lsbFirst preset) * X ^ bits.length + ofBits bits * X ^ w) :=
  residue_modByMonic taps _

theorem residue_remainder_xor (taps preset : BitVec w) {bits errors : List Bool}
    (hlength : bits.length = errors.length) :
    residue taps (remainder taps preset (List.zipWith xor bits errors)) =
      residue taps (remainder taps preset bits) +
        residue taps (ofBits errors * X ^ w) := by
  rw [residue_remainder, residue_remainder, ofBits_zipWith_xor hlength, ← map_add,
    List.length_zipWith, hlength, min_self]
  congr 1
  ring

theorem ofBits_foldl_absorb {v : Nat} (hv : v ≤ w) (taps preset : BitVec w)
    (words : List (BitVec v)) :
    ofBits (lsbFirst (words.foldl (absorb taps) preset)) =
      remainder taps preset (words.flatMap lsbFirst) := by
  apply @eq_of_residue_eq _ taps
  · exact degree_ofBits_lsbFirst_lt _
  · exact degree_remainder_lt taps preset _
  rw [residue_remainder]
  induction words generalizing preset with
  | nil => simp
  | cons word words ih =>
      have hhead := residue_absorb hv taps preset word
      simp only [map_add, map_mul, map_pow] at hhead
      rw [List.foldl_cons, ih, List.flatMap_cons, ofBits_append, List.length_append,
        length_lsbFirst, pow_add]
      simp only [map_add, map_mul, map_pow, hhead]
      ring

theorem foldl_absorb_pair {v : Nat} (hv : v + v ≤ w) (taps register : BitVec w)
    (low high : BitVec v) :
    [low, high].foldl (absorb taps) register = absorb taps register (high ++ low) := by
  apply ofBits_lsbFirst_injective
  rw [ofBits_foldl_absorb (by omega)]
  have hword := ofBits_foldl_absorb hv taps register [high ++ low]
  simp only [List.foldl_cons, List.foldl_nil, List.flatMap_cons, List.flatMap_nil,
    List.append_nil] at hword ⊢
  rw [hword, lsbFirst_append]

/-! ## Errors that a division detects -/

theorem even_count_of_dvd {taps : BitVec w} {errors : List Bool}
    (hroot : (generator taps).eval 1 = 0) (h : generator taps ∣ ofBits errors) :
    Even (errors.count true) := by
  obtain ⟨quotient, hquotient⟩ := h
  have heval := congrArg (eval 1) hquotient
  rw [eval_mul, hroot, zero_mul, eval_one_ofBits] at heval
  exact even_iff_two_dvd.mpr ((ZMod.natCast_eq_zero_iff _ 2).mp heval)

/-- A burst of at most `w` bits. -/
theorem burst_of_dvd {taps : BitVec w} {burst : List Bool} {before after : Nat}
    (hconstant : (generator taps).coeff 0 = 1) (hlength : burst.length ≤ w)
    (h : generator taps ∣ ofBits
      (List.replicate before false ++ (burst ++ List.replicate after false))) :
    true ∉ burst := by
  rw [ofBits_append, ofBits_append, ofBits_replicate_false, ofBits_replicate_false,
    zero_mul, zero_add, add_zero, List.length_replicate] at h
  have hcoprime : IsCoprime (generator taps) (X ^ after) :=
    (generator_isCoprime_X hconstant).pow_right
  have hburst : generator taps ∣ ofBits burst := hcoprime.dvd_of_dvd_mul_right h
  apply ofBits_eq_zero
  by_contra hne
  apply (generator_monic taps).not_dvd_of_degree_lt hne _ hburst
  rw [degree_generator]
  apply lt_of_lt_of_le (degree_ofBits_lt burst)
  exact_mod_cast hlength

theorem single_true {bits : List Bool} (h : bits.count true = 1) :
    ∃ after, after < bits.length ∧ ofBits bits = X ^ after := by
  induction bits with
  | nil => simp at h
  | cons bit bits ih =>
      cases bit with
      | true =>
          have hrest : true ∉ bits := by
            rw [← List.count_eq_zero]
            simpa using h
          refine ⟨bits.length, by simp, ?_⟩
          rw [ofBits_cons, eq_replicate_false hrest, ofBits_replicate_false]
          simp
      | false =>
          obtain ⟨after, hafter, hpower⟩ := ih (by simpa using h)
          refine ⟨after, by simp; omega, ?_⟩
          rw [ofBits_cons, hpower]
          simp

theorem double_true {bits : List Bool} (h : bits.count true = 2) :
    ∃ after apart, 0 < apart ∧ apart < bits.length ∧
      ofBits bits = X ^ after * (X ^ apart + 1) := by
  induction bits with
  | nil => simp at h
  | cons bit bits ih =>
      cases bit with
      | true =>
          obtain ⟨after, hafter, hpower⟩ := single_true (by simpa using h : bits.count true = 1)
          refine ⟨after, bits.length - after, by omega, by simp, ?_⟩
          rw [ofBits_cons, hpower, mul_add, ← pow_add,
            Nat.add_sub_cancel' (Nat.le_of_lt hafter)]
          simp
      | false =>
          obtain ⟨after, apart, hpos, hapart, hpower⟩ := ih (by simpa using h)
          refine ⟨after, apart, hpos, by simp; omega, ?_⟩
          rw [ofBits_cons, hpower]
          simp

/-- Two wrong bits closer together than the register's period. -/
theorem double_not_dvd {taps register : BitVec w} {errors : List Bool}
    (hconstant : (generator taps).coeff 0 = 1)
    (hperiod : ∀ apart, 0 < apart → apart < errors.length →
      (shift taps)^[apart] register ≠ register)
    (hcount : errors.count true = 2) : ¬ generator taps ∣ ofBits errors := by
  intro h
  obtain ⟨after, apart, hpos, hapart, hpower⟩ := double_true hcount
  rw [hpower] at h
  have hcoprime : IsCoprime (generator taps) (X ^ after) :=
    (generator_isCoprime_X hconstant).pow_right
  have hdouble : generator taps ∣ X ^ apart + 1 := hcoprime.dvd_of_dvd_mul_left h
  exact hperiod apart hpos hapart (iterate_shift_eq_self hdouble register)

end BitPolynomial
