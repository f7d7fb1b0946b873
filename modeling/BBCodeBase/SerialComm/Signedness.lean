import BBCodeBase.Foundation.SignExtension
import BBCodeBase.SerialComm.FrameCheck
import Mathlib.FieldTheory.Separable

/-!
# The frame check with plain `char` signed

`calc_crc` widens the characters of the packet without going through
`unsigned char`, so that on a platform with signed characters a byte from 128 on
sets the upper half of the register too.  The bits that this adds come down into
the checksum within the next bytes.
-/

namespace BBCodeBase.SerialComm

open BitPolynomial Polynomial

def crcByteSigned (crc : BitVec 32) (byte : Byte) : BitVec 32 :=
  crcBit^[8] (crc ^^^ byte.signExtend 32)

/-- `calc_crc(length, UPLOAD_PACKET)` where the characters are -128 to 127. -/
def calcCrcSigned (uploadPacket : List Byte) : BitVec 32 :=
  uploadPacket.foldl crcByteSigned 0xFFFF#32 ^^^ 0xFFFF#32

def crcLowSigned (frame : List Byte) : Byte :=
  (calcCrcSigned frame &&& 0x00FF#32).setWidth 8

def crcHighSigned (frame : List Byte) : Byte := (calcCrcSigned frame >>> 8).setWidth 8

/-! ## The wide register -/

abbrev wideTaps : BitVec 32 := 0x8408#32

theorem crcBit_eq_shift (crc : BitVec 32) : crcBit crc = shift wideTaps crc := by
  have hlow : crc &&& 0x0001#32 ≠ 0#32 ↔ crc.getLsbD 0 = true := by
    rw [BitVec.and_one_eq_setWidth_ofBool_getLsbD]
    cases crc.getLsbD 0 <;> decide
  unfold crcBit shift
  simp only [hlow]

theorem crcByte_eq_absorb : crcByte = absorb wideTaps := by
  funext crc byte
  rw [crcByte, absorb, funext crcBit_eq_shift]

theorem crcByteSigned_eq_absorbSigned : crcByteSigned = absorbSigned wideTaps := by
  funext crc byte
  rw [crcByteSigned, absorbSigned, funext crcBit_eq_shift]

theorem generator_wideTaps : generator wideTaps = X ^ 16 * x25Generator := by
  rw [← generator_crcTaps]
  exact generator_setWidth (by decide) crcTaps

theorem crcHighSigned_append_crcLowSigned (message : List Byte) :
    crcHighSigned message ++ crcLowSigned message = (calcCrcSigned message).setWidth 16 :=
  bytes_append _

/-! ## What the signs add to the register -/

def signDifference (message : List Byte) : BitVec 32 :=
  message.foldl crcByteSigned 0xFFFF#32 ^^^ message.foldl crcByte 0xFFFF#32

theorem same_bytes_iff (message : List Byte) :
    (crcLowSigned message, crcHighSigned message) = (crcLow message, crcHigh message) ↔
      (signDifference message).setWidth 16 = 0#16 := by
  have hpair : (crcLowSigned message, crcHighSigned message) =
      (crcLow message, crcHigh message) ↔
      (calcCrcSigned message).setWidth 16 = (calcCrc message).setWidth 16 := by
    rw [← crcHighSigned_append_crcLowSigned, ← bytes_append (calcCrc message), Prod.mk.injEq]
    constructor
    · rintro ⟨hlow, hhigh⟩
      rw [hlow, hhigh]
      rfl
    · exact pair_injective
  rw [hpair, calcCrcSigned, calcCrc, signDifference, BitVec.setWidth_xor,
    BitVec.setWidth_xor, BitVec.xor_left_inj, BitVec.setWidth_xor, BitVec.xor_eq_zero_iff]

theorem dvd_signDifference (message : List Byte) :
    X ^ 16 * x25Generator ∣ ofBits (lsbFirst (signDifference message)) +
      X ^ 8 * ones 24 * ofBits (topBits message) ^ 8 := by
  have hpower : expand (ZMod 2) 8 (ofBits (topBits message)) =
      ofBits (topBits message) ^ 8 :=
    expand_two_pow 3 _
  have hresidue := residue_foldl_absorbSigned (show 8 ≤ 32 by decide) wideTaps
    0xFFFF#32 0xFFFF#32 message
  rw [CharTwo.add_self_eq_zero, zero_mul, zero_add, hpower, ← ofBits_lsbFirst_xor,
    ← crcByte_eq_absorb, ← crcByteSigned_eq_absorbSigned, residue, AdjoinRoot.mk_eq_mk,
    generator_wideTaps, CharTwo.sub_eq_add] at hresidue
  exact hresidue

/-! ## The exact condition -/

theorem x25Generator_squarefree : Squarefree x25Generator := by
  apply Separable.squarefree
  have hderivative : derivative x25Generator = X ^ 4 := by
    have hfifteen : (15 : ZMod 2) = 1 := by decide
    have heleven : (11 : ZMod 2) = 1 := by decide
    have hfour : (4 : ZMod 2) = 0 := by decide
    simp [x25Generator, hfifteen, heleven, hfour, CharTwo.add_self_eq_zero]
  rw [Separable, hderivative, ← generator_crcTaps]
  exact (generator_isCoprime_X crcTaps_constant).pow_right

def lastTop (message : List Byte) : ZMod 2 := ((topBits message).getLastD false).toNat

/-- What the top bits of the bytes amount to. -/
noncomputable def signPolynomial (message : List Byte) : (ZMod 2)[X] :=
  (X ^ 3 + 1) * ofBits (topBits message) + (X + 1) * C (lastTop message)

noncomputable def signFactor (message : List Byte) : (ZMod 2)[X] :=
  (X ^ 2 + X + 1) * ofBits (topBits message) + C (lastTop message)

theorem X_add_one_mul_signFactor (message : List Byte) :
    (X + 1) * signFactor message = signPolynomial message := by
  have htwo : (2 : (ZMod 2)[X]) = 0 := CharTwo.two_eq_zero
  rw [signFactor, signPolynomial]
  linear_combination ((X ^ 2 + X) * ofBits (topBits message)) * htwo

theorem signPolynomial_pow_eight (message : List Byte) :
    signPolynomial message ^ 8 =
      (X + 1) * (signPolynomial message ^ 7 * signFactor message) := by
  rw [← X_add_one_mul_signFactor]
  ring

theorem add_pow_eight (first second : (ZMod 2)[X]) :
    (first + second) ^ 8 = first ^ 8 + second ^ 8 :=
  add_pow_char_pow first second 2 3

/-- The excess over the register that a last top bit alone leaves behind. -/
theorem excess_eq (message : List Byte) :
    ones 24 * ofBits (topBits message) ^ 8 + C (lastTop message) * ones 8 =
      signPolynomial message ^ 7 * signFactor message := by
  have hne : (X + 1 : (ZMod 2)[X]) ≠ 0 := (monic_X_add_C (1 : ZMod 2)).ne_zero
  have hbit : C (lastTop message) ^ 8 = C (lastTop message) := by
    rw [lastTop]
    cases (topBits message).getLastD false <;> simp
  apply mul_left_cancel₀ hne
  calc (X + 1) * (ones 24 * ofBits (topBits message) ^ 8 + C (lastTop message) * ones 8)
      = (X + 1) * ones 24 * ofBits (topBits message) ^ 8 +
          C (lastTop message) * ((X + 1) * ones 8) := by ring
    _ = (X ^ 24 + 1) * ofBits (topBits message) ^ 8 +
          (X ^ 8 + 1) * C (lastTop message) ^ 8 := by
        rw [X_add_one_mul_ones, X_add_one_mul_ones, hbit]
        ring
    _ = signPolynomial message ^ 8 := by
        rw [signPolynomial, add_pow_eight, mul_pow, mul_pow, add_pow_eight, add_pow_eight,
          one_pow, ← pow_mul]
    _ = (X + 1) * (signPolynomial message ^ 7 * signFactor message) :=
        signPolynomial_pow_eight message

theorem X_dvd_signPolynomial (message : List Byte) : X ∣ signPolynomial message := by
  obtain ⟨quotient, hquotient⟩ := X_dvd_ofBits_add_last (topBits message)
  have hsplit : signPolynomial message =
      (X ^ 3 + 1) * (ofBits (topBits message) + C (lastTop message)) +
        X * (C (lastTop message) * (1 + X ^ 2)) := by
    have htwo : (2 : (ZMod 2)[X]) = 0 := CharTwo.two_eq_zero
    rw [signPolynomial]
    linear_combination (-C (lastTop message) * X ^ 3) * htwo
  rw [hsplit, lastTop, hquotient]
  exact dvd_add (Dvd.dvd.mul_left (dvd_mul_right _ _) _) (dvd_mul_right _ _)

/-- The bits that the excess is short of are below the checksum. -/
theorem X_pow_dvd_excess (message : List Byte) :
    X ^ 16 ∣ X ^ 8 * (signPolynomial message ^ 7 * signFactor message) := by
  have hcoprime : IsCoprime (X ^ 8) (X + 1 : (ZMod 2)[X]) := by
    apply IsCoprime.pow_left
    exact ⟨-1, 1, by ring⟩
  have hpower : X ^ 8 ∣ (X + 1) * (signPolynomial message ^ 7 * signFactor message) := by
    rw [← signPolynomial_pow_eight]
    exact pow_dvd_pow_of_dvd (X_dvd_signPolynomial message) 8
  have hexcess := hcoprime.dvd_of_dvd_mul_left hpower
  rw [show (16 : Nat) = 8 + 8 by rfl, pow_add]
  exact mul_dvd_mul_left _ hexcess

theorem dvd_excess_iff (message : List Byte) :
    X ^ 16 * x25Generator ∣ X ^ 8 * (signPolynomial message ^ 7 * signFactor message) ↔
      x25Generator ∣ signPolynomial message := by
  have hcoprime : IsCoprime x25Generator X := by
    rw [← generator_crcTaps]
    exact generator_isCoprime_X crcTaps_constant
  constructor
  · intro h
    have hgenerator : x25Generator ∣ signPolynomial message ^ 7 * signFactor message :=
      hcoprime.pow_right.dvd_of_dvd_mul_left ((dvd_mul_left _ _).trans h)
    have hpower : x25Generator ∣ signPolynomial message ^ 8 := by
      rw [signPolynomial_pow_eight]
      exact Dvd.dvd.mul_left hgenerator _
    exact (x25Generator_squarefree.dvd_pow_iff_dvd (by decide)).mp hpower
  · intro h
    apply (hcoprime.symm.pow_left).mul_dvd (X_pow_dvd_excess message)
    exact Dvd.dvd.mul_left (Dvd.dvd.mul_right (dvd_pow h (by decide)) _) _

/-- What the sign of the last byte leaves in the register above the checksum. -/
noncomputable def lastExcess (message : List Byte) : (ZMod 2)[X] :=
  ofBits (List.replicate 8 ((topBits message).getLastD false) ++ List.replicate 8 false)

theorem degree_lastExcess_lt (message : List Byte) : (lastExcess message).degree < 16 :=
  degree_ofBits_lt _

theorem lastExcess_eq (message : List Byte) :
    lastExcess message = X ^ 8 * (C (lastTop message) * ones 8) := by
  rw [lastExcess, ofBits_append, ofBits_replicate_false, add_zero, ofBits_replicate,
    List.length_replicate, lastTop, mul_comm]

theorem signDifference_add_lastExcess (message : List Byte) :
    ofBits (lsbFirst (signDifference message)) + lastExcess message =
      (ofBits (lsbFirst (signDifference message)) +
          X ^ 8 * ones 24 * ofBits (topBits message) ^ 8) +
        X ^ 8 * (signPolynomial message ^ 7 * signFactor message) := by
  have htwo : (2 : (ZMod 2)[X]) = 0 := CharTwo.two_eq_zero
  rw [lastExcess_eq, ← excess_eq]
  linear_combination (-X ^ 8 * ones 24 * ofBits (topBits message) ^ 8) * htwo

/-- The registers agree in the checksum exactly when the last sign is all they differ by. -/
theorem degree_signDifference_lt_iff (message : List Byte) :
    (ofBits (lsbFirst (signDifference message))).degree < 16 ↔
      x25Generator ∣ signPolynomial message := by
  have hdifference := dvd_signDifference message
  have hlast := degree_lastExcess_lt message
  have hsum := signDifference_add_lastExcess message
  rw [← dvd_excess_iff]
  constructor
  · intro hdegree
    have hzero : ofBits (lsbFirst (signDifference message)) + lastExcess message = 0 := by
      by_contra hne
      apply (monic_X_pow 16).not_dvd_of_degree_lt hne
      · rw [degree_X_pow]
        exact lt_of_le_of_lt (degree_add_le _ _) (max_lt hdegree hlast)
      · rw [hsum]
        exact dvd_add ((dvd_mul_right _ _).trans hdifference) (X_pow_dvd_excess message)
    rw [hzero] at hsum
    exact (dvd_add_right hdifference).mp (hsum ▸ dvd_zero _)
  · intro hdvd
    have hsame : ofBits (lsbFirst (signDifference message)) = lastExcess message := by
      apply @eq_of_dvd_sub _ wideTaps
      · exact degree_ofBits_lsbFirst_lt _
      · exact lt_trans hlast (by decide)
      · rw [CharTwo.sub_eq_add, generator_wideTaps, hsum]
        exact dvd_add hdifference hdvd
    rw [hsame]
    exact hlast

theorem same_bytes_iff_dvd (message : List Byte) :
    (crcLowSigned message, crcHighSigned message) = (crcLow message, crcHigh message) ↔
      x25Generator ∣ signPolynomial message := by
  rw [same_bytes_iff, ← degree_signDifference_lt_iff]
  exact (degree_lt_iff_setWidth_eq_zero (show 16 ≤ 32 by decide) _).symm

def Accepts (low high first second : Byte) : Prop := low = first ∧ high = second

theorem signedness_iff (message : List Byte) :
    ((crcLowSigned message, crcHighSigned message) = (crcLow message, crcHigh message) ∧
      ∀ first second,
        Accepts (crcLowSigned message) (crcHighSigned message) first second ↔
          Accepts (crcLow message) (crcHigh message) first second) ↔
      x25Generator ∣ signPolynomial message := by
  rw [← same_bytes_iff_dvd]
  constructor
  · exact fun h => h.1
  · intro hpair
    refine ⟨hpair, fun first second => ?_⟩
    obtain ⟨hlow, hhigh⟩ := Prod.mk.inj hpair
    rw [hlow, hhigh]

/-- One byte from 128 on is enough. -/
theorem signedness_oneByte : ¬ ∀ message : List Byte,
    ((crcLowSigned message, crcHighSigned message) = (crcLow message, crcHigh message) ∧
      ∀ first second,
        Accepts (crcLowSigned message) (crcHighSigned message) first second ↔
          Accepts (crcLow message) (crcHigh message) first second) := by
  intro hsame
  have hpair := (hsame [0x80#8]).1
  exact absurd hpair (by decide +kernel)

/-! ## Short frames -/

theorem signPolynomial_ascii {message : List Byte} (h : true ∉ topBits message) :
    signPolynomial message = 0 := by
  have hzeros := eq_replicate_false h
  have hlast : lastTop message = 0 := by
    have hmem : (topBits message).getLastD false ∈ false :: topBits message :=
      List.getLastD_mem_cons
    rw [lastTop]
    cases hbit : (topBits message).getLastD false with
    | false => rfl
    | true =>
        rw [hbit] at hmem
        simp [h] at hmem
  rw [signPolynomial, hlast, hzeros, ofBits_replicate_false, C_0, mul_zero, mul_zero, add_zero]

theorem degree_signPolynomial {message : List Byte} (h : true ∈ topBits message) :
    (signPolynomial message).degree = 3 + (ofBits (topBits message)).degree := by
  have hne : ofBits (topBits message) ≠ 0 := fun hzero => ofBits_eq_zero hzero h
  have hproduct : ((X ^ 3 + 1) * ofBits (topBits message)).degree =
      3 + (ofBits (topBits message)).degree := by
    rw [degree_mul]
    congr 1
    exact degree_X_pow_add_C (by decide) (1 : ZMod 2)
  have hlast : ((X + 1) * C (lastTop message)).degree < 3 := by
    apply lt_of_le_of_lt (degree_mul_le _ _)
    have hsum : (X + 1 : (ZMod 2)[X]).degree + (C (lastTop message)).degree ≤ 1 + 0 :=
      add_le_add (le_of_eq (degree_X_add_C 1)) degree_C_le
    exact lt_of_le_of_lt hsum (by decide)
  rw [signPolynomial, degree_add_eq_left_of_degree_lt, hproduct]
  rw [hproduct]
  exact lt_of_lt_of_le hlast (le_add_of_nonneg_right (zero_le_degree_iff.mpr hne))

/-- In a frame of at most thirteen bytes nothing makes up for a byte from 128 on. -/
theorem same_bytes_short {message : List Byte} (hshort : message.length ≤ 13) :
    (crcLowSigned message, crcHighSigned message) = (crcLow message, crcHigh message) ↔
      ∀ byte ∈ message, byte.msb = false := by
  have hascii : (∀ byte ∈ message, byte.msb = false) ↔ true ∉ topBits message := by
    simp [topBits]
  rw [hascii, same_bytes_iff_dvd]
  constructor
  · intro hdvd htop
    have hne : ofBits (topBits message) ≠ 0 := fun hzero => ofBits_eq_zero hzero htop
    have hdegree : (signPolynomial message).degree =
        ((3 + (ofBits (topBits message)).natDegree : Nat) : WithBot Nat) := by
      rw [degree_signPolynomial htop, degree_eq_natDegree hne]
      rfl
    have htops : (ofBits (topBits message)).natDegree < 13 := by
      have hlength := degree_ofBits_lt (topBits message)
      rw [degree_eq_natDegree hne, topBits, List.length_map] at hlength
      exact lt_of_lt_of_le (by exact_mod_cast hlength) hshort
    rw [← generator_crcTaps] at hdvd
    apply (generator_monic crcTaps).not_dvd_of_degree_lt _ _ hdvd
    · intro hzero
      rw [hzero, degree_zero] at hdegree
      exact WithBot.bot_ne_coe hdegree
    · rw [degree_generator, hdegree]
      exact_mod_cast (show 3 + (ofBits (topBits message)).natDegree < 16 by omega)
  · intro hnone
    rw [signPolynomial_ascii hnone]
    exact dvd_zero _

end BBCodeBase.SerialComm
