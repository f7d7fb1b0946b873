import BBCodeBase.Foundation.ShiftRegister
import BBCodeBase.SerialComm.Crc

/-!
# The frame check is CRC-16/X-25

`calc_crc` shifts a 16-bit register with a whole byte XORed in at once.  Below it
is shown to be the complemented and reflected remainder of a polynomial
division of the message bits.
-/

namespace BBCodeBase.SerialComm

open BitPolynomial Polynomial

/-! ## The standard -/

def messageBits (message : List Byte) : List Bool := message.flatMap lsbFirst

noncomputable def x25Generator : (ZMod 2)[X] := X ^ 16 + X ^ 12 + X ^ 5 + 1

/--
The remainder of the message bits, in the order of transmission, by the
generator: sixteen zeros follow the message and the register is preset to ones.
-/
noncomputable def x25Remainder (message : List Byte) : (ZMod 2)[X] :=
  (ofBits (List.replicate 16 true) * X ^ (messageBits message).length +
    ofBits (messageBits message) * X ^ 16) %ₘ x25Generator

noncomputable def reflected (remainder : (ZMod 2)[X]) : BitVec 16 :=
  BitVec.ofNat 16
    (Nat.ofBits fun index : Fin 16 => decide (remainder.coeff (15 - index) = 1))

/-- CRC-16/X-25: the remainder is reflected and complemented. -/
noncomputable def crcX25 (message : List Byte) : BitVec 16 :=
  ~~~ reflected (x25Remainder message)

/-! ## The register of the code -/

abbrev crcTaps : BitVec 16 := 0x8408#16

def crcRegister (message : List Byte) : BitVec 16 :=
  message.foldl (absorb crcTaps) 0xFFFF#16

theorem crcBit_setWidth (register : BitVec 16) :
    crcBit (register.setWidth 32) = (shift crcTaps register).setWidth 32 := by
  have hlow : register.setWidth 32 &&& 0x0001#32 ≠ 0#32 ↔
      register.getLsbD 0 = true := by
    rw [BitVec.and_one_eq_setWidth_ofBool_getLsbD]
    have hbit : (register.setWidth 32).getLsbD 0 = register.getLsbD 0 := by simp
    rw [hbit]
    cases register.getLsbD 0 <;> decide
  unfold crcBit shift
  simp only [hlow]
  split
  · rw [BitVec.setWidth_xor, BitVec.setWidth_ushiftRight (by decide)]
    rfl
  · rw [BitVec.setWidth_ushiftRight (by decide)]

theorem crcByte_setWidth (register : BitVec 16) (byte : Byte) :
    crcByte (register.setWidth 32) byte =
      (absorb crcTaps register byte).setWidth 32 := by
  have hbits : ∀ count (start : BitVec 16),
      crcBit^[count] (start.setWidth 32) =
        ((shift crcTaps)^[count] start).setWidth 32 := by
    intro count
    induction count with
    | zero => exact fun _ => rfl
    | succ count ih =>
        intro start
        rw [Function.iterate_succ_apply, Function.iterate_succ_apply,
          crcBit_setWidth, ih]
  have hxor : register.setWidth 32 ^^^ byte.setWidth 32 =
      (register ^^^ byte.setWidth 16).setWidth 32 := by
    rw [BitVec.setWidth_xor, BitVec.setWidth_setWidth (by decide)]
  rw [crcByte, hxor, hbits, absorb]

theorem not_eq_xor (register : BitVec 16) : ~~~ register = register ^^^ 0xFFFF#16 :=
  BitVec.xor_allOnes.symm

theorem calcCrc_eq_register (message : List Byte) :
    calcCrc message = (~~~ crcRegister message).setWidth 32 := by
  have hfold : ∀ register : BitVec 16,
      message.foldl crcByte (register.setWidth 32) =
        (message.foldl (absorb crcTaps) register).setWidth 32 := by
    induction message with
    | nil => exact fun _ => rfl
    | cons byte message ih =>
        intro register
        rw [List.foldl_cons, List.foldl_cons, crcByte_setWidth, ih]
  have hstart : (0xFFFF#32 : BitVec 32) = (0xFFFF#16).setWidth 32 := by decide
  rw [calcCrc, hstart, hfold, not_eq_xor, BitVec.setWidth_xor, crcRegister]

theorem generator_crcTaps : generator crcTaps = x25Generator := by
  have hbits : lsbFirst crcTaps =
      [false, false, false, true, false, false, false, false,
        false, false, true, false, false, false, false, true] := by decide
  rw [generator, hbits, x25Generator]
  simp [ofBits_cons]
  ring

theorem ofBits_crcRegister (message : List Byte) :
    ofBits (lsbFirst (crcRegister message)) = x25Remainder message := by
  have hpreset : lsbFirst 0xFFFF#16 = List.replicate 16 true := by decide
  rw [crcRegister, ofBits_foldl_absorb (by decide), remainder, generator_crcTaps,
    hpreset]
  rfl

theorem reflected_lsbFirst (register : BitVec 16) :
    reflected (ofBits (lsbFirst register)) = register := by
  apply BitVec.eq_of_getLsbD_eq
  intro index hindex
  have hcoeff := coeff_ofBits (by simpa using hindex : index < (lsbFirst register).length)
  rw [getElem_lsbFirst] at hcoeff
  simp only [length_lsbFirst] at hcoeff
  rw [reflected, BitVec.getLsbD_ofNat, Nat.testBit_ofBits_lt _ _ hindex, hcoeff]
  cases register.getLsbD index <;> simp [hindex]

theorem calcCrc_eq_crcX25 (message : List Byte) :
    calcCrc message = (crcX25 message).setWidth 32 := by
  rw [calcCrc_eq_register, crcX25, ← ofBits_crcRegister, reflected_lsbFirst]

/-! ## The two checksum bytes -/

/-- The checksum bytes are the low half of what `calc_crc` returns. -/
theorem bytes_append (crc : BitVec 32) :
    (crc >>> 8).setWidth 8 ++ (crc &&& 0x00FF#32).setWidth 8 = crc.setWidth 16 := by
  apply BitVec.eq_of_getLsbD_eq
  intro index hindex
  rw [BitVec.getLsbD_append]
  by_cases hlow : index < 8
  · have hmask : (0x00FF#32).getLsbD index = true := by
      decide +revert
    simp only [hlow, hindex, if_true, BitVec.getLsbD_setWidth, BitVec.getLsbD_and, hmask,
      decide_true, Bool.true_and, Bool.and_true]
  · obtain ⟨offset, rfl⟩ := Nat.exists_eq_add_of_le (Nat.le_of_not_lt hlow)
    have hbyte : offset < 8 := by omega
    simp [hbyte, hindex]

theorem crcHigh_append_crcLow (message : List Byte) :
    crcHigh message ++ crcLow message = ~~~ crcRegister message := by
  rw [crcHigh, crcLow, bytes_append, calcCrc_eq_register,
    BitVec.setWidth_setWidth_of_le _ (by decide), BitVec.setWidth_eq]

theorem pair_injective {low high low' high' : Byte} (h : high ++ low = high' ++ low') :
    low = low' ∧ high = high' := by
  have hlow := congrArg (BitVec.setWidth 8) h
  rw [BitVec.setWidth_append_eq_right, BitVec.setWidth_append_eq_right] at hlow
  rw [hlow, BitVec.append_left_inj] at h
  exact ⟨hlow, h⟩

/-- The register that every message with its own checksum leaves behind. -/
theorem shift_complement : (shift crcTaps)^[16] 0xFFFF#16 = ~~~ 0x0F47#16 := by
  decide +kernel

theorem crcTaps_constant : (generator crcTaps).coeff 0 = 1 := by
  rw [generator_crcTaps, x25Generator]
  simp [coeff_one]

theorem crcRegister_append (message : List Byte) (low high : Byte) :
    crcRegister (message ++ [low, high]) =
      absorb crcTaps (crcRegister message) (high ++ low) := by
  rw [← foldl_absorb_pair (by decide), crcRegister, crcRegister, List.foldl_append]

theorem calcCrc_append_iff (message : List Byte) (low high : Byte) :
    calcCrc (message ++ [low, high]) = 0x0F47#32 ↔
      low = crcLow message ∧ high = crcHigh message := by
  have hresidue : calcCrc (message ++ [low, high]) = 0x0F47#32 ↔
      (shift crcTaps)^[16] (crcRegister message ^^^ (high ++ low)) =
        (shift crcTaps)^[16] 0xFFFF#16 := by
    rw [calcCrc_eq_register, crcRegister_append, absorb, BitVec.setWidth_eq,
      shift_complement]
    constructor
    · intro h
      have hnarrow := congrArg (BitVec.setWidth 16) h
      rw [BitVec.setWidth_setWidth_of_le _ (by decide), BitVec.setWidth_eq] at hnarrow
      rw [← BitVec.not_not (b := (shift crcTaps)^[16] _), hnarrow]
      rfl
    · intro h
      rw [h]
      rfl
  have hcomplement : 0xFFFF#16 = crcRegister message ^^^ ~~~ crcRegister message := by
    rw [not_eq_xor, ← BitVec.xor_assoc, BitVec.xor_self, BitVec.zero_xor]
  rw [hresidue, (shift_injective crcTaps_constant).iterate 16 |>.eq_iff, hcomplement,
    BitVec.xor_right_inj, ← crcHigh_append_crcLow]
  constructor
  · exact pair_injective
  · rintro ⟨rfl, rfl⟩
    rfl

theorem calcCrc_standard (message : List Byte) :
    (calcCrc message).toNat < 2 ^ 16 ∧
      calcCrc message = (crcX25 message).setWidth 32 ∧
      calcCrc (message ++ [crcLow message, crcHigh message]) = 0x0F47#32 ∧
      ∀ low high, calcCrc (message ++ [low, high]) = 0x0F47#32 →
        low = crcLow message ∧ high = crcHigh message := by
  refine ⟨?_, calcCrc_eq_crcX25 message, ?_, fun low high => ?_⟩
  · rw [calcCrc_eq_crcX25, BitVec.toNat_setWidth_of_le (by decide)]
    exact (crcX25 message).isLt
  · exact (calcCrc_append_iff message _ _).mpr ⟨rfl, rfl⟩
  · exact (calcCrc_append_iff message low high).mp

end BBCodeBase.SerialComm
