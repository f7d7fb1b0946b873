import BBCodeBase.SerialComm.FrameCheck
import BBCodeBase.SerialComm.Protocol

/-!
# What the frame check detects

An error pattern passes the comparison of `upload_data` only when the generator
divides it.  That excludes bursts of at most sixteen bits, an odd number of
wrong bits, and two wrong bits in a frame shorter than the period of the
register.
-/

namespace BBCodeBase.SerialComm

open BitPolynomial Polynomial

def corrupt (message errors : List Byte) : List Byte :=
  List.zipWith (· ^^^ ·) message errors

/-- The wrong bits of payload and checksum, in the order of transmission. -/
def errorBits (errors : List Byte) (low high : Byte) : List Bool :=
  messageBits (errors ++ [low, high])

def WithinBurst (span : Nat) (errors : List Bool) : Prop :=
  ∃ start, ∀ index (h : index < errors.length),
    errors[index] = true → start ≤ index ∧ index < start + span

theorem messageBits_append (first second : List Byte) :
    messageBits (first ++ second) = messageBits first ++ messageBits second :=
  List.flatMap_append

theorem length_messageBits (message : List Byte) :
    (messageBits message).length = 8 * message.length := by
  induction message with
  | nil => rfl
  | cons byte message ih =>
      rw [messageBits, List.flatMap_cons, List.length_append, length_lsbFirst,
        ← messageBits, ih, List.length_cons]
      omega

theorem messageBits_corrupt {message errors : List Byte}
    (hlength : message.length = errors.length) :
    messageBits (corrupt message errors) =
      List.zipWith xor (messageBits message) (messageBits errors) := by
  induction message generalizing errors with
  | nil => simp [corrupt, messageBits]
  | cons byte message ih =>
      cases errors with
      | nil => simp at hlength
      | cons error errors =>
          have htail := ih (by simpa using hlength : message.length = errors.length)
          simp only [messageBits, corrupt, List.zipWith_cons_cons,
            List.flatMap_cons, lsbFirst_xor] at htail ⊢
          rw [htail, List.zipWith_append (by simp)]

theorem residue_crcRegister_corrupt {message errors : List Byte}
    (hlength : message.length = errors.length) :
    residue crcTaps (ofBits (lsbFirst (crcRegister (corrupt message errors)))) =
      residue crcTaps (ofBits (lsbFirst (crcRegister message))) +
        residue crcTaps (ofBits (messageBits errors) * X ^ 16) := by
  have hbits : (messageBits message).length = (messageBits errors).length := by
    rw [length_messageBits, length_messageBits, hlength]
  have hregister : ∀ text, ofBits (lsbFirst (crcRegister text)) =
      remainder crcTaps 0xFFFF#16 (messageBits text) :=
    fun text => ofBits_foldl_absorb (by decide) _ _ text
  rw [hregister, hregister, messageBits_corrupt hlength, residue_remainder_xor _ _ hbits]

/-- The comparison succeeds on a corrupted message only if the error is a multiple. -/
theorem dvd_of_accepted {message errors : List Byte} {low high : Byte}
    (hlength : message.length = errors.length)
    (hlow : crcLow (corrupt message errors) = crcLow message ^^^ low)
    (hhigh : crcHigh (corrupt message errors) = crcHigh message ^^^ high) :
    generator crcTaps ∣ ofBits (errorBits errors low high) := by
  have hregister : crcRegister (corrupt message errors) =
      crcRegister message ^^^ (high ++ low) := by
    have hpair := crcHigh_append_crcLow (corrupt message errors)
    rw [hlow, hhigh, ← BitVec.xor_append, crcHigh_append_crcLow, not_eq_xor, not_eq_xor,
      BitVec.xor_assoc, BitVec.xor_comm 0xFFFF#16, ← BitVec.xor_assoc] at hpair
    exact ((BitVec.xor_left_inj _).mp hpair).symm
  have herror : residue crcTaps (ofBits (lsbFirst (high ++ low))) =
      residue crcTaps (ofBits (messageBits errors) * X ^ 16) := by
    have hresidue := residue_crcRegister_corrupt hlength
    rw [hregister, ofBits_lsbFirst_xor, map_add] at hresidue
    exact add_left_cancel hresidue
  have hbits : errorBits errors low high =
      messageBits errors ++ lsbFirst (high ++ low) := by
    rw [errorBits, messageBits_append, lsbFirst_append]
    simp [messageBits]
  rw [hbits, ofBits_append, length_lsbFirst, ← CharTwo.sub_eq_add]
  exact AdjoinRoot.mk_eq_mk.mp herror.symm

/-! ## The generator of the code -/

theorem x25Generator_eval_one : (generator crcTaps).eval 1 = 0 := by
  rw [generator_crcTaps, x25Generator]
  simp only [eval_add, eval_pow, eval_X, eval_one, one_pow]
  decide

/-- No frame of the link is as long as the period of the register. -/
theorem crcTaps_period {apart : Nat} (hpos : 0 < apart) (hapart : apart ≤ 2040) :
    (shift crcTaps)^[apart] 1#16 ≠ 1#16 :=
  iterate_shift_ne (by decide +kernel : avoids crcTaps 1#16 2040 1#16 = true) hpos hapart

theorem WithinBurst.split {span : Nat} {errors : List Bool}
    (h : WithinBurst span errors) :
    ∃ before burst after, burst.length ≤ span ∧
      errors = List.replicate before false ++ (burst ++ List.replicate after false) := by
  obtain ⟨start, hinside⟩ := h
  have hbefore : true ∉ errors.take start := by
    intro hmem
    obtain ⟨index, hindex, hvalue⟩ := List.getElem_of_mem hmem
    have hstart := hinside index (by simp at hindex; omega) (by simpa using hvalue)
    simp at hindex
    omega
  have hafter : true ∉ (errors.drop start).drop span := by
    intro hmem
    obtain ⟨index, hindex, hvalue⟩ := List.getElem_of_mem hmem
    rw [List.getElem_drop, List.getElem_drop] at hvalue
    have hstart := hinside _ (by simp at hindex; omega) hvalue
    omega
  refine ⟨(errors.take start).length, (errors.drop start).take span,
    ((errors.drop start).drop span).length, by simp, ?_⟩
  rw [← eq_replicate_false hbefore, ← eq_replicate_false hafter,
    List.take_append_drop, List.take_append_drop]

theorem not_dvd_errorBits {errors : List Byte} {low high : Byte}
    (hshort : errors.length + 2 ≤ 255) (hwrong : true ∈ errorBits errors low high)
    (hkind : WithinBurst 16 (errorBits errors low high) ∨
      (errorBits errors low high).count true = 2 ∨
      Odd ((errorBits errors low high).count true)) :
    ¬ generator crcTaps ∣ ofBits (errorBits errors low high) := by
  have hlength : (errorBits errors low high).length ≤ 2040 := by
    rw [errorBits, length_messageBits, List.length_append]
    simp
    omega
  rcases hkind with hburst | hdouble | hodd
  · obtain ⟨before, burst, after, hspan, hsplit⟩ := hburst.split
    intro hdvd
    rw [hsplit] at hdvd hwrong
    have hclear := burst_of_dvd crcTaps_constant hspan hdvd
    simp [hclear] at hwrong
  · apply @double_not_dvd _ crcTaps 1#16
    · exact crcTaps_constant
    · intro apart hpos hapart
      exact crcTaps_period hpos (by omega)
    · exact hdouble
  · intro hdvd
    have heven := even_count_of_dvd x25Generator_eval_one hdvd
    exact Nat.not_even_iff_odd.mpr hodd heven

/-! ## The comparison of `upload_data` -/

/-- A bad pair of checksum bytes is answered with `'&'`, and nothing is accepted. -/
theorem checkFrame_rejects {upload : Upload} {frame : List Byte} {first second : Byte}
    (hcheck : upload.checkChksum = true)
    (hframe : upload.tempBuffer.slice? 0 upload.length = some frame)
    (hfirst : upload.chkSum.load? 0 = some first)
    (hsecond : upload.chkSum.load? 1 = some second)
    (hmismatch : ¬ (crcLow frame = first ∧ crcHigh frame = second)) (writeOk : Bool) :
    replies (checkFrame upload writeOk).1 = [0x26#8] ∧
      acked (checkFrame upload writeOk).1 = [] := by
  unfold checkFrame
  simp only [hcheck, if_true, hframe, hfirst, hsecond, if_neg hmismatch]
  cases writeOk <;> exact ⟨rfl, rfl⟩

theorem frameCheck_detects (length low high : Byte) (payload errors : List Byte)
    (hlength : 3 ≤ length.toNat) (hpayload : payload.length + 2 = length.toNat)
    (herrors : errors.length = payload.length)
    (hwrong : true ∈ errorBits errors low high)
    (hkind : WithinBurst 16 (errorBits errors low high) ∨
      (errorBits errors low high).count true = 2 ∨
      Odd ((errorBits errors low high).count true)) :
    ¬ (crcLow (frameOf length (corrupt payload errors)) =
          crcLow (frameOf length payload) ^^^ low ∧
        crcHigh (frameOf length (corrupt payload errors)) =
          crcHigh (frameOf length payload) ^^^ high) ∧
      ∀ (upload : Upload) (writeOk : Bool), upload.checkChksum = true →
        upload.tempBuffer.slice? 0 upload.length =
          some (frameOf length (corrupt payload errors)) →
        upload.chkSum.load? 0 = some (crcLow (frameOf length payload) ^^^ low) →
        upload.chkSum.load? 1 = some (crcHigh (frameOf length payload) ^^^ high) →
        replies (checkFrame upload writeOk).1 = [0x26#8] ∧
          acked (checkFrame upload writeOk).1 = [] := by
  have hmismatch : ¬ (crcLow (frameOf length (corrupt payload errors)) =
      crcLow (frameOf length payload) ^^^ low ∧
      crcHigh (frameOf length (corrupt payload errors)) =
        crcHigh (frameOf length payload) ^^^ high) := by
    rintro ⟨hlow, hhigh⟩
    have hframe : frameOf length (corrupt payload errors) =
        corrupt (frameOf length payload) (0#8 :: 0#8 :: errors) := by
      simp [frameOf, corrupt]
    have hlengths : (frameOf length payload).length = (0#8 :: 0#8 :: errors).length := by
      simp [frameOf, herrors]
    rw [hframe] at hlow hhigh
    have hdvd := dvd_of_accepted hlengths hlow hhigh
    have hzeros : ofBits (errorBits (0#8 :: 0#8 :: errors) low high) =
        ofBits (errorBits errors low high) := by
      have hzero : lsbFirst 0#8 = List.replicate 8 false := by decide
      simp only [errorBits, messageBits, List.cons_append, List.flatMap_cons, hzero,
        ofBits_append, ofBits_replicate_false, zero_mul, zero_add]
    rw [hzeros] at hdvd
    have := length.isLt
    exact not_dvd_errorBits (by omega) hwrong hkind hdvd
  refine ⟨hmismatch, fun upload writeOk hcheck hframe hfirst hsecond => ?_⟩
  exact checkFrame_rejects hcheck hframe hfirst hsecond hmismatch writeOk

/-- One wrong bit in the payload `ABC`. -/
theorem frameCheck_detects_bit :
    ¬ (crcLow (frameOf 5#8 (corrupt [65#8, 66#8, 67#8] [1#8, 0#8, 0#8])) =
          crcLow (frameOf 5#8 [65#8, 66#8, 67#8]) ^^^ 0#8 ∧
        crcHigh (frameOf 5#8 (corrupt [65#8, 66#8, 67#8] [1#8, 0#8, 0#8])) =
          crcHigh (frameOf 5#8 [65#8, 66#8, 67#8]) ^^^ 0#8) :=
  (frameCheck_detects 5#8 0#8 0#8 [65#8, 66#8, 67#8] [1#8, 0#8, 0#8] (by decide) rfl rfl
    (by decide) (.inr (.inr (by decide +kernel)))).1

end BBCodeBase.SerialComm
