import BBCodeBase.Foundation.CString
import BBCodeBase.SerialComm.Crc

/-!
# The name of the serial device

`StrMaxCpy` and `StrMaxCat` of `new_serial.c`, and how `main` builds the name of
the device from the port given on the command line.
-/

namespace BBCodeBase.SerialComm

abbrev Text := CString Byte 0#8

variable {size : Nat}

/--
`StrMaxCpy(&dst[start], src, maxLen)`, without the pointer it returns, which is
never used.
-/
def strMaxCpy (dst : Buffer Byte size) (start : Nat) (src : Text) (maxLen : Nat) :
    Option (Buffer Byte size) :=
  if maxLen < 1 then some dst
  else if maxLen = 1 then dst.store? start 0#8
  else do
    let dst ← dst.strncpy? start src (maxLen - 1)
    if src.length + 1 ≥ maxLen then dst.store? (start + (maxLen - 1)) 0#8
    else some dst

def strMaxCat (dst : Buffer Byte size) (src : Text) (maxLen : Nat) :
    Option (Buffer Byte size) := do
  let dstLen ← dst.strlen? 0#8
  if dstLen < maxLen then strMaxCpy dst dstLen src (maxLen - dstLen) else some dst

def devNameSize : Nat := 40

def devDirectory : Text :=
  ⟨[0x2F#8, 0x64#8, 0x65#8, 0x76#8, 0x2F#8], by decide⟩

/--
`devName` as `main` builds it.  Without a port the program reads `portStr[0]`
through a null pointer, before it comes to the test for one.
-/
def buildDevName (devName : Buffer Byte devNameSize) (portStr : Option Text) :
    Option (Buffer Byte devNameSize) := do
  let portStr ← portStr
  let devName ← devName.store? 0 0#8
  let devName ←
    if portStr.first ≠ 0x2F#8 then strMaxCpy devName 0 devDirectory devNameSize
    else some devName
  strMaxCat devName portStr devNameSize

/-! ## Bounded copies -/

theorem strMaxCpy_spec (dst : Buffer Byte size) {start maxLen : Nat} (src : Text)
    (hpos : 0 < maxLen) (hroom : start + maxLen ≤ size) :
    ∃ next, strMaxCpy dst start src maxLen = some next ∧
      next.HoldsString start (src.take (maxLen - 1)) ∧
      dst.SameOutside next start maxLen ∧
      (src.length + 1 < maxLen →
        next.load? (start + (maxLen - 1)) = dst.load? (start + (maxLen - 1))) := by
  unfold strMaxCpy
  rw [if_neg (by omega)]
  by_cases hone : maxLen = 1
  · rw [if_pos hone]
    have hstart : start < size := by omega
    obtain ⟨next, hnext⟩ := dst.store?_isSome 0#8 hstart
    have hload := Buffer.load?_store? hnext
    refine ⟨next, hnext, ?_, fun index houtside => ?_, fun hshort => by omega⟩
    · rw [hone]
      exact .singleton (by rw [hload, if_pos rfl])
    · rw [hload, if_neg (by omega)]
  · rw [if_neg hone]
    have hcopied : start + (maxLen - 1) ≤ size := by omega
    by_cases hlong : src.length + 1 ≥ maxLen
    · -- The terminator is written behind the part that was copied.
      obtain ⟨copied, hcopy, hholds, hsame⟩ :=
        dst.strncpy?_cut hcopied (show maxLen - 1 ≤ src.length by omega)
      have hlast : start + (maxLen - 1) < size := by omega
      obtain ⟨next, hnext⟩ := copied.store?_isSome 0#8 hlast
      have hload := Buffer.load?_store? hnext
      have hlength : (src.take (maxLen - 1)).chars.length = maxLen - 1 := by
        rw [CString.chars_take, List.length_take]
        exact Nat.min_eq_left (by unfold CString.length at hlong; omega)
      refine ⟨next, by simp [hcopy, hlong, hnext], ?_, fun index houtside => ?_,
        fun hshort => by omega⟩
      · apply hholds.snoc
        rw [hlength]
        exact hnext
      · rw [hload, if_neg (by omega)]
        exact hsame index (by omega)
    · obtain ⟨next, hnext, hholds, hsame⟩ :=
        dst.strncpy?_fits hcopied (show src.length < maxLen - 1 by omega)
      refine ⟨next, by simp [hnext, hlong], ?_, fun index houtside => ?_, fun _ => ?_⟩
      · rwa [CString.take_length_le (by omega)]
      · exact hsame index (by omega)
      · exact hsame _ (.inr (by omega))

def boundedCat (maxLen : Nat) (first second : Text) : Text :=
  (first.append second).take (maxLen - 1)

theorem strMaxCat_spec {maxLen : Nat} {dst : Buffer Byte maxLen} {held : Text}
    (hheld : dst.HoldsString 0 held) (src : Text) :
    ∃ next, strMaxCat dst src maxLen = some next ∧
      next.HoldsString 0 (boundedCat maxLen held src) ∧
      (held.length + src.length + 1 < maxLen →
        next.load? (maxLen - 1) = dst.load? (maxLen - 1)) := by
  have hlength : held.length < maxLen := by simpa using hheld.length_lt
  obtain ⟨next, hnext, hholds, hsame, hsentinel⟩ :=
    strMaxCpy_spec dst src (show 0 < maxLen - held.length by omega)
      (show held.length + (maxLen - held.length) ≤ maxLen by omega)
  have hlast : held.length + (maxLen - held.length - 1) = maxLen - 1 := by omega
  refine ⟨next, ?_, ?_, fun hshort => ?_⟩
  · simp only [strMaxCat, hheld.strlen?, Option.bind_eq_bind, Option.bind_some,
      if_pos hlength]
    exact hnext
  · have hkept : next.Holds 0 held.chars :=
      hheld.left.of_load? fun index hindex => hsame index (.inl (by simpa using hindex))
    rw [boundedCat, ← CString.append_take (show held.length ≤ maxLen - 1 by omega)]
    apply Buffer.HoldsString.append hkept
    rw [Nat.zero_add, show maxLen - 1 - held.length = maxLen - held.length - 1 by omega]
    exact hholds
  · have hkept := hsentinel (by omega)
    rwa [hlast] at hkept

/-! ## The device of a port -/

def devicePath (port : Text) : Text :=
  if port.first = 0x2F#8 then port else devDirectory.append port

theorem buildDevName_spec (devName : Buffer Byte devNameSize) (port : Text) :
    ∃ next, buildDevName devName (some port) = some next ∧
      next.HoldsString 0 ((devicePath port).take (devNameSize - 1)) := by
  obtain ⟨cleared, hcleared⟩ :=
    devName.store?_isSome 0#8 (show 0 < devNameSize by decide)
  have hempty : cleared.HoldsString 0 (⟨[], by simp⟩ : Text) :=
    .singleton (by rw [Buffer.load?_store? hcleared, if_pos rfl])
  by_cases hslash : port.first = 0x2F#8
  · obtain ⟨next, hnext, hholds, -⟩ := strMaxCat_spec hempty port
    refine ⟨next, ?_, ?_⟩
    · simp [buildDevName, hcleared, hslash, hnext]
    · rw [devicePath, if_pos hslash]
      exact hholds
  · obtain ⟨directory, hdirectory, hholds, -, -⟩ :=
      strMaxCpy_spec cleared devDirectory (show 0 < devNameSize by decide)
        (show 0 + devNameSize ≤ devNameSize by decide)
    obtain ⟨next, hnext, hresult, -⟩ := strMaxCat_spec hholds port
    refine ⟨next, ?_, ?_⟩
    · simp [buildDevName, hcleared, hslash, hdirectory, hnext]
    · rw [devicePath, if_neg hslash]
      exact hresult

theorem strMaxCat_bounded :
    (∀ (maxLen : Nat) (dst : Buffer Byte maxLen) (held src : Text),
      1 ≤ maxLen → dst.HoldsString 0 held →
      ∃ next, strMaxCat dst src maxLen = some next ∧
        next.HoldsString 0 (boundedCat maxLen held src) ∧
        (held.length + src.length + 1 < maxLen →
          next.load? (maxLen - 1) = dst.load? (maxLen - 1))) ∧
    ∀ (devName : Buffer Byte devNameSize) (port : Text),
      ∃ next, buildDevName devName (some port) = some next ∧
        next.HoldsString 0 ((devicePath port).take 39) :=
  ⟨fun _ _ _ src _ hheld => strMaxCat_spec hheld src, buildDevName_spec⟩

/-- Three bytes leave room for `"/d"`. -/
theorem strMaxCat_bounded_three :
    ∃ next : Buffer Byte 3, strMaxCat ⟨fun _ => 0#8⟩ devDirectory 3 = some next ∧
      next.HoldsString 0 (⟨[0x2F#8, 0x64#8], by decide⟩ : Text) := by
  have hempty : (⟨fun _ => 0#8⟩ : Buffer Byte 3).HoldsString 0 (⟨[], by decide⟩ : Text) :=
    .singleton rfl
  obtain ⟨next, hnext, hholds, -⟩ :=
    strMaxCat_bounded.1 3 ⟨fun _ => 0#8⟩ ⟨[], by decide⟩ devDirectory (by decide) hempty
  exact ⟨next, hnext, hholds⟩

end BBCodeBase.SerialComm
