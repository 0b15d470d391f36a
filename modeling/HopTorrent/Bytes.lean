/-!
# Bytes — byte sequences and the texts they encode

What travels on a wire is a list of bytes.  A text and its UTF-8 bytes determine each other
(`ofUtf8?_utf8`), so a host name can be carried either way.
-/

namespace HopTorrent

/-- What travels on a wire. -/
abbrev Bytes := List UInt8

namespace Bytes

/-- The UTF-8 bytes of a text. -/
def utf8 (s : String) : Bytes := s.toUTF8.data.toList

/-- The text that bytes encode, if they are valid UTF-8. -/
def ofUtf8? (bs : Bytes) : Option String := String.fromUTF8? ⟨bs.toArray⟩

/-- The two bytes of a number below `2 ^ 16`, most significant first. -/
def ofPort (n : Nat) : Bytes := [UInt8.ofNat (n / 256), UInt8.ofNat n]

/-- The number two bytes spell, most significant first. -/
def toPort (hi lo : UInt8) : Nat := hi.toNat * 256 + lo.toNat

/-! ## Texts and their bytes -/

/-- **A text is read back from its bytes.** -/
@[simp] theorem ofUtf8?_utf8 (s : String) : ofUtf8? (utf8 s) = some s := by
  have e : (⟨(utf8 s).toArray⟩ : ByteArray) = s.toUTF8 := by simp [utf8]
  have h : s.toUTF8.IsValidUTF8 := s.isValidUTF8
  rw [ofUtf8?, e]
  exact dif_pos h

/-- **Bytes are read as a text** exactly when they are the bytes of it. -/
theorem ofUtf8?_eq_some_iff {bs : Bytes} {s : String} : ofUtf8? bs = some s ↔ utf8 s = bs := by
  constructor
  · intro h
    rw [ofUtf8?, String.fromUTF8?] at h
    split at h
    · rw [← Option.some.inj h]
      simp [utf8, String.toUTF8, String.fromUTF8]
    · cases h
  · rintro rfl
    exact ofUtf8?_utf8 s

/-- A text has as many bytes as its UTF-8 size says. -/
@[simp] theorem length_utf8 (s : String) : (utf8 s).length = s.utf8ByteSize := by
  simp only [utf8, Array.length_toList]
  rfl

/-- **A port is read back from its two bytes.** -/
theorem toPort_ofPort {n : Nat} (h : n < 65536) :
    toPort (UInt8.ofNat (n / 256)) (UInt8.ofNat n) = n := by
  simp only [toPort, UInt8.toNat_ofNat']
  omega

/-- Two bytes spell a port. -/
theorem toPort_lt (hi lo : UInt8) : toPort hi lo < 65536 := by
  have hhi := hi.toNat_lt
  have hlo := lo.toNat_lt
  rw [toPort]
  omega

/-- **Two bytes are read back from the port they spell.** -/
theorem ofPort_toPort (hi lo : UInt8) : ofPort (toPort hi lo) = [hi, lo] := by
  have hlo := lo.toNat_lt
  have hdiv : (hi.toNat * 256 + lo.toNat) / 256 = hi.toNat := by omega
  have hmod : UInt8.ofNat (hi.toNat * 256 + lo.toNat) = lo := by
    refine UInt8.toNat_inj.mp ?_
    rw [UInt8.toNat_ofNat']
    omega
  rw [ofPort, toPort, hdiv, hmod, UInt8.ofNat_toNat]

end Bytes

end HopTorrent
