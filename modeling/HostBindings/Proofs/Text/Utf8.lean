import HostBindings.Text.Utf8

/-!
UTF-8 of texts. Octets are read as exactly the text that they encode, and a zero octet stands for
the character zero only, so the octets of a text without it can be ended by a zero.
-/

namespace HostBindings.Text

variable {s t : String} {octets : List UInt8}

theorem encodeUtf8_eq (s : String) : encodeUtf8 s = s.toList.flatMap String.utf8EncodeChar := by
  rw [encodeUtf8, String.toUTF8_eq_toByteArray, ← String.utf8Encode_toList, List.utf8Encode,
    List.data_toByteArray]

/-- Only the character zero has a zero among its octets. -/
theorem zero_mem_utf8EncodeChar {c : Char} : 0 ∈ String.utf8EncodeChar c ↔ c = '\x00' := by
  constructor
  · -- a lead or following octet has its highest bit set, so the zero is a whole character
    fun_cases String.utf8EncodeChar c
    case case1 v hv =>
      intro h
      have hzero : v % 256 = 0 := by simpa [← UInt8.toNat_inj, eq_comm] using h
      have hcode : v = 0 := by omega
      exact Char.ext (UInt32.toNat_inj.mp hcode)
    all_goals
      intro h
      simp [← UInt8.toNat_inj] at h
      omega
  · rintro rfl
    decide

theorem zero_mem_encodeUtf8 : 0 ∈ encodeUtf8 s ↔ '\x00' ∈ s.toList := by
  simp [encodeUtf8_eq, zero_mem_utf8EncodeChar]

theorem encodeUtf8_inj : encodeUtf8 s = encodeUtf8 t ↔ s = t := by
  rw [← String.toByteArray_inj, encodeUtf8, encodeUtf8, Array.toList_inj]
  exact ByteArray.ext_iff.symm

theorem isValidUTF8_iff : ByteArray.IsValidUTF8 ⟨octets.toArray⟩ ↔ ∃ s, encodeUtf8 s = octets := by
  constructor
  · intro h
    exact ⟨String.ofByteArray _ h, List.toList_toArray⟩
  · rintro ⟨s, rfl⟩
    rw [encodeUtf8, Array.toArray_toList]
    exact s.isValidUTF8

/-- Octets are read as a text exactly if they are its encoding. -/
theorem decodeUtf8_eq_ok : decodeUtf8 octets = .ok s ↔ encodeUtf8 s = octets := by
  unfold decodeUtf8 String.fromUTF8?
  by_cases h : ByteArray.IsValidUTF8 ⟨octets.toArray⟩
  · have hread : encodeUtf8 (String.fromUTF8 _ h) = octets := List.toList_toArray
    rw [dif_pos h]
    constructor
    · rintro ⟨⟩
      exact hread
    · intro hs
      rw [← hread, encodeUtf8_inj] at hs
      rw [hs]
  · rw [dif_neg h]
    constructor
    · rintro ⟨⟩
    · exact fun hs => absurd (isValidUTF8_iff.mpr ⟨s, hs⟩) h

end HostBindings.Text
