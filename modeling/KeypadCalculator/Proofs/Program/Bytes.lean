import Mathlib
import KeypadCalculator.Program

/-!
# Bytes and the texts they encode

Every text can be read from its bytes (`decode?_encode`), and a byte is a newline only where the text
has one (`newline_mem_encode_iff`).
-/

namespace KeypadCalculator.Program

variable {text : List Char} {c : Char}

/-- The bytes of a text. -/
def encode (text : List Char) : List UInt8 :=
  text.flatMap String.utf8EncodeChar

theorem encode_append (first second : List Char) :
    encode (first ++ second) = encode first ++ encode second :=
  List.flatMap_append

/-- A text is read from its bytes. -/
theorem decode?_encode (text : List Char) : decode? (encode text) = some text := by
  have hbytes : (⟨(encode text).toArray⟩ : ByteArray) = (String.ofList text).toByteArray := by
    rw [String.toByteArray_ofList]
    exact ByteArray.ext List.data_toByteArray.symm
  rw [decode?, hbytes, String.fromUTF8?, dif_pos (String.ofList text).isValidUTF8]
  exact congrArg some String.toList_ofList

/-! ## Newlines -/

/-- The bytes of characters other than the first 128 are all from 128 on. -/
theorem newline_mem_utf8EncodeChar_iff : 10 ∈ String.utf8EncodeChar c ↔ c = '\n' := by
  have hbyte {n : ℕ} (h : n < 256) : 10 = UInt8.ofNat n ↔ n = 10 := by
    rw [← UInt8.toNat_inj, UInt8.toNat_ofNat', Nat.mod_eq_of_lt h]
    exact eq_comm
  have hnewline : c = '\n' ↔ c.val.toNat = 10 := by
    rw [← Char.val_inj, ← UInt32.toNat_inj]
    rfl
  rw [hnewline, String.utf8EncodeChar]
  generalize c.val.toNat = v
  split
  · rw [List.mem_singleton, hbyte (by omega)]
  · split
    · simp only [List.mem_cons, List.not_mem_nil, or_false]
      rw [hbyte (by omega), hbyte (by omega)]
      omega
    · split
      · simp only [List.mem_cons, List.not_mem_nil, or_false]
        rw [hbyte (by omega), hbyte (by omega), hbyte (by omega)]
        omega
      · simp only [List.mem_cons, List.not_mem_nil, or_false]
        rw [hbyte (by omega), hbyte (by omega), hbyte (by omega), hbyte (by omega)]
        omega

theorem newline_mem_encode_iff : 10 ∈ encode text ↔ '\n' ∈ text := by
  rw [encode, List.mem_flatMap]
  simp only [newline_mem_utf8EncodeChar_iff]
  simp

theorem encode_ne_nil (h : text ≠ []) : encode text ≠ [] := by
  obtain ⟨c, rest, rfl⟩ := List.exists_cons_of_ne_nil h
  rw [encode, List.flatMap_cons]
  exact List.append_ne_nil_of_left_ne_nil String.utf8EncodeChar_ne_nil _

end KeypadCalculator.Program
