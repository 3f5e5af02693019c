import Mathlib.Data.List.Basic
import Mathlib.Tactic.SplitIfs
import TransactionEngine.Text.Bytes

/-!
# Bytes of texts

The bytes of a text are those of its characters, one behind the other. The byte of a character below
0x80 stands for that character alone, and no byte of a text is above 0xF7.
-/

namespace TransactionEngine.Text

lemma bytes_eq_flatMap (s : String) : bytes s = s.toList.flatMap String.utf8EncodeChar := by
  rw [bytes, ← String.utf8Encode_toList]
  simp [List.utf8Encode]

lemma bytes_append (s t : String) : bytes (s ++ t) = bytes s ++ bytes t := by
  simp only [bytes_eq_flatMap, String.toList_append, List.flatMap_append]

lemma bytes_injective {s t : String} (h : bytes s = bytes t) : s = t := by
  rw [← String.toByteArray_inj]
  exact ByteArray.ext (Array.toList_inj.1 h)

lemma ofBytes?_bytes (s : String) : ofBytes? (bytes s) = some s := by
  have hbytes : (⟨(bytes s).toArray⟩ : ByteArray) = s.toByteArray := by simp [bytes]
  rw [ofBytes?, hbytes, String.fromUTF8?, dif_pos s.isValidUTF8]
  rfl

/-- A byte of a character is the character's number, or lies above all characters of one byte. -/
lemma mem_utf8EncodeChar {b : UInt8} {c : Char} (h : b ∈ String.utf8EncodeChar c) :
    c.toNat < 0x80 ∧ b.toNat = c.toNat ∨ 0x80 ≤ c.toNat ∧ 0x80 ≤ b.toNat ∧ b.toNat < 0xF8 := by
  have hnat {n : Nat} (h : b = UInt8.ofNat n) : b.toNat = n % 256 := by
    rw [h, UInt8.toNat_ofNat']
  have hc : c.val.toNat = c.toNat := rfl
  unfold String.utf8EncodeChar at h
  dsimp only at h
  split_ifs at h
  · have hb := hnat (List.mem_singleton.1 h)
    omega
  -- In the other cases a mark is added to some digits in base 64.
  all_goals simp only [List.mem_cons, List.not_mem_nil, or_false] at h
  · rcases h with h | h <;> (have hb := hnat h; omega)
  · rcases h with h | h | h <;> (have hb := hnat h; omega)
  · rcases h with h | h | h | h <;> (have hb := hnat h; omega)

lemma eq_of_mem_utf8EncodeChar {b : UInt8} {c : Char} (h : b ∈ String.utf8EncodeChar c)
    (hb : b < 0x80) : c = Char.ofNat b.toNat := by
  rcases mem_utf8EncodeChar h with ⟨-, hc⟩ | ⟨-, hle, -⟩
  · rw [hc, Char.ofNat_toNat]
  · have hlt := UInt8.lt_iff_toNat_lt.1 hb
    change b.toNat < 0x80 at hlt
    omega

end TransactionEngine.Text
