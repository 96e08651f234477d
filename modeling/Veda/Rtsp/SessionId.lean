import Mathlib.Data.Nat.Digits.Lemmas
import Veda.Cpp

/-!
The text of a session id: the number that was drawn, in eight upper case hexadecimal digits.
-/
namespace Veda.Rtsp

open Cpp

/-- A digit under `std::hex << std::uppercase`. -/
def hexDigit (d : Nat) : UInt8 := UInt8.ofNat (if d < 10 then 48 + d else 55 + d)

/-- Hexadecimal output of an unsigned value. -/
def hexText (n : Nat) : Bytes := if n = 0 then [48] else (Nat.digits 16 n).reverse.map hexDigit

/-- `std::setfill('0') << std::setw(width)` -/
def padded (width : Nat) (text : Bytes) : Bytes := List.replicate (width - text.length) 48 ++ text

/-- `generate_session_id`, with the number that the generator draws. -/
def generateSessionId (drawn : UInt32) : Bytes := padded 8 (hexText drawn.toNat)

/-- The value of a digit, and of a text. -/
def hexValue (b : UInt8) : Nat := if b.toNat < 58 then b.toNat - 48 else b.toNat - 55

def readHex (text : Bytes) : Nat := Nat.ofDigits 16 (text.reverse.map hexValue)

variable {d : Nat}

theorem hexDigit_toNat (h : d < 16) :
    (hexDigit d).toNat = if d < 10 then 48 + d else 55 + d := by
  rw [hexDigit, UInt8.toNat_ofNat']
  split <;> omega

theorem hexValue_hexDigit (h : d < 16) : hexValue (hexDigit d) = d := by
  rw [hexValue, hexDigit_toNat h]
  split <;> split <;> omega

theorem isxdigit_hexDigit (h : d < 16) : isxdigit (hexDigit d) = true := by
  have hvalue := hexDigit_toNat h
  simp only [isxdigit, isdigit, Bool.or_eq_true, Bool.and_eq_true, decide_eq_true_eq,
    UInt8.le_iff_toNat_le, hvalue]
  have h48 : (48 : UInt8).toNat = 48 := rfl
  have h57 : (57 : UInt8).toNat = 57 := rfl
  have h65 : (65 : UInt8).toNat = 65 := rfl
  have h70 : (70 : UInt8).toNat = 70 := rfl
  split <;> omega

/-- The digits of a number that fits, with zeros in front. -/
theorem padded_hexText {width : Nat} (hw : 0 < width) (n : Nat) : padded width (hexText n) =
    ((Nat.digits 16 n ++ List.replicate (width - (Nat.digits 16 n).length) 0).reverse).map
      hexDigit := by
  have hzero : hexDigit 0 = 48 := rfl
  rw [List.reverse_append, List.map_append, List.reverse_replicate, List.map_replicate, hzero,
    padded, hexText]
  split
  · rename_i hn
    subst hn
    obtain ⟨k, rfl⟩ := Nat.exists_eq_succ_of_ne_zero (Nat.pos_iff_ne_zero.mp hw)
    simp [List.replicate_succ']
  · simp

theorem readHex_padded {width : Nat} (hw : 0 < width) (n : Nat) :
    readHex (padded width (hexText n)) = n := by
  have hdigits : ∀ d ∈ Nat.digits 16 n ++
      List.replicate (width - (Nat.digits 16 n).length) 0, (hexValue ∘ hexDigit) d = id d := by
    intro d hd
    apply hexValue_hexDigit
    rcases List.mem_append.mp hd with hd | hd
    · exact Nat.digits_lt_base (by decide) hd
    · rw [List.eq_of_mem_replicate hd]
      decide
  rw [readHex, padded_hexText hw, ← List.map_reverse, List.reverse_reverse, List.map_map,
    List.map_congr_left hdigits, List.map_id, Nat.ofDigits_append_replicate_zero,
    Nat.ofDigits_digits]

/-- A session id has eight hexadecimal digits, and they give the number back. -/
theorem generateSessionId_digits (drawn : UInt32) :
    (generateSessionId drawn).length = 8 ∧ (∀ b ∈ generateSessionId drawn, isxdigit b = true) ∧
    readHex (generateSessionId drawn) = drawn.toNat := by
  have hlength : (Nat.digits 16 drawn.toNat).length ≤ 8 :=
    (Nat.digits_length_le_iff (by decide) _).mpr drawn.toNat_lt
  refine ⟨?_, ?_, readHex_padded (by decide) _⟩
  · rw [generateSessionId, padded_hexText (by decide), List.length_map, List.length_reverse,
      List.length_append, List.length_replicate]
    omega
  · intro b hb
    rw [generateSessionId, padded_hexText (by decide)] at hb
    obtain ⟨d, hd, rfl⟩ := List.mem_map.mp hb
    apply isxdigit_hexDigit
    rcases List.mem_append.mp (List.mem_reverse.mp hd) with hd | hd
    · exact Nat.digits_lt_base (by decide) hd
    · rw [List.eq_of_mem_replicate hd]
      decide

example : generateSessionId 0xA2B3C4 = ascii "00A2B3C4" := by decide +kernel

end Veda.Rtsp
