import Veda.Util.Base64

/-! Base64 as a client decodes it, and the round trip through the encoder. -/
namespace Veda.Util

def sextetValue (b : UInt8) : Option Nat := kAlphabet.idxOf? b

/-- Decoding in groups of four, of which the last may be padded. -/
def base64Decode : Bytes → Option Bytes
  | [] => some []
  | p :: q :: r :: s :: rest => do
    let x ← sextetValue p
    let y ← sextetValue q
    let first := UInt8.ofNat (4 * x + y / 16)
    if r = 61 ∧ s = 61 ∧ rest = [] then
      return [first]
    let z ← sextetValue r
    let second := UInt8.ofNat (16 * (y % 16) + z / 4)
    if s = 61 ∧ rest = [] then
      return [first, second]
    let w ← sextetValue s
    let third := UInt8.ofNat (64 * (z % 4) + w)
    let tail ← base64Decode rest
    return first :: second :: third :: tail
  | _ => none

theorem sextet_index (triple shift : UInt32) : ((triple >>> shift) &&& 0x3F).toNat =
    triple.toNat / 2 ^ (shift.toNat % 32) % 64 := by
  rw [UInt32.toNat_and, UInt32.toNat_shiftRight, Nat.shiftRight_eq_div_pow]
  exact Nat.and_two_pow_sub_one_eq_mod _ 6

theorem sextetValue_alphabet : ∀ i < 64, sextetValue (kAlphabet.getD i 0) = some i ∧
    kAlphabet.getD i 0 ∈ kAlphabet := by
  decide +kernel

theorem sextetValue_sextet (triple shift : UInt32) : sextetValue (sextet triple shift) =
    some (triple.toNat / 2 ^ (shift.toNat % 32) % 64) := by
  rw [sextet, sextet_index]
  exact (sextetValue_alphabet _ (Nat.mod_lt _ (by decide))).1

theorem sextet_mem (triple shift : UInt32) : sextet triple shift ∈ kAlphabet := by
  rw [sextet, sextet_index]
  exact (sextetValue_alphabet _ (Nat.mod_lt _ (by decide))).2

/-- Letters, digits, `+` and `/`: no byte that delimits anything. -/
theorem alphabet_ne : ∀ b ∈ kAlphabet, b ≠ 13 ∧ b ≠ 10 ∧ b ≠ 44 ∧ b ≠ 59 ∧ b ≠ 61 := by
  decide +kernel

theorem sextet_ne_pad (triple shift : UInt32) : sextet triple shift ≠ 61 :=
  (alphabet_ne _ (sextet_mem triple shift)).2.2.2.2

theorem base64Encode_mem {bs : Bytes} {b : UInt8} (h : b ∈ base64Encode bs) :
    b ∈ kAlphabet ∨ b = 61 := by
  induction bs using base64Encode.induct with
  | case1 => simp [base64Encode] at h
  | case2 a =>
    simp only [base64Encode, List.mem_cons, List.not_mem_nil, or_false] at h
    rcases h with rfl | rfl | rfl | rfl <;> simp [sextet_mem]
  | case3 a a' =>
    simp only [base64Encode, List.mem_cons, List.not_mem_nil, or_false] at h
    rcases h with rfl | rfl | rfl | rfl <;> simp [sextet_mem]
  | case4 a a' a'' rest ih =>
    simp only [base64Encode, List.mem_cons] at h
    rcases h with rfl | rfl | rfl | rfl | h
    · exact Or.inl (sextet_mem ..)
    · exact Or.inl (sextet_mem ..)
    · exact Or.inl (sextet_mem ..)
    · exact Or.inl (sextet_mem ..)
    · exact ih h

theorem high_toNat (a : UInt8) : (a.toUInt32 <<< 16).toNat = 65536 * a.toNat := by
  have ha := a.toNat_lt
  rw [UInt32.toNat_shiftLeft, UInt8.toNat_toUInt32, Nat.shiftLeft_eq]
  change a.toNat * 2 ^ 16 % 2 ^ 32 = _
  omega

theorem middle_toNat (b : UInt8) : (b.toUInt32 <<< 8).toNat = 256 * b.toNat := by
  have hb := b.toNat_lt
  rw [UInt32.toNat_shiftLeft, UInt8.toNat_toUInt32, Nat.shiftLeft_eq]
  change b.toNat * 2 ^ 8 % 2 ^ 32 = _
  omega

theorem pair_toNat (a b : UInt8) : ((a.toUInt32 <<< 16) ||| (b.toUInt32 <<< 8)).toNat =
    65536 * a.toNat + 256 * b.toNat := by
  have hb := b.toNat_lt
  have hshift : 65536 * a.toNat = a.toNat <<< 16 := by
    rw [Nat.shiftLeft_eq]
    omega
  rw [UInt32.toNat_or, high_toNat, middle_toNat, hshift]
  exact (Nat.shiftLeft_add_eq_or_of_lt (by omega) _).symm

/-- The three bytes of a group side by side. -/
theorem triple_toNat (a b c : UInt8) :
    ((a.toUInt32 <<< 16) ||| (b.toUInt32 <<< 8) ||| c.toUInt32).toNat =
      65536 * a.toNat + 256 * b.toNat + c.toNat := by
  have hshift : 65536 * a.toNat + 256 * b.toNat = (256 * a.toNat + b.toNat) <<< 8 := by
    rw [Nat.shiftLeft_eq]
    omega
  rw [UInt32.toNat_or, pair_toNat, UInt8.toNat_toUInt32, hshift]
  exact (Nat.shiftLeft_add_eq_or_of_lt c.toNat_lt _).symm

/-- The four digits of a group of three bytes give the bytes back. -/
theorem digits_first {a n : Nat} (h : n / 65536 = a) (ha : a < 256) :
    4 * (n / 2 ^ 18 % 64) + n / 2 ^ 12 % 64 / 16 = a := by
  omega

theorem digits_second {a b n : Nat} (h : n / 256 = 256 * a + b) (hb : b < 256) :
    16 * (n / 2 ^ 12 % 64 % 16) + n / 2 ^ 6 % 64 / 4 = b := by
  omega

theorem digits_third {a b n : Nat} (h : n = 256 * a + b) (hb : b < 256) :
    64 * (n / 2 ^ 6 % 64 % 4) + n / 2 ^ 0 % 64 = b := by
  omega

/-- A client decodes what the server encodes. -/
theorem base64Decode_encode (bs : Bytes) : base64Decode (base64Encode bs) = some bs := by
  induction bs using base64Encode.induct with
  | case1 => rfl
  | case2 a =>
    have ha := a.toNat_lt
    have hfirst := digits_first (a := a.toNat) (n := 65536 * a.toNat) (by omega) ha
    simp only [base64Encode, base64Decode, sextetValue_sextet, high_toNat]
    change some [UInt8.ofNat (4 * (65536 * a.toNat / 2 ^ 18 % 64) +
      65536 * a.toNat / 2 ^ 12 % 64 / 16)] = some [a]
    rw [hfirst, UInt8.ofNat_toNat]
  | case3 a b =>
    have ha := a.toNat_lt
    have hb := b.toNat_lt
    generalize hn : 65536 * a.toNat + 256 * b.toNat = n
    have hfirst := digits_first (a := a.toNat) (n := n) (by omega) ha
    have hsecond := digits_second (a := a.toNat) (b := b.toNat) (n := n) (by omega) hb
    simp only [base64Encode, base64Decode, sextetValue_sextet, pair_toNat, sextet_ne_pad, hn,
      false_and, if_false]
    change some [UInt8.ofNat (4 * (n / 2 ^ 18 % 64) + n / 2 ^ 12 % 64 / 16),
      UInt8.ofNat (16 * (n / 2 ^ 12 % 64 % 16) + n / 2 ^ 6 % 64 / 4)] = some [a, b]
    rw [hfirst, hsecond, UInt8.ofNat_toNat, UInt8.ofNat_toNat]
  | case4 a b c rest ih =>
    have ha := a.toNat_lt
    have hb := b.toNat_lt
    have hc := c.toNat_lt
    generalize hn : 65536 * a.toNat + 256 * b.toNat + c.toNat = n
    have hfirst := digits_first (a := a.toNat) (n := n) (by omega) ha
    have hsecond := digits_second (a := a.toNat) (b := b.toNat) (n := n) (by omega) hb
    have hthird := digits_third (a := 256 * a.toNat + b.toNat) (b := c.toNat) (n := n)
      (by omega) hc
    simp only [base64Encode, base64Decode, sextetValue_sextet, triple_toNat, sextet_ne_pad, hn,
      false_and, if_false, ih]
    change some (UInt8.ofNat (4 * (n / 2 ^ 18 % 64) + n / 2 ^ 12 % 64 / 16) ::
      UInt8.ofNat (16 * (n / 2 ^ 12 % 64 % 16) + n / 2 ^ 6 % 64 / 4) ::
      UInt8.ofNat (64 * (n / 2 ^ 6 % 64 % 4) + n / 2 ^ 0 % 64) :: rest) = some (a :: b :: c :: rest)
    rw [hfirst, hsecond, hthird, UInt8.ofNat_toNat, UInt8.ofNat_toNat, UInt8.ofNat_toNat]

/-- How many `=` the last group of four needs. -/
def padding (len : Nat) : Nat :=
  if len % 3 = 1 then 2 else if len % 3 = 2 then 1 else 0

theorem padding_add_three (n : Nat) : padding (n + 3) = padding n := by
  have hmod : (n + 3) % 3 = n % 3 := by omega
  simp only [padding, hmod]

theorem base64Encode_length (bs : Bytes) :
    (base64Encode bs).length = 4 * ((bs.length + 2) / 3) := by
  induction bs using base64Encode.induct with
  | case1 => rfl
  | case2 a => simp [base64Encode]
  | case3 a b => simp [base64Encode]
  | case4 a b c rest ih =>
    simp only [base64Encode, List.length_cons, ih]
    omega

/-- Letters of the alphabet, then the padding: no `=` stands before a letter. -/
theorem base64Encode_letters (bs : Bytes) : ∃ letters : Bytes,
    base64Encode bs = letters ++ List.replicate (padding bs.length) 61 ∧
    ∀ b ∈ letters, b ∈ kAlphabet := by
  induction bs using base64Encode.induct with
  | case1 => exact ⟨[], rfl, by simp⟩
  | case2 a =>
    exact ⟨[sextet (a.toUInt32 <<< 16) 18, sextet (a.toUInt32 <<< 16) 12], rfl,
      by simp [sextet_mem]⟩
  | case3 a b =>
    let triple := (a.toUInt32 <<< 16) ||| (b.toUInt32 <<< 8)
    exact ⟨[sextet triple 18, sextet triple 12, sextet triple 6], rfl, by simp [sextet_mem]⟩
  | case4 a b c rest ih =>
    obtain ⟨letters, hencode, hletters⟩ := ih
    let triple := (a.toUInt32 <<< 16) ||| (b.toUInt32 <<< 8) ||| c.toUInt32
    refine ⟨sextet triple 18 :: sextet triple 12 :: sextet triple 6 :: sextet triple 0 :: letters,
      ?_, ?_⟩
    · have hpad : padding (a :: b :: c :: rest).length = padding rest.length :=
        padding_add_three rest.length
      rw [hpad, base64Encode, hencode]
      rfl
    · intro d hd
      simp only [List.mem_cons] at hd
      rcases hd with rfl | rfl | rfl | rfl | hd
      · exact sextet_mem ..
      · exact sextet_mem ..
      · exact sextet_mem ..
      · exact sextet_mem ..
      · exact hletters d hd

/-- The letter of a sextet in the standard: capital letters, small letters, digits, `+`, `/`. -/
def standardLetter (i : Nat) : UInt8 :=
  if i < 26 then UInt8.ofNat (65 + i)
  else if i < 52 then UInt8.ofNat (97 + (i - 26))
  else if i < 62 then UInt8.ofNat (48 + (i - 52))
  else if i = 62 then 43
  else 47

theorem alphabet_letters : kAlphabet = (List.range 64).map standardLetter ∧
    kAlphabet.Nodup ∧ (61 : UInt8) ∉ kAlphabet := by
  decide +kernel

/-- The encoder writes standard Base64, of sixty-four letters and the padding at the end, and the
standard decoder gives the bytes back. -/
theorem base64Encode_invertible (bs : Bytes) :
    (kAlphabet = (List.range 64).map standardLetter ∧ kAlphabet.Nodup ∧
      (61 : UInt8) ∉ kAlphabet) ∧
    (base64Encode bs).length = 4 * ((bs.length + 2) / 3) ∧
    (∃ letters : Bytes, base64Encode bs = letters ++ List.replicate (padding bs.length) 61 ∧
      ∀ b ∈ letters, b ∈ kAlphabet) ∧
    base64Decode (base64Encode bs) = some bs :=
  ⟨alphabet_letters, base64Encode_length bs, base64Encode_letters bs, base64Decode_encode bs⟩

end Veda.Util
