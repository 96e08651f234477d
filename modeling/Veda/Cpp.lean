import Veda.Lib.Lines
import Mathlib.Algebra.Group.Int.Defs
import Mathlib.Algebra.Group.Nat.Defs
import Mathlib.Data.List.TakeWhile
import Mathlib.Tactic.Basic

/-!
The parts of the C++ standard library the server relies on: byte strings, `std::string::find`,
the `<cctype>` functions in the C locale, `std::stoi`, decimal output of an `ostringstream`
and arithmetic on `int`.
-/
namespace Veda

/-- Contents of a `std::string`, a `std::string_view` or a byte vector. -/
abbrev Bytes := List UInt8

/-- Bytes of a string literal of the source. -/
def ascii (s : String) : Bytes := s.toList.map fun c => c.toNat.toUInt8

def crlf : Bytes := [13, 10]

/-- The blank line that ends a request. -/
def crlfcrlf : Bytes := [13, 10, 13, 10]

namespace Cpp

/-- `std::string::find`. -/
abbrev find (pattern text : Bytes) : Option Nat := Delimited.find pattern text

/-- `std::isspace`: space, `\t`, `\n`, `\v`, `\f`, `\r`. -/
def isspace (b : UInt8) : Bool := b == 32 || (9 ≤ b && b ≤ 13)

def isdigit (b : UInt8) : Bool := 48 ≤ b && b ≤ 57

/-- `std::isxdigit` -/
def isxdigit (b : UInt8) : Bool := isdigit b || (65 ≤ b && b ≤ 70) || (97 ≤ b && b ≤ 102)

def tolower (b : UInt8) : UInt8 := if 65 ≤ b && b ≤ 90 then b + 32 else b

/-- Exceptions that `std::stoi` throws. -/
inductive StdException
  | invalidArgument
  | outOfRange
  deriving DecidableEq, Repr

def intMin : Int := -2 ^ 31
def intMax : Int := 2 ^ 31 - 1

/-- Value of a string of decimal digits. -/
def digitsValue (ds : Bytes) : Nat := ds.foldl (fun n d => 10 * n + (d.toNat - 48)) 0

/-- An optional sign and what follows it. -/
def splitSign : Bytes → Bool × Bytes
  | 45 :: bs => (true, bs)
  | 43 :: bs => (false, bs)
  | bs => (false, bs)

/-- `std::stoi`: leading white space, an optional sign, then as many digits as there are. -/
def stoi (s : Bytes) : Except StdException Int :=
  let (negative, t) := splitSign (s.dropWhile isspace)
  let digits := t.takeWhile isdigit
  if digits = [] then
    .error .invalidArgument
  else
    let n : Int := digitsValue digits
    let v := if negative then -n else n
    if intMin ≤ v ∧ v ≤ intMax then .ok v else .error .outOfRange

theorem stoi_range {s : Bytes} {z : Int} (h : stoi s = .ok z) : intMin ≤ z ∧ z ≤ intMax := by
  unfold stoi at h
  dsimp only at h
  split at h
  · cases h
  · generalize (if (splitSign _).1 = true then _ else _ : Int) = v at h
    split at h
    · cases h
      assumption
    · cases h

/-- Decimal output of an unsigned value. -/
def decimal (n : Nat) : Bytes := (Nat.toDigits 10 n).map fun c => c.toNat.toUInt8

/-- Decimal output of an `int`. -/
def showInt (z : Int) : Bytes := if z < 0 then 45 :: decimal z.natAbs else decimal z.natAbs

/-- A signed sum leaves `int`, which is undefined behaviour. -/
def addOverflows (a b : Int) : Bool := a + b < intMin || intMax < a + b

/-- Signed sum; the two's complement value where the sum overflows. -/
def intAdd (a b : Int) : Int := Int.bmod (a + b) (2 ^ 32)

/-- `static_cast<uint16_t>` of an `int`. -/
def toUint16 (z : Int) : UInt16 := UInt16.ofInt z

theorem digit_bounds {c : Char} (h : c.isDigit) : 48 ≤ c.toNat ∧ c.toNat ≤ 57 := by
  simp only [Char.isDigit, Bool.and_eq_true, decide_eq_true_eq] at h
  exact h

theorem digit_toNat {c : Char} (h : c.isDigit) : c.toNat.toUInt8.toNat = c.toNat := by
  have hc := digit_bounds h
  rw [Nat.toUInt8_eq, UInt8.toNat_ofNat']
  omega

theorem isdigit_digit {c : Char} (h : c.isDigit) : isdigit c.toNat.toUInt8 = true := by
  simp only [isdigit, Bool.and_eq_true, decide_eq_true_eq, UInt8.le_iff_toNat_le, digit_toNat h]
  exact digit_bounds h

theorem isspace_toNat {b : UInt8} (h : isspace b = true) : b.toNat ≤ 32 := by
  simp only [isspace, Bool.or_eq_true, beq_iff_eq, Bool.and_eq_true, decide_eq_true_eq,
    UInt8.le_iff_toNat_le] at h
  rcases h with rfl | ⟨-, h⟩
  · decide
  · have h13 : (13 : UInt8).toNat = 13 := rfl
    omega

/-- Bytes from the digits on are no white space. -/
theorem isspace_eq_false {b : UInt8} (h : 32 < b.toNat) : isspace b = false := by
  rw [Bool.eq_false_iff]
  intro hb
  have hle := isspace_toNat hb
  omega

theorem isdigit_isspace {b : UInt8} (h : isdigit b = true) : isspace b = false := by
  simp only [isdigit, Bool.and_eq_true, decide_eq_true_eq, UInt8.le_iff_toNat_le] at h
  have h48 : (48 : UInt8).toNat = 48 := rfl
  exact isspace_eq_false (by omega)

/-- An upper case letter moves up by 32, and every other byte stays. -/
theorem tolower_cases (b : UInt8) :
    tolower b = b ∨ 65 ≤ b.toNat ∧ (tolower b).toNat = b.toNat + 32 := by
  rw [tolower]
  split
  · rename_i hletter
    simp only [Bool.and_eq_true, decide_eq_true_eq, UInt8.le_iff_toNat_le] at hletter
    have h65 : (65 : UInt8).toNat = 65 := rfl
    have h90 : (90 : UInt8).toNat = 90 := rfl
    have h32 : (32 : UInt8).toNat = 32 := rfl
    refine Or.inr ⟨by omega, ?_⟩
    rw [UInt8.toNat_add]
    omega
  · exact Or.inl rfl

theorem isspace_tolower (b : UInt8) : isspace (tolower b) = isspace b := by
  rcases tolower_cases b with hsame | ⟨hletter, hlower⟩
  · rw [hsame]
  · rw [isspace_eq_false (by omega), isspace_eq_false (by omega)]

theorem decimal_digits {n : Nat} {b : UInt8} (h : b ∈ decimal n) : isdigit b = true := by
  obtain ⟨c, hc, rfl⟩ := List.mem_map.mp h
  exact isdigit_digit (Nat.isDigit_of_mem_toDigits (by omega) (by omega) hc)

theorem decimal_ne_nil (n : Nat) : decimal n ≠ [] := by
  rw [decimal, Nat.toDigits_eq_if (by omega)]
  split <;> simp

/-- An `int` prints without line ends. -/
theorem showInt_bytes {z : Int} {b : UInt8} (h : b ∈ showInt z) : isdigit b = true ∨ b = 45 := by
  unfold showInt at h
  split at h
  · rcases List.mem_cons.mp h with rfl | hb
    · exact Or.inr rfl
    · exact Or.inl (decimal_digits hb)
  · exact Or.inl (decimal_digits h)

theorem showInt_no_cr (z : Int) : 13 ∉ showInt z := by
  intro h
  rcases showInt_bytes h with hd | hd <;> exact absurd hd (by decide)

/-- Decimal output reads back as the same number. -/
theorem digitsValue_decimal (n : Nat) : digitsValue (decimal n) = n := by
  have hfold : ∀ (cs : List Char) (init : Nat), (∀ c ∈ cs, c.isDigit) →
      (cs.map fun c => c.toNat.toUInt8).foldl (fun n d => 10 * n + (d.toNat - 48)) init =
        Nat.ofDigitChars 10 cs init := by
    intro cs
    induction cs with
    | nil => exact fun _ _ => rfl
    | cons c cs ih =>
      intro init h
      have hc := digit_toNat (h c (by simp))
      rw [List.map_cons, List.foldl_cons, Nat.ofDigitChars_cons, hc]
      exact ih _ fun x hx => h x (by simp [hx])
  have hdigits : ∀ c ∈ Nat.toDigits 10 n, c.isDigit := by
    intro c hc
    exact Nat.isDigit_of_mem_toDigits (by omega) (by omega) hc
  rw [digitsValue, decimal, hfold _ _ hdigits, Nat.ofDigitChars_ten_toDigits]

theorem splitSign_digits {ds : Bytes} (h : ∀ d ∈ ds, isdigit d = true) :
    splitSign ds = (false, ds) := by
  unfold splitSign
  split
  · exact absurd (h 45 (by simp)) (by decide)
  · exact absurd (h 43 (by simp)) (by decide)
  · rfl

/-- An `int` reads back as it was printed. -/
theorem stoi_showInt {z : Int} (hmin : intMin ≤ z) (hmax : z ≤ intMax) :
    stoi (showInt z) = .ok z := by
  have hdigits : ∀ d ∈ decimal z.natAbs, isdigit d = true := fun d hd => decimal_digits hd
  have htake : (decimal z.natAbs).takeWhile isdigit = decimal z.natAbs :=
    List.takeWhile_eq_self_iff.mpr hdigits
  have hne := decimal_ne_nil z.natAbs
  rw [stoi, showInt]
  by_cases hz : z < 0
  · have hsign : splitSign ((45 :: decimal z.natAbs).dropWhile isspace) =
        (true, decimal z.natAbs) := rfl
    have hvalue : -(z.natAbs : Int) = z := by omega
    rw [if_pos hz, hsign]
    dsimp only
    rw [htake, if_neg hne, digitsValue_decimal, if_pos rfl, hvalue, if_pos ⟨hmin, hmax⟩]
  · have hdrop : (decimal z.natAbs).dropWhile isspace = decimal z.natAbs := by
      obtain ⟨d, ds, hcons⟩ := List.exists_cons_of_ne_nil hne
      have hd : isspace d = false := isdigit_isspace (hdigits d (by simp [hcons]))
      rw [hcons, List.dropWhile_cons_of_neg (by simp [hd])]
    have hvalue : (z.natAbs : Int) = z := by omega
    rw [if_neg hz, hdrop, splitSign_digits hdigits]
    dsimp only
    rw [htake, if_neg hne, digitsValue_decimal, if_neg Bool.false_ne_true, hvalue,
      if_pos ⟨hmin, hmax⟩]

end Cpp

theorem crlf_unbordered : Delimited.Unbordered crlf := by
  decide

theorem crlf_not_infix_of_cr {l : Bytes} (h : 13 ∉ l) : ¬ crlf <:+: l := by
  intro hi
  exact h (hi.subset (by decide))

/-- A line end across two texts is the last byte of one and the first of the other. -/
theorem crlf_not_infix_join {xs ys : Bytes} (hx : ¬ crlf <:+: xs) (hy : ¬ crlf <:+: ys)
    (h : ¬ [13] <:+ xs ∨ ¬ [10] <+: ys) : ¬ crlf <:+: xs ++ ys := by
  intro hi
  rcases List.infix_append_iff_ne_nil.mp hi with hi | hi | ⟨l₁, l₂, hne₁, hne₂, hsplit, h₁, h₂⟩
  · exact hx hi
  · exact hy hi
  · obtain ⟨a, l₁, rfl⟩ := List.exists_cons_of_ne_nil hne₁
    have hl₁ : l₁ = [] := by
      have hlen := congrArg List.length hsplit
      have hpos := List.length_pos_iff.mpr hne₂
      apply List.eq_nil_of_length_eq_zero
      simp only [crlf, List.length_append, List.length_cons, List.length_nil] at hlen
      omega
    subst hl₁
    obtain ⟨rfl, rfl⟩ : (13 : UInt8) = a ∧ [10] = l₂ := by simpa [crlf] using hsplit
    rcases h with h | h
    · exact h h₁
    · exact h h₂

theorem crlf_not_infix_append {xs ys : Bytes} (hx : ¬ crlf <:+: xs) (hy : ¬ crlf <:+: ys)
    (h : 13 ∉ xs ∨ 10 ∉ ys) : ¬ crlf <:+: xs ++ ys := by
  apply crlf_not_infix_join hx hy
  rcases h with h | h
  · exact Or.inl fun hp => h (hp.subset (by simp))
  · exact Or.inr fun hp => h (hp.subset (by simp))

/-- A separator keeps two texts apart. -/
theorem crlf_not_infix_separated {xs sep ys : Bytes} (hx : ¬ crlf <:+: xs) (hy : ¬ crlf <:+: ys)
    (hne : sep ≠ []) (h13 : 13 ∉ sep) (h10 : 10 ∉ sep) : ¬ crlf <:+: xs ++ sep ++ ys := by
  have hleft := crlf_not_infix_append hx (crlf_not_infix_of_cr h13) (Or.inr h10)
  apply crlf_not_infix_join hleft hy
  refine Or.inl ?_
  rintro ⟨t, ht⟩
  have hlast := congrArg List.getLast? ht
  rw [List.getLast?_append_of_ne_nil _ hne, List.getLast?_concat] at hlast
  exact h13 (List.mem_of_getLast? hlast.symm)

end Veda
