import Mathlib.Data.List.Basic

/-!
Search in a buffer that grows. A matcher with a window looks at a bounded number of elements,
so a search that has failed can be resumed a window before the end of the buffer, and one that
has succeeded is not changed by what is appended.
-/
namespace Search

variable {α β : Type} {m : List α → Option β} {k o r p i : Nat} {b : β} {xs ys : List α}

/-- The first suffix that `m` matches, with indices counted from `pos`. -/
def first (m : List α → Option β) : Nat → List α → Option (Nat × β)
  | _, [] => none
  | pos, x :: xs =>
    match m (x :: xs) with
    | some b => some (pos, b)
    | none => first m (pos + 1) xs

/-- The first match at index `offset` or later. -/
def firstFrom (m : List α → Option β) (offset : Nat) (xs : List α) : Option (Nat × β) :=
  first m offset (xs.drop offset)

/-- A matcher that needs at least `k - 1` elements and reads at most `k`: a match stays one
when elements are appended, and with `k` elements at hand nothing appended matters. -/
structure Window (k : Nat) (m : List α → Option β) : Prop where
  nil : m [] = none
  long : ∀ {xs b}, m xs = some b → k ≤ xs.length + 1
  keeps : ∀ {xs b} ys, m xs = some b → m (xs ++ ys) = some b
  decided : ∀ {xs} ys, k ≤ xs.length → m (xs ++ ys) = m xs

theorem first_none_iff (hm : m [] = none) :
    first m o xs = none ↔ ∀ i, m (xs.drop i) = none := by
  induction xs generalizing o with
  | nil => simp [first, hm]
  | cons x xs ih =>
    rw [first]
    constructor
    · intro h i
      cases hx : m (x :: xs) with
      | some b => simp [hx] at h
      | none =>
        simp only [hx] at h
        cases i with
        | zero => exact hx
        | succ i => exact ih.mp h i
    · intro h
      have hx : m (x :: xs) = none := h 0
      simp only [hx]
      exact ih.mpr fun i => h (i + 1)

theorem first_some_iff (hm : m [] = none) : first m o xs = some (p, b) ↔
    ∃ i, p = o + i ∧ m (xs.drop i) = some b ∧ ∀ j < i, m (xs.drop j) = none := by
  induction xs generalizing o with
  | nil => simp [first, hm]
  | cons x xs ih =>
    rw [first]
    cases hx : m (x :: xs) with
    | some c =>
      constructor
      · intro h
        cases h
        exact ⟨0, rfl, hx, by omega⟩
      · rintro ⟨i, rfl, hi, hbefore⟩
        cases i with
        | zero =>
          rw [List.drop_zero, hx] at hi
          cases hi
          rfl
        | succ i =>
          have hfirst := hbefore 0 (by omega)
          rw [List.drop_zero, hx] at hfirst
          cases hfirst
    | none =>
      refine ih.trans ⟨?_, ?_⟩
      · rintro ⟨i, rfl, hi, hbefore⟩
        refine ⟨i + 1, by omega, hi, ?_⟩
        intro j hj
        cases j with
        | zero => exact hx
        | succ j => exact hbefore j (by omega)
      · rintro ⟨i, rfl, hi, hbefore⟩
        cases i with
        | zero => simp [hx] at hi
        | succ i => exact ⟨i, by omega, hi, fun j hj => hbefore (j + 1) (by omega)⟩

theorem first_some_le (h : first m o xs = some (p, b)) : o ≤ p := by
  induction xs generalizing o with
  | nil => cases h
  | cons x xs ih =>
    rw [first] at h
    cases hx : m (x :: xs) with
    | some c =>
      simp only [hx, Option.some.injEq, Prod.mk.injEq] at h
      omega
    | none =>
      simp only [hx] at h
      have := ih h
      omega

theorem firstFrom_none_iff (hm : m [] = none) :
    firstFrom m o xs = none ↔ ∀ i, o ≤ i → m (xs.drop i) = none := by
  rw [firstFrom, first_none_iff hm]
  constructor
  · intro h i hi
    have := h (i - o)
    rwa [List.drop_drop, Nat.add_sub_cancel' hi] at this
  · intro h i
    rw [List.drop_drop]
    exact h _ (by omega)

theorem firstFrom_some_iff (hm : m [] = none) : firstFrom m o xs = some (p, b) ↔
    o ≤ p ∧ m (xs.drop p) = some b ∧ ∀ j, o ≤ j → j < p → m (xs.drop j) = none := by
  rw [firstFrom, first_some_iff hm]
  constructor
  · rintro ⟨i, rfl, hi, hbefore⟩
    rw [List.drop_drop] at hi
    refine ⟨by omega, hi, ?_⟩
    intro j hoj hji
    have := hbefore (j - o) (by omega)
    rwa [List.drop_drop, Nat.add_sub_cancel' hoj] at this
  · rintro ⟨hop, hp, hbefore⟩
    refine ⟨p - o, by omega, ?_, ?_⟩
    · rwa [List.drop_drop, Nat.add_sub_cancel' hop]
    · intro j hj
      rw [List.drop_drop]
      exact hbefore _ (by omega) (by omega)

/-- Indices without a match can be skipped. -/
theorem firstFrom_skip (hm : m [] = none) (hor : o ≤ r)
    (hskip : ∀ j, o ≤ j → j < r → m (xs.drop j) = none) :
    firstFrom m r xs = firstFrom m o xs := by
  cases hf : firstFrom m r xs with
  | none =>
    have hrest := (firstFrom_none_iff hm).mp hf
    refine ((firstFrom_none_iff hm).mpr ?_).symm
    intro i hoi
    by_cases hir : i < r
    · exact hskip i hoi hir
    · exact hrest i (by omega)
  | some found =>
    obtain ⟨p, b⟩ := found
    obtain ⟨hrp, hp, hbefore⟩ := (firstFrom_some_iff hm).mp hf
    refine ((firstFrom_some_iff hm).mpr ⟨by omega, hp, ?_⟩).symm
    intro j hoj hjp
    by_cases hjr : j < r
    · exact hskip j hoj hjr
    · exact hbefore j (by omega) hjp

/-- Searching behind the first `o` elements is searching the list without them. -/
theorem firstFrom_drop (m : List α → Option β) (o i : Nat) (xs : List α) :
    firstFrom m (o + i) xs =
    (firstFrom m i (xs.drop o)).map fun found => (o + found.1, found.2) := by
  have hshift : ∀ (zs : List α) (c : Nat), first m (o + c) zs =
      (first m c zs).map fun found => (o + found.1, found.2) := by
    intro zs
    induction zs with
    | nil => exact fun _ => rfl
    | cons z zs ih =>
      intro c
      rw [first, first]
      cases m (z :: zs) with
      | some b => rfl
      | none => exact ih (c + 1)
  rw [firstFrom, firstFrom, List.drop_drop, hshift]

section Between
variable {ml : List α → Option Nat} {len n : Nat}

/-- `x` goes in front of the first piece. -/
def consFirst (x : α) : List (List α) → List (List α)
  | [] => [[x]]
  | piece :: pieces => (x :: piece) :: pieces

/-- What stands between the matches in one pass over the list, the ends included; a match
tells its length. `skip` elements of the last match are still to be passed over. -/
def between (ml : List α → Option Nat) : Nat → List α → List (List α)
  | _, [] => [[]]
  | skip + 1, _ :: xs => between ml skip xs
  | 0, x :: xs =>
    match ml (x :: xs) with
    | some len => [] :: between ml (len - 1) xs
    | none => consFirst x (between ml 0 xs)

theorem between_skip (n : Nat) (xs : List α) : between ml n xs = between ml 0 (xs.drop n) := by
  induction n generalizing xs with
  | zero => rfl
  | succ n ih =>
    cases xs with
    | nil => rfl
    | cons x xs => exact ih xs

theorem consFirst_ne_nil (x : α) (pieces : List (List α)) : consFirst x pieces ≠ [] := by
  cases pieces <;> simp [consFirst]

theorem between_ne_nil (ml : List α → Option Nat) (n : Nat) (xs : List α) :
    between ml n xs ≠ [] := by
  induction xs generalizing n with
  | nil => cases n <;> simp [between]
  | cons x xs ih =>
    cases n with
    | succ n => exact ih n
    | zero =>
      rw [between]
      split
      · simp
      · exact consFirst_ne_nil x _

/-- No match: one piece. -/
theorem between_of_none (h : first ml o xs = none) : between ml 0 xs = [xs] := by
  induction xs generalizing o with
  | nil => rfl
  | cons x xs ih =>
    rw [first] at h
    cases hx : ml (x :: xs) with
    | some len => simp [hx] at h
    | none =>
      simp only [hx] at h
      simp only [between, hx, ih h]
      rfl

/-- The first match ends the first piece. -/
theorem between_of_some (h : first ml o xs = some (o + p, len)) (hlen : 0 < len) :
    between ml 0 xs = xs.take p :: between ml 0 (xs.drop (p + len)) := by
  induction xs generalizing o p with
  | nil => cases h
  | cons x xs ih =>
    rw [first] at h
    cases hx : ml (x :: xs) with
    | some len' =>
      simp only [hx, Option.some.injEq, Prod.mk.injEq] at h
      obtain ⟨hp, rfl⟩ := h
      obtain rfl : p = 0 := by omega
      obtain ⟨n, rfl⟩ := Nat.exists_eq_succ_of_ne_zero (Nat.pos_iff_ne_zero.mp hlen)
      simp only [between, hx, List.take_zero, Nat.zero_add, Nat.succ_eq_add_one,
        Nat.add_sub_cancel, List.drop_succ_cons]
      rw [between_skip]
    | none =>
      simp only [hx] at h
      cases p with
      | zero =>
        have hle := first_some_le h
        omega
      | succ p =>
        have hnext := ih (o := o + 1) (p := p) (by rw [h]; congr 2; omega)
        simp only [between, hx, hnext, consFirst, List.take_succ_cons]
        rw [Nat.add_right_comm, List.drop_succ_cons]

end Between

section Window
variable (hw : Window k m)
include hw

/-- With a window of elements behind it, an index does not see what is appended. -/
theorem Window.drop_append (h : i + k ≤ xs.length) :
    m ((xs ++ ys).drop i) = m (xs.drop i) := by
  rw [List.drop_append_of_le_length (by omega)]
  exact hw.decided ys (by rw [List.length_drop]; omega)

theorem Window.match_length (h : m (xs.drop p) = some b) (hp : 2 ≤ k) :
    p + k ≤ xs.length + 1 := by
  have hlong := hw.long h
  rw [List.length_drop] at hlong
  omega

/-- A search that has succeeded is not changed by what is appended. -/
theorem Window.firstFrom_append (hk : 2 ≤ k) (h : firstFrom m o xs = some (p, b)) :
    firstFrom m o (xs ++ ys) = some (p, b) := by
  obtain ⟨hop, hp, hbefore⟩ := (firstFrom_some_iff hw.nil).mp h
  have hlen := hw.match_length hp hk
  refine (firstFrom_some_iff hw.nil).mpr ⟨hop, ?_, ?_⟩
  · rw [List.drop_append_of_le_length (by omega)]
    exact hw.keeps ys hp
  · intro j hoj hjp
    rw [hw.drop_append (by omega)]
    exact hbefore j hoj hjp

/-- A search that has failed can be resumed a window before the end of the old buffer. -/
theorem Window.firstFrom_resume (h : firstFrom m o xs = none) (hor : o ≤ r)
    (hr : r = o ∨ r + k ≤ xs.length + 1) :
    firstFrom m r (xs ++ ys) = firstFrom m o (xs ++ ys) := by
  have hnone := (firstFrom_none_iff hw.nil).mp h
  apply firstFrom_skip hw.nil hor
  intro j hoj hjr
  rw [hw.drop_append (by omega)]
  exact hnone j hoj

end Window
end Search
