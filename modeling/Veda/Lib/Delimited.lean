import Mathlib.Data.List.Infix

/-!
Delimiters in lists. `find` is the search of a first occurrence in a buffer; `scan` cuts a
stream after each occurrence, one element at a time, with the unfinished piece as its only
memory. The two agree, so cutting a buffer does not depend on how it was filled.
-/
namespace Delimited

variable {α : Type} [DecidableEq α] {d p xs ys : List α} {x : α} {n : Nat}

/-- Index of the first occurrence of `d`. -/
def find (d : List α) : List α → Option Nat
  | [] => if d = [] then some 0 else none
  | x :: xs => if d <+: x :: xs then some 0 else (find d xs).map (· + 1)

/-- Cuts the stream `p ++ xs` after each occurrence of `d` that ends in `xs`; the second
component is the unfinished piece. -/
def scan (d : List α) : List α → List α → List (List α) × List α
  | p, [] => ([], p)
  | p, x :: xs =>
    if d <:+ p ++ [x] then ((p ++ [x]) :: (scan d [] xs).1, (scan d [] xs).2)
    else scan d (p ++ [x]) xs

def pieces (d xs : List α) : List (List α) := (scan d [] xs).1
def rest (d xs : List α) : List α := (scan d [] xs).2

/-- No occurrence of `d` is complete in `p`. -/
def Clean (d p : List α) : Prop := scan d [] p = ([], p)

theorem scan_append (p : List α) : scan d p (xs ++ ys) =
    ((scan d p xs).1 ++ (scan d (scan d p xs).2 ys).1, (scan d (scan d p xs).2 ys).2) := by
  induction xs generalizing p with
  | nil => rfl
  | cons x xs ih =>
    simp only [List.cons_append, scan]
    split
    · simp [ih]
    · exact ih _

theorem Clean.scan_append (h : Clean d p) : scan d [] (p ++ xs) = scan d p xs := by
  rw [Delimited.scan_append, show scan d [] p = ([], p) from h]
  simp

theorem clean_nil : Clean d [] := rfl

theorem clean_concat : Clean d (p ++ [x]) ↔ Clean d p ∧ ¬ d <:+ p ++ [x] := by
  constructor
  · intro h
    have happ : scan d [] (p ++ [x]) = ([], p ++ [x]) := h
    rw [scan_append] at happ
    have hp : (scan d [] p).1 = [] := (List.append_eq_nil_iff.mp (congrArg Prod.fst happ)).1
    have hq := congrArg Prod.fst happ
    have hr := congrArg Prod.snd happ
    simp only [scan] at hq hr
    split at hq
    · simp at hq
    · rename_i hd
      have he : (scan d [] p).2 = p := by
        simp only [hd, if_false] at hr
        exact List.append_left_injective [x] hr
      exact ⟨Prod.ext hp he, he ▸ hd⟩
  · rintro ⟨hp, hd⟩
    rw [Clean, hp.scan_append]
    simp [scan, hd]

/-- The unfinished piece never holds a complete delimiter. -/
theorem clean_scan (h : Clean d p) : Clean d (scan d p xs).2 := by
  induction xs generalizing p with
  | nil => exact h
  | cons x xs ih =>
    simp only [scan]
    split
    · exact ih clean_nil
    · rename_i hd
      exact ih (clean_concat.mpr ⟨h, hd⟩)

/-- Cutting neither loses nor repeats an element. -/
theorem scan_flatten (p : List α) : (scan d p xs).1.flatten ++ (scan d p xs).2 = p ++ xs := by
  induction xs generalizing p with
  | nil => simp [scan]
  | cons x xs ih =>
    simp only [scan]
    split
    · simp [ih []]
    · simpa using ih (p ++ [x])

theorem pieces_flatten (d xs : List α) : (pieces d xs).flatten ++ rest d xs = xs :=
  scan_flatten []

theorem clean_iff (hd : d ≠ []) : Clean d xs ↔ ¬ d <:+: xs := by
  induction xs using List.reverseRecOn with
  | nil => simp [clean_nil, hd]
  | append_singleton xs x ih => rw [clean_concat, ih, List.infix_concat_iff]; tauto

theorem find_eq_none_iff (hd : d ≠ []) : find d xs = none ↔ ¬ d <:+: xs := by
  induction xs with
  | nil => simp [find, hd]
  | cons x xs ih =>
    rw [List.infix_cons_iff, find]
    split <;> simp_all

/-- A buffer in which the search fails is a clean unfinished piece. -/
theorem find_eq_none_iff_clean (hd : d ≠ []) : find d xs = none ↔ Clean d xs := by
  rw [find_eq_none_iff hd, clean_iff hd]

theorem find_occurrence (h : find d xs = some n) : d <+: xs.drop n := by
  induction xs generalizing n with
  | nil =>
    simp only [find] at h
    split at h <;> simp_all
  | cons x xs ih =>
    simp only [find] at h
    split at h
    · rename_i hp
      cases h
      exact hp
    · obtain ⟨m, hm, rfl⟩ := Option.map_eq_some_iff.mp h
      exact ih hm

theorem find_first {m : Nat} (h : find d xs = some n) (hm : m < n) : ¬ d <+: xs.drop m := by
  induction xs generalizing n m with
  | nil =>
    simp only [find] at h
    split at h
    · cases h; omega
    · cases h
  | cons x xs ih =>
    simp only [find] at h
    split at h
    · cases h; omega
    · rename_i hp
      obtain ⟨k, hk, rfl⟩ := Option.map_eq_some_iff.mp h
      cases m with
      | zero => exact hp
      | succ m => exact ih hk (by omega)

theorem find_length (h : find d xs = some n) : n + d.length ≤ xs.length ∨ d = [] := by
  have hl := (find_occurrence h).length_le
  rw [List.length_drop] at hl
  by_cases hd : d = []
  · exact Or.inr hd
  · have := List.length_pos_iff.mpr hd
    omega

/-- Everything before the end of the first occurrence is clean. -/
theorem find_clean (hd : d ≠ []) (h : find d xs = some n) :
    Clean d (xs.take (n + d.length - 1)) := by
  rw [clean_iff hd]
  rintro ⟨a, b, he⟩
  have hlen := congrArg List.length he
  simp only [List.length_append, List.length_take] at hlen
  have hpos := List.length_pos_iff.mpr hd
  apply find_first h (m := a.length) (by omega)
  have htake : a ++ d <+: xs := ⟨b ++ xs.drop (n + d.length - 1), by
    rw [← List.append_assoc, he, List.take_append_drop]⟩
  obtain ⟨c, hc⟩ := htake
  exact ⟨c, by rw [← hc]; simp⟩

/-- Where the search succeeds, the first piece ends with the occurrence found. -/
theorem scan_of_find (hd : d ≠ []) (h : find d xs = some n) :
    scan d [] xs = (xs.take (n + d.length) :: pieces d (xs.drop (n + d.length)),
      rest d (xs.drop (n + d.length))) := by
  have hpos := List.length_pos_iff.mpr hd
  have hlen : n + d.length ≤ xs.length := (find_length h).resolve_right hd
  obtain ⟨b, hb⟩ := find_occurrence h
  have hlt : n + d.length - 1 < xs.length := by omega
  have hx : xs.take (n + d.length) = xs.take (n + d.length - 1) ++ [xs[n + d.length - 1]] := by
    rw [← List.take_succ_eq_append_getElem hlt]
    congr 1
    omega
  have hsuf : d <:+ xs.take (n + d.length) := by
    refine ⟨xs.take n, ?_⟩
    rw [List.take_add, ← hb, List.take_left]
  calc scan d [] xs
      = scan d [] (xs.take (n + d.length) ++ xs.drop (n + d.length)) := by
        rw [List.take_append_drop]
    _ = scan d (xs.take (n + d.length - 1))
          (xs[n + d.length - 1] :: xs.drop (n + d.length)) := by
        rw [hx, List.append_assoc, (find_clean hd h).scan_append]
        rfl
    _ = _ := by
        rw [scan, ← hx, if_pos hsuf]
        rfl

/-- A stream that goes on is cut as if only its unfinished piece were there. -/
theorem pieces_append (d xs ys : List α) :
    pieces d (xs ++ ys) = pieces d xs ++ pieces d (rest d xs ++ ys) := by
  have hclean : Clean d (scan d [] xs).2 := clean_scan clean_nil
  simp only [pieces, rest, scan_append, hclean.scan_append]

theorem rest_append (d xs ys : List α) : rest d (xs ++ ys) = rest d (rest d xs ++ ys) := by
  have hclean : Clean d (scan d [] xs).2 := clean_scan clean_nil
  simp only [rest, scan_append, hclean.scan_append]

theorem pieces_of_find (hd : d ≠ []) (h : find d xs = some n) :
    pieces d xs = xs.take (n + d.length) :: pieces d (xs.drop (n + d.length)) := by
  rw [pieces, scan_of_find hd h]

theorem rest_of_find (hd : d ≠ []) (h : find d xs = some n) :
    rest d xs = rest d (xs.drop (n + d.length)) := by
  rw [rest, scan_of_find hd h]

theorem pieces_of_find_none (hd : d ≠ []) (h : find d xs = none) : pieces d xs = [] :=
  congrArg Prod.fst ((find_eq_none_iff_clean hd).mp h)

theorem rest_of_find_none (hd : d ≠ []) (h : find d xs = none) : rest d xs = xs :=
  congrArg Prod.snd ((find_eq_none_iff_clean hd).mp h)

theorem pieces_eq_nil_iff (hd : d ≠ []) : pieces d xs = [] ↔ find d xs = none := by
  constructor
  · intro h
    cases hf : find d xs with
    | none => rfl
    | some n =>
      rw [pieces_of_find hd hf] at h
      cases h
  · exact pieces_of_find_none hd

end Delimited
