import Veda.Lib.Delimited

/-!
Text as lines with a delimiter between them, and a block of lines that a doubled delimiter
ends. For a delimiter that cannot overlap itself both cuts give back the lines.
-/
namespace Delimited

variable {α : Type} {d l s tail xs : List α} {ls : List (List α)} {n j : Nat}

/-- Two occurrences of `d` never overlap. -/
def Unbordered (d : List α) : Prop := ∀ b, b <+: d → b <:+ d → b = [] ∨ b = d

/-- A prefix of a text that begins with the end of another one. -/
theorem prefix_append_cases (h : d <+: s ++ tail) :
    d <+: s ∨ ∃ d', d = s ++ d' ∧ d' <+: tail := by
  obtain ⟨t, ht⟩ := h
  rcases List.append_eq_append_iff.mp ht with ⟨a, hs, -⟩ | ⟨b, hd, htail⟩
  · exact Or.inl ⟨a, hs.symm⟩
  · exact Or.inr ⟨b, hd, t, htail.symm⟩

/-- Behind a text without `d`, the delimiter is the first occurrence. -/
theorem Unbordered.not_before (hu : Unbordered d) (h : ¬ d <:+: l) (hj : j < l.length) :
    ¬ d <+: (l ++ (d ++ tail)).drop j := by
  intro hp
  rw [List.drop_append_of_le_length (by omega)] at hp
  have hinside : ¬ d <+: l.drop j := fun hi => h (hi.isInfix.trans (List.drop_suffix j l).isInfix)
  rcases prefix_append_cases hp with hp | ⟨d', hsplit, hd'⟩
  · exact hinside hp
  · have hle : d'.length ≤ d.length := by simp [hsplit]
    have hborder := hu d' (List.prefix_of_prefix_length_le hd' (List.prefix_append d tail) hle)
      ⟨l.drop j, hsplit.symm⟩
    rcases hborder with rfl | rfl
    · rw [List.append_nil] at hsplit
      exact hinside (hsplit ▸ List.prefix_rfl)
    · have hlen := congrArg List.length hsplit
      rw [List.length_append, List.length_drop] at hlen
      omega

/-- No occurrence begins inside another one. -/
theorem Unbordered.not_inside (hu : Unbordered d) (h0 : 0 < j) (hj : j < d.length) :
    ¬ d <+: (d ++ tail).drop j := by
  intro hp
  rw [List.drop_append_of_le_length (by omega)] at hp
  have hle : (d.drop j).length ≤ d.length := by
    rw [List.length_drop]
    omega
  have hpre := List.prefix_of_prefix_length_le (List.prefix_append (d.drop j) tail) hp hle
  rcases hu _ hpre (List.drop_suffix j d) with hnil | hall
  · rw [List.drop_eq_nil_iff] at hnil
    omega
  · have hlen := congrArg List.length hall
    rw [List.length_drop] at hlen
    omega

/-- Before the blank line at the end of a block there is no blank line. -/
theorem Unbordered.not_blank (hu : Unbordered d) (h : ∀ l ∈ ls, l ≠ [] ∧ ¬ d <:+: l)
    (hj : j < (d.intercalate ls).length) :
    ¬ d ++ d <+: (d.intercalate ls ++ (d ++ (d ++ tail))).drop j := by
  intro hp
  induction ls generalizing j with
  | nil => simp at hj
  | cons l ls ih =>
    obtain ⟨hne, hl⟩ := h l (by simp)
    have hone : d <+: (d.intercalate (l :: ls) ++ (d ++ (d ++ tail))).drop j :=
      (List.prefix_append d d).trans hp
    cases ls with
    | nil =>
      rw [List.intercalate_singleton] at hj hone
      exact hu.not_before hl hj hone
    | cons l' ls =>
      obtain ⟨hne', hl'⟩ := h l' (by simp)
      have hpos' := List.length_pos_iff.mpr hne'
      rw [List.intercalate_cons_cons, List.append_assoc, List.append_assoc] at hone hp
      simp only [List.intercalate_cons_cons, List.length_append] at hj
      by_cases hin : j < l.length
      · exact hu.not_before hl hin hone
      · obtain ⟨k, rfl⟩ := Nat.exists_eq_add_of_le (Nat.not_lt.mp hin)
        rw [← List.drop_drop, List.drop_left] at hone hp
        by_cases hk : k < d.length
        · cases k with
          | succ k => exact hu.not_inside (by omega) hk hone
          | zero =>
            rw [List.drop_zero, List.prefix_append_right_inj] at hp
            have hnext : ∃ more, d.intercalate (l' :: ls) ++ (d ++ (d ++ tail)) =
                l' ++ (d ++ more) := by
              cases ls with
              | nil => exact ⟨d ++ tail, by rw [List.intercalate_singleton]⟩
              | cons l'' ls => exact ⟨_, by rw [List.intercalate_cons_cons, List.append_assoc,
                  List.append_assoc]⟩
            obtain ⟨more, hmore⟩ := hnext
            rw [hmore] at hp
            exact hu.not_before (j := 0) hl' hpos' hp
        · obtain ⟨i, rfl⟩ := Nat.exists_eq_add_of_le (Nat.not_lt.mp hk)
          rw [← List.drop_drop, List.drop_left] at hp
          exact ih (fun x hx => h x (by simp [hx])) (by omega) hp

/-- Lines that each end with the delimiter. -/
theorem flatMap_delimiter (hne : ls ≠ []) :
    ls.flatMap (· ++ d) = d.intercalate ls ++ d := by
  induction ls with
  | nil => exact absurd rfl hne
  | cons l ls ih =>
    cases ls with
    | nil => simp
    | cons l' ls =>
      rw [List.flatMap_cons, ih (by simp), List.intercalate_cons_cons]
      simp [List.append_assoc]

/-- The last line has no delimiter behind it. -/
theorem intercalate_concat (d l : List α) (ls : List (List α)) :
    d.intercalate (ls ++ [l]) = ls.flatMap (· ++ d) ++ l := by
  induction ls with
  | nil => simp
  | cons x ls ih =>
    obtain ⟨y, rest, hrest⟩ := List.exists_cons_of_ne_nil (List.concat_ne_nil l ls)
    rw [List.cons_append, hrest, List.intercalate_cons_cons, ← hrest, ih, List.flatMap_cons]
    simp only [List.append_assoc]

section Find
variable [DecidableEq α]

instance : Decidable (Unbordered d) :=
  decidable_of_iff (∀ b ∈ d.inits, b <:+ d → b = [] ∨ b = d) <| by
    simp only [Unbordered, List.mem_inits]

/-- The pieces between the occurrences of `d`, the last one included. -/
def splitOn (d xs : List α) : List (List α) :=
  (pieces d xs).map (fun p => p.take (p.length - d.length)) ++ [rest d xs]

theorem find_eq_some (hp : d <+: xs.drop n) (hbefore : ∀ j < n, ¬ d <+: xs.drop j) :
    find d xs = some n := by
  induction xs generalizing n with
  | nil =>
    have hd : d = [] := by simpa using hp
    cases n with
    | zero => simp [find, hd]
    | succ n => exact absurd (hd ▸ List.nil_prefix) (hbefore 0 (by omega))
  | cons x xs ih =>
    rw [find]
    cases n with
    | zero => exact if_pos hp
    | succ n =>
      have hfirst : ¬ d <+: x :: xs := hbefore 0 (by omega)
      rw [if_neg hfirst, ih hp fun j hj => hbefore (j + 1) (by omega)]
      rfl

/-- What is appended does not change where the delimiter is found. -/
theorem find_append_of_some (hd : d ≠ []) (h : find d xs = some n) (tail : List α) :
    find d (xs ++ tail) = some n := by
  have hlen := (find_length h).resolve_right hd
  refine find_eq_some ?_ fun j hj => ?_
  · rw [List.drop_append_of_le_length (by omega)]
    exact (find_occurrence h).trans (List.prefix_append _ _)
  · rw [List.drop_append_of_le_length (by omega)]
    intro hp
    refine find_first h hj (List.prefix_of_prefix_length_le hp (List.prefix_append _ _) ?_)
    rw [List.length_drop]
    omega

/-- Nor does what is cut off behind it. -/
theorem find_take_of_le {k : Nat} (hd : d ≠ []) (h : find d xs = some n) (hk : n + d.length ≤ k) :
    find d (xs.take k) = some n := by
  cases hf : find d (xs.take k) with
  | some m =>
    have happ := find_append_of_some hd hf (xs.drop k)
    rw [List.take_append_drop, h] at happ
    exact happ.symm
  | none =>
    have hp : d <+: (xs.take k).drop n := by
      rw [List.drop_take]
      exact List.prefix_take_iff.mpr ⟨find_occurrence h, by omega⟩
    exact absurd (hp.isInfix.trans (List.drop_suffix _ _).isInfix) ((find_eq_none_iff hd).mp hf)

/-- A delimiter of one element is found where it first stands. -/
theorem find_singleton_iff {x : α} :
    find [x] xs = some n ↔ ∃ before after, xs = before ++ x :: after ∧ x ∉ before ∧
      before.length = n := by
  constructor
  · intro h
    induction xs generalizing n with
    | nil => cases h
    | cons y ys ih =>
      rw [find] at h
      split at h
      · rename_i hp
        cases h
        obtain rfl : x = y := (List.cons_prefix_cons.mp hp).1
        exact ⟨[], ys, rfl, by simp, rfl⟩
      · rename_i hp
        obtain ⟨m, hm, rfl⟩ := Option.map_eq_some_iff.mp h
        obtain ⟨before, after, rfl, hbefore, rfl⟩ := ih hm
        have hxy : x ≠ y := by
          rintro rfl
          exact hp (List.cons_prefix_cons.mpr ⟨rfl, List.nil_prefix⟩)
        exact ⟨y :: before, after, rfl, by simp [hxy, hbefore], rfl⟩
  · rintro ⟨before, after, rfl, hbefore, rfl⟩
    refine find_eq_some ?_ fun j hj => ?_
    · rw [List.drop_left]
      exact List.cons_prefix_cons.mpr ⟨rfl, List.nil_prefix⟩
    · intro hp
      rw [List.drop_append_of_le_length (by omega), List.drop_eq_getElem_cons hj,
        List.cons_append] at hp
      exact hbefore ((List.cons_prefix_cons.mp hp).1 ▸ List.getElem_mem hj)

theorem find_singleton_none {x : α} : find [x] xs = none ↔ x ∉ xs := by
  rw [find_eq_none_iff (by simp), List.singleton_infix_iff]

theorem splitOn_of_find (hd : d ≠ []) (h : find d xs = some n) :
    splitOn d xs = xs.take n :: splitOn d (xs.drop (n + d.length)) := by
  have hlen := (find_length h).resolve_right hd
  rw [splitOn, pieces_of_find hd h, rest_of_find hd h, List.map_cons, List.cons_append, splitOn,
    List.length_take, Nat.min_eq_left hlen, Nat.add_sub_cancel, List.take_take,
    Nat.min_eq_left (Nat.le_add_right ..)]

theorem splitOn_of_find_none (hd : d ≠ []) (h : find d xs = none) : splitOn d xs = [xs] := by
  rw [splitOn, pieces_of_find_none hd h, rest_of_find_none hd h]
  rfl

/-- The delimiter does not occur inside the pieces. -/
theorem splitOn_clean (hd : d ≠ []) : ∀ l ∈ splitOn d xs, ¬ d <:+: l := by
  induction hn : xs.length using Nat.strongRecOn generalizing xs with
  | ind n ih =>
    cases h : find d xs with
    | none =>
      rw [splitOn_of_find_none hd h, List.forall_mem_singleton]
      exact (find_eq_none_iff hd).mp h
    | some m =>
      have hlen := (find_length h).resolve_right hd
      have hpos := List.length_pos_iff.mpr hd
      rw [splitOn_of_find hd h, List.forall_mem_cons]
      refine ⟨?_, ih (xs.length - (m + d.length)) (by omega) (by simp)⟩
      have hclean := (clean_iff hd).mp (find_clean hd h)
      intro hi
      exact hclean (hi.trans (List.take_prefix_take_left (by omega)).isInfix)

theorem splitOn_ne_nil : splitOn d xs ≠ [] := by
  simp [splitOn]

theorem Unbordered.find_append (hu : Unbordered d) (h : ¬ d <:+: l) :
    find d (l ++ (d ++ tail)) = some l.length := by
  refine find_eq_some ?_ fun j hj => hu.not_before h hj
  rw [List.drop_left]
  exact List.prefix_append d tail

/-- Splitting undoes joining. -/
theorem Unbordered.splitOn_intercalate (hu : Unbordered d) (hd : d ≠ []) (hne : ls ≠ [])
    (h : ∀ l ∈ ls, ¬ d <:+: l) :
    splitOn d (d.intercalate ls) = ls := by
  induction ls with
  | nil => exact absurd rfl hne
  | cons l ls ih =>
    have hl : ¬ d <:+: l := h l (by simp)
    cases ls with
    | nil =>
      rw [List.intercalate_singleton]
      exact splitOn_of_find_none hd ((find_eq_none_iff hd).mpr hl)
    | cons l' ls =>
      have hrest := ih (by simp) fun x hx => h x (by simp [hx])
      rw [List.intercalate_cons_cons, List.append_assoc, splitOn_of_find hd (hu.find_append hl),
        List.take_left, ← List.append_assoc, ← List.length_append, List.drop_left, hrest]

/-- The first doubled delimiter ends the block. -/
theorem Unbordered.find_blank (hu : Unbordered d) (h : ∀ l ∈ ls, l ≠ [] ∧ ¬ d <:+: l) :
    find (d ++ d) (d.intercalate ls ++ (d ++ (d ++ tail))) = some (d.intercalate ls).length := by
  refine find_eq_some ?_ fun j hj => hu.not_blank h hj
  rw [List.drop_left, List.prefix_append_right_inj]
  exact List.prefix_append d tail

end Find
end Delimited
