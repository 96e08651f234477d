import Veda.Rtsp.RequestText

/-!
Headers with one entry for each name, up to letter case: a search finds it in any order of the
hash map.
-/
namespace Veda.Rtsp.RequestText

open Cpp

variable {ord : HashOrder} {h h' : Headers} {name raw : Bytes} {e : Bytes × Bytes}

theorem find?_perm {α : Type} {l l' : List α} {p : α → Bool} (hp : l.Perm l')
    (hone : (l.filter p).length ≤ 1) : l'.find? p = l.find? p := by
  have hfilter : (l.filter p).Perm (l'.filter p) := hp.filter p
  rw [← List.head?_filter, ← List.head?_filter]
  cases hl : l.filter p with
  | nil =>
    rw [hl] at hfilter
    rw [hfilter.nil_eq.symm]
  | cons x xs =>
    rw [hl] at hfilter hone
    obtain rfl : xs = [] := by simpa using hone
    rw [List.singleton_perm.mp hfilter]

theorem Distinct.one (hd : Distinct h) (name : Bytes) :
    (h.filter fun e => iequals e.1 name).length ≤ 1 := by
  have hpair := hd.filter fun e => iequals e.1 name
  have hall : ∀ e ∈ h.filter (fun e => iequals e.1 name), iequals e.1 name = true := by
    intro e he
    exact (List.mem_filter.mp he).2
  generalize h.filter (fun e => iequals e.1 name) = l at hpair hall
  rcases l with _ | ⟨e, _ | ⟨f, l⟩⟩
  · exact Nat.zero_le _
  · exact le_rfl
  · have hne := (List.pairwise_cons.mp hpair).1 f (by simp)
    have heq := iequals_trans (hall e (by simp)) (iequals_symm (hall f (by simp)))
    rw [heq] at hne
    cases hne

theorem Distinct.perm (hd : Distinct h) (hp : h.Perm h') : Distinct h' := by
  apply hp.pairwise hd
  intro e f hef
  rw [Bool.eq_false_iff] at hef ⊢
  exact mt iequals_symm hef

/-- With one header for each name, the exact search and the one that ignores case agree. -/
theorem Distinct.cseqValue (hd : Distinct h) :
    Rtsp.cseqValue h = (h.find? fun e => iequals e.1 cseqName).map Prod.snd := by
  have hone := hd.one cseqName
  rw [Rtsp.cseqValue]
  cases hl : h.lookup cseqName with
  | none => rfl
  | some v =>
    obtain ⟨l₁, l₂, rfl, -⟩ := List.lookup_eq_some_iff.mp hl
    have hself : iequals cseqName cseqName = true := iequals_iff.mpr rfl
    rw [List.filter_append, List.filter_cons_of_pos (by exact hself)] at hone
    have hnone : l₁.filter (fun e => iequals e.1 cseqName) = [] := by
      apply List.eq_nil_of_length_eq_zero
      simp only [List.length_append, List.length_cons] at hone
      omega
    have hfind : (l₁.find? fun e => iequals e.1 cseqName) = none :=
      List.find?_eq_none.mpr (by simpa using List.filter_eq_nil_iff.mp hnone)
    rw [List.find?_append, hfind, Option.none_or, List.find?_cons_of_pos (by exact hself)]
    rfl

/-- Whatever the iteration order of the hash map, a name has one header. -/
theorem Distinct.find?_order (hd : Distinct h) (name : Bytes) :
    ((ord.order raw h).find? fun e => iequals e.1 name) = h.find? fun e => iequals e.1 name :=
  find?_perm (ord.perm raw h).symm (hd.one name)

/-- The entry of a name is the one found under it. -/
theorem Distinct.find?_of_mem (hd : Distinct h) (he : e ∈ h) (hn : iequals e.1 name = true) :
    (h.find? fun e => iequals e.1 name) = some e := by
  have hone := hd.one name
  rw [← List.head?_filter]
  have hmem : e ∈ h.filter fun e => iequals e.1 name := List.mem_filter.mpr ⟨he, hn⟩
  generalize h.filter (fun e => iequals e.1 name) = l at hone hmem
  rcases l with _ | ⟨f, _ | ⟨f', l⟩⟩
  · cases hmem
  · rw [List.mem_singleton.mp hmem]
    rfl
  · simp at hone

end Veda.Rtsp.RequestText
