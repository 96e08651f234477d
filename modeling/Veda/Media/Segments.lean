import Veda.Media.AnnexB

/-!
Any byte stream as the reader sees it: one pass over the bytes cuts it at its start codes, and
the calls of the reader deliver what is not empty of these segments, however the stream is read
and whatever is wrong with it.
-/
namespace Veda.Media

variable {stream : Bytes} {pos len : Nat}

/-- What stands between the start codes of a stream, from the first one on. -/
def segments (stream : Bytes) : List Bytes := (Search.between startCodeLen 0 stream).tail

theorem startCodeLen_pos {xs : Bytes} (h : startCodeLen xs = some len) : 0 < len := by
  rcases startCodeLen_some h with ⟨-, rfl⟩ | ⟨-, rfl⟩ <;> decide

theorem findStartCode_pos {offset : Nat} (h : findStartCode stream offset = some (pos, len)) :
    0 < len :=
  startCodeLen_pos ((Search.firstFrom_some_iff startCode_window.nil).mp h).2.1

theorem between_of_find_none (h : findStartCode stream 0 = none) :
    Search.between startCodeLen 0 stream = [stream] :=
  Search.between_of_none h

theorem between_of_find (h : findStartCode stream 0 = some (pos, len)) :
    Search.between startCodeLen 0 stream =
      stream.take pos :: Search.between startCodeLen 0 (stream.drop (pos + len)) := by
  have hfirst : Search.first startCodeLen 0 stream = some (0 + pos, len) := by
    rw [Nat.zero_add]
    exact h
  exact Search.between_of_some hfirst (findStartCode_pos h)

theorem segments_of_find_none (h : findStartCode stream 0 = none) : segments stream = [] := by
  rw [segments, between_of_find_none h]
  rfl

theorem segments_of_find (h : findStartCode stream 0 = some (pos, len)) :
    segments stream = Search.between startCodeLen 0 (stream.drop (pos + len)) := by
  rw [segments, between_of_find h]
  rfl

/-- One call delivers the first segment and leaves the others. -/
theorem cutNal_segments (stream : Bytes) :
    (cutNal stream).1 = (segments stream).head?.bind nonEmpty ∧
    (cutNal stream).2.1 = decide (2 ≤ (segments stream).length) ∧
    segments (cutNal stream).2.2 = (segments stream).tail := by
  rw [cutNal]
  cases hfirst : findStartCode stream 0 with
  | none =>
    have hnone := segments_of_find_none hfirst
    simp [hnone]
  | some found =>
    obtain ⟨pos, len⟩ := found
    have hsegments := segments_of_find hfirst
    have hshift := Search.firstFrom_drop startCodeLen len 0 (stream.drop pos)
    rw [Nat.add_zero, List.drop_drop] at hshift
    rw [hsegments]
    dsimp only
    rw [findStartCode, hshift]
    cases hnext : findStartCode (stream.drop (pos + len)) 0 with
    | none =>
      rw [findStartCode] at hnext
      rw [between_of_find_none hnext, hnext]
      simp [segments, Search.between, List.drop_drop]
    | some found =>
      obtain ⟨next, len'⟩ := found
      -- the bytes that are kept begin with the start code that was found
      have hkept : findStartCode ((stream.drop pos).drop (len + next)) 0 = some (0, len') := by
        have hcode := ((Search.firstFrom_some_iff startCode_window.nil).mp hnext).2.1
        refine (Search.firstFrom_some_iff startCode_window.nil).mpr ⟨Nat.le_refl 0, ?_, ?_⟩
        · simpa [List.drop_drop, Nat.add_assoc] using hcode
        · omega
      have hrest := segments_of_find hkept
      rw [between_of_find hnext]
      rw [findStartCode] at hnext
      rw [hnext]
      refine ⟨?_, ?_, ?_⟩
      · simp [List.drop_drop]
      · have hmore := List.length_pos_iff.mpr
          (Search.between_ne_nil startCodeLen 0 ((stream.drop (pos + len)).drop (next + len')))
        have htwo : 2 ≤ (Search.between startCodeLen 0
            ((stream.drop (pos + len)).drop (next + len'))).length + 1 := by omega
        simp only [Option.map_some, List.length_cons, htwo, decide_true]
      · simpa [List.drop_drop, Nat.add_assoc] using hrest

/-- Call `i` delivers segment `i`, and returns `true` if there is a segment behind it. -/
theorem cutCalls_segments (n : Nat) (stream : Bytes) : cutCalls n stream =
    (List.range n).map fun i =>
      ((segments stream)[i]?.bind nonEmpty, decide (i + 2 ≤ (segments stream).length)) := by
  induction n generalizing stream with
  | zero => rfl
  | succ n ih =>
    obtain ⟨hcallback, hresult, hrest⟩ := cutNal_segments stream
    rw [cutCalls, ih, hrest, List.range_succ_eq_map, List.map_cons, List.map_map, hcallback,
      hresult, List.head?_eq_getElem?]
    congr 1
    apply List.map_congr_left
    intro i _
    have hlong : i + 2 ≤ (segments stream).tail.length ↔ i + 1 + 2 ≤ (segments stream).length := by
      rw [List.length_tail]
      omega
    simp only [List.getElem?_tail, hlong, Function.comp_apply]

theorem filterMap_nonEmpty (ss : List Bytes) :
    ss.filterMap nonEmpty = ss.filter (· ≠ []) := by
  rw [← List.filterMap_eq_filter]
  apply List.filterMap_congr
  intro s _
  cases s <;> rfl

/-- Visiting the elements by index. -/
theorem filterMap_range (f : Bytes → Option Bytes) {ss : List Bytes} {n : Nat}
    (hn : ss.length ≤ n) : (List.range n).filterMap (fun i => ss[i]?.bind f) = ss.filterMap f := by
  induction ss generalizing n with
  | nil => simp
  | cons s ss ih =>
    cases n with
    | zero => simp at hn
    | succ n =>
      have hrest := ih (Nat.le_of_succ_le_succ hn)
      rw [List.range_succ_eq_map, List.filterMap_cons, List.filterMap_cons, List.filterMap_map,
        ← hrest]
      rfl

/-- The reader depends on the bytes only: the calls on any stream, read in any way, return
`true` up to one that returns `false`, and by then they have delivered exactly the non-empty
segments, in order. -/
theorem readNal_segments (reads : Reads) : ∃ n,
    (readCalls (n + 1) [] reads).map Prod.snd = List.replicate n true ++ [false] ∧
    (readCalls (n + 1) [] reads).filterMap Prod.fst =
      (segments reads.flatten).filter (· ≠ []) := by
  refine ⟨(segments reads.flatten).length - 1, ?_⟩
  rw [readCalls_eq, List.nil_append, cutCalls_segments]
  generalize segments reads.flatten = ss
  constructor
  · rw [List.map_map, List.range_succ, List.map_append, List.map_singleton]
    congr 1
    · rw [List.eq_replicate_iff]
      refine ⟨by simp, ?_⟩
      intro b hb
      obtain ⟨i, hi, rfl⟩ := List.mem_map.mp hb
      have hlt := List.mem_range.mp hi
      simp only [Function.comp_apply, decide_eq_true_eq]
      omega
    · simp only [Function.comp_apply, List.cons.injEq, and_true, decide_eq_false_iff_not]
      omega
  · rw [List.filterMap_map, ← filterMap_nonEmpty]
    exact filterMap_range nonEmpty (by omega)

end Veda.Media
