import Veda.Media.Segments

/-!
Zero bytes behind a NAL, as the byte stream format allows them. A start code takes at most three
of the zeros before its last byte, so what is longer stays with the NAL that is delivered.
-/
namespace Veda.Media

/-- A NAL of a stream: the start code before it, and the zero bytes behind it. -/
structure PaddedNal where
  long : Bool
  nal : Bytes
  zeros : Nat

/-- A stream in the byte stream format, with zero bytes in front and behind each NAL. -/
def encodePadded (lead : Nat) (items : List PaddedNal) : Bytes :=
  List.replicate lead 0 ++
    items.flatMap fun p => startCode p.long ++ (p.nal ++ List.replicate p.zeros 0)

/-- The NALs as they come out of the reader. -/
def withPadding : List PaddedNal → List Bytes
  | [] => []
  | [p] => [p.nal ++ List.replicate p.zeros 0]
  | p :: q :: items =>
    (p.nal ++ List.replicate (p.zeros + (startCode q.long).length - 4) 0) ::
      withPadding (q :: items)

/-- The zeros of each NAL go into the next start code, and the last NAL has none. -/
def Tight : List PaddedNal → Prop
  | [] => True
  | [p] => p.zeros = 0
  | p :: q :: items => p.zeros + (startCode q.long).length ≤ 4 ∧ Tight (q :: items)

/-- No call hands over a NAL that ends in a zero byte. -/
def Unpadded (reads : Reads) : Prop :=
  ∀ n nal, some nal ∈ (readCalls n [] reads).map Prod.fst → nal.getLast? ≠ some 0

variable {lead : Nat} {items : List PaddedNal}

theorem startCodeLen_zeros (rest : Bytes) : startCodeLen (0 :: 0 :: 0 :: 0 :: rest) = none := by
  have hlen : 4 ≤ ([0, 0, 0, 0] : Bytes).length := by decide
  exact startCodeLen_append rest hlen

theorem findStartCode_replicate (k : Nat) : findStartCode (List.replicate k 0) 0 = none := by
  refine (Search.firstFrom_none_iff startCode_window.nil).mpr ?_
  intro i _
  rw [List.drop_replicate]
  generalize k - i = k
  match k with
  | 0 => decide
  | 1 => decide
  | 2 => decide
  | 3 => decide
  | k + 4 => exact startCodeLen_zeros (List.replicate k 0)

/-- Of the zeros before a one, a start code takes the last three. -/
theorem findStartCode_zeros (z : Nat) (rest : Bytes) :
    findStartCode (List.replicate (z + 3) 0 ++ 1 :: rest) 0 = some (z, 4) := by
  have hdrop : ∀ j, j ≤ z → (List.replicate (z + 3) 0 ++ 1 :: rest).drop j =
      0 :: 0 :: 0 :: (List.replicate (z - j) 0 ++ 1 :: rest) := by
    intro j hj
    rw [List.drop_append_of_le_length (by rw [List.length_replicate]; omega), List.drop_replicate]
    have hcount : z + 3 - j = z - j + 3 := by omega
    rw [hcount]
    rfl
  refine (Search.firstFrom_some_iff startCode_window.nil).mpr ⟨Nat.zero_le z, ?_, ?_⟩
  · rw [hdrop z (Nat.le_refl z), Nat.sub_self]
    have hlong : startCodeLen [0, 0, 0, 1] = some 4 := by decide
    exact startCode_window.keeps rest hlong
  · intro j _ hj
    rw [hdrop j (by omega)]
    obtain ⟨d, hd⟩ := Nat.exists_eq_succ_of_ne_zero (by omega : z - j ≠ 0)
    rw [hd]
    exact startCodeLen_zeros _

/-- Zeros and a start code behind them are some number of zeros and a one. -/
theorem replicate_startCode (k : Nat) (long : Bool) (rest : Bytes) :
    List.replicate k 0 ++ (startCode long ++ rest) =
      List.replicate (k + (startCode long).length - 1) 0 ++ 1 :: rest := by
  cases long with
  | true =>
    have hzeros : List.replicate (k + 3) (0 : UInt8) = List.replicate k 0 ++ [0, 0, 0] :=
      List.replicate_add k 3 0
    simp [startCode, hzeros]
  | false =>
    have hzeros : List.replicate (k + 2) (0 : UInt8) = List.replicate k 0 ++ [0, 0] :=
      List.replicate_add k 2 0
    simp [startCode, hzeros]

/-- The start code that is found is passed over, with the zeros of it. -/
theorem findStartCode_one {z : Nat} (hz : 2 ≤ z) (rest : Bytes) : ∃ len,
    findStartCode (List.replicate z 0 ++ 1 :: rest) 0 = some (z - 3, len) ∧
      z - 3 + len = z + 1 := by
  match z, hz with
  | 2, _ => exact ⟨3, findStartCode_startCode false, rfl⟩
  | z + 3, _ => exact ⟨4, findStartCode_zeros z rest, rfl⟩

theorem startCode_length (long : Bool) :
    (startCode long).length = 3 ∨ (startCode long).length = 4 := by
  cases long
  · exact Or.inl rfl
  · exact Or.inr rfl

theorem encodePadded_cons (lead : Nat) (p : PaddedNal) (items : List PaddedNal) :
    encodePadded lead (p :: items) =
      List.replicate (lead + (startCode p.long).length - 1) 0 ++
        1 :: (p.nal ++ encodePadded p.zeros items) := by
  rw [← replicate_startCode]
  simp [encodePadded]

/-- The pieces of what follows a start code: the NAL with its padding, then those behind it. -/
theorem between_padded (p : PaddedNal) (hp : Unescaped p.nal)
    (hitems : ∀ q ∈ items, Unescaped q.nal) :
    Search.between startCodeLen 0 (p.nal ++ encodePadded p.zeros items) =
      withPadding (p :: items) := by
  induction items generalizing p with
  | nil =>
    have hnone : findStartCode (p.nal ++ encodePadded p.zeros []) 0 = none := by
      rw [hp.findStartCode_append, encodePadded, List.flatMap_nil, List.append_nil,
        findStartCode_replicate]
      rfl
    rw [between_of_find_none hnone]
    simp [encodePadded, withPadding]
  | cons q items ih =>
    have hrest := ih q (hitems q (by simp)) fun r hr => hitems r (by simp [hr])
    have hcode := startCode_length q.long
    rw [encodePadded_cons, withPadding, ← hrest]
    generalize hz : p.zeros + (startCode q.long).length - 1 = z
    have hleft : p.zeros + (startCode q.long).length - 4 = z - 3 := by omega
    obtain ⟨len, hfind, hlen⟩ := findStartCode_one (z := z) (by omega)
      (q.nal ++ encodePadded q.zeros items)
    have hnext : findStartCode (p.nal ++ (List.replicate z 0 ++
        1 :: (q.nal ++ encodePadded q.zeros items))) 0 =
          some (p.nal.length + (z - 3), len) := by
      rw [hp.findStartCode_append, hfind]
      rfl
    rw [between_of_find hnext, hleft, Nat.add_assoc, hlen]
    congr 1
    · rw [List.take_length_add_append, List.take_append_of_le_length (by simp),
        List.take_replicate, Nat.min_eq_left (by omega)]
    · rw [← List.drop_drop, List.drop_left, ← List.drop_drop,
        List.drop_left' (List.length_replicate ..)]
      rfl

theorem segments_padded (lead : Nat) (hitems : ∀ p ∈ items, Unescaped p.nal) :
    segments (encodePadded lead items) = withPadding items := by
  cases items with
  | nil =>
    rw [encodePadded, List.flatMap_nil, List.append_nil]
    exact segments_of_find_none (findStartCode_replicate lead)
  | cons p items =>
    have hcode := startCode_length p.long
    rw [encodePadded_cons]
    generalize hz : lead + (startCode p.long).length - 1 = z
    obtain ⟨len, hfind, hlen⟩ := findStartCode_one (z := z) (by omega)
      (p.nal ++ encodePadded p.zeros items)
    rw [segments_of_find hfind, hlen, ← List.drop_drop,
      List.drop_left' (List.length_replicate ..)]
    exact between_padded p (hitems p (by simp)) fun q hq => hitems q (by simp [hq])

/-- What the calls hand over, however many there are: the segments that are not empty. -/
theorem unpadded_iff (reads : Reads) :
    Unpadded reads ↔ ∀ s ∈ segments reads.flatten, s.getLast? ≠ some 0 := by
  constructor
  · intro h s hs hlast
    obtain ⟨i, hi, rfl⟩ := List.mem_iff_getElem.mp hs
    refine h (i + 1) _ ?_ hlast
    rw [readCalls_eq, List.nil_append, cutCalls_segments, List.map_map]
    refine List.mem_map.mpr ⟨i, by simp, ?_⟩
    have hne : 0 < ((segments reads.flatten)[i]).length := by
      refine List.length_pos_iff.mpr fun hnil => ?_
      simp [hnil] at hlast
    simp [List.getElem?_eq_getElem hi, nonEmpty, hne]
  · intro h n nal hnal
    rw [readCalls_eq, List.nil_append, cutCalls_segments, List.map_map] at hnal
    obtain ⟨i, _, hi⟩ := List.mem_map.mp hnal
    obtain ⟨segment, hsegment, hnonEmpty⟩ := Option.bind_eq_some_iff.mp hi
    rw [nonEmpty] at hnonEmpty
    split at hnonEmpty
    · cases hnonEmpty
      exact h nal (List.mem_of_getElem? hsegment)
    · cases hnonEmpty

theorem Unescaped.padded_iff {nal : Bytes} (h : Unescaped nal) (k : Nat) :
    (nal ++ List.replicate k 0).getLast? ≠ some 0 ↔ k = 0 := by
  constructor
  · intro hlast
    by_contra hk
    simp [List.getLast?_replicate, hk] at hlast
  · rintro rfl
    simpa using h.lastByte

theorem withPadding_iff (hitems : ∀ p ∈ items, Unescaped p.nal) :
    (∀ s ∈ withPadding items, s.getLast? ≠ some 0) ↔ Tight items := by
  induction items with
  | nil => simp [withPadding, Tight]
  | cons p items ih =>
    have hp : Unescaped p.nal := hitems p (by simp)
    have hrest := ih fun q hq => hitems q (by simp [hq])
    cases items with
    | nil => simpa [withPadding, Tight] using hp.padded_iff p.zeros
    | cons q items =>
      rw [withPadding, List.forall_mem_cons, hrest, hp.padded_iff, Tight, Nat.sub_eq_zero_iff_le]

/-- The reader takes the padding off exactly if it is short enough for the start codes. -/
theorem padding_dropped_iff (lead : Nat) (items : List PaddedNal)
    (hitems : ∀ p ∈ items, Unescaped p.nal) (reads : Reads)
    (hreads : reads.flatten = encodePadded lead items) : Unpadded reads ↔ Tight items := by
  rw [unpadded_iff, hreads, segments_padded lead hitems, withPadding_iff hitems]

/-- One zero before a short start code makes a long one of it. -/
theorem padding_dropped_short :
    Unpadded [[0, 0, 0, 0, 1, 103, 66], [0, 0, 0], [1, 101, 136, 0, 0, 1, 65, 154]] :=
  (padding_dropped_iff 1
    [⟨true, [103, 66], 1⟩, ⟨false, [101, 136], 0⟩, ⟨false, [65, 154], 0⟩]
    (by
      intro p hp
      simp only [List.mem_cons, List.not_mem_nil, or_false] at hp
      rcases hp with rfl | rfl | rfl
      · exact ⟨by decide, by decide, by decide⟩
      · exact ⟨by decide, by decide, by decide⟩
      · exact ⟨by decide, by decide, by decide⟩)
    _ (by decide)).mpr (by simp [Tight, startCode])

/-- Two zeros behind a parameter set: the callback gets them as part of it. -/
theorem padding_delivered :
    ¬ ∀ (lead : Nat) (items : List PaddedNal), (∀ p ∈ items, Unescaped p.nal) →
      ∀ reads : Reads, reads.flatten = encodePadded lead items → Unpadded reads := by
  intro h
  have hall := h 0 [⟨true, [103, 66], 2⟩, ⟨true, [101, 136], 0⟩]
    (by
      intro p hp
      rcases List.mem_pair.mp hp with rfl | rfl
      · exact ⟨by decide, by decide, by decide⟩
      · exact ⟨by decide, by decide, by decide⟩)
    [[0, 0, 0, 1, 103, 66, 0, 0], [0, 0, 0, 1, 101, 136]] (by decide)
  exact hall 1 [103, 66, 0, 0] (by decide +kernel) (by decide)

end Veda.Media
