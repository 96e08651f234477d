import Veda.Media.AnnexBReader

/-!
The reader against the byte stream: what a call delivers and leaves behind depends on the
bytes in the buffer and the file, not on how they are read, and a stream in the byte stream
format is cut into exactly its NALs.
-/
namespace Veda.Media

variable {buffer buffer' stream nal rest : Bytes} {reads reads' : Reads}
  {fuel scan nalStart pos len : Nat} {nals : List (Bool × Bytes)}

theorem fill_some (h : fill buffer reads = some (buffer', reads')) :
    buffer.length < buffer'.length ∧ (∃ chunk, buffer' = buffer ++ chunk) ∧
      buffer' ++ reads'.flatten = buffer ++ reads.flatten ∧ reads'.length < reads.length := by
  induction reads with
  | nil => cases h
  | cons chunk reads ih =>
    rw [fill] at h
    split at h
    · obtain ⟨hlen, happ, hflat, hreads⟩ := ih h
      refine ⟨hlen, happ, ?_, Nat.lt_succ_of_lt hreads⟩
      simp_all
    · rename_i hc
      cases h
      have hpos := List.length_pos_iff.mpr hc
      refine ⟨?_, ⟨chunk, rfl⟩, by simp, Nat.lt_succ_self _⟩
      rw [List.length_append]
      omega

theorem fill_none (h : fill buffer reads = none) : reads.flatten = [] := by
  induction reads with
  | nil => rfl
  | cons chunk reads ih =>
    rw [fill] at h
    split at h
    · rename_i hc
      simp [hc, ih h]
    · cases h

/-- A search of the stream that has read what it needed, or everything. -/
inductive Finds (stream : Bytes) : Option (Nat × Nat) → Sought → Prop
  | found {pos len : Nat} {buffer : Bytes} {reads : Reads} :
      buffer ++ reads.flatten = stream → pos ≤ buffer.length →
      Finds stream (some (pos, len)) (.found pos len buffer reads)
  | eof : Finds stream none (.eof stream)

/-- A position found in the buffer is the one in the stream. -/
theorem findStartCode_append (rest : Bytes) {offset : Nat}
    (h : findStartCode buffer offset = some (pos, len)) :
    findStartCode (buffer ++ rest) offset = some (pos, len) ∧ pos ≤ buffer.length := by
  refine ⟨startCode_window.firstFrom_append (by decide) h, ?_⟩
  obtain ⟨-, hpos, -⟩ := (Search.firstFrom_some_iff startCode_window.nil).mp h
  have := startCode_window.match_length hpos (by decide)
  omega

theorem seekFirst_finds (buffer : Bytes) (hf : reads.length < fuel) :
    Finds (buffer ++ reads.flatten) (findStartCode (buffer ++ reads.flatten) 0)
      (seekFirst fuel buffer reads) := by
  induction fuel generalizing buffer reads with
  | zero => omega
  | succ fuel ih =>
    rw [seekFirst]
    split
    · rename_i pos len hfound
      obtain ⟨hstream, hpos⟩ := findStartCode_append reads.flatten hfound
      rw [hstream]
      exact .found rfl hpos
    · rename_i hnone
      split
      · rename_i hfill
        rw [fill_none hfill, List.append_nil, hnone]
        exact .eof
      · rename_i buffer' reads' hfill
        obtain ⟨-, -, hflat, hreads⟩ := fill_some hfill
        rw [← hflat]
        exact ih buffer' (by omega)

/-- Between two rounds every index before `scan` has been searched for good. -/
theorem seekNext_finds (buffer : Bytes) (hf : reads.length < fuel) (hn : nalStart ≤ scan)
    (hs : scan = nalStart ∨ scan + 3 ≤ buffer.length) :
    Finds (buffer ++ reads.flatten) (findStartCode (buffer ++ reads.flatten) scan)
      (seekNext nalStart fuel scan buffer reads) := by
  induction fuel generalizing buffer reads scan with
  | zero => omega
  | succ fuel ih =>
    rw [seekNext]
    split
    · rename_i pos len hfound
      obtain ⟨hstream, hpos⟩ := findStartCode_append reads.flatten hfound
      rw [hstream]
      exact .found rfl hpos
    · rename_i hnone
      dsimp only
      generalize hresume : (if buffer.length ≥ 3 then buffer.length - 3 else nalStart) = back
      generalize hback : (if back < nalStart then nalStart else back) = resume
      split
      · rename_i hfill
        rw [fill_none hfill, List.append_nil, hnone]
        exact .eof
      · rename_i buffer' reads' hfill
        obtain ⟨hlen, ⟨chunk, rfl⟩, hflat, hreads⟩ := fill_some hfill
        have hbounds : nalStart ≤ resume ∧ scan ≤ resume ∧
            (resume = nalStart ∧ scan = nalStart ∨ resume + 3 = buffer.length) := by
          split at hresume <;> split at hback <;> omega
        have hsearch : findStartCode (buffer ++ reads.flatten) scan =
            findStartCode (buffer ++ reads.flatten) resume := by
          refine (startCode_window.firstFrom_resume hnone hbounds.2.1 ?_).symm
          omega
        rw [hsearch, ← hflat]
        refine ih (buffer ++ chunk) ?_ hbounds.1 ?_
        · omega
        · omega

/-- What one call does to the stream that is left: the callback, the result, and the stream
afterwards. -/
def cutNal (stream : Bytes) : Option Bytes × Bool × Bytes :=
  match findStartCode stream 0 with
  | none => (none, false, stream)
  | some (pos, len) =>
    let body := stream.drop pos
    match findStartCode body len with
    | none => (nonEmpty (body.drop len), false, [])
    | some (next, _) => (nonEmpty ((body.drop len).take (next - len)), true, body.drop next)

/-- How the stream is cut into reads does not matter for a call. -/
theorem readNal_eq (buffer : Bytes) (reads : Reads) :
    let call := readNal buffer reads
    (call.callback, call.result, call.buffer ++ call.reads.flatten) =
      cutNal (buffer ++ reads.flatten) := by
  have hfirst := seekFirst_finds buffer (Nat.lt_succ_self reads.length)
  rw [readNal, cutNal]
  generalize findStartCode (buffer ++ reads.flatten) 0 = at_ at hfirst
  generalize seekFirst (reads.length + 1) buffer reads = sought at hfirst
  cases hfirst with
  | eof => simp
  | @found pos len buffer₁ reads₁ hstream hpos =>
    have hnext := seekNext_finds (buffer₁.drop pos) (Nat.lt_succ_self reads₁.length)
      (Nat.le_refl len) (Or.inl rfl)
    have hbody : (buffer ++ reads.flatten).drop pos = buffer₁.drop pos ++ reads₁.flatten := by
      rw [← hstream, List.drop_append_of_le_length hpos]
    dsimp only
    rw [hbody]
    generalize findStartCode (buffer₁.drop pos ++ reads₁.flatten) len = at_ at hnext
    generalize buffer₁.drop pos ++ reads₁.flatten = bytes at hnext
    generalize seekNext len (reads₁.length + 1) len (buffer₁.drop pos) reads₁ = sought at hnext
    cases hnext with
    | eof => rfl
    | @found next _ buffer₂ reads₂ hstream₂ hnextPos =>
      rw [← hstream₂]
      simp only [← List.drop_take, List.take_append_of_le_length hnextPos,
        List.drop_append_of_le_length hnextPos]

/-- Callback argument and result of the first `n` calls on a stream. -/
def cutCalls : Nat → Bytes → List (Option Bytes × Bool)
  | 0, _ => []
  | n + 1, stream =>
    let call := cutNal stream
    (call.1, call.2.1) :: cutCalls n call.2.2

theorem readCalls_eq (n : Nat) (buffer : Bytes) (reads : Reads) :
    readCalls n buffer reads = cutCalls n (buffer ++ reads.flatten) := by
  induction n generalizing buffer reads with
  | zero => rfl
  | succ n ih =>
    rw [readCalls, cutCalls, ← readNal_eq buffer reads, ih]

/-- A NAL as an encoder writes it: no start code inside, and no zero byte at the end. -/
structure Unescaped (nal : Bytes) : Prop where
  nonEmpty : nal ≠ []
  noStartCode : ¬ [0, 0, 1] <:+: nal
  lastByte : nal.getLast? ≠ some 0

def startCode (long : Bool) : Bytes := if long then [0, 0, 0, 1] else [0, 0, 1]

/-- A stream in the byte stream format: each NAL with the start code chosen for it. -/
def encode (nals : List (Bool × Bytes)) : Bytes := nals.flatMap fun p => startCode p.1 ++ p.2

theorem startCodeLen_startCode (long : Bool) :
    startCodeLen (startCode long ++ rest) = some (startCode long).length := by
  cases long with
  | true => exact startCode_window.keeps rest (by decide)
  | false => exact startCode_window.keeps rest (by decide)

theorem findStartCode_startCode (long : Bool) :
    findStartCode (startCode long ++ rest) 0 = some (0, (startCode long).length) := by
  refine (Search.firstFrom_some_iff startCode_window.nil).mpr ⟨Nat.le_refl 0, ?_, ?_⟩
  · exact startCodeLen_startCode long
  · omega

/-- No start code begins inside a NAL, whatever follows the NAL. -/
theorem Unescaped.startCodeLen_suffix (h : Unescaped nal) {tail : Bytes} (ht : tail ≠ [])
    (hs : tail <:+ nal) (rest : Bytes) : startCodeLen (tail ++ rest) = none := by
  obtain ⟨front, rfl⟩ := hs
  have hinside : ¬ [0, 0, 1] <:+: tail := by
    intro hi
    exact h.noStartCode (hi.trans (List.suffix_append front tail).isInfix)
  have hlast : tail.getLast? ≠ some 0 := by
    have := h.lastByte
    rwa [List.getLast?_append_of_ne_nil front ht] at this
  cases hc : startCodeLen (tail ++ rest) with
  | none => rfl
  | some len =>
    exfalso
    have hcode : [0, 0, 1] <+: tail ++ rest ∨ [0, 0, 0, 1] <+: tail ++ rest := by
      rcases startCodeLen_some hc with ⟨hd, -⟩ | ⟨hd, -⟩
      · exact Or.inl hd
      · exact Or.inr hd
    -- a start code that is not all inside the NAL begins with the last bytes of it, all zero
    rcases tail with _ | ⟨a, _ | ⟨b, _ | ⟨c, _ | ⟨d, tail⟩⟩⟩⟩
    · exact ht rfl
    · have hzero : 0 = a := by
        rcases hcode with hd | hd <;> exact (List.cons_prefix_cons.mp hd).1
      subst hzero
      exact hlast rfl
    · have hzero : 0 = b := by
        rcases hcode with hd | hd <;>
          exact (List.cons_prefix_cons.mp (List.cons_prefix_cons.mp hd).2).1
      subst hzero
      exact hlast rfl
    · rcases hcode with hd | hd
      · exact hinside ((prefix_append_iff rest (by simp)).mp hd).isInfix
      · have hzero : 0 = c := by
          have htwo := (List.cons_prefix_cons.mp (List.cons_prefix_cons.mp hd).2).2
          exact (List.cons_prefix_cons.mp htwo).1
        subst hzero
        exact hlast rfl
    · rcases hcode with hd | hd
      · exact hinside ((prefix_append_iff rest (by simp)).mp hd).isInfix
      · have hlong := ((prefix_append_iff rest (by simp)).mp hd).isInfix
        exact hinside (List.IsInfix.trans (by decide) hlong)

/-- A search passes over the NAL. -/
theorem Unescaped.findStartCode_append (h : Unescaped nal) (rest : Bytes) :
    findStartCode (nal ++ rest) 0 =
      (findStartCode rest 0).map fun found => (nal.length + found.1, found.2) := by
  have hskip : Search.firstFrom startCodeLen nal.length (nal ++ rest) =
      Search.firstFrom startCodeLen 0 (nal ++ rest) := by
    apply Search.firstFrom_skip startCode_window.nil (Nat.zero_le _)
    intro j _ hj
    rw [List.drop_append_of_le_length (by omega)]
    exact h.startCodeLen_suffix (by simp; omega) (List.drop_suffix j nal) rest
  have hrest := Search.firstFrom_drop startCodeLen nal.length 0 (nal ++ rest)
  rw [Nat.add_zero, List.drop_left] at hrest
  rw [findStartCode, ← hskip, hrest]
  rfl

/-- The search from behind a start code passes over the NAL. -/
theorem findStartCode_nal (h : Unescaped nal) (long : Bool) (rest : Bytes) :
    findStartCode (startCode long ++ (nal ++ rest)) (startCode long).length =
      (findStartCode rest 0).map fun found =>
        ((startCode long).length + (nal.length + found.1), found.2) := by
  have hcode := Search.firstFrom_drop startCodeLen (startCode long).length 0
    (startCode long ++ (nal ++ rest))
  have hnal := h.findStartCode_append rest
  rw [findStartCode] at hnal
  rw [Nat.add_zero, List.drop_left, hnal, Option.map_map] at hcode
  rw [findStartCode, hcode]
  rfl

theorem cutNal_encode (long : Bool) (h : Unescaped nal) :
    cutNal (encode ((long, nal) :: nals)) = (some nal, !nals.isEmpty, encode nals) := by
  have hne : nonEmpty nal = some nal := if_pos (List.length_pos_iff.mpr h.nonEmpty)
  have hstream : encode ((long, nal) :: nals) = startCode long ++ (nal ++ encode nals) := by
    rw [encode, List.flatMap_cons, List.append_assoc]
    rfl
  rw [hstream, cutNal, findStartCode_startCode]
  dsimp only
  rw [List.drop_zero, findStartCode_nal h, List.drop_left]
  cases nals with
  | nil => simp [encode, findStartCode, Search.firstFrom, Search.first, hne]
  | cons p nals =>
    have hnext : findStartCode (encode (p :: nals)) 0 = some (0, (startCode p.1).length) := by
      rw [encode, List.flatMap_cons, List.append_assoc]
      exact findStartCode_startCode p.1
    rw [hnext]
    simp [hne, List.drop_append]

/-- The calls on an encoded stream, and those behind its end. -/
theorem cutCalls_encode (hn : ∀ p ∈ nals, Unescaped p.2) (later : Nat) :
    cutCalls (nals.length + later) (encode nals) =
      nals.mapIdx (fun i p => (some p.2, decide (i + 1 < nals.length))) ++
        List.replicate later (none, false) := by
  induction nals with
  | nil =>
    induction later with
    | zero => rfl
    | succ later ih =>
      rw [List.length_nil, Nat.zero_add] at ih ⊢
      rw [cutCalls, List.replicate_succ]
      exact congrArg _ ih
  | cons p nals ih =>
    obtain ⟨long, nal⟩ := p
    have hnal : Unescaped nal := hn (long, nal) (by simp)
    have hrest := ih fun p hp => hn p (by simp [hp])
    have hlast : (!nals.isEmpty) = decide (0 + 1 < ((long, nal) :: nals).length) := by
      cases nals <;> simp
    rw [List.length_cons, Nat.add_right_comm, cutCalls, cutNal_encode long hnal, hrest,
      List.mapIdx_cons, hlast]
    simp

/-- The Annex-B round trip: whatever start codes separate the NALs and however the file
delivers the stream, each call gives the callback the next NAL and returns `true`, except that
the call for the last NAL returns `false`; later calls deliver nothing. -/
theorem readNal_roundTrip (nals : List (Bool × Bytes)) (hn : ∀ p ∈ nals, Unescaped p.2)
    (reads : Reads) (hr : reads.flatten = encode nals) (later : Nat) :
    readCalls (nals.length + later) [] reads =
      nals.mapIdx (fun i p => (some p.2, decide (i + 1 < nals.length))) ++
        List.replicate later (none, false) := by
  rw [readCalls_eq, List.nil_append, hr, cutCalls_encode hn]

/-- Two NALs, the reads cut inside both start codes, and one call after the last. -/
theorem readNal_roundTrip_straddling :
    readCalls 3 [] [[0, 0], [0], [1, 103, 1, 0], [0, 1], [101, 0, 0, 2]] =
      [(some [103, 1], true), (some [101, 0, 0, 2], false), (none, false)] :=
  readNal_roundTrip [(true, [103, 1]), (false, [101, 0, 0, 2])]
    (by
      intro p hp
      rcases List.mem_pair.mp hp with rfl | rfl
      · exact ⟨by decide, by decide, by decide⟩
      · exact ⟨by decide, by decide, by decide⟩)
    [[0, 0], [0], [1, 103, 1, 0], [0, 1], [101, 0, 0, 2]] (by decide) 1

end Veda.Media
