import Veda.Rtsp.Parser

/-!
What the bytes of a request mean, without the order in which a hash map is visited: its
request line, its headers, and the sequence number that its reply has to carry.
-/
namespace Veda.Rtsp

open Cpp

variable {ord : HashOrder} {raw : Bytes} {h : Headers} {v : Bytes} {e : StdException}

/-- Method and URI where the first line is a request line. -/
def requestLine (raw : Bytes) : Option (Method × Bytes) :=
  if raw = [] then none else parseRequestLine (nextLine raw).1

def requestHeaders (raw : Bytes) : Headers := parseHeaders (nextLine raw).2

/-- Headers whose name is `CSeq` in some letter case. -/
def cseqHeaders (h : Headers) : Headers := h.filter fun e => iequals e.1 cseqName

/-- At most one header is named `CSeq` in any letter case, and its value is a number. -/
def CseqWellFormed (raw : Bytes) : Prop :=
  (cseqHeaders (requestHeaders raw)).length ≤ 1 ∧
    ∀ e ∈ cseqHeaders (requestHeaders raw), ∃ z, stoi e.2 = .ok z

instance : Decidable (CseqWellFormed raw) :=
  decidable_of_iff ((cseqHeaders (requestHeaders raw)).length ≤ 1 ∧
      ∀ e ∈ cseqHeaders (requestHeaders raw), (stoi e.2).toOption.isSome = true) <| by
    refine and_congr Iff.rfl (forall₂_congr fun e _ => ?_)
    cases stoi e.2 <;> simp [Except.toOption]

/-- The sequence number that the reply to a request carries: the value of its CSeq header, 0
where there is none or the request line is malformed. -/
def expectedCseq (raw : Bytes) : Int :=
  match requestLine raw, cseqHeaders (requestHeaders raw) with
  | some _, e :: _ => (stoi e.2).toOption.getD 0
  | _, _ => 0

/-- The request line is well formed, and the CSeq value that the parser selects is not a
number that `std::stoi` accepts. -/
def BadCseq (ord : HashOrder) (raw : Bytes) : Prop :=
  requestLine raw ≠ none ∧
    ∃ v e, cseqValue (ord.order raw (requestHeaders raw)) = some v ∧ stoi v = .error e

theorem iequals_iff {a b : Bytes} : iequals a b = true ↔ a.map tolower = b.map tolower := by
  rw [iequals, Bool.and_eq_true, beq_iff_eq]
  induction a generalizing b with
  | nil => cases b <;> simp
  | cons x a ih =>
    cases b with
    | nil => simp
    | cons y b =>
      have hrest := ih (b := b)
      simp only [List.length_cons, Nat.add_right_cancel_iff, List.zip_cons_cons, List.all_cons,
        Bool.and_eq_true, beq_iff_eq, List.map_cons, List.cons.injEq]
      rw [← hrest]
      tauto

theorem iequals_refl (a : Bytes) : iequals a a = true :=
  iequals_iff.mpr rfl

theorem iequals_symm {a b : Bytes} (hab : iequals a b = true) : iequals b a = true :=
  iequals_iff.mpr (iequals_iff.mp hab).symm

theorem iequals_trans {a b c : Bytes} (hab : iequals a b = true) (hbc : iequals b c = true) :
    iequals a c = true :=
  iequals_iff.mpr ((iequals_iff.mp hab).trans (iequals_iff.mp hbc))

theorem iequals_congr {a b : Bytes} (h : iequals a b = true) (name : Bytes) :
    iequals a name = iequals b name := by
  rw [Bool.eq_iff_iff, iequals_iff, iequals_iff, iequals_iff.mp h]

theorem stringToMethod_congr {a b : Bytes} (h : iequals a b = true) :
    stringToMethod a = stringToMethod b := by
  simp only [stringToMethod, iequals_congr h]

/-- A byte below the letters stays where it is in every spelling. -/
theorem mem_of_iequals {a b : Bytes} {c : UInt8} (h : iequals a b = true) (hc : c < 65)
    (hmem : c ∈ a) : c ∈ b := by
  have hlow : ∀ d : UInt8, tolower d = tolower c → d = c := by
    intro d hd
    have hbound : c.toNat < 65 := UInt8.lt_iff_toNat_lt.mp hc
    have hself : tolower c = c := by
      rcases tolower_cases c with hself | ⟨hletter, -⟩
      · exact hself
      · omega
    rw [hself] at hd
    rcases tolower_cases d with hsame | ⟨hletter, hlower⟩
    · exact hsame.symm.trans hd
    · rw [hd] at hlower
      omega
  have hmap := List.mem_map_of_mem (f := tolower) hmem
  rw [iequals_iff.mp h] at hmap
  obtain ⟨d, hd, hdc⟩ := List.mem_map.mp hmap
  exact hlow d hdc ▸ hd

/-- What a lookup finds. -/
theorem found_some {name : Bytes} {e : Bytes × Bytes}
    (hf : (h.find? fun e => iequals e.1 name) = some e) : e ∈ h ∧ iequals e.1 name = true := by
  have hname := List.find?_some hf
  exact ⟨List.mem_of_find?_eq_some hf, hname⟩

theorem parseRequest_eq : parseRequest ord raw =
    match requestLine raw with
    | none => .ok none
    | some (method, uri) =>
      match cseqValue (ord.order raw (requestHeaders raw)) with
      | none => .ok (some { method, uri, headers := ord.order raw (requestHeaders raw) })
      | some v =>
        match stoi v with
        | .error e => .error e
        | .ok cseq =>
          .ok (some { method, uri, cseq, headers := ord.order raw (requestHeaders raw) }) := by
  unfold parseRequest requestLine
  by_cases hraw : raw = []
  · simp only [hraw, if_true]
  · simp only [hraw, if_false]
    rfl

theorem parseRequest_none : parseRequest ord raw = .ok none ↔ requestLine raw = none := by
  rw [parseRequest_eq]
  cases requestLine raw with
  | none => simp
  | some line =>
    cases cseqValue (ord.order raw (requestHeaders raw)) with
    | none => simp
    | some v => cases hv : stoi v <;> simp [hv]

/-- What a parsed request takes from its text. -/
theorem parseRequest_parsed {req : Request} (h : parseRequest ord raw = .ok (some req)) :
    requestLine raw = some (req.method, req.uri) ∧
      req.headers = ord.order raw (requestHeaders raw) := by
  rw [parseRequest_eq] at h
  split at h
  · cases h
  · rename_i method uri hl
    split at h
    · cases h
      exact ⟨hl, rfl⟩
    · split at h
      · cases h
      · cases h
        exact ⟨hl, rfl⟩

/-- The parser raises exactly where it converts a malformed sequence number. -/
theorem parseRequest_raises : (∃ e, parseRequest ord raw = .error e) ↔ BadCseq ord raw := by
  rw [parseRequest_eq, BadCseq]
  cases requestLine raw with
  | none => simp
  | some line =>
    cases cseqValue (ord.order raw (requestHeaders raw)) with
    | none => simp
    | some v => cases hv : stoi v <;> simp [hv]

/-- The selected value belongs to a CSeq header. -/
theorem cseqValue_some (hv : cseqValue h = some v) : ∃ e ∈ cseqHeaders h, e.2 = v := by
  unfold cseqValue at hv
  cases hl : h.lookup cseqName with
  | some u =>
    simp only [hl, Option.some.injEq] at hv
    subst hv
    obtain ⟨l₁, l₂, hsplit, _⟩ := List.lookup_eq_some_iff.mp hl
    refine ⟨(cseqName, u), List.mem_filter.mpr ⟨by simp [hsplit], ?_⟩, rfl⟩
    show iequals cseqName cseqName = true
    decide +kernel
  | none =>
    simp only [hl] at hv
    obtain ⟨e, he, rfl⟩ := Option.map_eq_some_iff.mp hv
    exact ⟨e, List.mem_filter.mpr (found_some he), rfl⟩

theorem cseqValue_none (hv : cseqValue h = none) : cseqHeaders h = [] := by
  unfold cseqValue at hv
  cases hl : h.lookup cseqName with
  | some u => simp [hl] at hv
  | none =>
    simp only [hl, Option.map_eq_none_iff, List.find?_eq_none] at hv
    exact List.filter_eq_nil_iff.mpr hv

theorem cseqHeaders_order : (cseqHeaders (ord.order raw h)).Perm (cseqHeaders h) :=
  (ord.perm raw h).filter _

/-- A request with a well-formed sequence number is parsed with that number, whatever the
iteration order. -/
theorem parseRequest_cseq (hc : CseqWellFormed raw) {line : Method × Bytes}
    (hl : requestLine raw = some line) : parseRequest ord raw =
      .ok (some { method := line.1, uri := line.2, cseq := expectedCseq raw,
                  headers := ord.order raw (requestHeaders raw) }) := by
  obtain ⟨hone, hnum⟩ := hc
  have hperm : (cseqHeaders (ord.order raw (requestHeaders raw))).Perm
      (cseqHeaders (requestHeaders raw)) := cseqHeaders_order
  rw [parseRequest_eq, hl]
  cases hv : cseqValue (ord.order raw (requestHeaders raw)) with
  | none =>
    rw [cseqValue_none hv] at hperm
    simp [expectedCseq, hl, hperm.nil_eq.symm]
  | some v =>
    obtain ⟨e, he, rfl⟩ := cseqValue_some hv
    have hmem := hperm.mem_iff.mp he
    obtain ⟨z, hz⟩ := hnum e hmem
    obtain ⟨e', rest, hcons⟩ := List.exists_cons_of_ne_nil (List.ne_nil_of_mem hmem)
    rw [hcons] at hone hmem
    have hrest : rest = [] := by
      apply List.eq_nil_of_length_eq_zero
      simp only [List.length_cons] at hone
      omega
    subst hrest
    have he' : e = e' := by simpa using hmem
    subst he'
    simp [expectedCseq, hl, hcons, hz, Except.toOption]

end Veda.Rtsp
