import Veda.Rtsp.Grammar

/-!
Well-formed requests as a client writes them, and what the parser makes of them: the request
line and the headers that were written, one header for each name.
-/
namespace Veda.Rtsp

open Cpp Delimited

structure RequestText where
  method : Bytes
  uri : Bytes
  version : Bytes := ascii "1.0"
  headers : Headers

namespace RequestText

def requestLine (r : RequestText) : Bytes :=
  r.method ++ [32] ++ r.uri ++ [32] ++ ascii "RTSP/" ++ r.version

def headerLine (e : Bytes × Bytes) : Bytes := e.1 ++ [58, 32] ++ e.2

def lines (r : RequestText) : List Bytes := r.requestLine :: r.headers.map headerLine

/-- The lines, each with its CRLF, and the empty line. -/
def text (r : RequestText) : Bytes := r.lines.flatMap (· ++ crlf) ++ crlf

/-- A method, a URI or a header name: no white space inside. -/
def Token (b : Bytes) : Prop := b ≠ [] ∧ b.all (fun c => !isspace c) = true

/-- No two names are the same up to letter case. -/
def Distinct (h : Headers) : Prop := h.Pairwise fun e f => iequals e.1 f.1 = false

structure WellFormed (r : RequestText) : Prop where
  method : Token r.method
  uri : Token r.uri
  version : 13 ∉ r.version
  names : ∀ e ∈ r.headers, Token e.1 ∧ 58 ∉ e.1
  values : ∀ e ∈ r.headers, 13 ∉ e.2
  distinct : Distinct r.headers

instance (b : Bytes) : Decidable (Token b) := inferInstanceAs (Decidable (_ ∧ _))
instance (h : Headers) : Decidable (Distinct h) := inferInstanceAs (Decidable (h.Pairwise _))

instance (r : RequestText) : Decidable r.WellFormed :=
  decidable_of_iff (Token r.method ∧ Token r.uri ∧ 13 ∉ r.version ∧
      (∀ e ∈ r.headers, Token e.1 ∧ 58 ∉ e.1) ∧ (∀ e ∈ r.headers, 13 ∉ e.2) ∧
      Distinct r.headers)
    ⟨fun ⟨h₁, h₂, h₃, h₄, h₅, h₆⟩ => ⟨h₁, h₂, h₃, h₄, h₅, h₆⟩,
      fun ⟨h₁, h₂, h₃, h₄, h₅, h₆⟩ => ⟨h₁, h₂, h₃, h₄, h₅, h₆⟩⟩

variable {r : RequestText} {b l : Bytes} {e f : Bytes × Bytes} {h h' : Headers} {name : Bytes}

theorem Token.isspace (hb : Token b) {c : UInt8} (hc : c ∈ b) : Cpp.isspace c = false := by
  simpa using List.all_eq_true.mp hb.2 c hc

theorem Token.not_mem (hb : Token b) {c : UInt8} (hc : Cpp.isspace c = true) : c ∉ b := by
  intro hmem
  rw [hb.isspace hmem] at hc
  cases hc

theorem Token.dropWhile (hb : Token b) : b.dropWhile Cpp.isspace = b := by
  obtain ⟨c, cs, rfl⟩ := List.exists_cons_of_ne_nil hb.1
  rw [List.dropWhile_cons, hb.isspace (by simp)]
  rfl

theorem Token.reverse (hb : Token b) : Token b.reverse := by
  refine ⟨by simp [hb.1], ?_⟩
  rw [List.all_reverse]
  exact hb.2

theorem Token.trim (hb : Token b) : trim b = b := by
  rw [Rtsp.trim, hb.dropWhile, hb.reverse.dropWhile, List.reverse_reverse]

theorem WellFormed.requestLine (hr : r.WellFormed) : 13 ∉ r.requestLine := by
  have hm : 13 ∉ r.method := hr.method.not_mem (by decide)
  have hu : 13 ∉ r.uri := hr.uri.not_mem (by decide)
  have hrtsp : 13 ∉ ascii "RTSP/" := by decide +kernel
  simp [RequestText.requestLine, hm, hu, hr.version, hrtsp]

theorem WellFormed.headerLine (hr : r.WellFormed) (he : e ∈ r.headers) : 13 ∉ headerLine e := by
  have hn : 13 ∉ e.1 := (hr.names e he).1.not_mem (by decide)
  simp [RequestText.headerLine, hn, hr.values e he]

theorem WellFormed.isRequestLine (hr : r.WellFormed) :
    IsRequestLine r.requestLine r.method r.uri := by
  refine ⟨hr.method.not_mem (by decide), hr.uri.not_mem (by decide), r.version, ?_⟩
  simp [RequestText.requestLine, List.append_assoc]

theorem parseHeaderLine_headerLine (he : Token e.1 ∧ 58 ∉ e.1) :
    parseHeaderLine (headerLine e) = some (e.1, trim e.2) :=
  parseHeaderLine_iff.mpr ⟨e.1, 32 :: e.2, by simp [headerLine], he.2, he.1.trim, rfl⟩

/-- What the parser stores for a header. -/
def stored (e : Bytes × Bytes) : Bytes × Bytes := (e.1, trim e.2)

theorem WellFormed.clean (hr : r.WellFormed) : ¬ crlf <:+: r.requestLine ∧
    ∀ l ∈ r.headers.map RequestText.headerLine, l ≠ [] ∧ ¬ crlf <:+: l := by
  refine ⟨crlf_not_infix_of_cr hr.requestLine, ?_⟩
  intro l hl
  obtain ⟨e, he, rfl⟩ := List.mem_map.mp hl
  exact ⟨by simp [RequestText.headerLine], crlf_not_infix_of_cr (hr.headerLine he)⟩

theorem WellFormed.requestLine_text (hr : r.WellFormed) :
    Rtsp.requestLine r.text = some (stringToMethod r.method, r.uri) := by
  refine requestLine_iff.mpr ⟨r.method, ?_, rfl⟩
  have hfirst := firstLine_linesText hr.clean.1 hr.clean.2
  change firstLine r.text = r.requestLine at hfirst
  rw [hfirst]
  exact hr.isRequestLine

theorem WellFormed.fields_text (hr : r.WellFormed) : fields r.text = r.headers.map stored := by
  have hfields := fields_linesText hr.clean.1 hr.clean.2
  change fields r.text = _ at hfields
  rw [hfields, List.filterMap_map, ← List.filterMap_eq_map]
  apply List.filterMap_congr
  intro e he
  exact parseHeaderLine_headerLine (hr.names e he)

theorem Distinct.stored (hd : Distinct h) : Distinct (h.map stored) := by
  rw [Distinct, List.pairwise_map]
  exact hd

/-- With one header for each name nothing is overwritten. -/
theorem Distinct.requestHeaders {raw : Bytes} (hd : Distinct (fields raw)) :
    requestHeaders raw = fields raw := by
  rw [requestHeaders_eq]
  have hfold : ∀ fs h : Headers, Distinct (h ++ fs) →
      fs.foldl (fun h e => assign e.1 e.2 h) h = h ++ fs := by
    intro fs
    induction fs with
    | nil => simp
    | cons e fs ih =>
      intro h hd
      have hnew : ∀ f ∈ h, f.1 ≠ e.1 := by
        intro f hf hsame
        have hother := (List.pairwise_append.mp hd).2.2 f hf e List.mem_cons_self
        rw [hsame, iequals_refl] at hother
        cases hother
      rw [List.append_cons] at hd ⊢
      rw [List.foldl_cons, assign_new hnew]
      exact ih _ hd
  exact hfold _ [] hd

theorem WellFormed.requestHeaders_text (hr : r.WellFormed) :
    requestHeaders r.text = r.headers.map stored := by
  rw [← hr.fields_text]
  apply Distinct.requestHeaders
  rw [hr.fields_text]
  exact hr.distinct.stored

/-- A request ends at the first blank line of its text. -/
theorem WellFormed.find_text (hr : r.WellFormed) (tail : Bytes) : ∃ n,
    Cpp.find crlfcrlf (r.text ++ tail) = some n ∧ n + crlfcrlf.length = r.text.length := by
  have hne : r.requestLine ≠ [] := by simp [RequestText.requestLine]
  exact find_linesText hr.clean.1 hr.clean.2 hne tail

/-- Requests with nothing between them are the pieces of the stream. -/
theorem scan_texts {rs : List RequestText} (hrs : ∀ r ∈ rs, r.WellFormed) {tail : Bytes}
    (ht : Cpp.find crlfcrlf tail = none) :
    scan crlfcrlf [] (rs.flatMap text ++ tail) = (rs.map text, tail) := by
  have hne : crlfcrlf ≠ [] := by decide
  induction rs with
  | nil => exact (find_eq_none_iff_clean hne).mp ht
  | cons r rs ih =>
    obtain ⟨n, hfind, hlen⟩ := (hrs r (by simp)).find_text (rs.flatMap text ++ tail)
    have hrest := ih fun x hx => hrs x (by simp [hx])
    rw [List.flatMap_cons, List.append_assoc, scan_of_find hne hfind, hlen, List.take_left,
      List.drop_left, pieces, rest, hrest]
    rfl

end RequestText
end Veda.Rtsp
