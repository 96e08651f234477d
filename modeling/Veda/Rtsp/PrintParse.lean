import Veda.Rtsp.Lookup

/-!
Printed requests. Whatever the letter case of the method, the order of the header lines and the
bytes in them that do not end a line, the parser gives back what was printed.
-/
namespace Veda.Rtsp

open Cpp

variable {a b s : Bytes} {e : Bytes × Bytes}

/-- The name of a method that the server knows. -/
def Method.name : Method → Option Bytes
  | .options => some (ascii "OPTIONS")
  | .describe => some (ascii "DESCRIBE")
  | .setup => some (ascii "SETUP")
  | .play => some (ascii "PLAY")
  | .pause => some (ascii "PAUSE")
  | .teardown => some (ascii "TEARDOWN")
  | .getParameter => some (ascii "GET_PARAMETER")
  | .unknown => none

/-- The name in any letter case; an unknown method has any other name that fits into the line. -/
def Method.Spelled (m : Method) (s : Bytes) : Prop :=
  match m.name with
  | some name => iequals s name = true
  | none => 32 ∉ s ∧ ¬ crlf <:+: s ∧ ∀ m' name, Method.name m' = some name → iequals s name = false

/-- A header that can stand in a line. -/
structure PlainHeader (e : Bytes × Bytes) : Prop where
  colon : 58 ∉ e.1
  name : Trimmed e.1 ∧ ¬ crlf <:+: e.1
  value : Trimmed e.2 ∧ ¬ crlf <:+: e.2

/-- A request with the letter case of its method and the order of its header lines. -/
structure Printed where
  method : Method
  spelling : Bytes
  uri : Bytes
  cseq : Int
  headers : Headers
  lines : Headers
  spelled : method.Spelled spelling
  uriPlain : 32 ∉ uri ∧ ¬ crlf <:+: uri
  cseqInt : intMin ≤ cseq ∧ cseq ≤ intMax
  plain : ∀ e ∈ headers, PlainHeader e
  distinct : RequestText.Distinct headers
  noCseq : ∀ e ∈ headers, iequals e.1 cseqName = false
  order : lines.Perm ((cseqName, showInt cseq) :: headers)

/-- `METHOD SP URI SP RTSP/1.0 CRLF`, the header lines `name: value CRLF`, and CRLF. -/
def Printed.text (r : Printed) : Bytes :=
  linesText (r.spelling ++ [32] ++ r.uri ++ [32] ++ ascii "RTSP/1.0")
    (r.lines.map RequestText.headerLine)

/-- A method in mixed case, a CSeq line behind another one, and a value with a colon. -/
instance : Inhabited Printed where
  default :=
    { method := .getParameter
      spelling := ascii "Get_Parameter"
      uri := ascii "rtsp://h/s"
      cseq := -7
      headers := [(ascii "X", ascii "a:b")]
      lines := [(ascii "X", ascii "a:b"), (cseqName, showInt (-7))]
      spelled := by
        change iequals _ _ = true
        decide +kernel
      uriPlain := by decide +kernel
      cseqInt := by decide
      plain := by
        rw [List.forall_mem_singleton]
        exact ⟨by decide +kernel, by decide +kernel, by decide +kernel⟩
      distinct := List.pairwise_singleton _ _
      noCseq := by decide +kernel
      order := List.Perm.swap .. }

example : (default : Printed).text =
    ascii "Get_Parameter rtsp://h/s RTSP/1.0\r\nX: a:b\r\nCSeq: -7\r\n\r\n" := by
  decide +kernel

theorem Method.Spelled.stringToMethod {m : Method} (h : m.Spelled s) :
    Rtsp.stringToMethod s = m := by
  cases m with
  | unknown =>
    obtain ⟨-, -, hnone⟩ := h
    simp only [Rtsp.stringToMethod, hnone .options _ rfl, hnone .describe _ rfl,
      hnone .setup _ rfl, hnone .play _ rfl, hnone .pause _ rfl, hnone .teardown _ rfl,
      hnone .getParameter _ rfl, Bool.false_eq_true, if_false]
  | _ =>
    have hname : iequals s _ = true := h
    rw [stringToMethod_congr hname]
    decide +kernel

theorem Method.Spelled.plain {m : Method} (h : m.Spelled s) : 32 ∉ s ∧ ¬ crlf <:+: s := by
  cases m with
  | unknown => exact ⟨h.1, h.2.1⟩
  | _ =>
    have hname : iequals s _ = true := h
    constructor
    · exact mt (mem_of_iequals hname (by decide)) (by decide +kernel)
    · exact crlf_not_infix_of_cr (mt (mem_of_iequals hname (by decide)) (by decide +kernel))

theorem PlainHeader.line (h : PlainHeader e) :
    parseHeaderLine (RequestText.headerLine e) = some e :=
  parseHeaderLine_iff.mpr ⟨e.1, 32 :: e.2, by simp [RequestText.headerLine], h.colon,
    h.name.1.trim, h.value.1.trim⟩

theorem PlainHeader.line_clean (h : PlainHeader e) :
    RequestText.headerLine e ≠ [] ∧ ¬ crlf <:+: RequestText.headerLine e := by
  refine ⟨by simp [RequestText.headerLine], ?_⟩
  exact crlf_not_infix_separated h.name.2 h.value.2 (by decide) (by decide) (by decide)

namespace Printed

theorem showInt_trimmed (z : Int) : Trimmed (showInt z) := by
  have hspace : ∀ c ∈ showInt z, isspace c = false := by
    intro c hc
    rcases showInt_bytes hc with hd | rfl
    · exact isdigit_isspace hd
    · decide
  exact ⟨fun c hc => hspace c (List.mem_of_mem_head? hc),
    fun c hc => hspace c (List.mem_of_mem_getLast? hc)⟩

theorem cseq_plain (r : Printed) : PlainHeader (cseqName, showInt r.cseq) := by
  have hname : 58 ∉ cseqName ∧ Trimmed cseqName ∧ ¬ crlf <:+: cseqName := by decide +kernel
  exact ⟨hname.1, hname.2, showInt_trimmed r.cseq, crlf_not_infix_of_cr (showInt_no_cr r.cseq)⟩

theorem lines_plain (r : Printed) : ∀ e ∈ r.lines, PlainHeader e := by
  intro e he
  rcases List.mem_cons.mp (r.order.mem_iff.mp he) with rfl | he
  · exact r.cseq_plain
  · exact r.plain e he

theorem lines_distinct (r : Printed) : RequestText.Distinct r.lines := by
  have hall : RequestText.Distinct ((cseqName, showInt r.cseq) :: r.headers) := by
    refine List.pairwise_cons.mpr ⟨?_, r.distinct⟩
    intro e he
    rw [Bool.eq_false_iff]
    intro hsame
    have hother := r.noCseq e he
    rw [iequals_symm hsame] at hother
    cases hother
  exact hall.perm r.order.symm

theorem clean (r : Printed) :
    ¬ crlf <:+: r.spelling ++ [32] ++ r.uri ++ [32] ++ ascii "RTSP/1.0" ∧
    ∀ l ∈ r.lines.map RequestText.headerLine, l ≠ [] ∧ ¬ crlf <:+: l := by
  constructor
  · have hversion : ¬ crlf <:+: ascii "RTSP/1.0" := by decide +kernel
    have hleft : ¬ crlf <:+: r.spelling ++ [32] ++ r.uri :=
      crlf_not_infix_separated r.spelled.plain.2 r.uriPlain.2 (by decide) (by decide) (by decide)
    exact crlf_not_infix_separated hleft hversion (by decide) (by decide) (by decide)
  · rw [List.forall_mem_map]
    exact fun e he => (r.lines_plain e he).line_clean

theorem requestHeaders_text (r : Printed) : requestHeaders r.text = r.lines := by
  have hfields : fields r.text = r.lines := by
    rw [text, fields_linesText r.clean.1 r.clean.2, List.filterMap_map]
    have hid : ∀ e ∈ r.lines, (parseHeaderLine ∘ RequestText.headerLine) e = some e :=
      fun e he => (r.lines_plain e he).line
    rw [List.filterMap_congr hid, List.filterMap_some]
  rw [← hfields]
  apply RequestText.Distinct.requestHeaders
  rw [hfields]
  exact r.lines_distinct

theorem requestLine_text (r : Printed) : requestLine r.text = some (r.method, r.uri) := by
  refine requestLine_iff.mpr ⟨r.spelling, ?_, r.spelled.stringToMethod.symm⟩
  rw [text, firstLine_linesText r.clean.1 r.clean.2]
  have hversion : ascii "RTSP/1.0" = ascii "RTSP/" ++ ascii "1.0" := by decide +kernel
  refine ⟨r.spelled.plain.1, r.uriPlain.1, ascii "1.0", ?_⟩
  rw [hversion]
  simp

/-- Printing and parsing: the method, the URI, the sequence number and each header come back,
whatever the iteration order of the hash map, and no other header is found. -/
theorem parseRequest_text (ord : HashOrder) (r : Printed) :
    ∃ req, parseRequest ord r.text = .ok (some req) ∧ req.method = r.method ∧ req.uri = r.uri ∧
      req.cseq = r.cseq ∧
      (∀ e ∈ r.headers, ∀ name, iequals name e.1 = true → header req name = some e.2) ∧
      ∀ name, iequals name cseqName = false → (∀ e ∈ r.headers, iequals name e.1 = false) →
        header req name = none := by
  have hd := r.lines_distinct
  have hcseq : cseqValue (ord.order r.text r.lines) = some (showInt r.cseq) := by
    rw [(hd.perm (ord.perm _ _).symm).cseqValue, hd.find?_order,
      hd.find?_of_mem (r.order.mem_iff.mpr List.mem_cons_self) (iequals_refl _)]
    rfl
  have hparse : parseRequest ord r.text =
      .ok (some ⟨r.method, r.uri, r.cseq, ord.order r.text r.lines⟩) := by
    rw [parseRequest_eq, r.requestLine_text, r.requestHeaders_text, hcseq]
    dsimp only
    rw [stoi_showInt r.cseqInt.1 r.cseqInt.2]
  refine ⟨_, hparse, rfl, rfl, rfl, ?_, ?_⟩
  · intro e he name hname
    have hmem : e ∈ r.lines := r.order.mem_iff.mpr (List.mem_cons_of_mem _ he)
    rw [header, hd.find?_order, hd.find?_of_mem hmem (iequals_symm hname)]
    rfl
  · intro name hcseq hothers
    have hnone : (r.lines.find? fun e => iequals e.1 name) = none := by
      rw [List.find?_eq_none]
      intro e he hsame
      rcases List.mem_cons.mp (r.order.mem_iff.mp he) with rfl | he
      · rw [iequals_symm hsame] at hcseq
        cases hcseq
      · have hother := hothers e he
        rw [iequals_symm hsame] at hother
        cases hother
    rw [header, hd.find?_order, hnone]
    rfl

end Printed
end Veda.Rtsp
