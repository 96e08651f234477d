import Veda.Lib.Lines
import Veda.Rtsp.Parser
import Veda.Rtsp.Reply

/-!
The response stream as a client reads it: a framer that knows header lines and
`Content-Length`, and the messages that the replies of a session are meant to be.
-/
namespace Veda.Rtsp

open Cpp Delimited

/-- A response as a client sees it. -/
structure Message where
  lines : List Bytes
  body : Bytes
  deriving DecidableEq

namespace Client

def headerName (line : Bytes) : Bytes := line.takeWhile (· ≠ 58)

def headerValue (line : Bytes) : Bytes := trim ((line.dropWhile (· ≠ 58)).drop 1)

def isContentLength (line : Bytes) : Bool :=
  iequals (headerName line) (ascii "Content-Length")

/-- Length of the body: that of the first Content-Length line, 0 where there is none. -/
def contentLength (lines : List Bytes) : Option Nat :=
  match lines.find? isContentLength with
  | none => some 0
  | some line =>
    let value := headerValue line
    if value ≠ [] ∧ value.all isdigit then some (digitsValue value) else none

/-- The next message of a stream, and what follows it. -/
def nextMessage (stream : Bytes) : Option (Message × Bytes) :=
  match Delimited.find crlfcrlf stream with
  | none => none
  | some pos =>
    let lines := splitOn crlf (stream.take pos)
    let rest := stream.drop (pos + 4)
    match contentLength lines with
    | none => none
    | some n => if n ≤ rest.length then some (⟨lines, rest.take n⟩, rest.drop n) else none

def decodeWithin : Nat → Bytes → Option (List Message)
  | _, [] => some []
  | 0, _ :: _ => none
  | fuel + 1, b :: stream => do
    let (message, rest) ← nextMessage (b :: stream)
    let messages ← decodeWithin fuel rest
    return message :: messages

/-- All messages of a stream; no message is empty, so there are no more of them than bytes. -/
def decode (stream : Bytes) : Option (List Message) := decodeWithin stream.length stream

end Client

namespace Reply

def statusLine (r : Reply) : Bytes :=
  match r.answer with
  | .refused why => ascii "RTSP/1.0 " ++ showInt why.statusCode ++ ascii " " ++ why.reason
  | _ => ascii "RTSP/1.0 200 OK"

/-- The header lines behind the sequence number. -/
def headerLines (r : Reply) : List Bytes :=
  match r.answer with
  | .options => [ascii "Public: OPTIONS, DESCRIBE, SETUP, PLAY, PAUSE, TEARDOWN, GET_PARAMETER"]
  | .describe sdp contentBase =>
    [ ascii "Content-Type: application/sdp",
      ascii "Content-Base: " ++ contentBase,
      ascii "Content-Length: " ++ decimal sdp.length ]
  | .setup id rtpPort rtcpPort =>
    [ ascii "Session: " ++ id,
      ascii "Transport: RTP/AVP;unicast;client_port=" ++ showInt rtpPort ++ ascii "-" ++
        showInt rtcpPort ++ ascii ";server_port=6970-6971" ]
  | .play id => [ascii "Session: " ++ id, ascii "Range: npt=0.000-"]
  | .ok => []
  | .okSession id => [ascii "Session: " ++ id]
  | .teardown id => [ascii "Session: " ++ id]
  | .refused _ => []

def lines (r : Reply) : List Bytes :=
  r.statusLine :: (ascii "CSeq: " ++ showInt r.cseq) :: r.headerLines

def body (r : Reply) : Bytes :=
  match r.answer with
  | .describe sdp _ => sdp
  | _ => []

def message (r : Reply) : Message := ⟨r.lines, r.body⟩

/-- What is echoed or generated cannot end a line. -/
def Framed (r : Reply) : Prop :=
  match r.answer with
  | .describe _ contentBase => ¬ crlf <:+: contentBase
  | .setup id _ _ => 13 ∉ id
  | .play id => 13 ∉ id
  | .okSession id => 13 ∉ id
  | .teardown id => 13 ∉ id
  | _ => True

/-- The builders write these lines, a blank line and the body. -/
theorem render_message (r : Reply) :
    r.render = crlf.intercalate r.lines ++ (crlf ++ (crlf ++ r.body)) := by
  obtain ⟨cseq, answer⟩ := r
  cases answer with
  | setup id rtpPort rtcpPort =>
    have hclient : ascii "Transport: RTP/AVP;unicast;client_port=" =
        ascii "Transport: RTP/AVP;unicast;" ++ ascii "client_port=" := by decide
    have hserver : ascii ";server_port=6970-6971" = ascii ";" ++ ascii "server_port=" ++
        showInt 6970 ++ ascii "-" ++ showInt 6971 := by decide
    simp only [render, lines, headerLines, statusLine, body, Response.setup, Response.okHead,
      List.intercalate_cons_cons, List.intercalate_singleton, hclient, hserver,
      List.append_assoc, List.append_nil]
  | _ =>
    simp only [render, lines, headerLines, statusLine, body, Response.options,
      Response.describe, Response.play, Response.ok, Response.okSession, Response.teardown,
      Response.error, Response.okHead, List.intercalate_cons_cons, List.intercalate_singleton,
      List.append_assoc, List.append_nil]

end Reply

/-! Lines without a line end. -/

theorem decimal_no_cr (n : Nat) : 13 ∉ decimal n := by
  intro h
  exact absurd (decimal_digits h) (by decide)

theorem named_line {name value : Bytes} (hne : name ≠ []) (hn : 13 ∉ name)
    (hv : ¬ crlf <:+: value) : name ++ value ≠ [] ∧ ¬ crlf <:+: name ++ value :=
  ⟨by simp [hne], crlf_not_infix_append (crlf_not_infix_of_cr hn) hv (Or.inl hn)⟩

theorem literal_line {line : Bytes} (hne : line ≠ []) (h : 13 ∉ line) :
    line ≠ [] ∧ ¬ crlf <:+: line :=
  ⟨hne, crlf_not_infix_of_cr h⟩

/-! The Content-Length line. -/
namespace Client

theorem takeWhile_dropWhile_colon {name : Bytes} (value : Bytes) (h : 58 ∈ name) :
    headerName (name ++ value) = headerName name ∧
      (name ++ value).dropWhile (· ≠ 58) = name.dropWhile (· ≠ 58) ++ value := by
  induction name with
  | nil => simp at h
  | cons b name ih =>
    by_cases hb : b = 58
    · subst hb
      exact ⟨rfl, rfl⟩
    · have hrest := ih (by simpa [Ne.symm hb] using h)
      simp only [headerName, List.cons_append] at hrest ⊢
      constructor
      · simp only [List.takeWhile_cons, hb, ne_eq, not_false_eq_true, decide_true, if_true]
        exact congrArg _ hrest.1
      · simp only [List.dropWhile_cons, hb, ne_eq, not_false_eq_true, decide_true, if_true]
        exact hrest.2

theorem isContentLength_named {name : Bytes} (value : Bytes) (h : 58 ∈ name) :
    isContentLength (name ++ value) = isContentLength name := by
  rw [isContentLength, (takeWhile_dropWhile_colon value h).1]
  rfl

theorem dropWhile_digits {l : Bytes} (h : ∀ b ∈ l, isdigit b = true) :
    l.dropWhile isspace = l := by
  cases l with
  | nil => rfl
  | cons b l =>
    have hb : isspace b = false := isdigit_isspace (h b (by simp))
    rw [List.dropWhile_cons, hb]
    rfl

/-- White space is trimmed off, and a number has none. -/
theorem trim_decimal (n : Nat) : trim (32 :: decimal n) = decimal n := by
  have hspace : (32 :: decimal n).dropWhile isspace = (decimal n).dropWhile isspace := rfl
  have hback : ∀ b ∈ (decimal n).reverse, isdigit b = true := by
    intro b hb
    exact decimal_digits (List.mem_reverse.mp hb)
  rw [trim, hspace, dropWhile_digits fun b hb => decimal_digits hb, dropWhile_digits hback,
    List.reverse_reverse]

end Client

namespace Reply

theorem refused_no_cr (why : Refusal) :
    13 ∉ ascii "RTSP/1.0 " ++ showInt why.statusCode ++ ascii " " ++ why.reason := by
  cases why <;> decide

theorem statusLine_line (r : Reply) : r.statusLine ≠ [] ∧ ¬ crlf <:+: r.statusLine := by
  have hok : ascii "RTSP/1.0 200 OK" ≠ [] ∧ ¬ crlf <:+: ascii "RTSP/1.0 200 OK" :=
    literal_line (by decide) (by decide +kernel)
  obtain ⟨cseq, answer⟩ := r
  cases answer with
  | refused why => exact literal_line (by simp [statusLine, ascii]) (refused_no_cr why)
  | _ => exact hok

theorem session_line {id : Bytes} (h : 13 ∉ id) :
    ascii "Session: " ++ id ≠ [] ∧ ¬ crlf <:+: ascii "Session: " ++ id :=
  named_line (by decide) (by decide +kernel) (crlf_not_infix_of_cr h)

theorem headerLines_line {r : Reply} (h : r.Framed) :
    ∀ l ∈ r.headerLines, l ≠ [] ∧ ¬ crlf <:+: l := by
  obtain ⟨cseq, answer⟩ := r
  intro l hl
  cases answer with
  | options =>
    rcases List.mem_singleton.mp hl with rfl
    exact literal_line (by decide) (by decide +kernel)
  | describe sdp contentBase =>
    simp only [headerLines, List.mem_cons, List.not_mem_nil, or_false] at hl
    rcases hl with rfl | rfl | rfl
    · exact literal_line (by decide) (by decide +kernel)
    · exact named_line (by decide) (by decide +kernel) h
    · exact named_line (by decide) (by decide +kernel)
        (crlf_not_infix_of_cr (decimal_no_cr _))
  | setup id rtpPort rtcpPort =>
    simp only [headerLines, List.mem_cons, List.not_mem_nil, or_false] at hl
    rcases hl with rfl | rfl
    · exact session_line h
    · apply literal_line (by simp [ascii])
      simp only [List.mem_append, showInt_no_cr, or_false, not_or]
      exact ⟨⟨by decide, by decide +kernel⟩, by decide +kernel⟩
  | play id =>
    simp only [headerLines, List.mem_cons, List.not_mem_nil, or_false] at hl
    rcases hl with rfl | rfl
    · exact session_line h
    · exact literal_line (by decide) (by decide +kernel)
  | ok => simp [headerLines] at hl
  | okSession id =>
    rcases List.mem_singleton.mp hl with rfl
    exact session_line h
  | teardown id =>
    rcases List.mem_singleton.mp hl with rfl
    exact session_line h
  | refused why => simp [headerLines] at hl

theorem lines_line {r : Reply} (h : r.Framed) : ∀ l ∈ r.lines, l ≠ [] ∧ ¬ crlf <:+: l := by
  intro l hl
  rcases List.mem_cons.mp hl with rfl | hl
  · exact r.statusLine_line
  · rcases List.mem_cons.mp hl with rfl | hl
    · exact named_line (by decide) (by decide +kernel)
        (crlf_not_infix_of_cr (showInt_no_cr _))
    · exact headerLines_line h l hl

theorem statusLine_other (r : Reply) : Client.isContentLength r.statusLine = false := by
  have hok : Client.isContentLength (ascii "RTSP/1.0 200 OK") = false := by decide
  obtain ⟨cseq, answer⟩ := r
  cases answer with
  | refused why =>
    change Client.isContentLength
      (ascii "RTSP/1.0 " ++ showInt why.statusCode ++ ascii " " ++ why.reason) = false
    cases why <;> decide
  | _ => exact hok

theorem session_other (id : Bytes) : Client.isContentLength (ascii "Session: " ++ id) = false := by
  rw [Client.isContentLength_named id (by decide)]
  decide

/-- The Content-Length line of a reply is the length of its body, and only a body has one. -/
theorem contentLength_lines (r : Reply) : Client.contentLength r.lines = some r.body.length := by
  have hstatus := r.statusLine_other
  have hcseq : Client.isContentLength (ascii "CSeq: " ++ showInt r.cseq) = false := by
    rw [Client.isContentLength_named _ (by decide)]
    decide
  rw [Client.contentLength, lines, List.find?_cons_of_neg (by simp [hstatus]),
    List.find?_cons_of_neg (by simp [hcseq])]
  obtain ⟨cseq, answer⟩ := r
  cases answer with
  | describe sdp contentBase =>
    have hbase : Client.isContentLength (ascii "Content-Base: " ++ contentBase) = false := by
      rw [Client.isContentLength_named _ (by decide)]
      decide
    have htype : Client.isContentLength (ascii "Content-Type: application/sdp") = false := by
      decide
    have hlength : Client.isContentLength (ascii "Content-Length: " ++ decimal sdp.length) =
        true := by
      rw [Client.isContentLength_named _ (by decide)]
      decide
    have hvalue : Client.headerValue (ascii "Content-Length: " ++ decimal sdp.length) =
        decimal sdp.length := by
      rw [Client.headerValue, (Client.takeWhile_dropWhile_colon _ (by decide)).2]
      exact Client.trim_decimal sdp.length
    have hdigits : (decimal sdp.length).all isdigit = true :=
      List.all_eq_true.mpr fun b hb => decimal_digits hb
    simp [headerLines, htype, hbase, hlength, hvalue, decimal_ne_nil, hdigits,
      digitsValue_decimal, body]
  | setup id rtpPort rtcpPort =>
    have htransport : Client.isContentLength
        (ascii "Transport: RTP/AVP;unicast;client_port=" ++ showInt rtpPort ++ ascii "-" ++
          showInt rtcpPort ++ ascii ";server_port=6970-6971") = false := by
      simp only [List.append_assoc]
      rw [Client.isContentLength_named _ (by decide)]
      decide
    simp only [headerLines, List.find?_cons, session_other, htransport, List.find?_nil, body,
      List.length_nil]
  | options =>
    have hpublic : Client.isContentLength
        (ascii "Public: OPTIONS, DESCRIBE, SETUP, PLAY, PAUSE, TEARDOWN, GET_PARAMETER") =
          false := by
      decide
    simp only [headerLines, List.find?_cons, hpublic, List.find?_nil, body, List.length_nil]
  | play id =>
    have hrange : Client.isContentLength (ascii "Range: npt=0.000-") = false := by
      decide
    simp only [headerLines, List.find?_cons, session_other, hrange, List.find?_nil, body,
      List.length_nil]
  | okSession id =>
    simp only [headerLines, List.find?_cons, session_other, List.find?_nil, body,
      List.length_nil]
  | teardown id =>
    simp only [headerLines, List.find?_cons, session_other, List.find?_nil, body,
      List.length_nil]
  | ok => rfl
  | refused why => rfl

end Reply

namespace Client

variable {r : Reply} {replies : List Reply}

/-- The framer takes exactly one reply off the stream. -/
theorem nextMessage_render (h : r.Framed) (tail : Bytes) :
    nextMessage (r.render ++ tail) = some (r.message, tail) := by
  have hlines := Reply.lines_line h
  have hstream : r.render ++ tail =
      crlf.intercalate r.lines ++ (crlf ++ (crlf ++ (r.body ++ tail))) := by
    rw [r.render_message]
    simp only [List.append_assoc]
  have hfind : Delimited.find crlfcrlf (r.render ++ tail) =
      some (crlf.intercalate r.lines).length := by
    rw [hstream]
    exact crlf_unbordered.find_blank hlines
  have hsplit : splitOn crlf (crlf.intercalate r.lines) = r.lines :=
    crlf_unbordered.splitOn_intercalate (by decide) (by simp [Reply.lines])
      fun l hl => (hlines l hl).2
  have hbody : (r.render ++ tail).drop ((crlf.intercalate r.lines).length + 4) =
      r.body ++ tail := by
    rw [hstream, ← List.drop_drop, List.drop_left]
    rfl
  rw [nextMessage, hfind]
  dsimp only
  rw [hbody, hstream, List.take_left, hsplit, r.contentLength_lines]
  simp [Reply.message]

theorem decodeWithin_render (h : ∀ r ∈ replies, r.Framed) {fuel : Nat}
    (hf : replies.length ≤ fuel) :
    decodeWithin fuel (replies.map Reply.render).flatten = some (replies.map Reply.message) := by
  induction replies generalizing fuel with
  | nil => cases fuel <;> rfl
  | cons r replies ih =>
    cases fuel with
    | zero => simp at hf
    | succ fuel =>
      have hnext := nextMessage_render (h r (by simp)) (replies.map Reply.render).flatten
      have hrest := ih (fun x hx => h x (by simp [hx])) (Nat.le_of_succ_le_succ hf)
      rw [List.map_cons, List.flatten_cons]
      obtain ⟨b, stream, hcons⟩ := List.exists_cons_of_ne_nil
        (List.append_ne_nil_of_left_ne_nil r.render_ne_nil (replies.map Reply.render).flatten)
      rw [hcons] at hnext ⊢
      rw [decodeWithin, hnext]
      change (do let messages ← decodeWithin fuel _; return r.message :: messages) = _
      rw [hrest]
      rfl

theorem length_le_stream : replies.length ≤ (replies.map Reply.render).flatten.length := by
  induction replies with
  | nil => exact Nat.zero_le _
  | cons r replies ih =>
    have hpos := List.length_pos_iff.mpr r.render_ne_nil
    simp only [List.map_cons, List.flatten_cons, List.length_append, List.length_cons]
    omega

/-- The concatenation of replies is decoded into them. -/
theorem decode_render (h : ∀ r ∈ replies, r.Framed) :
    decode (replies.map Reply.render).flatten = some (replies.map Reply.message) :=
  decodeWithin_render h length_le_stream

end Client
end Veda.Rtsp
