import Veda.Rtsp.Response

/-!
What a session answers, apart from its text: the abstract counterpart of the response
builders, with the facts a client reads off the first two lines.
-/
namespace Veda.Rtsp

open Cpp

/-- Reasons to refuse a request. -/
inductive Refusal
  | badRequest | noTransport | sessionNotFound | notValidInState | unsupportedTransport
  | internalError | notImplemented
  deriving DecidableEq

namespace Refusal

def statusCode : Refusal → Int
  | badRequest => 400
  | noTransport => 400
  | sessionNotFound => 454
  | notValidInState => 455
  | unsupportedTransport => 461
  | internalError => 500
  | notImplemented => 501

def reason : Refusal → Bytes
  | badRequest => ascii "Bad Request"
  | noTransport => ascii "Bad Request - No Transport"
  | sessionNotFound => ascii "Session Not Found"
  | notValidInState => ascii "Method Not Valid in This State"
  | unsupportedTransport => ascii "Unsupported Transport"
  | internalError => ascii "Internal Server Error"
  | notImplemented => ascii "Not Implemented"

theorem statusCode_ne_ok (why : Refusal) : why.statusCode ≠ 200 := by
  cases why <;> decide

/-- No reason phrase can end the status line early. -/
theorem reason_line (why : Refusal) : 13 ∉ why.reason := by
  cases why <;> decide +kernel

theorem statusCode_digits (why : Refusal) :
    (showInt why.statusCode).length = 3 ∧ stoi (showInt why.statusCode) = .ok why.statusCode := by
  cases why <;> decide +kernel

end Refusal

inductive Answer
  | options
  | describe (sdp contentBase : Bytes)
  | setup (sessionId : Bytes) (clientRtpPort clientRtcpPort : Int)
  | play (sessionId : Bytes)
  | ok
  | okSession (sessionId : Bytes)
  | teardown (sessionId : Bytes)
  | refused (why : Refusal)
  deriving DecidableEq

/-- A response to a request with sequence number `cseq`. -/
structure Reply where
  cseq : Int
  answer : Answer
  deriving DecidableEq

namespace Reply

def status (r : Reply) : Int :=
  match r.answer with
  | .refused why => why.statusCode
  | _ => 200

/-- The text of the reply. -/
def render (r : Reply) : Bytes :=
  match r.answer with
  | .options => Response.options r.cseq
  | .describe sdp contentBase => Response.describe r.cseq sdp contentBase
  | .setup id rtpPort rtcpPort => Response.setup r.cseq id rtpPort rtcpPort 6970 6971
  | .play id => Response.play r.cseq id
  | .ok => Response.ok r.cseq
  | .okSession id => Response.okSession r.cseq id
  | .teardown id => Response.teardown r.cseq id
  | .refused why => Response.error r.cseq why.statusCode why.reason

theorem okHead_hasHead (cseq : Int) (tail : Bytes) :
    HasHead 200 cseq (Response.okHead cseq ++ tail) := by
  refine ⟨ascii "OK", tail, by decide, ?_⟩
  have hline : ascii "RTSP/1.0 200 OK" =
      ascii "RTSP/1.0 " ++ showInt 200 ++ ascii " " ++ ascii "OK" := by decide +kernel
  rw [Response.okHead, hline]

theorem error_hasHead (cseq : Int) (why : Refusal) :
    HasHead why.statusCode cseq (Response.error cseq why.statusCode why.reason) :=
  ⟨why.reason, crlf, why.reason_line, by simp only [Response.error, List.append_assoc]⟩

/-- Every reply begins with its own status code and sequence number. -/
theorem render_hasHead (r : Reply) : HasHead r.status r.cseq r.render := by
  obtain ⟨cseq, answer⟩ := r
  cases answer with
  | refused why => exact error_hasHead cseq why
  | _ =>
    simp only [render, status, Response.options, Response.describe, Response.setup,
      Response.play, Response.ok, Response.okSession, Response.teardown, List.append_assoc]
    exact okHead_hasHead cseq _

/-- The status code is what a client reads at its place in the status line. -/
theorem statusOf_render (r : Reply) : statusOf r.render = .ok r.status := by
  obtain ⟨reason, tail, _, hr⟩ := r.render_hasHead
  have hok : (showInt 200).length = 3 ∧ stoi (showInt 200) = .ok 200 := by decide +kernel
  have hcode : (showInt r.status).length = 3 ∧ stoi (showInt r.status) = .ok r.status := by
    obtain ⟨cseq, answer⟩ := r
    cases answer with
    | refused why => exact why.statusCode_digits
    | _ => exact hok
  have hpre : (ascii "RTSP/1.0 ").length = 9 := by decide +kernel
  rw [statusOf, hr]
  simp only [List.append_assoc]
  rw [List.drop_left' hpre, List.take_left' hcode.1]
  exact hcode.2

theorem render_ne_nil (r : Reply) : r.render ≠ [] := by
  obtain ⟨reason, tail, _, hr⟩ := r.render_hasHead
  rw [hr]
  simp [ascii]

end Reply
end Veda.Rtsp
