import Veda.Rtsp.Client
import Veda.Rtsp.Grammar
import Veda.Rtsp.Moves
import Veda.Rtsp.SessionId

/-!
The response stream of a session on the client's side: whatever the session is fed, a client
that knows only header lines and `Content-Length` reads back exactly the replies.
-/
namespace Veda.Rtsp

open Cpp Delimited Transitions

variable {ord : HashOrder} {o : Oracle} {w : World} {s s' : Session} {raw : Bytes}
  {req : Request} {a : Answer} {before after : List Op} {m : Move} {ms : List Move}
  {p q : Session × World}

/-- The URI of a request may hold any byte but a space, yet no line end. -/
theorem parseRequest_uri (h : parseRequest ord raw = .ok (some req)) : ¬ crlf <:+: req.uri := by
  obtain ⟨m, ⟨-, -, version, hline⟩, -⟩ := requestLine_iff.mp (parseRequest_parsed h).1
  have hpart : req.uri <:+: firstLine raw := by
    rw [hline, List.append_cons]
    exact List.infix_append' _ _ _
  intro hi
  exact firstLine_clean raw (hi.trans hpart)

theorem sessionId_hex (hdrawn : ∀ n, ∃ drawn, o.sessionId n = generateSessionId drawn) (n : Nat) :
    ∀ b ∈ o.sessionId n, isxdigit b = true := by
  obtain ⟨drawn, hn⟩ := hdrawn n
  rw [hn]
  exact (generateSessionId_digits drawn).2.1

/-- The session id is made of hexadecimal digits, or still empty. -/
def IdHex (s : Session) : Prop := ∀ b ∈ s.sessionId, isxdigit b = true

theorem IdHex.no_cr (h : IdHex s) : 13 ∉ s.sessionId := by
  intro hm
  exact absurd (h 13 hm) (by decide)

namespace Session

theorem Handled.idHex (hid : ∀ n, ∀ b ∈ o.sessionId n, isxdigit b = true) (hs : IdHex s)
    (h : Handled o w s req a s' before after) : IdHex s' := by
  cases h with
  | setup =>
    intro b hb
    change b ∈ announcedId o w s at hb
    rw [announcedId] at hb
    split at hb
    · exact hid _ b hb
    · exact hs b hb
  | _ => exact hs

/-- Nothing in the reply to a parsed request can end a line. -/
theorem Handled.framed (hid : ∀ n, ∀ b ∈ o.sessionId n, isxdigit b = true) (hs : IdHex s)
    (hp : parseRequest ord raw = .ok (some req))
    (h : Handled o w s req a s' before after) : (Reply.mk req.cseq a).Framed := by
  have hcr := hs.no_cr
  have hset := h.idHex hid hs
  cases h with
  | describe =>
    exact crlf_not_infix_append (parseRequest_uri hp) (by decide) (Or.inr (by decide))
  | keepAlive =>
    split
    · trivial
    · exact hcr
  | setup => exact hset.no_cr
  | noHub => exact hcr
  | noSource => exact hcr
  | playing => exact hcr
  | paused => exact hcr
  | closed => exact hcr
  | _ => trivial

end Session

/-- A move sends replies that cannot be misread, and keeps the session id clean. -/
theorem Effect.framed (hid : ∀ n, ∀ b ∈ o.sessionId n, isxdigit b = true)
    (h : Effect ord o w m) (hs : IdHex m.before) : IdHex m.after ∧
      ∃ replies : List Reply, m.sent = replies.map Reply.render ∧ ∀ r ∈ replies, r.Framed := by
  cases h with
  | received b => exact ⟨hs, [], rfl, by simp⟩
  | raised hp => exact ⟨hs, [], rfl, by simp⟩
  | unparsable hp =>
    refine ⟨hs, [⟨0, .refused .badRequest⟩], rfl, ?_⟩
    intro r hr
    rw [List.mem_singleton.mp hr]
    trivial
  | @handled s s' raw req a before after hp hh =>
    refine ⟨hh.idHex hid hs, [⟨req.cseq, a⟩], Session.callsOf_sent hh, ?_⟩
    intro r hr
    rw [List.mem_singleton.mp hr]
    exact hh.framed hid hs hp
  | disconnect => exact ⟨hs, [], Session.stopOps_sent, by simp⟩

/-- Session ids stay clean whatever a session is used for. -/
theorem idHex_run (hid : ∀ n, ∀ b ∈ o.sessionId n, isxdigit b = true)
    (h : Run (Moves ord o) p ms q) (hs : IdHex p.1) : IdHex q.1 := by
  refine h.invariant (p := fun p => IdHex p.1) ?_ hs
  intro p m q hm hs
  obtain ⟨hbefore, hq, heffect⟩ := hm.effect
  rw [← hbefore] at hs
  rw [hq]
  exact (heffect.framed hid hs).1

theorem run_framed (hid : ∀ n, ∀ b ∈ o.sessionId n, isxdigit b = true)
    (h : Run (Moves ord o) p ms q) (hs : IdHex p.1) : ∃ replies : List Reply,
      q.2.responses = p.2.responses ++ replies.map Reply.render ∧ ∀ r ∈ replies, r.Framed := by
  induction h with
  | refl => exact ⟨[], by simp, by simp⟩
  | @stepL p r q m ms hm hrest ih =>
    obtain ⟨hbefore, hr, heffect⟩ := hm.effect
    rw [← hbefore] at hs
    obtain ⟨hs', replies, hsent, hframed⟩ := heffect.framed hid hs
    obtain ⟨replies', hsent', hframed'⟩ := ih (by rw [hr]; exact hs')
    refine ⟨replies ++ replies', ?_, ?_⟩
    · rw [hsent', hr, World.afterAll_responses, List.map_append, List.append_assoc]
      exact congrArg (_ ++ ·) (congrArg (· ++ _) hsent)
    · intro r hr
      rcases List.mem_append.mp hr with hr | hr
      · exact hframed r hr
      · exact hframed' r hr

/-- Whatever a session is fed, a client reads its response stream as exactly the replies sent,
each with the lines and the body that its builder writes. -/
theorem responses_decoded (ord : HashOrder) (o : Oracle)
    (hid : ∀ n, ∀ b ∈ o.sessionId n, isxdigit b = true) (w : World) (clientIp : Bytes)
    (hub : Bool) (conn : ConnId) (uses : List Use) :
    let s := Session.create clientIp hub conn
    ∃ replies : List Reply,
      ((s.useAll ord uses).exec o w).2.responses = w.responses ++ replies.map Reply.render ∧
      Client.decode (replies.map Reply.render).flatten = some (replies.map Reply.message) ∧
      ∀ r ∈ replies, Client.contentLength r.lines = some r.body.length := by
  intro s
  obtain ⟨ms, hrun⟩ : ∃ ms, Run (Moves ord o) (s, w) ms ((s.useAll ord uses).exec o w) :=
    Session.useAll_moves uses
  have hs : IdHex s := by
    intro b hb
    cases hb
  obtain ⟨replies, hsent, hframed⟩ := run_framed hid hrun hs
  exact ⟨replies, hsent, Client.decode_render hframed, fun r _ => r.contentLength_lines⟩

/-- A DESCRIBE whose URI holds a lone CR and a lone LF and looks like a header line. -/
theorem responses_decoded_lone_ends :
    let s := Session.create (ascii "10.0.0.2") true 5
    let request := ascii "DESCRIBE rtsp://h\rContent-Length:9\n/s RTSP/1.0\r\nCSeq: 1\r\n\r\n"
    ∃ replies : List Reply,
      ((s.useAll default [.feed request]).exec default default).2.responses =
        replies.map Reply.render ∧
      Client.decode (replies.map Reply.render).flatten = some (replies.map Reply.message) := by
  intro s request
  have hid : ∀ b ∈ ascii "1A2B3C4D", isxdigit b = true := by decide +kernel
  obtain ⟨replies, hsent, hdecode, -⟩ := responses_decoded default default (fun _ => hid) default
    (ascii "10.0.0.2") true 5 [.feed request]
  exact ⟨replies, hsent, hdecode⟩

end Veda.Rtsp
