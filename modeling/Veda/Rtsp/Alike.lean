import Veda.Rtsp.Environment
import Veda.Rtsp.Message

/-!
Requests that no handler can tell apart. Whatever else their texts say, the session answers
them alike; only the log output differs.
-/
namespace Veda.Rtsp

open Cpp Effects

/-- What the handlers read of two requests is the same. -/
structure Request.Alike (req req' : Request) : Prop where
  method : req.method = req'.method
  uri : req.uri = req'.uri
  cseq : req.cseq = req'.cseq
  transport : header req (ascii "Transport") = header req' (ascii "Transport")
  session : header req (ascii "Session") = header req' (ascii "Session")

/-- Two results of the parser, with related requests. -/
inductive ParsedAlike (R : Request → Request → Prop) :
    Except StdException (Option Request) → Except StdException (Option Request) → Prop
  | raised (e : StdException) : ParsedAlike R (.error e) (.error e)
  | malformed : ParsedAlike R (.ok none) (.ok none)
  | request {req req' : Request} : R req req' → ParsedAlike R (.ok (some req)) (.ok (some req'))

/-- The request whose handling a call begins. -/
def Op.begins : Op → Option Bytes
  | .logRequest _ raw => some raw
  | _ => none

/-- The world without the log output. -/
def World.unlogged (w : World) : World :=
  { w with log := w.log.filter fun c => c.1.begins.isNone }

variable {ord ord' : HashOrder} {o : Oracle} {w w' : World} {s : Session}
  {req req' : Request} {raw raw' : Bytes}

theorem Request.Alike.sessionHeaderMatches (ha : req.Alike req') :
    s.sessionHeaderMatches req = s.sessionHeaderMatches req' := by
  rw [Session.sessionHeaderMatches, Session.sessionHeaderMatches, ha.session]

theorem Request.Alike.handle (ha : req.Alike req') : s.handle req = s.handle req' := by
  unfold Session.handle
  rw [ha.method]
  split
  · rw [ha.cseq]
  · split
    · cases req'.method with
      | options => simp only [ha.cseq]
      | describe => simp only [Session.handleDescribe, ha.cseq, ha.uri]
      | setup => simp only [Session.handleSetup, ha.cseq, ha.transport]
      | play =>
        simp only [Session.handlePlay, Session.sessionNotFound, ha.cseq, ha.sessionHeaderMatches]
      | pause =>
        simp only [Session.handlePause, Session.sessionNotFound, ha.cseq, ha.sessionHeaderMatches]
      | teardown =>
        simp only [Session.handleTeardown, Session.sessionNotFound, ha.cseq,
          ha.sessionHeaderMatches]
      | getParameter => simp only [ha.cseq]
      | unknown => simp only [ha.cseq]
    · rw [ha.cseq]

theorem Request.Alike.respond (ha : req.Alike req') : s.respond req = s.respond req' := by
  rw [Session.respond, Session.respond, ha.handle]

theorem ParsedAlike.mono {R R' : Request → Request → Prop}
    {parsed parsed' : Except StdException (Option Request)} (h : ParsedAlike R parsed parsed')
    (hr : ∀ req req', R req req' → R' req req') : ParsedAlike R' parsed parsed' := by
  cases h with
  | raised e => exact .raised e
  | malformed => exact .malformed
  | request h => exact .request (hr _ _ h)

/-- Texts with the same request line and sequence number. -/
theorem parsedAlike_of_reading {R : Request → Request → Prop} {h h' : Headers}
    (hline : requestLine raw = requestLine raw')
    (hh : ord.order raw (requestHeaders raw) = h) (hh' : ord'.order raw' (requestHeaders raw') = h')
    (hcseq : cseqValue h = cseqValue h')
    (hreq : ∀ method uri cseq, R ⟨method, uri, cseq, h⟩ ⟨method, uri, cseq, h'⟩) :
    ParsedAlike R (parseRequest ord raw) (parseRequest ord' raw') := by
  rw [parseRequest_eq, parseRequest_eq, hline, hh, hh', hcseq]
  cases requestLine raw' with
  | none => exact .malformed
  | some line =>
    cases cseqValue h' with
    | none => exact .request (hreq _ _ _)
    | some v =>
      dsimp only
      cases stoi v with
      | error e => exact .raised e
      | ok cseq => exact .request (hreq _ _ _)

/-- Serving the two texts is the same code after the log output. -/
theorem ParsedAlike.serve
    (h : ParsedAlike Request.Alike (parseRequest ord raw) (parseRequest ord' raw')) (s : Session) :
    ∃ rest, s.serve ord raw = Control.logRequest s.conn raw >>= (fun _ => rest) ∧
      s.serve ord' raw' = Control.logRequest s.conn raw' >>= (fun _ => rest) := by
  rw [Session.serve, Session.serve]
  generalize parseRequest ord raw = parsed at h
  generalize parseRequest ord' raw' = parsed' at h
  cases h with
  | raised e => exact ⟨_, rfl, rfl⟩
  | malformed => exact ⟨_, rfl, rfl⟩
  | request ha =>
    dsimp only
    rw [ha.respond]
    exact ⟨_, rfl, rfl⟩

section Worlds
variable {α : Type}

theorem World.answer_unlogged (op : Op) : (w.unlogged.answer o op).1 = (w.answer o op).1 ∧
    (w.unlogged.answer o op).2.unlogged = (w.answer o op).2.unlogged := by
  cases op <;> simp [World.answer, World.unlogged, World.note, World.hubAtLookup]

/-- No code reads the log output. -/
theorem exec_unlogged (p : Control α) (hw : w.unlogged = w'.unlogged) :
    (p.exec o w).1 = (p.exec o w').1 ∧ (p.exec o w).2.unlogged = (p.exec o w').2.unlogged := by
  induction p generalizing w w' with
  | ret a => exact ⟨rfl, hw⟩
  | call op k ih =>
    obtain ⟨hr, hnext⟩ := w.answer_unlogged (o := o) op
    obtain ⟨hr', hnext'⟩ := w'.answer_unlogged (o := o) op
    rw [hw] at hr hnext
    have hsame : (w.answer o op).1 = (w'.answer o op).1 := hr.symm.trans hr'
    have hafter := ih (w.answer o op).1 (hnext.symm.trans hnext')
    rw [Control.exec_call, Control.exec_call]
    rw [hsame] at hafter ⊢
    exact hafter

theorem World.responses_unlogged (w : World) : w.unlogged.responses = w.responses := by
  simp only [responses, responsesOf, unlogged, List.filterMap_filter]
  congr 1
  funext entry
  rcases entry with ⟨op, r⟩
  cases op <;> rfl

/-- Two texts of the same meaning, served in two worlds that differ in the log output. -/
theorem ParsedAlike.serve_exec
    (h : ParsedAlike Request.Alike (parseRequest ord raw) (parseRequest ord' raw')) (o : Oracle)
    (s : Session) (hw : w.unlogged = w'.unlogged) :
    ((s.serve ord raw).exec o w).1 = ((s.serve ord' raw').exec o w').1 ∧
    ((s.serve ord raw).exec o w).2.unlogged = ((s.serve ord' raw').exec o w').2.unlogged := by
  obtain ⟨rest, hserve, hserve'⟩ := h.serve s
  have hquiet : ∀ (v : World) raw,
      (v.after o (.logRequest s.conn raw)).unlogged = v.unlogged := by
    intro v raw
    simp [World.after, World.answer, World.note, World.unlogged, Op.begins]
  have hlogged : (w.after o (.logRequest s.conn raw)).unlogged =
      (w'.after o (.logRequest s.conn raw')).unlogged := by
    rw [hquiet, hquiet, hw]
  rw [hserve, hserve', Control.exec_bind, Control.exec_bind]
  exact exec_unlogged rest hlogged

end Worlds
end Veda.Rtsp
