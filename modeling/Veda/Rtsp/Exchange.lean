import Veda.Lib.Transitions
import Veda.Rtsp.Framing
import Veda.Rtsp.Handling

/-!
A session as a transition system: each step is one request with the reply it gets. The code
refines it: serving a list of requests is a run of exchanges, up to the request that closes
the session or makes the parser raise.
-/
namespace Veda.Rtsp

open Cpp Effects Transitions

/-- One request, its reply, and the calls made before and after the reply. -/
structure Exchange where
  raw : Bytes
  reply : Reply
  before : List Op := []
  after : List Op := []

/-- The exchange of a request that cannot be parsed. -/
def Exchange.badRequest (raw : Bytes) : Exchange :=
  { raw, reply := ⟨0, .refused .badRequest⟩ }

/-- All calls of an exchange on a connection, in order. -/
def Exchange.calls (x : Exchange) (conn : ConnId) : List Op :=
  .logRequest conn x.raw :: (x.before ++ .send conn x.reply.render :: x.after)

inductive Exchanges (ord : HashOrder) (o : Oracle) :
    Session × World → Exchange → Session × World → Prop
  | unparsable {s : Session} {w : World} {raw : Bytes} :
      s.state ≠ .closed → parseRequest ord raw = .ok none →
      Exchanges ord o (s, w) (.badRequest raw)
        (s, w.afterAll o ((Exchange.badRequest raw).calls s.conn))
  | handled {s s' : Session} {w : World} {raw : Bytes} {req : Request} {a : Answer}
      {before after : List Op} :
      s.state ≠ .closed → parseRequest ord raw = .ok (some req) →
      Session.Handled o (w.after o (.logRequest s.conn raw)) s req a s' before after →
      Exchanges ord o (s, w) { raw, reply := ⟨req.cseq, a⟩, before, after }
        (s', w.afterAll o (Exchange.calls { raw, reply := ⟨req.cseq, a⟩, before, after } s.conn))

variable {ord : HashOrder} {o : Oracle} {w w' : World} {s s' : Session} {raw : Bytes}
  {raws : List Bytes} {x : Exchange} {xs : List Exchange} {e : StdException}

namespace Session

theorem serve_raises (h : parseRequest ord raw = .error e) : (s.serve ord raw).exec o w =
    ((s, some (.raised e)), w.after o (.logRequest s.conn raw)) := by
  rw [serve, Control.exec_bind, h]
  rfl

/-- Serving a request that parses, in any state. -/
theorem serve_handled {req : Request} (hp : parseRequest ord raw = .ok (some req)) :
    ∃ a s' before after,
      Handled o (w.after o (.logRequest s.conn raw)) s req a s' before after ∧
      (s.serve ord raw).exec o w =
        ((s', if s'.state = .closed then some (.returned false) else none),
          w.afterAll o (.logRequest s.conn raw :: callsOf s req a before after)) := by
  obtain ⟨a, s', before, after, hh, hr⟩ := responds o (w.after o (.logRequest s.conn raw)) s req
  refine ⟨a, s', before, after, hh, ?_⟩
  rw [serve, Control.exec_bind, hp]
  change (s.respond req >>= _).exec o (w.after o (.logRequest s.conn raw)) = _
  rw [Control.exec_bind, hr]
  split <;> rfl

/-- Serving a request that the parser does not raise on is an exchange. -/
theorem serve_exchanges (hs : s.state ≠ .closed) (h : ∀ e, parseRequest ord raw ≠ .error e) :
    ∃ x s' w', x.raw = raw ∧ Exchanges ord o (s, w) x (s', w') ∧ (s.serve ord raw).exec o w =
      ((s', if s'.state = .closed then some (.returned false) else none), w') := by
  cases hp : parseRequest ord raw with
  | error e => exact absurd hp (h e)
  | ok parsed =>
    cases parsed with
    | none =>
      refine ⟨_, s, _, rfl, .unparsable hs hp, ?_⟩
      rw [serve, Control.exec_bind, hp, if_neg hs]
      rfl
    | some req =>
      obtain ⟨a, s', before, after, hh, hserve⟩ := serve_handled hp
      exact ⟨_, s', _, rfl, .handled hs hp hh, hserve⟩

/-- How a batch of requests can end. -/
inductive Ends (ord : HashOrder) (o : Oracle) (raws : List Bytes) (xs : List Exchange)
    (s : Session) (w : World) : Session × Option (FeedResult × List Bytes) → World → Prop
  | opened : xs.map Exchange.raw = raws → s.state ≠ .closed → Ends ord o raws xs s w (s, none) w
  | closed (unserved : List Bytes) : raws = xs.map Exchange.raw ++ unserved →
      s.state = .closed → Ends ord o raws xs s w (s, some (.returned false, unserved)) w
  | raised (e : StdException) (bad : Bytes) (unserved : List Bytes) :
      raws = xs.map Exchange.raw ++ bad :: unserved → s.state ≠ .closed →
      parseRequest ord bad = .error e →
      Ends ord o raws xs s w (s, some (.raised e, unserved)) (w.after o (.logRequest s.conn bad))

/-- Serving requests in turn is a run of exchanges. -/
theorem serveAll_run (ord : HashOrder) (o : Oracle) (w : World) (raws : List Bytes)
    (hs : s.state ≠ .closed) : ∃ xs s' w',
    Run (Exchanges ord o) (s, w) xs (s', w') ∧
    Ends ord o raws xs s' w' ((serveAll ord s raws).exec o w).1
      ((serveAll ord s raws).exec o w).2 := by
  induction raws generalizing s w with
  | nil => exact ⟨[], s, w, .refl, .opened rfl hs⟩
  | cons raw raws ih =>
    rw [serveAll_cons, Control.exec_bind]
    by_cases hp : ∃ e, parseRequest ord raw = .error e
    · obtain ⟨e, he⟩ := hp
      rw [serve_raises he]
      exact ⟨[], s, w, .refl, .raised e raw raws rfl hs he⟩
    · obtain ⟨x, s₁, w₁, hraw, hx, hserve⟩ := serve_exchanges hs fun e he => hp ⟨e, he⟩
      rw [hserve]
      by_cases hc : s₁.state = .closed
      · simp only [hc, if_true]
        exact ⟨[x], s₁, w₁, .single hx, .closed raws (by rw [← hraw]; rfl) hc⟩
      · simp only [hc, if_false]
        obtain ⟨xs, s', w', hrun, hends⟩ := ih w₁ hc
        refine ⟨x :: xs, s', w', .stepL hx hrun, ?_⟩
        generalize (serveAll ord s₁ raws).exec o w₁ = served at hends ⊢
        obtain ⟨served, w₂⟩ := served
        cases hends with
        | opened hraws hopen => exact .opened (by rw [← hraws, ← hraw]; rfl) hopen
        | closed unserved hraws hclosed =>
          exact .closed unserved (by rw [hraws, ← hraw]; rfl) hclosed
        | raised e bad unserved hraws hopen he =>
          exact .raised e bad unserved (by rw [hraws, ← hraw]; rfl) hopen he

end Session
end Veda.Rtsp
