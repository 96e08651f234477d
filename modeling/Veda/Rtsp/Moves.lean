import Veda.Rtsp.Exchange

/-!
Any use of a session, as small moves: bytes received, requests served and the end of the
connection, with the calls that each makes. Uses go on whatever the earlier ones returned.
-/
namespace Veda.Rtsp

open Cpp Effects Transitions

/-- A call from outside. -/
inductive Use
  | feed (data : Bytes)
  | disconnect

namespace Session

def use (ord : HashOrder) (s : Session) : Use → Control Session
  | .feed data => do
    let (s, _) ← s.feed ord data
    pure s
  | .disconnect => s.onDisconnect

def useAll (ord : HashOrder) : Session → List Use → Control Session
  | s, [] => pure s
  | s, u :: uses => do
    let s ← s.use ord u
    useAll ord s uses

end Session

inductive Cause
  /-- Bytes go into the receive buffer or are cut off it. -/
  | received
  | request (raw : Bytes)
  | disconnect

/-- One move of a session, with the calls it makes. -/
structure Move where
  cause : Cause
  before : Session
  after : Session
  calls : List Op

/-- The responses that the move hands to `send_`. -/
def Move.sent (m : Move) : List Bytes := m.calls.filterMap Op.sent

/-- The calls that a log records, without their answers. -/
def World.ops (w : World) : List Op := w.log.map (·.1)

/-- The moves that the code makes. -/
inductive Moves (ord : HashOrder) (o : Oracle) : Session × World → Move → Session × World → Prop
  | received {s : Session} {w : World} (b : Bytes) :
      Moves ord o (s, w) ⟨.received, s, s.withRx b, []⟩ (s.withRx b, w)
  | request {s s' : Session} {w w' : World} {raw : Bytes} {result : Option FeedResult}
      {calls : List Op} : (s.serve ord raw).exec o w = ((s', result), w') →
      w'.ops = w.ops ++ calls → Moves ord o (s, w) ⟨.request raw, s, s', calls⟩ (s', w')
  | disconnect {s s' : Session} {w w' : World} {calls : List Op} :
      s.onDisconnect.exec o w = (s', w') → w'.ops = w.ops ++ calls →
      Moves ord o (s, w) ⟨.disconnect, s, s', calls⟩ (s', w')

variable {ord : HashOrder} {o : Oracle} {w w' : World} {s s' : Session} {raw data : Bytes}
  {m : Move} {p q : Session × World}

theorem World.afterAll_ops (ops : List Op) : (w.afterAll o ops).ops = w.ops ++ ops := by
  obtain ⟨calls, hlog, hops⟩ := World.afterAll_log (o := o) (w := w) ops
  rw [World.ops, hlog, List.map_append, hops]
  rfl

/-- Everything a move can be, with its guards. -/
inductive Effect (ord : HashOrder) (o : Oracle) (w : World) : Move → Prop
  | received {s : Session} (b : Bytes) : Effect ord o w ⟨.received, s, s.withRx b, []⟩
  | raised {s : Session} {raw : Bytes} {e : StdException} : parseRequest ord raw = .error e →
      Effect ord o w ⟨.request raw, s, s, [.logRequest s.conn raw]⟩
  | unparsable {s : Session} {raw : Bytes} : parseRequest ord raw = .ok none →
      Effect ord o w ⟨.request raw, s, s, (Exchange.badRequest raw).calls s.conn⟩
  | handled {s s' : Session} {raw : Bytes} {req : Request} {a : Answer} {before after : List Op} :
      parseRequest ord raw = .ok (some req) →
      Session.Handled o (w.after o (.logRequest s.conn raw)) s req a s' before after →
      Effect ord o w
        ⟨.request raw, s, s', .logRequest s.conn raw :: Session.callsOf s req a before after⟩
  | disconnect {s : Session} : Effect ord o w
      ⟨.disconnect, s, { s with streamer := none, state := .closed }, s.stopOps⟩

/-- Serving a request in any state. -/
theorem Session.serve_effect (ord : HashOrder) (o : Oracle) (w : World) (s : Session)
    (raw : Bytes) : ∃ s' result calls, Effect ord o w ⟨.request raw, s, s', calls⟩ ∧
      (s.serve ord raw).exec o w = ((s', result), w.afterAll o calls) := by
  cases hp : parseRequest ord raw with
  | error e => exact ⟨_, _, _, .raised hp, Session.serve_raises hp⟩
  | ok parsed =>
    cases parsed with
    | none =>
      refine ⟨_, none, _, .unparsable hp, ?_⟩
      rw [serve, Control.exec_bind, hp]
      rfl
    | some req =>
      obtain ⟨a, s', before, after, hh, hserve⟩ := Session.serve_handled hp
      exact ⟨s', _, _, .handled hp hh, hserve⟩

theorem Session.onDisconnect_exec : s.onDisconnect.exec o w =
    ({ s with streamer := none, state := .closed }, w.afterAll o s.stopOps) := by
  rw [onDisconnect, Control.exec_bind, stopStreaming_exec]
  rfl

/-- A move is one of its effects, on this world. -/
theorem Moves.effect (h : Moves ord o p m q) :
    m.before = p.1 ∧ q = (m.after, p.2.afterAll o m.calls) ∧ Effect ord o p.2 m := by
  cases h with
  | received b => exact ⟨rfl, rfl, .received b⟩
  | @request s s' w w' raw result calls hserve hops =>
    obtain ⟨s₁, result₁, calls₁, heffect, hexec⟩ := Session.serve_effect ord o w s raw
    rw [hserve] at hexec
    cases hexec
    rw [World.afterAll_ops] at hops
    rw [← List.append_cancel_left hops]
    exact ⟨rfl, rfl, heffect⟩
  | @disconnect s s' w w' calls hexec hops =>
    rw [Session.onDisconnect_exec] at hexec
    cases hexec
    rw [World.afterAll_ops] at hops
    rw [← List.append_cancel_left hops]
    exact ⟨rfl, rfl, .disconnect⟩

/-- Serving a request is a move. -/
theorem Session.serve_moves (ord : HashOrder) (o : Oracle) (w : World) (s : Session)
    (raw : Bytes) : ∃ m, Moves ord o (s, w) m
      (((s.serve ord raw).exec o w).1.1, ((s.serve ord raw).exec o w).2) := by
  obtain ⟨s', result, calls, -, hexec⟩ := Session.serve_effect ord o w s raw
  refine ⟨⟨.request raw, s, s', calls⟩, ?_⟩
  rw [hexec]
  exact .request hexec (World.afterAll_ops calls)

theorem Session.feedLoop_moves (fuel : Nat) : ∃ ms, Run (Moves ord o) (s, w) ms
    (((feedLoop ord fuel s).exec o w).1.1, ((feedLoop ord fuel s).exec o w).2) := by
  induction fuel generalizing s w with
  | zero => exact ⟨[], .refl⟩
  | succ fuel ih =>
    rw [feedLoop]
    split
    · exact ⟨[], .refl⟩
    · rename_i endPos hfind
      obtain ⟨m, hm⟩ := serve_moves ord o w
        { s with rxBuffer := s.rxBuffer.drop (endPos + 4) } (s.rxBuffer.take (endPos + 4))
      have hcut : Moves ord o (s, w) _ ({ s with rxBuffer := s.rxBuffer.drop (endPos + 4) }, w) :=
        .received (s.rxBuffer.drop (endPos + 4))
      dsimp only
      rw [Control.exec_bind]
      generalize Control.exec o (serve ord { s with rxBuffer := s.rxBuffer.drop (endPos + 4) }
        (s.rxBuffer.take (endPos + 4))) w = served at hm ⊢
      obtain ⟨⟨s₁, result⟩, w₁⟩ := served
      cases result with
      | none =>
        obtain ⟨ms, hrest⟩ := ih (s := s₁) (w := w₁)
        exact ⟨_, .stepL hcut (.stepL hm hrest)⟩
      | some r => exact ⟨_, .stepL hcut (.single hm)⟩

theorem Session.feed_moves (data : Bytes) : ∃ ms, Run (Moves ord o) (s, w) ms
    (((s.feed ord data).exec o w).1.1, ((s.feed ord data).exec o w).2) := by
  have hrecv : Moves ord o (s, w) _ ({ s with rxBuffer := s.rxBuffer ++ data }, w) :=
    .received (s.rxBuffer ++ data)
  rw [feed]
  dsimp only
  split
  · exact ⟨_, .single hrecv⟩
  · obtain ⟨ms, hloop⟩ := feedLoop_moves (o := o) (w := w)
      (s := { s with rxBuffer := s.rxBuffer ++ data }) _
    exact ⟨_, .stepL hrecv hloop⟩

/-- A use of a session is a run of moves. -/
theorem Session.use_moves (u : Use) :
    ∃ ms, Run (Moves ord o) (s, w) ms ((s.use ord u).exec o w) := by
  cases u with
  | feed data =>
    obtain ⟨ms, hfeed⟩ := feed_moves (o := o) (s := s) (w := w) data
    rw [use, Control.exec_bind]
    exact ⟨ms, hfeed⟩
  | disconnect =>
    have hend : Moves ord o (s, w) _ ({ s with streamer := none, state := .closed },
        w.afterAll o s.stopOps) :=
      .disconnect onDisconnect_exec (World.afterAll_ops s.stopOps)
    rw [use, onDisconnect_exec]
    exact ⟨_, .single hend⟩

theorem Session.useAll_moves (uses : List Use) :
    ∃ ms, Run (Moves ord o) (s, w) ms ((useAll ord s uses).exec o w) := by
  induction uses generalizing s w with
  | nil => exact ⟨[], .refl⟩
  | cons u uses ih =>
    obtain ⟨ms, hfirst⟩ := use_moves (o := o) (s := s) (w := w) u
    rw [useAll, Control.exec_bind]
    obtain ⟨ms', hrest⟩ := ih (s := ((s.use ord u).exec o w).1) (w := ((s.use ord u).exec o w).2)
    exact ⟨ms ++ ms', hfirst.append hrest⟩

end Veda.Rtsp
