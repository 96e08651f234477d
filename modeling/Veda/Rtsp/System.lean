import Veda.Media.HubThreads
import Veda.Rtsp.Environment

/-!
The whole program under its threads: the sessions that the control thread runs, one function
call after another, beside the Hub and its pump threads. A call of a session to the Hub takes
as many steps as the Hub's own model gives it; any other call is one step.
-/
namespace Veda.Rtsp

open Effects Media

/-- What the control thread does to a session: it feeds it, tells it that the connection is
gone, or destroys it. -/
inductive Action
  | feed (data : Bytes)
  | disconnect
  | destroy

/-- After these actions the session no longer streams. -/
def Action.ends : Action → Bool
  | .feed _ => false
  | .disconnect => true
  | .destroy => true

/-- The code of an action; its result is the session afterwards. -/
def Action.program (ord : HashOrder) (s : Session) : Action → Control (Option Session)
  | .feed data => do
    let (s, _) ← s.feed ord data
    pure (some s)
  | .disconnect => do
    let s ← s.onDisconnect
    pure (some s)
  | .destroy => do
    s.destroy
    pure none

/-- An action in progress, with the code that is left of it. -/
structure Activity where
  conn : ConnId
  action : Action
  rest : Control (Option Session)

structure System where
  threads : Threads StreamerId
  sessions : ConnId → Option Session := fun _ => none
  activity : Option Activity := none
  /-- How many streamers have been made. -/
  streamers : Nat := 0

namespace System

inductive Label
  /-- A client with this address has connected. -/
  | opened (conn : ConnId) (ip : Bytes)
  | begun (conn : ConnId) (action : Action)
  /-- A call of the session has returned. -/
  | call (c : Call)
  | finished (conn : ConnId) (action : Action)
  /-- A pump thread runs `send_nal` on a streamer. -/
  | sendNal (t : Nat) (x : StreamerId)
  /-- A step inside the Hub. -/
  | hub

/-- The calls that return in a step. -/
def Label.calls : Label → List Call
  | .call c => [c]
  | _ => []

/-- The calls of a run, in order. -/
def callsOf (ls : List Label) : List Call := ls.flatMap Label.calls

/-- The answers that a call outside `subscribe` and `unsubscribe` can get. -/
def Answers (s : System) : Call → Prop
  | ⟨.makeStreamer _, x⟩ => x = s.streamers
  | ⟨.spropParameterSets, sprop⟩ =>
    s.threads.mutex = none ∧ sprop = s.threads.hub.spropParameterSets
  | ⟨.subscribe _, _⟩ => False
  | ⟨.unsubscribe _, _⟩ => False
  | _ => True

/-- The number of streamers after a call. -/
def made (s : System) : Op → Nat
  | .makeStreamer _ => s.streamers + 1
  | _ => s.streamers

inductive Step (ord : HashOrder) : System → Label → System → Prop
  | opened {s : System} (conn : ConnId) (ip : Bytes) : s.activity = none →
      s.threads.control = .idle → s.sessions conn = none →
      Step ord s (.opened conn ip) { s with
        sessions := Function.update s.sessions conn (some (Session.create ip true conn)) }
  | begun {s : System} {session : Session} (conn : ConnId) (a : Action) : s.activity = none →
      s.threads.control = .idle → s.sessions conn = some session →
      Step ord s (.begun conn a) { s with activity := some ⟨conn, a, a.program ord session⟩ }
  | call {s : System} {conn : ConnId} {a : Action} {op : Op}
      {k : op.Res → Control (Option Session)} (r : op.Res) :
      s.activity = some ⟨conn, a, .call op k⟩ → s.Answers ⟨op, r⟩ →
      Step ord s (.call ⟨op, r⟩) { s with
        activity := some ⟨conn, a, k r⟩, streamers := s.made op }
  | subscribes {s : System} {conn : ConnId} {a : Action} {x : StreamerId}
      {k : Bool → Control (Option Session)} {threads : Threads StreamerId} :
      s.activity = some ⟨conn, a, .call (.subscribe x) k⟩ →
      s.threads.Step (.callSubscribe x) threads → Step ord s .hub { s with threads }
  | subscribed {s : System} {conn : ConnId} {a : Action} {x : StreamerId} {ok : Bool}
      {k : Bool → Control (Option Session)} {threads : Threads StreamerId} :
      s.activity = some ⟨conn, a, .call (.subscribe x) k⟩ →
      s.threads.Step (.returnSubscribe (some x) ok) threads →
      Step ord s (.call ⟨.subscribe x, ok⟩) { s with
        threads, activity := some ⟨conn, a, k ok⟩ }
  | unsubscribes {s : System} {conn : ConnId} {a : Action} {x : StreamerId}
      {k : Unit → Control (Option Session)} {threads : Threads StreamerId} :
      s.activity = some ⟨conn, a, .call (.unsubscribe x) k⟩ →
      s.threads.Step (.callUnsubscribe x) threads → Step ord s .hub { s with threads }
  | unsubscribed {s : System} {conn : ConnId} {a : Action} {x : StreamerId}
      {k : Unit → Control (Option Session)} {threads : Threads StreamerId} :
      s.activity = some ⟨conn, a, .call (.unsubscribe x) k⟩ →
      s.threads.Step (.returnUnsubscribe x) threads →
      Step ord s (.call ⟨.unsubscribe x, ()⟩) { s with
        threads, activity := some ⟨conn, a, k ()⟩ }
  | control {s : System} {threads : Threads StreamerId} : s.threads.Step .control threads →
      Step ord s .hub { s with threads }
  | pump {s : System} {t : Nat} {threads : Threads StreamerId} :
      s.threads.Step (.pump t) threads → Step ord s .hub { s with threads }
  | sendNal {s : System} {t : Nat} {x : StreamerId} {threads : Threads StreamerId} :
      s.threads.Step (.send t x) threads → Step ord s (.sendNal t x) { s with threads }
  | finished {s : System} {conn : ConnId} {a : Action} {result : Option Session} :
      s.activity = some ⟨conn, a, .ret result⟩ →
      Step ord s (.finished conn a) { s with
        activity := none, sessions := Function.update s.sessions conn result }
  /-- The destructor of the Hub, once the sessions are gone. -/
  | shutdown {s : System} {threads : Threads StreamerId} : s.activity = none →
      (∀ conn, s.sessions conn = none) → s.threads.Step .callDestroy threads →
      Step ord s .hub { s with threads }

/-- The program before its first connection. -/
def Initial (s : System) : Prop := s.threads.Initial ∧ s = { threads := s.threads }

end System
end Veda.Rtsp
