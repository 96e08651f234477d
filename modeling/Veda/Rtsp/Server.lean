import Mathlib.Data.List.AList
import Veda.Lib.Transitions
import Veda.Rtsp.Environment

/-!
The event loop of the server over its map of clients. A run is a list of epoll events; what
the Hub and the streamers answer is up to the environment.
-/
namespace Veda.Rtsp

open Cpp Effects

/-- `clients`: the session of each connected client by its file descriptor. The connection
that a session writes to is the one with this descriptor. -/
abbrev Clients := AList fun _ : Nat => Session

/-- One entry of an `epoll_wait` batch, with what `accept`, `epoll_ctl` and `read` then do. -/
inductive Event
  | accept (fd : Nat) (peerIp : Bytes) (registered : Bool)
  | acceptFailed
  /-- `EPOLLHUP`, `EPOLLERR` or `EPOLLRDHUP`. -/
  | hangup (fd : Nat)
  /-- `read` returns these bytes; none is the end of the stream. -/
  | read (fd : Nat) (data : Bytes)
  | readFailed (fd : Nat)

namespace Server

/-- `drop_client` -/
def dropClient (clients : Clients) (fd : Nat) : Control Clients :=
  match clients.lookup fd with
  | none => pure clients
  | some s => do
    let s ← s.onDisconnect
    s.destroy
    pure (clients.erase fd)

/-- A new connection. The client is destroyed where it is not moved into the map. -/
def acceptClient (clients : Clients) (fd : Nat) (peerIp : Bytes) (registered : Bool) :
    Control Clients := do
  let s := Session.create peerIp true fd
  if registered && !decide (fd ∈ clients) then
    pure (clients.insert fd s)
  else do
    s.destroy
    pure clients

/-- `feed`, then `drop_client` where the session has ended. The second component is an
exception that leaves the loop. -/
def feedClient (ord : HashOrder) (clients : Clients) (fd : Nat) (s : Session) (data : Bytes) :
    Control (Clients × Option StdException) := do
  let (s, result) ← s.feed ord data
  let clients := clients.insert fd s
  match result with
  | .returned true => pure (clients, none)
  | .returned false => do
    let clients ← dropClient clients fd
    pure (clients, none)
  | .raised e => pure (clients, some e)

/-- One round of the loop over the events of a batch. -/
def handleEvent (ord : HashOrder) (clients : Clients) :
    Event → Control (Clients × Option StdException)
  | .accept fd peerIp registered => do
    let clients ← acceptClient clients fd peerIp registered
    pure (clients, none)
  | .acceptFailed => pure (clients, none)
  | .hangup fd => do
    let clients ← dropClient clients fd
    pure (clients, none)
  | .readFailed fd => do
    let clients ← dropClient clients fd
    pure (clients, none)
  | .read fd data =>
    match clients.lookup fd with
    -- the descriptor was dropped earlier in the same batch
    | none => pure (clients, none)
    | some s =>
      if data = [] then do
        let clients ← dropClient clients fd
        pure (clients, none)
      else feedClient ord clients fd s data

/-- `clients.clear()` -/
def clear : List Session → Control Unit
  | [] => pure ()
  | s :: sessions => do
    s.destroy
    clear sessions

/-- A step of the loop; the run ends where an exception leaves `feed`. -/
def Step (ord : HashOrder) (o : Oracle) (p : Clients × World) (event : Event)
    (q : Clients × World) : Prop :=
  (handleEvent ord p.1 event).exec o p.2 = ((q.1, none), q.2)

/-- Clients and world after an event. -/
def next (ord : HashOrder) (o : Oracle) (p : Clients × World) (event : Event) : Clients × World :=
  (((handleEvent ord p.1 event).exec o p.2).1.1, ((handleEvent ord p.1 event).exec o p.2).2)

theorem step_next {ord : HashOrder} {o : Oracle} {p : Clients × World} {event : Event}
    (h : ((handleEvent ord p.1 event).exec o p.2).1.2 = none) :
    Step ord o p event (next ord o p event) :=
  Prod.ext (Prod.ext rfl h) rfl

/-- The server before its first event. -/
def Initial (p : Clients × World) : Prop := p.1 = ∅ ∧ p.2.hub.subscribers = []

end Server
end Veda.Rtsp
