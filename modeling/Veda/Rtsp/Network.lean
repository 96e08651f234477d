import Veda.Rtsp.Server

/-!
The server with its clients at the other end: what each client sends and when it closes its
side, what epoll reports of it, and what the server reads. The streams stay below the size
guard of `feed`, and no exception leaves it.
-/
namespace Veda.Rtsp

open Delimited Transitions

/-- A connection as the client and the kernel see it. -/
structure Conn where
  /-- All bytes that the client has sent. -/
  sent : Bytes := []
  halfClosed : Bool := false
  /-- What has been handed to `Session::feed`. -/
  fed : List Bytes := []
  responses : List Bytes := []
  /-- A read or the connection has failed. -/
  failed : Bool := false

/-- The bytes that wait in the socket. -/
def Conn.unread (c : Conn) : Bytes := c.sent.drop c.fed.flatten.length

/-- The connection after `data` has been read and fed, in a step from `w` to `w'`. -/
def Conn.feed (c : Conn) (data : Bytes) (w w' : World) : Conn :=
  { c with
    fed := c.fed ++ [data]
    responses := c.responses ++ w'.responses.drop w.responses.length }

structure Network where
  clients : Clients := ∅
  world : World
  /-- The last connection on each descriptor. -/
  conns : Nat → Option Conn := fun _ => none

namespace Network

inductive Label
  | connect (fd : Nat) (peerIp : Bytes) (registered : Bool)
  | acceptFailed
  | send (fd : Nat) (data : Bytes)
  | halfClose (fd : Nat)
  /-- epoll reports `EPOLLIN` or `EPOLLRDHUP` for a client, or both. -/
  | report (fd : Nat) (readable hangup : Bool)
  /-- `EPOLLERR`, `EPOLLHUP` or a failed read. -/
  | fail (fd : Nat)

def withConn (n : Network) (fd : Nat) (c : Conn) : Network :=
  { n with conns := Function.update n.conns fd (some c) }

/-- After the server has handled an event. -/
def after (n : Network) (q : Clients × World) : Network :=
  { n with clients := q.1, world := q.2 }

/-- `sizeof(buffer)` -/
def bufferSize : Nat := 4096

inductive Step (ord : HashOrder) (o : Oracle) : Network → Label → Network → Prop
  | connect {n : Network} {fd : Nat} {peerIp : Bytes} {registered : Bool} {q : Clients × World} :
      n.clients.lookup fd = none →
      Server.Step ord o (n.clients, n.world) (.accept fd peerIp registered) q →
      Step ord o n (.connect fd peerIp registered)
        ((n.after q).withConn fd { failed := !registered })
  | acceptFailed {n : Network} : Step ord o n .acceptFailed n
  | send {n : Network} {fd : Nat} {c : Conn} (data : Bytes) : n.conns fd = some c →
      c.halfClosed = false →
      Step ord o n (.send fd data) (n.withConn fd { c with sent := c.sent ++ data })
  | halfClose {n : Network} {fd : Nat} {c : Conn} : n.conns fd = some c →
      Step ord o n (.halfClose fd) (n.withConn fd { c with halfClosed := true })
  /-- The hang-up is looked at first, whatever else is reported. -/
  | hangup {n : Network} {fd : Nat} {c : Conn} {q : Clients × World} (readable : Bool) :
      n.conns fd = some c → c.halfClosed = true →
      Server.Step ord o (n.clients, n.world) (.hangup fd) q →
      Step ord o n (.report fd readable true) (n.after q)
  | read {n : Network} {fd : Nat} {c : Conn} {s : Session} {q : Clients × World} (k : Nat) :
      n.clients.lookup fd = some s → n.conns fd = some c → 0 < k → k ≤ bufferSize →
      k ≤ c.unread.length → (s.rxBuffer ++ c.unread.take k).length ≤ kMaxRxBuffer →
      Server.Step ord o (n.clients, n.world) (.read fd (c.unread.take k)) q →
      Step ord o n (.report fd true false)
        ((n.after q).withConn fd (c.feed (c.unread.take k) n.world q.2))
  /-- `read` returns 0. -/
  | endOfStream {n : Network} {fd : Nat} {c : Conn} {q : Clients × World} :
      n.conns fd = some c → c.unread = [] → c.halfClosed = true →
      Server.Step ord o (n.clients, n.world) (.read fd []) q →
      Step ord o n (.report fd true false) (n.after q)
  /-- The descriptor is no longer in the map. -/
  | stale {n : Network} {fd : Nat} (readable hangup : Bool) : n.clients.lookup fd = none →
      Step ord o n (.report fd readable hangup) n
  | fail {n : Network} {fd : Nat} {c : Conn} {event : Event} {q : Clients × World} :
      n.conns fd = some c → event = .hangup fd ∨ event = .readFailed fd →
      Server.Step ord o (n.clients, n.world) event q →
      Step ord o n (.fail fd) ((n.after q).withConn fd { c with failed := true })

/-- The server before its first connection. -/
def Initial (n : Network) : Prop := n = { world := n.world }

end Network
end Veda.Rtsp
