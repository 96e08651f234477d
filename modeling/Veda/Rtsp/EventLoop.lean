import Veda.Rtsp.Server

/-!
`Server::run` down to its system calls, with the listener and the connections that it owns. What
the kernel answers is open; the loops of `run` and of `TcpConnection::read` are given up after a
number of rounds.
-/
namespace Veda.Rtsp

open Cpp Effects

/-- An entry of the array that `epoll_wait` fills: the descriptor, and whether `EPOLLHUP`,
`EPOLLERR` or `EPOLLRDHUP` is among its events. -/
structure Ready where
  fd : Nat
  hangup : Bool
  deriving DecidableEq

inductive WaitAnswer
  | events (ready : List Ready)
  | interrupted
  | failed

inductive ReadAnswer
  /-- Behind the last byte of the stream there are none. -/
  | count (data : Bytes)
  | interrupted
  | failed

/-- What the thread of `main` asks of the kernel, the Hub and the sessions. -/
inductive LoopOp
  | socket
  | setReuseAddr (fd : Nat)
  | bind (fd : Nat) (port : UInt16)
  | listen (fd backlog : Nat)
  | accept (fd : Nat)
  | getpeername (fd : Nat)
  | read (fd len : Nat)
  | close (fd : Nat)
  | epollCreate
  /-- `EPOLL_CTL_ADD` with `EPOLLIN`, and with `EPOLLRDHUP` or without. -/
  | epollAdd (epoll fd : Nat) (rdhup : Bool)
  | epollDel (epoll fd : Nat)
  | epollWait (epoll maxEvents timeoutMs : Nat)
  /-- The value of `g_running`. -/
  | running
  /-- The constructor of the Hub. -/
  | makeHub (source : Bytes)
  | destroyHub
  /-- A call that a session makes. -/
  | session (op : Op)

/-- Type of the answer; a descriptor is `none` where the call returns -1, and a call that
returns 0 or -1 answers whether it has succeeded. -/
@[reducible] def LoopOp.Res : LoopOp → Type
  | .socket => Option Nat
  | .setReuseAddr _ => Bool
  | .bind _ _ => Bool
  | .listen _ _ => Bool
  | .accept _ => Option Nat
  | .getpeername _ => Option Bytes
  | .read _ _ => ReadAnswer
  | .close _ => Unit
  | .epollCreate => Option Nat
  | .epollAdd _ _ _ => Bool
  | .epollDel _ _ => Unit
  | .epollWait _ _ _ => WaitAnswer
  | .running => Bool
  | .makeHub _ => Unit
  | .destroyHub => Unit
  | .session op => op.Res

/-- Code of the thread of `main`. -/
abbrev Loop (α : Type) := Program LoopOp LoopOp.Res α

/-- The code of a session, run by that thread. -/
abbrev Loop.session {α : Type} (p : Control α) : Loop α :=
  p.interpret fun op => Program.perform (LoopOp.session op)

/-- `accept_one`, without the address that goes to the log. -/
def acceptOne (listener : Nat) : Loop (Option Nat) := Program.perform (LoopOp.accept listener)

/-- The constructor of `TcpListener`; `none` is an `fd_` of -1. -/
def openListener (port : UInt16) : Loop (Option Nat) := do
  let fd ← Program.perform LoopOp.socket
  match fd with
  | none => pure none
  | some fd => do
    let reuse ← Program.perform (LoopOp.setReuseAddr fd)
    if reuse then do
      let bound ← Program.perform (LoopOp.bind fd port)
      if bound then do
        let listening ← Program.perform (LoopOp.listen fd 5)
        if listening then
          pure (some fd)
        else do
          Program.perform (LoopOp.close fd)
          pure none
      else do
        Program.perform (LoopOp.close fd)
        pure none
    else do
      Program.perform (LoopOp.close fd)
      pure none

/-- `TcpConnection::read`, given up when it has been interrupted `retries` times. -/
def readConnection (fd len : Nat) : (retries : Nat) → Loop ReadAnswer
  | 0 => pure .interrupted
  | retries + 1 => do
    let answer ← Program.perform (LoopOp.read fd len)
    match answer with
    | .interrupted => readConnection fd len retries
    | answer => pure answer

/-- `TcpConnection::peer_ip` -/
def peerIp (fd : Nat) : Loop Bytes := do
  let ip ← Program.perform (LoopOp.getpeername fd)
  pure (ip.getD [])

/-- `~Client`: the session goes before its connection. -/
def destroyClient (fd : Nat) (s : Session) : Loop Unit := do
  Loop.session s.destroy
  Program.perform (LoopOp.close fd)

/-- In which order the hash map of the clients destroys them. -/
structure ClearOrder where
  order : Clients → List (Sigma fun _ : Nat => Session)
  perm : ∀ clients, (order clients).Perm clients.entries

/-- `clients.clear()` -/
def clearClients : List (Sigma fun _ : Nat => Session) → Loop Unit
  | [] => pure ()
  | ⟨fd, s⟩ :: clients => do
    destroyClient fd s
    clearClients clients

/-- Why a loop has not come to its end. -/
inductive Halt
  | raised (e : StdException)
  | givenUp

inductive Outcome
  | exited (code : Int)
  /-- Inside the loop, with these descriptors and clients. -/
  | halted (why : Halt) (listener epoll : Nat) (clients : Clients)

namespace EventLoop

def kMaxEvents : Nat := 64
def kEpollTimeoutMs : Nat := 500

/-- `sizeof(buffer)` -/
def bufferLength : Nat := 4096

section
variable (ord : HashOrder) (retries listener epoll : Nat)

/-- `drop_client` -/
def dropClient (clients : Clients) (fd : Nat) : Loop Clients := do
  Program.perform (LoopOp.epollDel epoll fd)
  match clients.lookup fd with
  | none => pure clients
  | some s => do
    let s ← Loop.session s.onDisconnect
    destroyClient fd s
    pure (clients.erase fd)

/-- A new connection. -/
def acceptClient (clients : Clients) : Loop Clients := do
  let fd ← acceptOne listener
  match fd with
  | none => pure clients
  | some fd => do
    let ip ← peerIp fd
    let s := Session.create ip true fd
    let registered ← Program.perform (LoopOp.epollAdd epoll fd true)
    if registered then do
      -- once more, for the log
      let _ ← peerIp fd
      if fd ∈ clients then do
        destroyClient fd s
        pure clients
      else pure (clients.insert fd s)
    else do
      destroyClient fd s
      pure clients

/-- `feed`, then `drop_client` where the session has ended. -/
def feedClient (clients : Clients) (fd : Nat) (s : Session) (data : Bytes) :
    Loop (Clients × Option Halt) := do
  let (s, result) ← Loop.session (s.feed ord data)
  let clients := clients.insert fd s
  match result with
  | .returned true => pure (clients, none)
  | .returned false => do
    let clients ← dropClient epoll clients fd
    pure (clients, none)
  | .raised e => pure (clients, some (.raised e))

/-- The body of the loop over the events of a batch. -/
def handleReady (clients : Clients) (r : Ready) : Loop (Clients × Option Halt) :=
  if r.fd = listener then do
    let clients ← acceptClient listener epoll clients
    pure (clients, none)
  else
    match clients.lookup r.fd with
    | none => pure (clients, none)
    | some s =>
      if r.hangup then do
        let clients ← dropClient epoll clients r.fd
        pure (clients, none)
      else do
        let answer ← readConnection r.fd bufferLength retries
        match answer with
        | .interrupted => pure (clients, some .givenUp)
        | .failed => do
          let clients ← dropClient epoll clients r.fd
          pure (clients, none)
        | .count data =>
          if data = [] then do
            let clients ← dropClient epoll clients r.fd
            pure (clients, none)
          else feedClient ord epoll clients r.fd s data

/-- The loop over the events of a batch. -/
def handleBatch : Clients → List Ready → Loop (Clients × Option Halt)
  | clients, [] => pure (clients, none)
  | clients, r :: ready => do
    let (clients, halt) ← handleReady ord retries listener epoll clients r
    match halt with
    | none => handleBatch clients ready
    | some why => pure (clients, some why)

/-- `while (g_running)`; the second component is `none` where it has ended. -/
def loop : (rounds : Nat) → Clients → Loop (Clients × Option Halt)
  | 0, clients => pure (clients, some .givenUp)
  | rounds + 1, clients => do
    let running ← Program.perform LoopOp.running
    if running then do
      let answer ← Program.perform (LoopOp.epollWait epoll kMaxEvents kEpollTimeoutMs)
      match answer with
      | .interrupted => loop rounds clients
      | .failed => pure (clients, none)
      | .events ready => do
        let (clients, halt) ← handleBatch ord retries listener epoll clients ready
        match halt with
        | none => loop rounds clients
        | some why => pure (clients, some why)
    else pure (clients, none)

end

/-- `Server::run`. What is destroyed at the end of a scope is written out: the Hub, then the
listener. -/
def run (ord : HashOrder) (clear : ClearOrder) (retries rounds : Nat) (port : UInt16)
    (sourcePath : Bytes) : Loop Outcome := do
  let listener ← openListener port
  match listener with
  | none => pure (.exited 1)
  | some listener => do
    let epoll ← Program.perform LoopOp.epollCreate
    match epoll with
    | none => do
      Program.perform (LoopOp.close listener)
      pure (.exited 1)
    | some epoll => do
      let registered ← Program.perform (LoopOp.epollAdd epoll listener false)
      if registered then do
        Program.perform (LoopOp.makeHub sourcePath)
        let (clients, halt) ← loop ord retries listener epoll rounds ∅
        match halt with
        | some why => pure (.halted why listener epoll clients)
        | none => do
          clearClients (clear.order clients)
          Program.perform (LoopOp.close epoll)
          Program.perform LoopOp.destroyHub
          Program.perform (LoopOp.close listener)
          pure (.exited 0)
      else do
        Program.perform (LoopOp.close epoll)
        Program.perform (LoopOp.close listener)
        pure (.exited 1)

end EventLoop
end Veda.Rtsp
