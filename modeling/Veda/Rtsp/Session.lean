import Veda.Lib.Effects
import Veda.Rtsp.Parser
import Veda.Rtsp.Response
import Veda.Sdp.Builder

/-!
One client's session. What the session asks of the connection, the Hub and the streamers
is an operation of `Op`; everything else is computed here from the session's own fields.
-/
namespace Veda.Rtsp

open Cpp Effects

/-- Identity of a `Streamer` object; every `make_shared` has a new one. -/
abbrev StreamerId := Nat

/-- Identity of the connection that a session's `send_` closure writes to. -/
abbrev ConnId := Nat

inductive Op
  /-- `std::cout << "[Request]"`: the handling of a request begins. -/
  | logRequest (conn : ConnId) (raw : Bytes)
  | send (conn : ConnId) (response : Bytes)
  | generateSessionId
  /-- `std::make_shared<rtp::Streamer>()`, by the session of `conn`. -/
  | makeStreamer (conn : ConnId)
  | connect (s : StreamerId) (ip : Bytes) (port : UInt16)
  | subscribe (s : StreamerId)
  | unsubscribe (s : StreamerId)
  | spropParameterSets
  deriving DecidableEq

/-- Type of the answer to an operation. -/
@[reducible] def Op.Res : Op → Type
  | .logRequest _ _ => Unit
  | .send _ _ => Unit
  | .generateSessionId => Bytes
  | .makeStreamer _ => StreamerId
  | .connect _ _ _ => Bool
  | .subscribe _ => Bool
  | .unsubscribe _ => Unit
  | .spropParameterSets => Bytes

/-- Code of the control thread. -/
abbrev Control (α : Type) := Program Op Op.Res α

namespace Control

abbrev logRequest (conn : ConnId) (raw : Bytes) : Control Unit :=
  Program.perform (Op.logRequest conn raw)
abbrev send (conn : ConnId) (response : Bytes) : Control Unit :=
  Program.perform (Op.send conn response)
abbrev generateSessionId : Control Bytes := Program.perform Op.generateSessionId
abbrev makeStreamer (conn : ConnId) : Control StreamerId :=
  Program.perform (Op.makeStreamer conn)
abbrev connect (s : StreamerId) (ip : Bytes) (port : UInt16) : Control Bool :=
  Program.perform (Op.connect s ip port)
abbrev subscribe (s : StreamerId) : Control Bool := Program.perform (Op.subscribe s)
abbrev unsubscribe (s : StreamerId) : Control Unit := Program.perform (Op.unsubscribe s)
abbrev spropParameterSets : Control Bytes := Program.perform Op.spropParameterSets

end Control

inductive State
  | init | ready | playing | closed
  deriving DecidableEq, Repr

structure Session where
  clientIp : Bytes
  /-- `hub_ != nullptr` -/
  hub : Bool
  conn : ConnId
  rxBuffer : Bytes := []
  state : State := .init
  sessionId : Bytes := []
  clientRtpPort : Int := 0
  clientRtcpPort : Int := 0
  streamer : Option StreamerId := none
  deriving DecidableEq

/-- Outcome of `feed`. -/
inductive FeedResult
  | returned (open_ : Bool)
  | raised (e : StdException)
  deriving DecidableEq

def kMaxRxBuffer : Nat := 64 * 1024

/-- What `parse_transport` returns and leaves in its two reference parameters. `overflow`
records whether a signed sum on the way overflowed. -/
structure TransportResult where
  ok : Bool
  rtpPort : Int
  rtcpPort : Int
  overflow : Bool := false
  deriving DecidableEq

def clientPortKey : Bytes := ascii "client_port="

/-- The text after `client_port=` up to the next `;` or `,`. -/
def clientPortText (transport : Bytes) : Option Bytes :=
  (find clientPortKey transport).map fun pos =>
    (transport.drop (pos + 12)).takeWhile fun b => b ≠ 59 && b ≠ 44

def parseTransport (transport : Bytes) (rtpPort rtcpPort : Int) : TransportResult :=
  match clientPortText transport with
  | none => { ok := false, rtpPort, rtcpPort }
  | some ports =>
    let inRange (p : Int) : Bool := p > 0 && p ≤ 65535
    match find [45] ports with
    | none =>
      match stoi ports with
      | .error _ => { ok := false, rtpPort, rtcpPort }
      | .ok p =>
        { ok := inRange p, rtpPort := p, rtcpPort := intAdd p 1, overflow := addOverflows p 1 }
    | some dash =>
      match stoi (ports.take dash) with
      | .error _ => { ok := false, rtpPort, rtcpPort }
      | .ok p =>
        match stoi (ports.drop (dash + 1)) with
        | .error _ => { ok := false, rtpPort := p, rtcpPort }
        | .ok q => { ok := inRange p, rtpPort := p, rtcpPort := q }

/-- The part of a Session header before its parameters. -/
def sessionIdOf (value : Bytes) : Bytes := value.takeWhile fun b => b ≠ 59

namespace Session

/-- The constructor. -/
def create (clientIp : Bytes) (hub : Bool) (conn : ConnId) : Session := { clientIp, hub, conn }

def stopStreaming (s : Session) : Control Session :=
  match s.streamer with
  | none => pure s
  | some x => do
    if s.hub then
      Control.unsubscribe x
    pure { s with streamer := none }

def onDisconnect (s : Session) : Control Session := do
  let s ← s.stopStreaming
  pure { s with state := .closed }

/-- `~Session`. -/
def destroy (s : Session) : Control Unit := do
  let _ ← s.stopStreaming
  pure ()

def methodAllowed (s : Session) : Method → Bool
  | .options => true
  | .getParameter => true
  | .describe => true
  | .setup => s.state == .init || s.state == .ready
  | .play => s.state == .ready
  | .pause => s.state == .playing
  | .teardown => s.state == .ready || s.state == .playing
  | .unknown => false

def handleDescribe (s : Session) (req : Request) : Control (Session × Bytes) := do
  let sprop ← if s.hub then Control.spropParameterSets else pure ([] : Bytes)
  let sdp := Sdp.build { payloadType := 96, clockRate := 90000, spropParameterSets := sprop }
  pure (s, Response.describe req.cseq sdp (req.uri ++ ascii "/"))

def handleSetup (s : Session) (req : Request) : Control (Session × Bytes) :=
  match header req (ascii "Transport") with
  | none => pure (s, Response.error req.cseq 400 (ascii "Bad Request - No Transport"))
  | some transport =>
    let r := parseTransport transport s.clientRtpPort s.clientRtcpPort
    -- the ports are reference parameters: they keep what was written before a failure
    let s := { s with clientRtpPort := r.rtpPort, clientRtcpPort := r.rtcpPort }
    if r.ok then do
      let id ← if s.sessionId = [] then Control.generateSessionId
        else pure s.sessionId
      let s := { s with sessionId := id, state := .ready }
      pure (s, Response.setup req.cseq s.sessionId s.clientRtpPort s.clientRtcpPort 6970 6971)
    else
      pure (s, Response.error req.cseq 461 (ascii "Unsupported Transport"))

def sessionHeaderMatches (s : Session) (req : Request) : Bool :=
  match header req (ascii "Session") with
  | none => false
  | some value => sessionIdOf value == s.sessionId

def sessionNotFound (req : Request) : Bytes :=
  Response.error req.cseq 454 (ascii "Session Not Found")

/-- The success response goes out before the subscription, so the handler answers by itself
and returns no text. -/
def handlePlay (s : Session) (req : Request) : Control (Session × Bytes) :=
  if s.sessionHeaderMatches req then do
    let x ← Control.makeStreamer s.conn
    let connected ← Control.connect x s.clientIp (toUint16 s.clientRtpPort)
    if connected then do
      Control.send s.conn (Response.play req.cseq s.sessionId)
      let subscribed ← if s.hub then Control.subscribe x else pure false
      if subscribed then
        pure ({ s with streamer := some x, state := .playing }, [])
      else
        pure (s, [])
    else
      pure (s, Response.error req.cseq 500 (ascii "Internal Server Error"))
  else
    pure (s, sessionNotFound req)

def handlePause (s : Session) (req : Request) : Control (Session × Bytes) :=
  if s.sessionHeaderMatches req then do
    let s ← s.stopStreaming
    let s := { s with state := .ready }
    pure (s, Response.okSession req.cseq s.sessionId)
  else
    pure (s, sessionNotFound req)

def handleTeardown (s : Session) (req : Request) : Control (Session × Bytes) :=
  if s.sessionHeaderMatches req then do
    let s ← s.stopStreaming
    let s := { s with state := .closed }
    pure (s, Response.teardown req.cseq s.sessionId)
  else
    pure (s, sessionNotFound req)

def handle (s : Session) (req : Request) : Control (Session × Bytes) :=
  if req.method = .unknown then
    pure (s, Response.error req.cseq 501 (ascii "Not Implemented"))
  else if s.methodAllowed req.method then
    match req.method with
    | .options => pure (s, Response.options req.cseq)
    | .describe => s.handleDescribe req
    | .setup => s.handleSetup req
    | .play => s.handlePlay req
    | .pause => s.handlePause req
    | .teardown => s.handleTeardown req
    | .getParameter =>
      pure (s, if s.sessionId = [] then Response.ok req.cseq
        else Response.okSession req.cseq s.sessionId)
    | .unknown => pure (s, Response.error req.cseq 500 (ascii "Internal Server Error"))
  else
    pure (s, Response.error req.cseq 455 (ascii "Method Not Valid in This State"))

/-- `handle`, then `send_` unless the handler has answered by itself. -/
def respond (s : Session) (req : Request) : Control Session := do
  let (s, response) ← s.handle req
  if response = [] then
    pure s
  else do
    Control.send s.conn response
    pure s

/-- One round of the loop in `feed`, for a request that is already cut off the buffer. The
second component is `none` where the loop goes on. -/
def serve (ord : HashOrder) (s : Session) (raw : Bytes) :
    Control (Session × Option FeedResult) := do
  Control.logRequest s.conn raw
  match parseRequest ord raw with
  | .error e => pure (s, some (.raised e))
  | .ok none => do
    Control.send s.conn (Response.error 0 400 (ascii "Bad Request"))
    pure (s, none)
  | .ok (some req) => do
    let s ← s.respond req
    if s.state = .closed then
      pure (s, some (.returned false))
    else
      pure (s, none)

/-- The loop of `feed`. Every round but the last cuts at least the four terminator bytes off
the buffer, so `fuel` above the length of the buffer is never used up. -/
def feedLoop (ord : HashOrder) : Nat → Session → Control (Session × FeedResult)
  | 0, s => pure (s, .returned true)
  | fuel + 1, s =>
    match find crlfcrlf s.rxBuffer with
    | none => pure (s, .returned true)
    | some endPos => do
      let raw := s.rxBuffer.take (endPos + 4)
      let s := { s with rxBuffer := s.rxBuffer.drop (endPos + 4) }
      let (s, result) ← s.serve ord raw
      match result with
      | none => feedLoop ord fuel s
      | some r => pure (s, r)

def feed (ord : HashOrder) (s : Session) (data : Bytes) : Control (Session × FeedResult) :=
  let s := { s with rxBuffer := s.rxBuffer ++ data }
  if s.rxBuffer.length > kMaxRxBuffer then
    pure (s, .returned false)
  else
    feedLoop ord (s.rxBuffer.length + 1) s

/-- One `feed` call after another, up to the first that does not return `true`. -/
def feedAll (ord : HashOrder) : Session → List Bytes → Control (Session × FeedResult)
  | s, [] => pure (s, .returned true)
  | s, data :: chunks => do
    let (s, result) ← s.feed ord data
    match result with
    | .returned true => feedAll ord s chunks
    | r => pure (s, r)

end Session
end Veda.Rtsp
