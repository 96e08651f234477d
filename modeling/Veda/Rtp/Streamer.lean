import Veda.Rtp.H264Fua
import Veda.Rtp.Packetizer

/-! The streamer: RTP state of one client and its UDP socket. -/
namespace Veda.Rtp

/-- A datagram handed to the socket, and whether `send` took it. -/
structure Attempt where
  packet : Bytes
  sent : Bool
  deriving DecidableEq

/-- A socket answers its `i`-th `send` by `outcome i`: `false` is a negative result. -/
structure UdpSocket where
  outcome : Nat → Bool
  attempts : List Attempt := []

def UdpSocket.send (socket : UdpSocket) (packet : Bytes) : Bool × UdpSocket :=
  let sent := socket.outcome socket.attempts.length
  (sent, { socket with attempts := socket.attempts ++ [⟨packet, sent⟩] })

structure Streamer where
  socket : UdpSocket
  connected : Bool := false
  sequence : UInt16
  timestamp : UInt32 := 0
  ssrc : UInt32
  payloadType : UInt8 := 96

namespace Streamer

/-- `Streamer::Streamer` with the two values its random generators return. -/
def create (ssrc : UInt32) (sequence : UInt16) (outcome : Nat → Bool) : Streamer :=
  { socket := { outcome }, ssrc, sequence }

/-- `connect`, where `connectTo` is the result of `UdpSocket::connect_to`. -/
def connect (st : Streamer) (connectTo : Bool) : Bool × Streamer :=
  if connectTo then (true, { st with connected := true }) else (false, st)

def nextHeader (st : Streamer) (isLast : Bool) : Header where
  payloadType := st.payloadType
  sequence := st.sequence
  timestamp := st.timestamp
  ssrc := st.ssrc
  marker := isLast

/-- The loop over the fragments; it stops at the first send that fails. -/
def sendFragments (st : Streamer) : List Bytes → Bool × Streamer
  | [] => (true, st)
  | payload :: rest =>
    let packet := buildPacket (st.nextHeader rest.isEmpty) payload
    let st := { st with sequence := st.sequence + 1 }
    let (sent, socket) := st.socket.send packet
    let st := { st with socket }
    if sent then st.sendFragments rest else (false, st)

def sendNal (st : Streamer) (nal : Bytes) : Bool × Streamer :=
  if st.connected = false ∨ nal = [] then (false, st)
  else
    let fragments := fragmentNalDefault nal
    if fragments = [] then (false, st) else st.sendFragments fragments

def advanceTimestamp (st : Streamer) (increment : UInt32) : Streamer :=
  { st with timestamp := st.timestamp + increment }

/-- `send_nal` on one NAL after another, with the results in order. -/
def sendAll (st : Streamer) : List Bytes → List Bool × Streamer
  | [] => ([], st)
  | nal :: nals =>
    let (ok, st) := st.sendNal nal
    let (oks, st) := st.sendAll nals
    (ok :: oks, st)

/-- The datagrams that went out, in order. -/
def sentPackets (st : Streamer) : List Bytes :=
  (st.socket.attempts.filter (·.sent)).map (·.packet)

end Streamer
end Veda.Rtp
