import Veda.Cpp

/-! RTP packets. -/
namespace Veda.Rtp

structure Header where
  payloadType : UInt8 := 96
  sequence : UInt16 := 0
  timestamp : UInt32 := 0
  ssrc : UInt32 := 0
  marker : Bool := false
  deriving DecidableEq

def kRtpHeaderSize : Nat := 12

def writeHeader (h : Header) : Bytes :=
  [ 0x80,
    (if h.marker then 0x80 else 0x00) ||| (h.payloadType &&& 0x7F),
    ((h.sequence >>> 8) &&& 0xFF).toUInt8,
    (h.sequence &&& 0xFF).toUInt8,
    ((h.timestamp >>> 24) &&& 0xFF).toUInt8,
    ((h.timestamp >>> 16) &&& 0xFF).toUInt8,
    ((h.timestamp >>> 8) &&& 0xFF).toUInt8,
    (h.timestamp &&& 0xFF).toUInt8,
    ((h.ssrc >>> 24) &&& 0xFF).toUInt8,
    ((h.ssrc >>> 16) &&& 0xFF).toUInt8,
    ((h.ssrc >>> 8) &&& 0xFF).toUInt8,
    (h.ssrc &&& 0xFF).toUInt8 ]

def buildPacket (h : Header) (payload : Bytes) : Bytes := writeHeader h ++ payload

@[simp] theorem writeHeader_length (h : Header) : (writeHeader h).length = kRtpHeaderSize := rfl

end Veda.Rtp
