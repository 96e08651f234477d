import Veda.Rtp.Receiver

/-!
RTP packets as a receiver reads them. What is decoded from a packet is what it was built from,
so no two packets are the same.
-/
namespace Veda.Rtp

/-- The fields of a packet. `payload` is what follows the fixed header and the CSRC list. -/
structure Packet where
  version : Nat
  padding : Bool
  extension : Bool
  csrcCount : Nat
  marker : Bool
  payloadType : Nat
  sequence : UInt16
  timestamp : UInt32
  ssrc : UInt32
  payload : Bytes
  deriving DecidableEq

/-- The layout of RFC 3550; `none` for less than a header. -/
def decode (packet : Bytes) : Option Packet :=
  if packet.length < 12 then none
  else
    let first := packet.getD 0 0
    let csrcCount := (first &&& 0x0F).toNat
    some
      { version := (first >>> 6).toNat
        padding := first &&& 0x20 ≠ 0
        extension := first &&& 0x10 ≠ 0
        csrcCount
        marker := markerOf packet
        payloadType := (packet.getD 1 0 &&& 0x7F).toNat
        sequence := sequenceOf packet
        timestamp := timestampOf packet
        ssrc := ssrcOf packet
        payload := packet.drop (12 + 4 * csrcCount) }

/-- The packet that a header and a payload stand for: no padding, no extension, no CSRC. -/
def Header.packet (hdr : Header) (payload : Bytes) : Packet where
  version := 2
  padding := false
  extension := false
  csrcCount := 0
  marker := hdr.marker
  payloadType := hdr.payloadType.toNat % 128
  sequence := hdr.sequence
  timestamp := hdr.timestamp
  ssrc := hdr.ssrc
  payload

variable {hdr hdr' : Header} {payload payload' : Bytes}

theorem buildPacket_length (hdr : Header) (payload : Bytes) :
    (buildPacket hdr payload).length = 12 + payload.length := by
  rw [buildPacket, List.length_append, writeHeader_length]
  rfl

theorem payloadType_buildPacket (hdr : Header) (payload : Bytes) :
    ((buildPacket hdr payload).getD 1 0 &&& 0x7F).toNat = hdr.payloadType.toNat % 128 :=
  (markerByte hdr.marker hdr.payloadType).2

/-- A packet decodes to the header and the payload that it was built from. -/
theorem decode_build (hdr : Header) (payload : Bytes) :
    decode (buildPacket hdr payload) = some (hdr.packet payload) := by
  have hlong : ¬ (buildPacket hdr payload).length < 12 := by
    rw [buildPacket_length]
    omega
  have hfirst : (buildPacket hdr payload).getD 0 0 = 0x80 := rfl
  have hversion : ((0x80 : UInt8) >>> 6).toNat = 2 ∧ ((0x80 : UInt8) &&& 0x20) = 0 ∧
      ((0x80 : UInt8) &&& 0x10) = 0 ∧ ((0x80 : UInt8) &&& 0x0F).toNat = 0 := by
    decide
  have hpayload : (buildPacket hdr payload).drop 12 = payload := rfl
  rw [decode, if_neg hlong, payloadType_buildPacket, markerOf_buildPacket, sequenceOf_buildPacket,
    timestampOf_buildPacket, ssrcOf_buildPacket, hfirst]
  simp only [hversion, hpayload, ne_eq, not_true_eq_false, decide_false, Nat.mul_zero,
    Nat.add_zero, Header.packet]

/-- A payload type that fits into its seven bits is not changed. -/
theorem header_ext (ht : hdr.payloadType < 128) (ht' : hdr'.payloadType < 128)
    (hmarker : hdr.marker = hdr'.marker)
    (htype : hdr.payloadType.toNat % 128 = hdr'.payloadType.toNat % 128)
    (hsequence : hdr.sequence = hdr'.sequence) (htimestamp : hdr.timestamp = hdr'.timestamp)
    (hssrc : hdr.ssrc = hdr'.ssrc) : hdr = hdr' := by
  have hlt : hdr.payloadType.toNat < 128 := UInt8.lt_iff_toNat_lt.mp ht
  have hlt' : hdr'.payloadType.toNat < 128 := UInt8.lt_iff_toNat_lt.mp ht'
  have hsame : hdr.payloadType = hdr'.payloadType := by
    apply UInt8.toNat_inj.mp
    rwa [Nat.mod_eq_of_lt hlt, Nat.mod_eq_of_lt hlt'] at htype
  obtain ⟨payloadType, sequence, timestamp, ssrc, marker⟩ := hdr
  obtain ⟨payloadType', sequence', timestamp', ssrc', marker'⟩ := hdr'
  simp_all

theorem buildPacket_inj (ht : hdr.payloadType < 128) (ht' : hdr'.payloadType < 128)
    (h : buildPacket hdr payload = buildPacket hdr' payload') :
    hdr = hdr' ∧ payload = payload' := by
  have hsame := congrArg decode h
  rw [decode_build, decode_build, Option.some.injEq, Header.packet, Header.packet,
    Packet.mk.injEq] at hsame
  obtain ⟨-, -, -, -, hmarker, htype, hsequence, htimestamp, hssrc, hpayload⟩ := hsame
  exact ⟨header_ext ht ht' hmarker htype hsequence htimestamp hssrc, hpayload⟩

/-- RTP packets decode to what was put in, and from a header whose payload type has seven bits
and its payload comes a packet of their own. -/
theorem buildPacket_decodes (hdr : Header) (payload : Bytes) :
    (buildPacket hdr payload).length = 12 + payload.length ∧
    decode (buildPacket hdr payload) = some (hdr.packet payload) ∧
    ∀ hdr' payload', hdr.payloadType < 128 → hdr'.payloadType < 128 →
      buildPacket hdr payload = buildPacket hdr' payload' → hdr = hdr' ∧ payload = payload' := by
  refine ⟨buildPacket_length hdr payload, decode_build hdr payload, ?_⟩
  intro hdr' payload' ht ht' h
  exact buildPacket_inj ht ht' h

end Veda.Rtp
