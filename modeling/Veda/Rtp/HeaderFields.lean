import Veda.Rtp.Packetizer

/-! Fields of an RTP header, read back from a packet. -/
namespace Veda.Rtp

/-- A property of bytes is checked on all 256 of them. -/
theorem forall_byte {p : UInt8 → Prop} (h : ∀ i : Fin 256, p (UInt8.ofFin i)) (b : UInt8) :
    p b := by
  simpa using h b.toFin

/-- The marker bit of a packet. -/
def markerOf (packet : Bytes) : Bool := packet.getD 1 0 &&& 0x80 ≠ 0

/-- The second byte of a packet is shared by the marker and the payload type. -/
theorem markerByte (marker : Bool) (payloadType : UInt8) :
    let b := (if marker then 0x80 else 0x00) ||| (payloadType &&& 0x7F)
    decide (b &&& 0x80 ≠ 0) = marker ∧ (b &&& 0x7F).toNat = payloadType.toNat % 128 := by
  revert payloadType
  apply forall_byte
  cases marker <;> decide +kernel

theorem markerOf_buildPacket (hdr : Header) (payload : Bytes) :
    markerOf (buildPacket hdr payload) = hdr.marker :=
  (markerByte hdr.marker hdr.payloadType).1

/-- The four bytes from `i` on, big-endian. -/
def wordAt (packet : Bytes) (i : Nat) : UInt32 :=
  UInt32.ofNat (16777216 * (packet.getD i 0).toNat + 65536 * (packet.getD (i + 1) 0).toNat +
    256 * (packet.getD (i + 2) 0).toNat + (packet.getD (i + 3) 0).toNat)

def timestampOf (packet : Bytes) : UInt32 := wordAt packet 4

def ssrcOf (packet : Bytes) : UInt32 := wordAt packet 8

theorem bytes_word (x : UInt32) :
    UInt32.ofNat (16777216 * ((x >>> 24) &&& 0xFF).toUInt8.toNat +
      65536 * ((x >>> 16) &&& 0xFF).toUInt8.toNat +
      256 * ((x >>> 8) &&& 0xFF).toUInt8.toNat + (x &&& 0xFF).toUInt8.toNat) = x := by
  apply UInt32.toNat_inj.mp
  have hlt := x.toNat_lt
  have hbyte : ∀ y : UInt32, (y &&& 0xFF).toUInt8.toNat = y.toNat % 256 := by
    intro y
    rw [UInt32.toNat_toUInt8, UInt32.toNat_and, show (0xFF : UInt32).toNat = 2 ^ 8 - 1 from rfl,
      Nat.and_two_pow_sub_one_eq_mod]
    omega
  have hshift : ∀ k : UInt32, (x >>> k).toNat = x.toNat / 2 ^ (k.toNat % 32) := by
    intro k
    rw [UInt32.toNat_shiftRight, Nat.shiftRight_eq_div_pow]
  simp only [hbyte, hshift, UInt32.toNat_ofNat']
  change (16777216 * (x.toNat / 2 ^ 24 % 256) + 65536 * (x.toNat / 2 ^ 16 % 256) +
    256 * (x.toNat / 2 ^ 8 % 256) + x.toNat % 256) % 2 ^ 32 = x.toNat
  omega

theorem timestampOf_buildPacket (hdr : Header) (payload : Bytes) :
    timestampOf (buildPacket hdr payload) = hdr.timestamp :=
  bytes_word hdr.timestamp

theorem ssrcOf_buildPacket (hdr : Header) (payload : Bytes) :
    ssrcOf (buildPacket hdr payload) = hdr.ssrc :=
  bytes_word hdr.ssrc

end Veda.Rtp
