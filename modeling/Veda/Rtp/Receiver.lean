import Mathlib.Data.Fintype.Basic
import Veda.Rtp.Delivery
import Veda.Rtp.HeaderFields

/-!
An RFC 6184 receiver, and the round trip through it. Whatever the receiver has pending, the
packets of one `send_nal` leave it with that NAL or with nothing, so failures never mix NALs.
-/
namespace Veda.Rtp

/-- Sequence number of a packet: bytes 2 and 3, big-endian. -/
def sequenceOf (packet : Bytes) : UInt16 :=
  UInt16.ofNat (256 * (packet.getD 2 0).toNat + (packet.getD 3 0).toNat)

/-- A NAL under reassembly: the bodies so far and the sequence number of the last fragment. -/
structure Chain where
  body : Bytes
  last : UInt16
  deriving DecidableEq

/-- Body that a fragment is appended to: empty at a start, the open chain's if the fragment
follows it without a gap. -/
def Chain.resume (chain : Option Chain) (isStart : Bool) (sequence : UInt16) : Option Bytes :=
  if isStart then some []
  else match chain with
    | some c => if sequence = c.last + 1 then some c.body else none
    | none => none

/-- One FU-A fragment. -/
def receiveFragment (chain : Option Chain) (sequence : UInt16) (indicator fuHeader : UInt8)
    (chunk : Bytes) : Option Chain × List Bytes :=
  match Chain.resume chain (fuHeader &&& 0x80 ≠ 0) sequence with
  | none => (none, [])
  | some body =>
    if fuHeader &&& 0x40 ≠ 0 then
      (none, [((indicator &&& 0xE0) ||| (fuHeader &&& 0x1F)) :: (body ++ chunk)])
    else (some ⟨body ++ chunk, sequence⟩, [])

/-- One packet: the chain afterwards and the NALs it completes. -/
def receive (chain : Option Chain) (packet : Bytes) : Option Chain × List Bytes :=
  match packet.drop kRtpHeaderSize with
  | [] => (chain, [])
  | first :: rest =>
    let type := first &&& 0x1F
    if 1 ≤ type ∧ type ≤ 23 then (chain, [first :: rest])
    else if type = 28 then
      match rest with
      | [] => (chain, [])
      | fuHeader :: chunk => receiveFragment chain (sequenceOf packet) first fuHeader chunk
    else (chain, [])

def receiveAll (chain : Option Chain) : List Bytes → Option Chain × List Bytes
  | [] => (chain, [])
  | packet :: packets =>
    let (chain, out) := receive chain packet
    let (chain, outs) := receiveAll chain packets
    (chain, out ++ outs)

/-- A NAL that can be sent as it is or in fragments. -/
def Sendable (nal : Bytes) : Prop :=
  nal ≠ [] ∧ 1 ≤ nal.headD 0 &&& 0x1F ∧ nal.headD 0 &&& 0x1F ≤ 23

instance (nal : Bytes) : Decidable (Sendable nal) := inferInstanceAs (Decidable (_ ∧ _))

/-- The packets among `as` that went out. -/
def sentOf (as : List Attempt) : List Bytes := (as.filter (·.sent)).map (·.packet)

variable {hdr : Header} {outcome : Nat → Bool} {n : Nat} {chain : Option Chain}
  {b : UInt8} {isFirst isLast : Bool} {chunk body : Bytes} {chunks : List Bytes}

theorem receiveAll_append (ps qs : List Bytes) : receiveAll chain (ps ++ qs) =
    ((receiveAll (receiveAll chain ps).1 qs).1,
      (receiveAll chain ps).2 ++ (receiveAll (receiveAll chain ps).1 qs).2) := by
  induction ps generalizing chain with
  | nil => rfl
  | cons p ps ih => simp [receiveAll, ih]

theorem sentOf_append (as bs : List Attempt) : sentOf (as ++ bs) = sentOf as ++ sentOf bs := by
  simp [sentOf]

theorem fuIndicator_type (b : UInt8) : ((b &&& 0xE0) ||| 28) &&& 0x1F = 28 := by
  revert b
  apply forall_byte
  decide +kernel

theorem fuHeader_bits (isFirst isLast : Bool) (b : UInt8) :
    let fuHeader := if isLast then (if isFirst then (b &&& 0x1F) ||| 0x80 else b &&& 0x1F) ||| 0x40
      else if isFirst then (b &&& 0x1F) ||| 0x80 else b &&& 0x1F
    (decide (fuHeader &&& 0x80 ≠ 0) = isFirst) ∧ (decide (fuHeader &&& 0x40 ≠ 0) = isLast) ∧
      (((b &&& 0xE0) ||| 28) &&& 0xE0) ||| (fuHeader &&& 0x1F) = b := by
  revert b
  apply forall_byte
  cases isFirst <;> cases isLast <;> decide +kernel

theorem low_byte (x : UInt16) : (x &&& 0xFF).toUInt8.toNat = x.toNat % 256 := by
  rw [UInt16.toNat_toUInt8, UInt16.toNat_and, show (0xFF : UInt16).toNat = 2 ^ 8 - 1 from rfl,
    Nat.and_two_pow_sub_one_eq_mod]
  omega

theorem high_byte (x : UInt16) : (x >>> 8).toNat = x.toNat / 256 := by
  rw [UInt16.toNat_shiftRight, Nat.shiftRight_eq_div_pow]
  rfl

theorem sequenceOf_buildPacket (payload : Bytes) :
    sequenceOf (buildPacket hdr payload) = hdr.sequence := by
  apply UInt16.toNat_inj.mp
  have hlt := hdr.sequence.toNat_lt
  simp only [sequenceOf, buildPacket, writeHeader, List.cons_append, List.getD_cons_succ,
    List.getD_cons_zero, UInt16.toNat_ofNat', low_byte, high_byte]
  omega

/-- A fragment that starts a NAL, or that continues the open chain without a gap. -/
theorem receive_fuFragment (hdr : Header) (b : UInt8) (isLast : Bool) (chunk : Bytes)
    (h : Chain.resume chain isFirst hdr.sequence = some body) :
    receive chain (buildPacket hdr (fuFragment b isFirst isLast chunk)) =
      if isLast then (none, [b :: (body ++ chunk)])
      else (some ⟨body ++ chunk, hdr.sequence⟩, []) := by
  obtain ⟨hs, he, hb⟩ := fuHeader_bits isFirst isLast b
  have hdrop : (buildPacket hdr (fuFragment b isFirst isLast chunk)).drop kRtpHeaderSize =
      fuFragment b isFirst isLast chunk := rfl
  rw [receive, hdrop]
  simp only [fuFragment, fuIndicator_type, show ¬ (28 : UInt8) ≤ 23 by decide, and_false,
    if_false, if_true]
  rw [receiveFragment, sequenceOf_buildPacket, hs, h]
  simp only [hb]
  cases isLast <;> simp_all

/-- The fragments after the first, on the chain that the first has opened. -/
theorem receive_chain_tail (hdr : Header) (outcome : Nat → Bool) (n : Nat) (b : UInt8)
    (body : Bytes) (hne : chunks ≠ []) :
    ∃ chain', receiveAll (some ⟨body, hdr.sequence - 1⟩)
        (sentOf (attemptsOf hdr outcome n (fuChain b false chunks))) =
      (chain', if (attemptsOf hdr outcome n (fuChain b false chunks)).all (·.sent) then
        [b :: (body ++ chunks.flatten)] else []) := by
  induction chunks generalizing hdr n body with
  | nil => exact (hne rfl).elim
  | cons c cs ih =>
    have hres : Chain.resume (some ⟨body, hdr.sequence - 1⟩) false hdr.sequence = some body := by
      simp [Chain.resume]
    cases hsent : outcome n with
    | false =>
      refine ⟨some ⟨body, hdr.sequence - 1⟩, ?_⟩
      simp [fuChain, attemptsOf, hsent, sentOf, receiveAll]
    | true =>
      rcases List.eq_nil_or_concat cs with rfl | hcs
      · refine ⟨none, ?_⟩
        have hr := receive_fuFragment { hdr with marker := true } b true c hres
        simp [fuChain, attemptsOf, hsent, sentOf, receiveAll, hr]
      · have hcs : cs ≠ [] := by
          obtain ⟨l, x, rfl⟩ := hcs
          simp
        have hr := receive_fuFragment { hdr with marker := false } b false c hres
        obtain ⟨chain', ih⟩ := ih { hdr with sequence := hdr.sequence + 1 } (n + 1) (body ++ c) hcs
        refine ⟨chain', ?_⟩
        have hm : cs.isEmpty = false := by simpa using hcs
        have hm' : (fuChain b false cs).isEmpty = false := by
          obtain ⟨x, xs, rfl⟩ := List.exists_cons_of_ne_nil hcs
          rfl
        simp only [UInt16.add_sub_cancel] at ih
        simp only [fuChain, attemptsOf, hsent, sentOf, hm, hm', if_true, List.filter_cons_of_pos,
          List.map_cons, receiveAll, List.all_cons, Bool.true_and, List.flatten_cons] at hr ih ⊢
        simp only [hr, Bool.false_eq_true, if_false, ih, List.nil_append, List.append_assoc]

/-- The packets of one NAL give the NAL if all of them went out, and nothing otherwise. -/
theorem receive_nal (hdr : Header) (outcome : Nat → Bool) (n : Nat) {nal : Bytes}
    (h : Sendable nal) (chain : Option Chain) :
    ∃ chain', receiveAll chain (sentOf (attemptsOf hdr outcome n (fragmentNalDefault nal))) =
      (chain', if (attemptsOf hdr outcome n (fragmentNalDefault nal)).all (·.sent) then [nal]
        else []) := by
  obtain ⟨hne, ht1, ht2⟩ := h
  obtain ⟨b, bs, rfl⟩ := List.exists_cons_of_ne_nil hne
  cases hsent : outcome n with
  | false =>
    obtain ⟨f, fs, hf⟩ := List.exists_cons_of_ne_nil (fragmentNalDefault_ne_nil hne)
    exact ⟨chain, by simp [hf, attemptsOf, hsent, sentOf, receiveAll]⟩
  | true =>
    rcases fragmentNalDefault_cases b bs with hf | ⟨c₁, c₂, cs, hf, hflat⟩
    · refine ⟨chain, ?_⟩
      have hr : receive chain (buildPacket { hdr with marker := true } (b :: bs)) =
          (chain, [b :: bs]) := by
        simp only [List.headD_cons] at ht1 ht2
        simp [receive, buildPacket, writeHeader, kRtpHeaderSize, ht1, ht2]
      simp [hf, attemptsOf, hsent, sentOf, receiveAll, hr]
    · have hres : Chain.resume chain true hdr.sequence = some [] := rfl
      have hr := receive_fuFragment { hdr with marker := false } b false c₁ hres
      have hne : c₂ :: cs ≠ [] := by simp
      obtain ⟨chain', ht⟩ := receive_chain_tail { hdr with sequence := hdr.sequence + 1 } outcome
        (n + 1) b c₁ hne
      refine ⟨chain', ?_⟩
      simp only [UInt16.add_sub_cancel, sentOf] at ht
      rw [hf, ← hflat]
      simp only [fuChain, attemptsOf, hsent, sentOf, List.isEmpty_cons, if_true,
        List.filter_cons_of_pos, List.map_cons, receiveAll, List.all_cons, Bool.true_and] at hr ht ⊢
      simp only [hr, Bool.false_eq_true, if_false, ht, List.nil_append, List.flatten_cons]

end Veda.Rtp
