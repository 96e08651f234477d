import Veda.Cpp

/-! Splitting a NAL into RTP payloads. -/
namespace Veda.Rtp

def kDefaultMtu : Nat := 1400

/-- One FU-A fragment: indicator, header, then a piece of the NAL after its first byte. -/
def fuFragment (nalHeader : UInt8) (isFirst isLast : Bool) (chunk : Bytes) : Bytes :=
  let nalType := nalHeader &&& 0x1F
  let fnri := nalHeader &&& 0xE0
  let fuIndicator := fnri ||| 28
  let fuHeader := if isFirst then nalType ||| 0x80 else nalType
  let fuHeader := if isLast then fuHeader ||| 0x40 else fuHeader
  fuIndicator :: fuHeader :: chunk

/-- The fragmentation loop from a given offset on, by the payload that is left. `none` means
that `fuel` rounds were not enough. -/
def fragmentLoop (nalHeader : UInt8) (maxPayload : Nat) :
    Nat → Bool → Bytes → Option (List Bytes)
  | _, _, [] => some []
  | 0, _, _ :: _ => none
  | fuel + 1, isFirst, payload =>
    let chunkSize := min maxPayload payload.length
    let isLast := chunkSize ≥ payload.length
    (fragmentLoop nalHeader maxPayload fuel false (payload.drop chunkSize)).map
      (fuFragment nalHeader isFirst isLast (payload.take chunkSize) :: ·)

/-- `mtu - 2` in `std::size_t`. -/
def maxPayloadPerFragment (mtu : Nat) : Nat := (mtu + 2 ^ 64 - 2) % 2 ^ 64

/-- `fragment_nal` with at most `fuel` rounds of its loop. -/
def fragmentNalWithin (fuel : Nat) (nal : Bytes) (mtu : Nat) : Option (List Bytes) :=
  match nal with
  | [] => some []
  | nalHeader :: payload =>
    if nal.length ≤ mtu then some [nal]
    else fragmentLoop nalHeader (maxPayloadPerFragment mtu) fuel true payload

/-- A round that makes progress takes a byte at least, so that a loop with more rounds than
bytes never ends. -/
def fragmentNal (nal : Bytes) (mtu : Nat) : Option (List Bytes) :=
  fragmentNalWithin nal.length nal mtu

theorem fragmentLoop_isSome {nalHeader : UInt8} {maxPayload : Nat} (hm : 0 < maxPayload)
    {fuel : Nat} {isFirst : Bool} {payload : Bytes} (hf : payload.length ≤ fuel) :
    (fragmentLoop nalHeader maxPayload fuel isFirst payload).isSome := by
  induction fuel generalizing isFirst payload with
  | zero =>
    have : payload = [] := List.length_eq_zero_iff.mp (by omega)
    simp [this, fragmentLoop]
  | succ fuel ih =>
    cases payload with
    | nil => simp [fragmentLoop]
    | cons b bs =>
      simp only [fragmentLoop, Option.isSome_map]
      apply ih
      simp only [List.length_drop, List.length_cons] at hf ⊢
      omega

theorem maxPayloadPerFragment_eq {mtu : Nat} (h : 3 ≤ mtu) (h64 : mtu < 2 ^ 64) :
    maxPayloadPerFragment mtu = mtu - 2 := by
  unfold maxPayloadPerFragment
  omega

/-- The loop ends for every mtu that leaves room for a payload byte. -/
theorem fragmentNal_isSome {nal : Bytes} {mtu : Nat} (h : 3 ≤ mtu) (h64 : mtu < 2 ^ 64) :
    (fragmentNal nal mtu).isSome := by
  unfold fragmentNal fragmentNalWithin
  cases nal with
  | nil => rfl
  | cons b bs =>
    dsimp only
    split
    · rfl
    · rw [maxPayloadPerFragment_eq h h64]
      exact fragmentLoop_isSome (by omega) (by simp)

theorem fragmentNal_default_isSome (nal : Bytes) : (fragmentNal nal kDefaultMtu).isSome :=
  fragmentNal_isSome (by decide) (by decide)

/-- `fragment_nal(nal, nal_len)` with the default mtu, where it always returns. -/
def fragmentNalDefault (nal : Bytes) : List Bytes :=
  (fragmentNal nal kDefaultMtu).get (fragmentNal_default_isSome nal)

end Veda.Rtp
