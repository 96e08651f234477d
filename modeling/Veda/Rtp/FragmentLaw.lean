import Veda.Rtp.Receiver

/-!
The law of FU-A fragmentation: what the fragments of one NAL look like byte by byte, and how
the NAL is rebuilt from them, for every length and every mtu that leaves room for a payload.
-/
namespace Veda.Rtp

variable {b : UInt8} {isFirst : Bool} {mtu i : Nat} {nal f chunk : Bytes}
  {chunks frags : List Bytes}

/-- The NAL header that is split over the two header bytes of a fragment. -/
def splitHeader (f : Bytes) : UInt8 := (f.getD 0 0 &&& 0xE0) ||| (f.getD 1 0 &&& 0x1F)

/-- The second byte of fragment `i` of `n`: the type of the NAL, R clear, S on the first
fragment only and E on the last only. -/
structure FuHeader (nalHeader : UInt8) (i n : Nat) (fuHeader : UInt8) : Prop where
  type : fuHeader &&& 0x1F = nalHeader &&& 0x1F
  reserved : fuHeader &&& 0x20 = 0
  start : fuHeader &&& 0x80 ≠ 0 ↔ i = 0
  stop : fuHeader &&& 0x40 ≠ 0 ↔ i + 1 = n
  notBoth : ¬ (fuHeader &&& 0x80 ≠ 0 ∧ fuHeader &&& 0x40 ≠ 0)

/-- The fragments of a NAL that is longer than `mtu`. -/
structure FuaFragments (nal : Bytes) (mtu : Nat) (frags : List Bytes) : Prop where
  several : 2 ≤ frags.length
  size : ∀ f ∈ frags, 3 ≤ f.length ∧ f.length ≤ mtu
  indicator : ∀ f ∈ frags, f[0]? = some ((nal.headD 0 &&& 0xE0) ||| 28)
  header : ∀ i f, frags[i]? = some f →
    ∃ fuHeader, f[1]? = some fuHeader ∧ FuHeader (nal.headD 0) i frags.length fuHeader
  rebuilt : ∀ f ∈ frags, splitHeader f :: frags.flatMap (·.drop 2) = nal

theorem fuChain_length : (fuChain b isFirst chunks).length = chunks.length := by
  induction chunks generalizing isFirst with
  | nil => rfl
  | cons c cs ih => simp [fuChain, ih]

/-- The fragment over the `i`-th chunk. -/
theorem fuChain_getElem : (fuChain b isFirst chunks)[i]? =
    chunks[i]?.map (fuFragment b (isFirst && i == 0) (i + 1 == chunks.length)) := by
  induction chunks generalizing isFirst i with
  | nil => rfl
  | cons c cs ih =>
    cases i with
    | zero => cases cs <;> simp [fuChain]
    | succ i => simp [fuChain, ih]

theorem fuChain_bodies : (fuChain b isFirst chunks).flatMap (·.drop 2) = chunks.flatten := by
  induction chunks generalizing isFirst with
  | nil => rfl
  | cons c cs ih =>
    rw [fuChain, List.flatMap_cons, ih]
    rfl

/-- The bits of the second byte of a fragment. -/
theorem fuFragment_header (b : UInt8) (isFirst isLast : Bool) (chunk : Bytes) :
    ∃ fuHeader, (fuFragment b isFirst isLast chunk)[1]? = some fuHeader ∧
      fuHeader &&& 0x1F = b &&& 0x1F ∧ fuHeader &&& 0x20 = 0 ∧
      (fuHeader &&& 0x80 ≠ 0 ↔ isFirst = true) ∧ (fuHeader &&& 0x40 ≠ 0 ↔ isLast = true) := by
  refine ⟨_, rfl, ?_⟩
  revert b
  apply forall_byte
  cases isFirst <;> cases isLast <;> decide +kernel

theorem fuFragment_splitHeader (isFirst isLast : Bool) :
    splitHeader (fuFragment b isFirst isLast chunk) = b :=
  (fuHeader_bits isFirst isLast b).2.2

/-- Each fragment of a chain stands over one of the chunks. -/
theorem mem_fuChain (hf : f ∈ fuChain b isFirst chunks) : ∃ isFirst isLast c, c ∈ chunks ∧
    f = fuFragment b isFirst isLast c := by
  obtain ⟨i, hi⟩ := List.mem_iff_getElem?.mp hf
  rw [fuChain_getElem, Option.map_eq_some_iff] at hi
  obtain ⟨c, hc, rfl⟩ := hi
  exact ⟨_, _, c, List.mem_of_getElem? hc, rfl⟩

/-- A chain of at least two fragments over non-empty chunks. -/
theorem fuChain_fragments (hlen : 2 ≤ chunks.length)
    (hsize : ∀ c ∈ chunks, 0 < c.length ∧ c.length + 2 ≤ mtu) :
    FuaFragments (b :: chunks.flatten) mtu (fuChain b true chunks) := by
  refine ⟨by rwa [fuChain_length], ?_, ?_, ?_, ?_⟩
  · intro f hf
    obtain ⟨isFirst, isLast, c, hc, rfl⟩ := mem_fuChain hf
    have := hsize c hc
    simp only [fuFragment, List.length_cons]
    omega
  · intro f hf
    obtain ⟨isFirst, isLast, c, -, rfl⟩ := mem_fuChain hf
    rfl
  · intro i f hi
    rw [fuChain_getElem, Option.map_eq_some_iff] at hi
    obtain ⟨c, -, rfl⟩ := hi
    rw [fuChain_length]
    obtain ⟨fuHeader, hsecond, htype, hreserved, hstart, hstop⟩ :=
      fuFragment_header b (true && i == 0) (i + 1 == chunks.length) c
    simp only [Bool.true_and, beq_iff_eq] at hstart hstop
    refine ⟨fuHeader, hsecond, htype, hreserved, hstart, hstop, ?_⟩
    rintro ⟨hs, he⟩
    have hfirst := hstart.mp hs
    have hlast := hstop.mp he
    omega
  · intro f hf
    obtain ⟨isFirst, isLast, c, -, rfl⟩ := mem_fuChain hf
    rw [fuFragment_splitHeader, fuChain_bodies]

/-- FU-A fragmentation, for every NAL and every mtu of type `size_t` from 3 on: the call
returns; a NAL that fits travels alone, and a longer one is cut into at least two fragments
from which it is rebuilt. -/
theorem fragmentNal_law (nal : Bytes) (mtu : Nat) (hn : nal ≠ []) (h3 : 3 ≤ mtu)
    (h64 : mtu < 2 ^ 64) : ∃ frags, fragmentNal nal mtu = some frags ∧
      (nal.length ≤ mtu → frags = [nal]) ∧
      (mtu < nal.length → FuaFragments nal mtu frags) := by
  have hsome : (fragmentNal nal mtu).isSome := fragmentNal_isSome h3 h64
  obtain ⟨frags, hfrags⟩ := Option.isSome_iff_exists.mp hsome
  refine ⟨frags, hfrags, ?_, ?_⟩
  · intro hlen
    obtain ⟨b, payload, rfl⟩ := List.exists_cons_of_ne_nil hn
    rw [fragmentNal, fragmentNalWithin, if_pos hlen] at hfrags
    exact (Option.some.inj hfrags).symm
  · intro hlen
    obtain ⟨b, payload, rfl⟩ := List.exists_cons_of_ne_nil hn
    rw [fragmentNal, fragmentNalWithin, if_neg (by omega), maxPayloadPerFragment_eq h3 h64]
      at hfrags
    obtain ⟨chunks, rfl, rfl, hsize⟩ := fragmentLoop_chain (by omega) hfrags
    have hlong : 2 ≤ chunks.length := by
      by_contra hshort
      rcases chunks with _ | ⟨c, _ | ⟨c', cs⟩⟩
      · simp only [List.flatten_nil, List.length_cons, List.length_nil] at hlen
        omega
      · have := (hsize c (by simp)).2
        simp only [List.flatten_cons, List.flatten_nil, List.append_nil, List.length_cons] at hlen
        omega
      · simp only [List.length_cons] at hshort
        omega
    refine fuChain_fragments hlong fun c hc => ?_
    have := hsize c hc
    omega

/-- A NAL one byte longer than the mtu. -/
theorem fragmentNal_law_one_over : ∃ frags, fragmentNal [101, 1, 2, 3] 3 = some frags ∧
    FuaFragments [101, 1, 2, 3] 3 frags := by
  obtain ⟨frags, hfrags, -, hlaw⟩ :=
    fragmentNal_law [101, 1, 2, 3] 3 (by decide) (by decide) (by decide)
  exact ⟨frags, hfrags, hlaw (by decide)⟩

/-- The call returns after finitely many rounds, with fragments of at most `mtu` bytes. -/
def FragmentSafe (nal : Bytes) (mtu : Nat) : Prop :=
  ∃ fuel frags, fragmentNalWithin fuel nal mtu = some frags ∧ ∀ f ∈ frags, f.length ≤ mtu

theorem fuChain_size (hsize : ∀ c ∈ chunks, c.length + 2 ≤ mtu) :
    ∀ f ∈ fuChain b isFirst chunks, f.length ≤ mtu := by
  intro f hf
  obtain ⟨isFirst, isLast, c, hc, rfl⟩ := mem_fuChain hf
  have hlen := hsize c hc
  simp only [fuFragment, List.length_cons]
  omega

/-- Where a fragment has no room for payload, a round makes no progress. -/
theorem fragmentLoop_stuck {payload : Bytes} (h : payload ≠ []) (fuel : Nat) :
    fragmentLoop b 0 fuel isFirst payload = none := by
  induction fuel generalizing isFirst with
  | zero =>
    cases payload with
    | nil => exact absurd rfl h
    | cons c payload => rfl
  | succ fuel ih =>
    cases payload with
    | nil => exact absurd rfl h
    | cons c payload =>
      have hrest : fragmentLoop b 0 fuel false (c :: payload) = none := ih
      simp only [fragmentLoop, Nat.zero_min, List.drop_zero, hrest, Option.map_none]

theorem fragmentSafe_of_short (h : nal.length ≤ mtu) : FragmentSafe nal mtu := by
  cases nal with
  | nil => exact ⟨0, [], rfl, by simp⟩
  | cons b payload =>
    refine ⟨0, [b :: payload], if_pos h, ?_⟩
    rw [List.forall_mem_singleton]
    exact h

/-- A NAL that is nothing but its header is lost on the way, yet the call is safe. -/
theorem fragmentSafe_of_header (h : nal.length ≤ 1) : FragmentSafe nal mtu := by
  rcases nal with _ | ⟨b, _ | ⟨c, payload⟩⟩
  · exact fragmentSafe_of_short (Nat.zero_le mtu)
  · by_cases hmtu : 1 ≤ mtu
    · exact fragmentSafe_of_short hmtu
    · exact ⟨0, [], if_neg hmtu, by simp⟩
  · exact absurd h (by simp)

theorem fragmentSafe_of_room (h3 : 3 ≤ mtu) (h64 : mtu < 2 ^ 64) : FragmentSafe nal mtu := by
  by_cases hshort : nal.length ≤ mtu
  · exact fragmentSafe_of_short hshort
  · have hsome : (fragmentNal nal mtu).isSome := fragmentNal_isSome h3 h64
    obtain ⟨frags, hfrags⟩ := Option.isSome_iff_exists.mp hsome
    refine ⟨nal.length, frags, hfrags, ?_⟩
    cases nal with
    | nil => exact absurd (Nat.zero_le mtu) hshort
    | cons b payload =>
      rw [fragmentNal, fragmentNalWithin, if_neg hshort, maxPayloadPerFragment_eq h3 h64] at hfrags
      obtain ⟨chunks, rfl, -, hsize⟩ := fragmentLoop_chain (by omega) hfrags
      refine fuChain_size ?_
      intro c hc
      have hchunk := (hsize c hc).2
      omega

/-- With fewer than three bytes a fragment has no room: at 2 the loop makes no progress, and
below it `mtu - 2` wraps around and the fragments are longer than `mtu`. -/
theorem not_fragmentSafe (h3 : mtu < 3) (hlong : mtu < nal.length) (h1 : 1 < nal.length) :
    ¬ FragmentSafe nal mtu := by
  rintro ⟨fuel, frags, hfrags, hsmall⟩
  rcases nal with _ | ⟨b, payload⟩
  · cases h1
  · have hne : payload ≠ [] := by
      rintro rfl
      exact absurd h1 (by simp)
    rw [fragmentNalWithin, if_neg (Nat.not_le.mpr hlong)] at hfrags
    by_cases htwo : mtu = 2
    · subst htwo
      have hstuck : fragmentLoop b (maxPayloadPerFragment 2) fuel true payload = none :=
        fragmentLoop_stuck hne fuel
      rw [hstuck] at hfrags
      cases hfrags
    · have hroom : 0 < maxPayloadPerFragment mtu := by
        unfold maxPayloadPerFragment
        omega
      obtain ⟨chunks, rfl, rfl, -⟩ := fragmentLoop_chain hroom hfrags
      cases chunks with
      | nil => exact hne rfl
      | cons c chunks =>
        have hfirst := hsmall (fuFragment b true chunks.isEmpty c) List.mem_cons_self
        simp only [fuFragment, List.length_cons] at hfirst
        omega

/-- `fragment_nal` ends and keeps to the mtu, for every value of a `size_t`, if and only if a
fragment has room for a byte of payload or there is nothing to cut. -/
theorem fragmentNal_safe_iff (nal : Bytes) (mtu : UInt64) : FragmentSafe nal mtu.toNat ↔
    3 ≤ mtu.toNat ∨ nal.length ≤ mtu.toNat ∨ nal.length ≤ 1 := by
  constructor
  · intro hsafe
    by_contra hnot
    obtain ⟨h3, hlong, h1⟩ : mtu.toNat < 3 ∧ mtu.toNat < nal.length ∧ 1 < nal.length := by omega
    exact not_fragmentSafe h3 hlong h1 hsafe
  · rintro (h3 | hshort | h1)
    · exact fragmentSafe_of_room h3 mtu.toNat_lt
    · exact fragmentSafe_of_short hshort
    · exact fragmentSafe_of_header h1

/-- One byte over each of the three mtus without room. -/
theorem fragmentNal_no_room : ¬ FragmentSafe [101, 1] (0 : UInt64).toNat ∧
    ¬ FragmentSafe [101, 1] (1 : UInt64).toNat ∧ ¬ FragmentSafe [101, 1, 2] (2 : UInt64).toNat := by
  refine ⟨?_, ?_, ?_⟩
  · exact not_fragmentSafe (by decide) (by decide) (by decide)
  · exact not_fragmentSafe (by decide) (by decide) (by decide)
  · exact not_fragmentSafe (by decide) (by decide) (by decide)

end Veda.Rtp
