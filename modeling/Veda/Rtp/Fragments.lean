import Veda.Rtp.H264Fua

/-! The shape of a fragmented NAL: FU-A fragments over a cut of its payload. -/
namespace Veda.Rtp

variable {nalHeader : UInt8} {maxPayload mtu fuel : Nat} {isFirst : Bool}
  {payload nal : Bytes} {frags chunks : List Bytes}

/-- The FU-A fragments over given chunks: S on the first of a NAL, E on the last. -/
def fuChain (nalHeader : UInt8) : Bool → List Bytes → List Bytes
  | _, [] => []
  | isFirst, chunk :: chunks =>
    fuFragment nalHeader isFirst chunks.isEmpty chunk :: fuChain nalHeader false chunks

/-- The loop cuts the payload into pieces of at most `maxPayload` bytes. -/
theorem fragmentLoop_chain (hm : 0 < maxPayload)
    (h : fragmentLoop nalHeader maxPayload fuel isFirst payload = some frags) :
    ∃ chunks, frags = fuChain nalHeader isFirst chunks ∧ chunks.flatten = payload ∧
      ∀ c ∈ chunks, 0 < c.length ∧ c.length ≤ maxPayload := by
  induction fuel generalizing isFirst payload frags with
  | zero =>
    cases payload with
    | nil => cases h; exact ⟨[], rfl, rfl, by simp⟩
    | cons b bs => cases h
  | succ fuel ih =>
    cases payload with
    | nil => cases h; exact ⟨[], rfl, rfl, by simp⟩
    | cons b bs =>
      simp only [fragmentLoop, Option.map_eq_some_iff] at h
      obtain ⟨tail, ht, rfl⟩ := h
      obtain ⟨chunks, rfl, hflat, hlen⟩ := ih ht
      refine ⟨(b :: bs).take (min maxPayload (b :: bs).length) :: chunks, ?_, ?_, ?_⟩
      · have hlast : chunks = [] ↔ (b :: bs).length ≤ min maxPayload (b :: bs).length := by
          rw [← List.drop_eq_nil_iff, ← hflat]
          refine ⟨by rintro rfl; rfl, fun hf => ?_⟩
          by_contra hne
          obtain ⟨c, hc⟩ := List.exists_mem_of_ne_nil chunks hne
          have := (hlen c hc).1
          simp [List.flatten_eq_nil_iff.mp hf c hc] at this
        have hempty : chunks.isEmpty =
            decide ((b :: bs).length ≤ min maxPayload (b :: bs).length) := by
          rw [Bool.eq_iff_iff, List.isEmpty_iff, hlast, decide_eq_true_iff]
        simp only [fuChain, hempty, ge_iff_le]
      · rw [List.flatten_cons, hflat, List.take_append_drop]
      · intro c hc
        rcases List.mem_cons.mp hc with rfl | hc
        · rw [List.length_take, List.length_cons]
          omega
        · exact hlen c hc

/-- A short NAL travels alone; a long one is a chain of at least two fragments. -/
theorem fragmentNalDefault_cases (b : UInt8) (bs : Bytes) :
    fragmentNalDefault (b :: bs) = [b :: bs] ∨
    ∃ c₁ c₂ cs, fragmentNalDefault (b :: bs) = fuChain b true (c₁ :: c₂ :: cs) ∧
      (c₁ :: c₂ :: cs).flatten = bs := by
  have hsome : fragmentNal (b :: bs) kDefaultMtu = some (fragmentNalDefault (b :: bs)) := by
    simp [fragmentNalDefault]
  generalize fragmentNalDefault (b :: bs) = frags at hsome ⊢
  simp only [fragmentNal, fragmentNalWithin] at hsome
  split at hsome
  · exact Or.inl (Option.some.inj hsome).symm
  · rename_i hlong
    rw [maxPayloadPerFragment_eq (by decide) (by decide)] at hsome
    obtain ⟨chunks, rfl, hflat, hlen⟩ := fragmentLoop_chain (by decide) hsome
    right
    simp only [List.length_cons, kDefaultMtu] at hlong hlen
    rcases chunks with _ | ⟨c₁, _ | ⟨c₂, cs⟩⟩
    · subst hflat
      simp at hlong
    · have := (hlen c₁ (by simp)).2
      simp only [List.flatten_cons, List.flatten_nil, List.append_nil] at hflat
      subst hflat
      omega
    · exact ⟨c₁, c₂, cs, rfl, hflat⟩

theorem fragmentNalDefault_ne_nil (h : nal ≠ []) : fragmentNalDefault nal ≠ [] := by
  obtain ⟨b, bs, rfl⟩ := List.exists_cons_of_ne_nil h
  rcases fragmentNalDefault_cases b bs with he | ⟨c₁, c₂, cs, he, -⟩ <;> simp [he, fuChain]

end Veda.Rtp
