import Veda.Media.PictureClock

/-!
The marker bit against the frames of the stream. A streamer marks the last packet of each NAL,
so the marks are those of the frames exactly where every NAL is a frame.
-/
namespace Veda.Media

open Rtp

/-- A packet is marked exactly if it is the last of a slice, which ends its frame. -/
def MarksFrames (nals : List Bytes) (packets : List (List Bytes)) : Prop :=
  ∀ (i j : Nat) nal ps p, nals[i]? = some nal → packets[i]? = some ps → ps[j]? = some p →
    (markerOf p = true ↔ isVcl nal = true ∧ j + 1 = ps.length)

variable {st : Streamer} {sequence : UInt16} {inc vcl i j : Nat} {nals ps : List Bytes}
  {p : Bytes}

theorem tried_all {outcome : Nat → Bool} (h : ∀ n, outcome n = true) (n : Nat)
    (frags : List Bytes) : tried outcome n frags = frags := by
  induction frags generalizing n with
  | nil => rfl
  | cons f fs ih => rw [tried, if_pos (h n), ih]

/-- What the streamer does, whatever the NAL is: its last packet carries the mark. -/
theorem packetsPerNal_marker (h : Tracks st sequence inc vcl)
    (hsent : ∀ n, st.socket.outcome n = true) (hn : ∀ nal ∈ nals, nal ≠ [])
    (hi : (packetsPerNal (UInt32.ofNat inc) st nals)[i]? = some ps) (hj : ps[j]? = some p) :
    markerOf p = true ↔ j + 1 = ps.length := by
  induction nals generalizing st vcl i with
  | nil => simp [packetsPerNal] at hi
  | cons nal nals ih =>
    have hnal : nal ≠ [] := hn nal (by simp)
    rw [packetsPerNal_cons h hnal] at hi
    cases i with
    | zero =>
      rw [List.getElem?_cons_zero, Option.some.injEq, attemptsFor_packets h, tried_all hsent] at hi
      subst hi
      rw [List.getElem?_mapIdx] at hj
      obtain ⟨f, _, rfl⟩ := Option.map_eq_some_iff.mp hj
      rw [markerOf_buildPacket, List.length_mapIdx]
      simp
    | succ i =>
      rw [List.getElem?_cons_succ] at hi
      refine ih (tracks_deliver h hnal) ?_ (fun x hx => hn x (by simp [hx])) hi
      rwa [deliver_outcome h.connected hnal]

theorem marksFrames_of_vcl (h : Tracks st sequence inc vcl)
    (hsent : ∀ n, st.socket.outcome n = true) (hn : ∀ nal ∈ nals, nal ≠ [])
    (hvcl : ∀ nal ∈ nals, isVcl nal = true) :
    MarksFrames nals (packetsPerNal (UInt32.ofNat inc) st nals) := by
  intro i j nal ps p hi hps hp
  rw [packetsPerNal_marker h hsent hn hps hp]
  exact (and_iff_right (hvcl nal (List.mem_of_getElem? hi))).symm

/-- The last packet of a NAL that is no slice is marked all the same. -/
theorem vcl_of_marksFrames (h : Tracks st sequence inc vcl)
    (hsent : ∀ n, st.socket.outcome n = true) (hn : ∀ nal ∈ nals, nal ≠ [])
    (hmarks : MarksFrames nals (packetsPerNal (UInt32.ofNat inc) st nals)) :
    ∀ nal ∈ nals, isVcl nal = true := by
  intro nal hnal
  obtain ⟨i, hi⟩ := List.mem_iff_getElem?.mp hnal
  obtain ⟨ps, hps⟩ := exists_packets (UInt32.ofNat inc) st hi
  have hpos := List.length_pos_iff.mpr (packetsPerNal_get h hn hps).1
  obtain ⟨p, hlast⟩ : ∃ p, ps[ps.length - 1]? = some p :=
    ⟨_, List.getElem?_eq_getElem (by omega)⟩
  have hmark := (packetsPerNal_marker h hsent hn hps hlast).mpr (by omega)
  exact ((hmarks i _ nal ps _ hi hps hlast).mp hmark).1

section Run
variable {σ : Type} [DecidableEq σ] (fps : Int) (ssrc : σ → UInt32) (seq : σ → UInt16)
  (outcome : σ → Nat → Bool) {ops : List (HubOp σ)} {s : σ}

/-- A subscriber all of whose sends succeed marks the ends of frames, and nothing else, exactly
if no other NAL than a slice is broadcast to it. -/
theorem marksFrames_iff (hs : subscriptions s ops ≤ 1) (hsent : ∀ n, outcome s n = true) :
    ((HubRun.initial fps ssrc seq outcome).run ops).packets s =
      (packetsPerNal (tsIncrementOf fps) (newStreamer (ssrc s) (seq s) (outcome s))
        (window s false ops)).flatten ∧
    (MarksFrames (window s false ops)
        (packetsPerNal (tsIncrementOf fps) (newStreamer (ssrc s) (seq s) (outcome s))
          (window s false ops)) ↔
      ∀ nal ∈ window s false ops, isVcl nal = true) := by
  have htracks : Tracks (newStreamer (ssrc s) (seq s) (outcome s)) (seq s)
      (tsIncrementOf fps).toNat 0 := tracks_newStreamer (ssrc s) (seq s) (outcome s)
  have hnals : ∀ nal ∈ window s false ops, nal ≠ [] := window_ne_nil
  have hframes := vcl_of_marksFrames htracks hsent hnals
  have hmarks := marksFrames_of_vcl htracks hsent hnals
  rw [UInt32.ofNat_toNat] at hframes hmarks
  exact ⟨run_packetsPerNal fps ssrc seq outcome hs, hframes, hmarks⟩

end Run

/-- Two frames and nothing else. -/
theorem marksFrames_iff_two_frames :
    MarksFrames [[101, 0x88], [65, 0x9a]]
      [[buildPacket { sequence := 65535, timestamp := 0, ssrc := 7, marker := true } [101, 0x88]],
       [buildPacket { sequence := 0, timestamp := 3000, ssrc := 7, marker := true }
          [65, 0x9a]]] := by
  have hs : subscriptions () [.subscribe () true, .onNal [101, 0x88], .onNal [65, 0x9a]] ≤ 1 := by
    decide
  exact (marksFrames_iff 30 (fun _ => 7) (fun _ => 65535) (fun _ _ => true) hs
    (fun _ => rfl)).2.mpr (by decide)

/-- One frame with a parameter set in front, the packet of which is marked as well. -/
theorem parameter_set_marked :
    ((HubRun.initial 30 (fun _ => 7) (fun _ => 65535) (fun _ _ => true)).run
      [.subscribe () true, .onNal [103, 66], .onNal [101, 0x88]]).packets () =
      [ buildPacket { sequence := 65535, timestamp := 0, ssrc := 7, marker := true } [103, 66],
        buildPacket { sequence := 0, timestamp := 0, ssrc := 7, marker := true } [101, 0x88] ] ∧
    ¬ MarksFrames [[103, 66], [101, 0x88]]
      (packetsPerNal (tsIncrementOf 30) (newStreamer 7 65535 fun _ => true)
        [[103, 66], [101, 0x88]]) := by
  refine ⟨by decide +kernel, ?_⟩
  intro h
  have hmark := (h 0 0 [103, 66] _ _ rfl rfl rfl).mp (by decide +kernel)
  exact absurd hmark.1 (by decide)

end Veda.Media
