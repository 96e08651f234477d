import Mathlib.Algebra.Order.Field.Basic
import Mathlib.Algebra.Order.Ring.Rat
import Mathlib.Tactic.FieldSimp
import Mathlib.Tactic.Ring
import Veda.Media.FanOut
import Veda.Media.Playback

/-!
The RTP clock against the pacing clock. Each advances by a quotient cut off at the unit of its
own clock, and what is cut off adds up from frame to frame.
-/
namespace Veda.Media

open Rtp FileSource

/-- Ticks of the 90 kHz clock after some frames, before they are reduced to 32 bits. -/
def mediaTicks (fps : Int) (frames : Nat) : Nat := frames * (tsIncrementOf fps).toNat

/-- Microseconds by which the next frame is put off after some frames. -/
def pacingMicros (fps : Int) (frames : Nat) : Int :=
  frames * (1000000 / (FileSource.create fps true).fps)

/-- The two clocks, in seconds, are less than one frame period apart. -/
def ClocksTogether (fps : Int) (frames : Nat) : Prop :=
  |(mediaTicks fps frames : ℚ) / 90000 - (pacingMicros fps frames : ℚ) / 1000000| < 1 / (fps : ℚ)

/-- What the two quotients cut off, in ninths of a microsecond for each period. -/
def drift (fps : Int) : Int := 9 * (1000000 % fps) - 100 * (90000 % fps)

section Clocks
variable {st : Streamer} {nal : Bytes} {fps : Int} {frames : Nat}

theorem sendNal_timestamp : (st.sendNal nal).2.timestamp = st.timestamp := by
  rw [Streamer.sendNal]
  split
  · rfl
  · dsimp only
    split
    · rfl
    · rw [sendFragments_eq]
      rfl

/-- A streamer's timestamp counts the frames it was given, whether they could be sent or not. -/
theorem foldl_deliver_timestamp (fps : Int) (nals : List Bytes) :
    (nals.foldl (fun st nal => Hub.deliver (tsIncrementOf fps) nal st) st).timestamp =
      st.timestamp + UInt32.ofNat (mediaTicks fps (nals.countP isVcl)) := by
  induction nals generalizing st with
  | nil => simp [mediaTicks]
  | cons nal nals ih =>
    have hone : (Hub.deliver (tsIncrementOf fps) nal st).timestamp =
        st.timestamp + UInt32.ofNat (mediaTicks fps (if isVcl nal then 1 else 0)) := by
      cases hvcl : isVcl nal <;>
        simp [Hub.deliver, hvcl, Streamer.advanceTimestamp, sendNal_timestamp, mediaTicks]
    rw [List.foldl_cons, ih, hone, UInt32.add_assoc, ← UInt32.ofNat_add, List.countP_cons]
    simp only [mediaTicks, Nat.add_mul, Nat.add_comm]

theorem isFrame_eq_isVcl (nal : Bytes) : isFrame nal = isVcl nal := rfl

/-- The next frame of a source that is read call by call is due after its frames so far. -/
theorem afterCalls_nextFrameTime {s : FileSource} (hs : s.fps = (create fps true).fps)
    {n : Nat} (hone : OnePerCall n s)
    (htrue : ∀ call ∈ FileSource.readCalls n s, call.result = true) :
    (afterCalls n s).nextFrameTime = s.nextFrameTime +
      pacingMicros fps ((delivered (FileSource.readCalls n s)).countP isVcl) := by
  have hframe : isFrame = isVcl := funext isFrame_eq_isVcl
  rw [paced_of_onePerCall hone htrue, hs, hframe, pacingMicros]

theorem tsIncrementOf_toNat (hfps : 1 ≤ fps) :
    ((tsIncrementOf fps).toNat : Int) = 90000 / fps := by
  have hpos : fps > 0 := by omega
  have hnonneg : 0 ≤ 90000 / fps := Int.ediv_nonneg (by decide) (by omega)
  have hle : 90000 / fps ≤ 90000 := Int.ediv_le_self fps (by decide)
  have hlt : (90000 / fps).toNat < UInt32.size := by
    change (90000 / fps).toNat < 4294967296
    omega
  rw [tsIncrementOf, if_pos hpos, UInt32.toNat_ofNat_of_lt' hlt, Int.toNat_of_nonneg hnonneg]

theorem pacingMicros_eq (hfps : 1 ≤ fps) : pacingMicros fps frames = frames * (1000000 / fps) := by
  have hpos : fps > 0 := by omega
  simp only [pacingMicros, create, if_pos hpos]

theorem quotient_eq (hfps : 1 ≤ fps) (n : Int) :
    ((n / fps : Int) : ℚ) = (n - (n % fps : Int)) / fps := by
  have hne : (fps : ℚ) ≠ 0 := by
    exact_mod_cast (by omega : fps ≠ 0)
  rw [eq_div_iff hne]
  have h := Int.ediv_mul_add_emod n fps
  exact_mod_cast eq_sub_of_add_eq h

/-- The distance of the two clocks in closed form. -/
theorem clocks_sub (hfps : 1 ≤ fps) (frames : Nat) :
    (mediaTicks fps frames : ℚ) / 90000 - (pacingMicros fps frames : ℚ) / 1000000 =
      frames * drift fps / (9000000 * fps) := by
  have hne : (fps : ℚ) ≠ 0 := by
    exact_mod_cast (by omega : fps ≠ 0)
  have hticks : ((tsIncrementOf fps).toNat : ℚ) = ((90000 / fps : Int) : ℚ) := by
    exact_mod_cast tsIncrementOf_toNat hfps
  rw [pacingMicros_eq hfps, mediaTicks, drift]
  push_cast [hticks, quotient_eq hfps]
  field_simp
  ring

theorem clocksTogether_drift (hfps : 1 ≤ fps) (frames : Nat) :
    ClocksTogether fps frames ↔ frames * |drift fps| < 9000000 := by
  have hpos : (0 : ℚ) < fps := by
    exact_mod_cast (by omega : 0 < fps)
  have hscale : |(frames : ℚ) * drift fps / (9000000 * fps)| =
      ((frames * |drift fps| : Int) : ℚ) / 9000000 / fps := by
    rw [abs_div, abs_mul, abs_of_pos (mul_pos (by norm_num) hpos), Nat.abs_cast, div_div]
    push_cast
    rfl
  rw [ClocksTogether, clocks_sub hfps, hscale, div_lt_div_iff_of_pos_right hpos,
    div_lt_one (by norm_num)]
  exact_mod_cast Iff.rfl

/-- Both quotients cut off nothing, or unlike amounts, by the remainder of 10000: 1000000 is 100
times and 90000 is 9 times that number. -/
theorem drift_eq_zero_iff (hfps : 1 ≤ fps) : drift fps = 0 ↔ 100 * (10000 % fps) < fps := by
  have hpos : 0 < fps := by omega
  have hremainder : ∀ k : Int, k * 10000 % fps = k * (10000 % fps) % fps := by
    intro k
    rw [Int.mul_emod, Int.mul_emod k (10000 % fps), Int.emod_emod]
  have hmicros := hremainder 100
  have hticks := hremainder 9
  norm_num only at hmicros hticks
  have hs := Int.emod_nonneg 10000 (by omega : fps ≠ 0)
  have hlt := Int.emod_lt_of_pos 10000 hpos
  rw [drift, hmicros, hticks]
  generalize 10000 % fps = s at hs hlt
  have ha := Int.mul_ediv_add_emod (100 * s) fps
  have hb := Int.mul_ediv_add_emod (9 * s) fps
  have ha₀ : 0 ≤ 100 * s / fps := Int.ediv_nonneg (by omega) (by omega)
  have hb₀ : 0 ≤ 9 * s / fps := Int.ediv_nonneg (by omega) (by omega)
  have ha₁ : 100 * s / fps < 100 := Int.ediv_lt_of_lt_mul hpos (by omega)
  have hb₁ : 9 * s / fps < 9 := Int.ediv_lt_of_lt_mul hpos (by omega)
  have hdrift : 9 * (100 * s % fps) - 100 * (9 * s % fps) =
      fps * (100 * (9 * s / fps) - 9 * (100 * s / fps)) := by
    rw [Int.emod_def, Int.emod_def]
    ring
  have hsmall : 100 * s / fps = 0 ↔ 100 * s < fps := by
    constructor
    · intro hzero
      have hmod := Int.emod_lt_of_pos (100 * s) hpos
      rw [hzero, Int.mul_zero, Int.zero_add] at ha
      omega
    · exact Int.ediv_eq_zero_of_lt (by omega)
  have hboth : 100 * s / fps = 0 → 9 * s / fps = 0 := by
    intro hzero
    have hless := hsmall.mp hzero
    exact Int.ediv_eq_zero_of_lt (by omega) (by omega)
  rw [hdrift, Int.mul_eq_zero, ← hsmall]
  omega

theorem clocksTogether_always (hfps : 1 ≤ fps) :
    (∀ frames, ClocksTogether fps frames) ↔ 100 * (10000 % fps) < fps := by
  rw [← drift_eq_zero_iff hfps]
  constructor
  · intro h
    have hmany := (clocksTogether_drift hfps 9000000).mp (h 9000000)
    by_contra hdrift
    have habs := Int.one_le_abs hdrift
    omega
  · intro hdrift frames
    rw [clocksTogether_drift hfps, hdrift]
    simp

end Clocks

/-- The clocks stay together for as long as what the two divisions cut off has not added up to
a period, and for ever only at a rate at which they cut off the same. -/
theorem clocksTogether_iff (fps : Int) (hfps : 1 ≤ fps ∧ fps ≤ 90000) :
    (∀ frames : Nat, ClocksTogether fps frames ↔
      frames * |9 * (1000000 % fps) - 100 * (90000 % fps)| < 9000000) ∧
    ((∀ frames : Nat, ClocksTogether fps frames) ↔ 100 * (10000 % fps) < fps) :=
  ⟨clocksTogether_drift hfps.1, clocksTogether_always hfps.1⟩

/-- At 30 frames per second the clocks are together for 55 minutes, and at 25 for ever. -/
theorem clocksTogether_iff_30 : (ClocksTogether 30 99999 ∧ ¬ ClocksTogether 30 100000) ∧
    ∀ frames : Nat, ClocksTogether 25 frames := by
  refine ⟨⟨?_, ?_⟩, ?_⟩
  · exact ((clocksTogether_iff 30 (by decide)).1 99999).mpr (by decide)
  · rw [(clocksTogether_iff 30 (by decide)).1 100000]
    decide
  · exact (clocksTogether_iff 25 (by decide)).2.mpr (by decide)

/-- At 30 frames per second the pacing gains a period in 100000 frames. -/
theorem clocks_apart_30 : ¬ ∀ fps : Int, 1 ≤ fps ∧ fps ≤ 90000 →
    ∀ frames : Nat, ClocksTogether fps frames := by
  intro h
  have hfar := (clocksTogether_drift (by decide) 100000).mp (h 30 (by decide) 100000)
  exact absurd hfar (by decide)

end Veda.Media
