import Veda.Rtsp.Atomicity

/-!
The ports that a SETUP negotiates. A single port is followed by its successor and a range is
checked at its beginning only, so both ports are real ones if the header says so itself.
-/
namespace Veda.Rtsp

open Cpp

variable {transport text : Bytes} {rtpPort rtcpPort port port' : Int}

instance : Decidable (ValidPort port) := inferInstanceAs (Decidable (_ ∧ _))

/-- The evaluation overflows nowhere, and both ports of an accepted header are real ports. -/
def TransportResult.Sound (r : TransportResult) : Prop :=
  r.overflow = false ∧ (r.ok = true → ValidPort r.rtpPort ∧ ValidPort r.rtcpPort)

instance (r : TransportResult) : Decidable r.Sound := inferInstanceAs (Decidable (_ ∧ _))

/-- A single port has a successor that is a port or is no port itself, and a range that begins
with a port ends with one. -/
def RealPorts (transport : Bytes) : Prop :=
  ∀ text, clientPortText transport = some text →
    match find [45] text with
    | none => ∀ port, stoi text = .ok port → port ≠ 65535 ∧ port ≠ intMax
    | some dash => ∀ port, stoi (text.take dash) = .ok port →
        ∀ port', stoi (text.drop (dash + 1)) = .ok port' → ValidPort port → ValidPort port'

theorem inRange_iff : (decide (port > 0) && decide (port ≤ 65535)) = true ↔ ValidPort port := by
  simp only [ValidPort, Bool.and_eq_true, decide_eq_true_eq, gt_iff_lt]

/-- The only `int` whose successor is none. -/
theorem addOverflows_one (h : port ≤ intMax) :
    addOverflows port 1 = false ↔ port ≠ intMax ∧ intMin ≤ port + 1 := by
  simp only [addOverflows, Bool.or_eq_false_iff, decide_eq_false_iff_not]
  omega

theorem intAdd_one (h : ValidPort port) : intAdd port 1 = port + 1 := by
  obtain ⟨hpos, hmax⟩ := h
  rw [intAdd]
  exact Int.bmod_eq_of_le (by omega) (by omega)

theorem single_sound_iff (h : stoi text = .ok port) :
    (addOverflows port 1 = false ∧
      (ValidPort port → ValidPort port ∧ ValidPort (intAdd port 1))) ↔
    port ≠ 65535 ∧ port ≠ intMax := by
  obtain ⟨hmin, hmax⟩ := stoi_range h
  rw [addOverflows_one hmax]
  constructor
  · rintro ⟨⟨hne, -⟩, hvalid⟩
    refine ⟨?_, hne⟩
    rintro rfl
    have hport : ValidPort 65535 := by decide
    exact absurd (hvalid hport).2 (by decide)
  · rintro ⟨hlast, hne⟩
    refine ⟨⟨hne, by omega⟩, ?_⟩
    intro hport
    rw [intAdd_one hport]
    refine ⟨hport, ?_⟩
    obtain ⟨hpos, hle⟩ := hport
    exact ⟨by omega, by omega⟩

/-- Negotiated ports are real ports, and finding them overflows nowhere, exactly for the headers
that give real ports. -/
theorem parseTransport_sound_iff (transport : Bytes) (rtpPort rtcpPort : Int) :
    (parseTransport transport rtpPort rtcpPort).Sound ↔ RealPorts transport := by
  unfold parseTransport RealPorts TransportResult.Sound
  cases clientPortText transport with
  | none => simp
  | some text =>
    simp only [Option.some.injEq, forall_eq']
    cases find [45] text with
    | none =>
      cases hport : stoi text with
      | error e => simp
      | ok port =>
        simp only [Except.ok.injEq, forall_eq', inRange_iff]
        exact single_sound_iff hport
    | some dash =>
      dsimp only
      cases stoi (text.take dash) with
      | error e => simp
      | ok port =>
        cases stoi (text.drop (dash + 1)) with
        | error e => simp
        | ok port' =>
          simp only [Except.ok.injEq, forall_eq', inRange_iff, true_and]
          constructor
          · intro h hport
            exact (h hport).2
          · intro h hport
            exact ⟨hport, h hport⟩

/-- The greatest `int` has no successor, the greatest port none that is a port, and the end of a
range is not checked. -/
theorem client_ports_unchecked :
    ¬ (parseTransport (ascii "RTP/AVP;unicast;client_port=2147483647") 0 0).Sound ∧
    ¬ (parseTransport (ascii "RTP/AVP;unicast;client_port=65535") 0 0).Sound ∧
    ¬ (parseTransport (ascii "RTP/AVP;unicast;client_port=5000-0") 0 0).Sound := by
  decide +kernel

end Veda.Rtsp
