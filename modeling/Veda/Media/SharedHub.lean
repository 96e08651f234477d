import Veda.Lib.AtomicObject
import Veda.Media.FanOut
import Veda.Media.HubLifecycle

/-!
The Hub under its threads together with the streamers that it serves, as an object with calls:
every interleaving looks to its callers as if each call had taken effect at one point.
-/
namespace Veda.Media

open AtomicObject Rtp Transitions

/-- The calls that threads make on the Hub: `on_nal` by the pump, the others by the control
thread. -/
inductive HubCall (σ : Type)
  | subscribe (s : Option σ)
  | unsubscribe (s : σ)
  | spropParameterSets
  | onNal (nal : Bytes)

namespace HubCall

variable {σ : Type}

def Res : HubCall σ → Type
  | subscribe _ => Bool
  | unsubscribe _ => Unit
  | spropParameterSets => Bytes
  | onNal _ => Unit

/-- What the call does under the mutex. -/
def ops : (c : HubCall σ) → c.Res → List (HubOp σ)
  | subscribe (some s), ok => [.subscribe s ok]
  | subscribe none, _ => []
  | unsubscribe s, _ => [.unsubscribe s]
  | spropParameterSets, _ => []
  | onNal nal, _ => [.onNal nal]

/-- The result that the call may have. -/
def Allowed (hub : Hub σ) : (c : HubCall σ) → c.Res → Prop
  | subscribe none, ok => ok = false
  | spropParameterSets, sprop => sprop = hub.spropParameterSets
  | _, _ => True

end HubCall

abbrev HubEvent (σ : Type) := Event Owner (HubCall σ) HubCall.Res

/-- One call after the other, each in one step. -/
def HubRun.spec {σ : Type} [DecidableEq σ] : Sequential (HubRun σ) (HubCall σ) HubCall.Res :=
  fun r c r' => c.1.Allowed r.hub c.2 ∧ r' = r.run (c.1.ops c.2)

structure SharedHub (σ : Type) where
  threads : Threads σ
  mem : σ → Streamer
  /-- A call of `sprop_parameter_sets`, with its result once it has held the mutex. -/
  asking : Option (Option Bytes) := none

namespace SharedHub

variable {σ : Type}

/-- The calls that begin or end with a step of the threads. A callback with an empty NAL returns
before it looks at the Hub. -/
def events (s : Threads σ) (l : Threads.Label σ) (t : Threads σ) : List (HubEvent σ) :=
  match l with
  | .callSubscribe x => [.invoke .control (.subscribe (some x))]
  | .returnSubscribe (some x) ok => [.respond .control (.subscribe (some x)) ok]
  | .returnSubscribe none ok =>
    [.invoke .control (.subscribe none), .respond .control (.subscribe none) ok]
  | .callUnsubscribe x => [.invoke .control (.unsubscribe x)]
  | .returnUnsubscribe x => [.respond .control (.unsubscribe x) ()]
  | .pump u =>
    match s.pump u, t.pump u with
    | .reading, .wantLock nal => [.invoke (.pump u) (.onNal nal)]
    | .sending nal _, .reading => [.respond (.pump u) (.onNal nal) ()]
    | _, _ => []
  | _ => []

/-- `send_nal` and `advance_timestamp` on one streamer. -/
def memAfter [DecidableEq σ] (s : Threads σ) (l : Threads.Label σ) (mem : σ → Streamer) :
    σ → Streamer :=
  match l with
  | .send u x =>
    match s.pump u with
    | .sending nal _ => Function.update mem x (Hub.deliver s.hub.tsIncrement nal (mem x))
    | _ => mem
  | _ => mem

/-- A step that the control thread makes from outside the Hub. -/
def begins : Threads.Label σ → Bool
  | .callSubscribe _ => true
  | .returnSubscribe none _ => true
  | .callUnsubscribe _ => true
  | .callDestroy => true
  | _ => false

inductive Step [DecidableEq σ] : SharedHub σ → List (HubEvent σ) → SharedHub σ → Prop
  | threads {s : SharedHub σ} {l : Threads.Label σ} {t : Threads σ} : s.threads.Step l t →
      (begins l = true → s.asking = none) →
      Step s (events s.threads l t) { s with threads := t, mem := memAfter s.threads l s.mem }
  | callSprop {s : SharedHub σ} : s.threads.control = .idle → s.asking = none →
      Step s [.invoke .control .spropParameterSets] { s with asking := some none }
  /-- The part of `sprop_parameter_sets` that holds the mutex. -/
  | readSprop {s : SharedHub σ} : s.asking = some none → s.threads.mutex = none →
      Step s [] { s with asking := some (some s.threads.hub.spropParameterSets) }
  | returnSprop {s : SharedHub σ} {sprop : Bytes} : s.asking = some (some sprop) →
      Step s [.respond .control .spropParameterSets sprop] { s with asking := none }

/-- The Hub after its constructor, with the streamers as `handle_play` hands them over. -/
def Initial (ssrc : σ → UInt32) (sequence : σ → UInt16) (outcome : σ → Nat → Bool)
    (s : SharedHub σ) : Prop :=
  s.threads.Initial ∧ s.asking = none ∧
    s.mem = fun x => newStreamer (ssrc x) (sequence x) (outcome x)

/-- Invariants of the Hub and of the calls on it. -/
structure Sound (s : SharedHub σ) : Prop where
  threads : s.threads.Sound
  outside : s.asking ≠ none → s.threads.control = .idle
  nonempty : ∀ u nal, s.threads.pump u = .wantLock nal → nal ≠ []

/-- What a step does to the list, the slots and the streamers, seen as a section under the mutex:
a broadcast counts as a whole when it takes the mutex. -/
def point (s : Threads σ) : Threads.Label σ → List (HubOp σ)
  | .control =>
    match s.control with
    | .subscribe .push x => [.subscribe x true]
    | .subscribe .reset x => [.subscribe x false]
    | .unsubscribe .erase x => [.unsubscribe x]
    | _ => []
  | .pump u =>
    match s.pump u with
    | .wantLock nal => [.onNal nal]
    | _ => []
  | _ => []

/-- The sections run one after the other are ahead of the Hub by the streamers that a broadcast
has still to serve. -/
structure Ahead [DecidableEq σ] (r : HubRun σ) (s : SharedHub σ) : Prop where
  hub : r.hub = s.threads.hub
  settled : (∀ u, (s.threads.pump u).sends = false) → r.mem = s.mem
  sending : ∀ u nal todo, s.threads.pump u = .sending nal todo →
    r.mem = Hub.broadcast s.threads.hub.tsIncrement nal todo s.mem

section Data
variable [DecidableEq σ] {s t : SharedHub σ} {r : HubRun σ}

omit [DecidableEq σ] in
/-- While the control thread holds the mutex nobody sends. -/
theorem Sound.quiet (hs : s.Sound) (h : s.threads.mutex = none ∨ s.threads.control.holds = true)
    (u : Nat) : (s.threads.pump u).sends = false := by
  by_contra hu
  have hm := (hs.threads.locking.sender u).mpr (by simpa using hu)
  rcases h with h | h
  · simp [h] at hm
  · simp [hs.threads.locking.owner.mpr h] at hm

omit [DecidableEq σ] in
theorem Sound.sender (hs : s.Sound) {u v : Nat} (hu : (s.threads.pump u).sends = true)
    (hv : (s.threads.pump v).sends = true) : v = u := by
  have hmutex := (hs.threads.locking.sender u).mpr hu
  rw [(hs.threads.locking.sender v).mpr hv] at hmutex
  cases hmutex
  rfl

omit [DecidableEq σ] in
/-- No call of `sprop_parameter_sets` is on while the control thread is in another. -/
theorem Sound.not_asking (hs : s.Sound) (h : s.threads.control ≠ .idle) : s.asking = none := by
  by_contra hasking
  exact h (hs.outside hasking)

theorem sound_step {events : List (HubEvent σ)} (h : Step s events t) (hs : s.Sound) :
    t.Sound := by
  obtain ⟨hthreads, houtside, hnonempty⟩ := hs
  cases h with
  | threads hstep hbegins =>
    refine ⟨Threads.sound_step _ _ _ hstep hthreads, ?_, ?_⟩
    · intro hasking
      have hidle := houtside hasking
      cases hstep <;> simp_all [begins]
    · cases hstep <;> grind -ring -linarith
  | callSprop hidle hasking => exact ⟨hthreads, fun _ => hidle, hnonempty⟩
  | readSprop hasking hmutex => exact ⟨hthreads, fun _ => houtside (by simp [hasking]), hnonempty⟩
  | returnSprop hasking => exact ⟨hthreads, by simp, hnonempty⟩

/-- A step away from the list, the slots and the streamers. -/
theorem Ahead.aside (ha : Ahead r s) (hhub : t.threads.hub = s.threads.hub)
    (hmem : t.mem = s.mem) (hsends : ∀ u, (t.threads.pump u).sends = true ∨
      (s.threads.pump u).sends = true → t.threads.pump u = s.threads.pump u) : Ahead r t := by
  refine ⟨ha.hub.trans hhub.symm, ?_, ?_⟩
  · intro hquiet
    rw [hmem]
    refine ha.settled fun u => ?_
    by_contra hu
    rw [Bool.not_eq_false] at hu
    have hsame := hsends u (.inr hu)
    rw [← hsame, hquiet u] at hu
    cases hu
  · intro u nal todo hu
    have hsame := hsends u (.inl (by simp [hu, PumpPc.sends]))
    rw [hhub, hmem]
    exact ha.sending u nal todo (hsame ▸ hu)

/-- A pump moves away from the data. -/
theorem Ahead.pump (ha : Ahead r s) {u : Nat} {pc : PumpPc σ} (pc' : PumpPc σ)
    {threads : Threads σ} (hp : s.threads.pump u = pc) (hpc : pc.sends = false)
    (hpc' : pc'.sends = false) (hhub : threads.hub = s.threads.hub)
    (hpump : threads.pump = (s.threads.setPump u pc').pump) : Ahead r { s with threads } := by
  refine ha.aside hhub rfl ?_
  intro v hv
  simp only [hpump, Threads.setPump_pump] at hv ⊢
  by_cases hvu : v = u
  · subst hvu
    simp [hp, hpc, hpc'] at hv
  · rw [if_neg hvu]

/-- The control thread changes the list while it holds the mutex. -/
theorem Ahead.change (ha : Ahead r s) (hs : s.Sound) (hholds : s.threads.control.holds = true)
    {r' : HubRun σ} {threads : Threads σ} (hpump : threads.pump = s.threads.pump)
    (hhub : r'.hub = threads.hub) (hmem : r'.mem = r.mem) : Ahead r' { s with threads } := by
  have hquiet := hs.quiet (.inr hholds)
  refine ⟨hhub, fun _ => hmem.trans (ha.settled hquiet), ?_⟩
  intro u nal todo hu
  have hsends := hquiet u
  rw [← hpump, hu] at hsends
  cases hsends

/-- A broadcast takes effect as it takes the mutex, for all its streamers at once. -/
theorem Ahead.lock (ha : Ahead r s) (hs : s.Sound) {u : Nat} {nal : Bytes}
    (hp : s.threads.pump u = .wantLock nal) (hmutex : s.threads.mutex = none) :
    Ahead (r.step (.onNal nal)) { s with
      threads := { s.threads.setPump u (.sending nal s.threads.hub.subscribers) with
        mutex := some (.pump u), hub := s.threads.hub.cacheParameterSets nal } } := by
  have hnal := hs.nonempty u nal hp
  have hquiet := hs.quiet (.inl hmutex)
  have hmem := ha.settled hquiet
  refine ⟨?_, ?_, ?_⟩
  · simp [HubRun.step, Hub.onNal, hnal, ha.hub]
  · intro hsends
    have hu := hsends u
    simp [PumpPc.sends] at hu
  · intro v nal' todo hv
    by_cases hvu : v = u
    · subst hvu
      simp only [Threads.setPump_pump, if_true, PumpPc.sending.injEq] at hv
      obtain ⟨rfl, rfl⟩ := hv
      simp [HubRun.step, Hub.onNal, hnal, ha.hub, hmem]
    · have hsends := hquiet v
      simp only [Threads.setPump_pump, if_neg hvu] at hv
      simp [hv, PumpPc.sends] at hsends

/-- One more streamer has been served: the broadcast has that much less to catch up with. -/
theorem Ahead.send (ha : Ahead r s) (hs : s.Sound) {u : Nat} {nal : Bytes} {x : σ}
    {todo : List σ} (hp : s.threads.pump u = .sending nal (x :: todo)) : Ahead r { s with
      threads := s.threads.setPump u (.sending nal todo)
      mem := Function.update s.mem x
        (Hub.deliver s.threads.hub.tsIncrement nal (s.mem x)) } := by
  have hsends : (s.threads.pump u).sends = true := by
    simp only [hp, PumpPc.sends]
  refine ⟨ha.hub, ?_, ?_⟩
  · intro hquiet
    have hu := hquiet u
    simp [PumpPc.sends] at hu
  · intro v nal' todo' hv
    by_cases hvu : v = u
    · subst hvu
      simp only [Threads.setPump_pump, if_true, PumpPc.sending.injEq] at hv
      obtain ⟨rfl, rfl⟩ := hv
      exact ha.sending v nal (x :: todo) hp
    · simp only [Threads.setPump_pump, if_neg hvu] at hv
      exact absurd (hs.sender hsends (by simp [hv, PumpPc.sends])) hvu

/-- The end of a broadcast: the Hub has caught up. -/
theorem Ahead.unlock (ha : Ahead r s) (hs : s.Sound) {u : Nat} {nal : Bytes}
    (hp : s.threads.pump u = .sending nal []) : Ahead r { s with
      threads := { s.threads.setPump u .reading with mutex := none } } := by
  have hsends : (s.threads.pump u).sends = true := by
    simp only [hp, PumpPc.sends]
  refine ⟨ha.hub, fun _ => ha.sending u nal [] hp, ?_⟩
  intro v nal' todo hv
  by_cases hvu : v = u
  · simp [hvu] at hv
  · simp only [Threads.setPump_pump, if_neg hvu] at hv
    exact absurd (hs.sender hsends (by simp [hv, PumpPc.sends])) hvu

theorem Ahead.served (ha : Ahead r s) {x : σ}
    (hx : ∀ u nal todo, s.threads.pump u = .sending nal todo → x ∉ todo) :
    r.mem x = s.mem x := by
  by_cases hsends : ∀ u, (s.threads.pump u).sends = false
  · rw [ha.settled hsends]
  · push Not at hsends
    obtain ⟨u, hu⟩ := hsends
    cases hp : s.threads.pump u with
    | sending nal todo =>
      rw [ha.sending u nal todo hp, Hub.broadcast_apply,
        List.count_eq_zero_of_not_mem (hx u nal todo hp)]
      rfl
    | _ => simp [hp, PumpPc.sends] at hu

/-- The data follow the sections, whatever the threads do. -/
theorem ahead_step {l : Threads.Label σ} {threads : Threads σ} (h : s.threads.Step l threads)
    (hs : s.Sound) (ha : Ahead r s) : Ahead (r.run (point s.threads l))
      { s with threads, mem := memAfter s.threads l s.mem } := by
  cases h with
  | subscribeReset hc =>
    simp only [point, hc]
    exact ha.change hs (by simp [hc, ControlPc.holds]) rfl ha.hub rfl
  | subscribePush hc =>
    simp only [point, hc]
    exact ha.change hs (by simp [hc, ControlPc.holds]) rfl
      (by simp [HubRun.run, HubRun.step, ha.hub]) rfl
  | unsubscribeErase hc =>
    simp only [point, hc]
    exact ha.change hs (by simp [hc, ControlPc.holds]) rfl
      (by simp [HubRun.run, HubRun.step, ha.hub]) rfl
  | pumpLock hp hmutex =>
    simp only [point, hp]
    exact ha.lock hs hp hmutex
  | pumpSend hp =>
    simp only [point, memAfter, hp]
    exact ha.send hs hp
  | pumpUnlock hp =>
    simp only [point, hp]
    exact ha.unlock hs hp
  | @pumpNal u nal hp _ =>
    simp only [point, hp]
    exact ha.pump (.wantLock nal) hp rfl rfl rfl rfl
  | pumpEmptyNal hp =>
    simp only [point, hp]
    exact ha
  | pumpTest hp _ =>
    simp only [point, hp]
    exact ha.pump .reading hp rfl rfl rfl rfl
  | pumpQuit hp _ =>
    simp only [point, hp]
    exact ha.pump (.left false) hp rfl rfl rfl rfl
  | pumpRead hp =>
    simp only [point, hp]
    exact ha.pump .test hp rfl rfl rfl rfl
  | pumpEof hp =>
    simp only [point, hp]
    exact ha.pump .ended hp rfl rfl rfl rfl
  | pumpBreak hp =>
    simp only [point, hp]
    exact ha.pump (.left true) hp rfl rfl rfl rfl
  | @pumpStop u eof hp =>
    simp only [point, hp]
    exact ha.pump (.stopped eof) hp rfl rfl rfl rfl
  | @pumpStore u eof hp =>
    simp only [point, hp]
    exact ha.pump (.done eof) hp rfl rfl rfl rfl
  | subscribeSpawn hc =>
    have habsent := hs.threads.handles.absent _ (Nat.le_refl s.threads.spawned)
    simp only [point, hc]
    exact ha.pump .test habsent rfl rfl rfl rfl
  | subscribeNull _ => exact ha
  | callSubscribe _ _ => exact ha.aside rfl rfl fun _ _ => rfl
  | subscribeLeave _ => exact ha.aside rfl rfl fun _ _ => rfl
  | callUnsubscribe _ _ => exact ha.aside rfl rfl fun _ _ => rfl
  | unsubscribeNoJoin _ _ => exact ha.aside rfl rfl fun _ _ => rfl
  | unsubscribeJoin _ _ _ => exact ha.aside rfl rfl fun _ _ => rfl
  | callDestroy _ => exact ha.aside rfl rfl fun _ _ => rfl
  -- the other steps of the control thread only move it inside its call
  | _ =>
    simp only [point, *]
    exact ha.aside rfl rfl fun _ _ => rfl

end Data

end SharedHub
end Veda.Media
