import Mathlib.Algebra.BigOperators.Group.Finset.Basic
import Mathlib.Algebra.Order.BigOperators.Group.Finset
import Veda.Media.FileHub

/-!
Progress of the Hub: the control thread is never stuck in a call, and once `running_` is cleared
by a thread that waits for the pump, the wait is bounded and the source is not read again.
-/
namespace Veda.Media

open Transitions

variable {σ : Type}

namespace PumpPc

/-- The steps of a pump that finds `running_` cleared: at most one `read_nal` is under way, with
these NALs still to be called back with, each served to `viewers` streamers. -/
def toGo (viewers : Nat) (inHand : List Bytes) : PumpPc σ → Nat
  | absent => 0
  | test => 3
  | reading => (viewers + 3) * inHand.length + 4
  | wantLock _ => (viewers + 3) * inHand.length + viewers + 6
  | sending _ todo => (viewers + 3) * inHand.length + todo.length + 5
  | ended => 3
  | left _ => 2
  | stopped _ => 1
  | done _ => 0

end PumpPc

namespace ControlPc

/-- The control thread has cleared `running_` and waits for the pump. -/
def stopping : ControlPc σ → Bool
  | unsubscribe .move _ => true
  | unsubscribe .unlock _ => true
  | unsubscribe .join _ => true
  | destroyJoin => true
  | destroyMembers => true
  | dead => true
  | _ => false

/-- Its steps until the call returns. -/
def toGo : ControlPc σ → Nat
  | unsubscribe .move _ => 3
  | unsubscribe .unlock _ => 2
  | unsubscribe .join _ => 1
  | destroyJoin => 2
  | destroyMembers => 1
  | _ => 0

end ControlPc

namespace FileHub

variable {content : Bytes} {fps : Int} {s t : FileHub σ} {l : Threads.Label σ}

def pumpsToGo (s : FileHub σ) : Nat :=
  (Finset.range s.threads.spawned).sum fun u =>
    (s.threads.pump u).toGo s.threads.hub.subscribers.length (s.call u).1

def toGo (s : FileHub σ) : Nat := s.threads.control.toGo + s.pumpsToGo

structure Stopping (s : FileHub σ) : Prop where
  sound : s.threads.Sound
  control : s.threads.control.stopping = true
  cleared : s.threads.running = false

/-- One pump has come nearer to its end. -/
theorem pumpsToGo_lt {u : Nat} (hspawned : t.threads.spawned = s.threads.spawned)
    (hviewers : t.threads.hub.subscribers = s.threads.hub.subscribers)
    (hu : u < s.threads.spawned)
    (hother : ∀ v, v ≠ u → t.threads.pump v = s.threads.pump v ∧ t.call v = s.call v)
    (hless : (t.threads.pump u).toGo s.threads.hub.subscribers.length (t.call u).1 <
      (s.threads.pump u).toGo s.threads.hub.subscribers.length (s.call u).1) :
    t.pumpsToGo < s.pumpsToGo := by
  rw [pumpsToGo, pumpsToGo, hspawned, hviewers]
  refine Finset.sum_lt_sum ?_ ⟨u, Finset.mem_range.mpr hu, hless⟩
  intro v _
  by_cases hv : v = u
  · subst hv
    exact Nat.le_of_lt hless
  · obtain ⟨hpump, hcall⟩ := hother v hv
    rw [hpump, hcall]

theorem Stopping.spawned (hs : s.Stopping) {u : Nat} {pc : PumpPc σ}
    (hp : s.threads.pump u = pc) (hpc : pc ≠ .absent) : u < s.threads.spawned := by
  by_contra hlt
  exact hpc (hp.symm.trans (hs.sound.handles.absent u (Nat.le_of_not_lt hlt)))

/-- A step of a pump. -/
theorem Stopping.pump {u : Nat} {pc pc' : PumpPc σ} (hs : s.Stopping)
    (hp : s.threads.pump u = pc) (hpc : pc ≠ .absent)
    (hpump : t.threads.pump = (s.threads.setPump u pc').pump)
    (hcontrol : t.threads.control = s.threads.control)
    (hspawned : t.threads.spawned = s.threads.spawned)
    (hviewers : t.threads.hub.subscribers = s.threads.hub.subscribers)
    (hother : ∀ v, v ≠ u → t.call v = s.call v)
    (hless : pc'.toGo s.threads.hub.subscribers.length (t.call u).1 <
      pc.toGo s.threads.hub.subscribers.length (s.call u).1) : t.toGo < s.toGo := by
  have hpumps : t.pumpsToGo < s.pumpsToGo := by
    refine pumpsToGo_lt hspawned hviewers (hs.spawned hp hpc) ?_ ?_
    · intro v hv
      exact ⟨by rw [hpump, Threads.setPump_pump, if_neg hv], hother v hv⟩
    · rw [hpump, Threads.setPump_pump, if_pos rfl, hp]
      exact hless
  rw [toGo, toGo, hcontrol]
  omega

/-- A step of the control thread. -/
theorem toGo_control (hpump : t.threads.pump = s.threads.pump)
    (hspawned : t.threads.spawned = s.threads.spawned)
    (hviewers : t.threads.hub.subscribers = s.threads.hub.subscribers) (hcall : t.call = s.call)
    (hless : t.threads.control.toGo < s.threads.control.toGo) : t.toGo < s.toGo := by
  have hpumps : t.pumpsToGo = s.pumpsToGo := by
    rw [pumpsToGo, pumpsToGo, hspawned, hviewers, hpump, hcall]
  rw [toGo, toGo, hpumps]
  omega

variable [DecidableEq σ]

theorem Stopping.threads_toGo {threads : Threads σ} (hs : s.Stopping)
    (h : s.threads.Step l threads) (hquiet : ¬ l.handlesSource s.threads)
    (hl : ∀ x, l ≠ .returnUnsubscribe x) :
    toGo { s with threads } < s.toGo ∧ threads.control.stopping = true ∧
      threads.running = false := by
  have hc := hs.control
  have hrunning := hs.cleared
  cases h with
  | @unsubscribeMove x hx =>
    exact ⟨toGo_control rfl rfl rfl rfl (by simp [hx, ControlPc.toGo]), rfl, hrunning⟩
  | @unsubscribeUnlock x hx =>
    exact ⟨toGo_control rfl rfl rfl rfl (by simp [hx, ControlPc.toGo]), rfl, hrunning⟩
  | destroyNoJoin hx _ =>
    exact ⟨toGo_control rfl rfl rfl rfl (by simp [hx, ControlPc.toGo]), rfl, hrunning⟩
  | destroyJoin hx _ _ =>
    exact ⟨toGo_control rfl rfl rfl rfl (by simp [hx, ControlPc.toGo]), rfl, hrunning⟩
  | destroyMembers hx =>
    exact ⟨toGo_control rfl rfl rfl rfl (by simp [hx, ControlPc.toGo]), rfl, hrunning⟩
  | pumpQuit hp _ =>
    exact ⟨hs.pump hp (by simp) rfl rfl rfl rfl (fun _ _ => rfl) (by simp [PumpPc.toGo]), hc,
      hrunning⟩
  | pumpSend hp =>
    exact ⟨hs.pump hp (by simp) rfl rfl rfl rfl (fun _ _ => rfl) (by simp [PumpPc.toGo]), hc,
      hrunning⟩
  | pumpUnlock hp =>
    exact ⟨hs.pump hp (by simp) rfl rfl rfl rfl (fun _ _ => rfl) (by simp [PumpPc.toGo]), hc,
      hrunning⟩
  | pumpBreak hp =>
    exact ⟨hs.pump hp (by simp) rfl rfl rfl rfl (fun _ _ => rfl) (by simp [PumpPc.toGo]), hc,
      hrunning⟩
  | pumpStore hp =>
    exact ⟨hs.pump hp (by simp) rfl rfl rfl rfl (fun _ _ => rfl) (by simp [PumpPc.toGo]), hc, rfl⟩
  | unsubscribeNoJoin _ _ => exact absurd rfl (hl _)
  | unsubscribeJoin _ _ _ => exact absurd rfl (hl _)
  -- not where the control thread stands, or a step that handles the source
  | _ => simp_all [ControlPc.stopping, Threads.Label.handlesSource]

theorem stop_stop (s : FileSource) : s.stop.stop = s.stop := by
  unfold FileSource.stop
  cases hfile : s.file with
  | none => simp only [hfile]
  | some file => rfl

/-- No step makes the wait longer, and the source is stopped but not read. -/
theorem stopping_step (h : Step content fps s l t) (hs : s.Stopping)
    (hl : ∀ x, l ≠ .returnUnsubscribe x) :
    t.Stopping ∧ t.toGo < s.toGo ∧ (t.source = s.source ∨ t.source = s.source.stop) := by
  have hsound := Threads.sound_step _ _ _ h.threads hs.sound
  have hc := hs.control
  cases h with
  | make hx => simp [hx, ControlPc.stopping] at hc
  | start r now hr hx hok => simp [hx, ControlPc.stopping] at hc
  | startFails now hx hok => simp [hx, ControlPc.stopping] at hc
  | call hp hrun => simp [hs.cleared] at hrun
  | @callback u nal rest ok hp hcall hnal =>
    refine ⟨⟨hsound, hc, hs.cleared⟩, ?_, .inl rfl⟩
    refine hs.pump hp (by simp) rfl rfl rfl rfl (fun v hv => Function.update_of_ne hv _ _) ?_
    simp only [Function.update_self, hcall, PumpPc.toGo, List.length_cons, Nat.mul_add]
    omega
  | @callbackEmpty u rest ok hp hcall =>
    refine ⟨⟨hsound, hc, hs.cleared⟩, ?_, .inl rfl⟩
    have hsame : s.threads.pump = (s.threads.setPump u .reading).pump := by
      rw [← hp]
      exact (Function.update_eq_self _ _).symm
    refine hs.pump hp (by simp) hsame rfl rfl rfl (fun v hv => Function.update_of_ne hv _ _) ?_
    simp only [Function.update_self, hcall, PumpPc.toGo, List.length_cons, Nat.mul_add]
    omega
  | @lock u nal hp hm =>
    refine ⟨⟨hsound, hc, hs.cleared⟩, ?_, .inl rfl⟩
    exact hs.pump hp (by simp) rfl rfl rfl (by simp) (fun _ _ => rfl) (by simp [PumpPc.toGo])
  | returnTrue hp hcall =>
    refine ⟨⟨hsound, hc, hs.cleared⟩, ?_, .inl rfl⟩
    exact hs.pump hp (by simp) rfl rfl rfl rfl (fun _ _ => rfl) (by simp [PumpPc.toGo])
  | returnFalse hp hcall =>
    refine ⟨⟨hsound, hc, hs.cleared⟩, ?_, .inl rfl⟩
    exact hs.pump hp (by simp) rfl rfl rfl rfl (fun _ _ => rfl) (by simp [PumpPc.toGo])
  | stop hp =>
    refine ⟨⟨hsound, hc, hs.cleared⟩, ?_, .inr rfl⟩
    exact hs.pump hp (by simp) rfl rfl rfl rfl (fun _ _ => rfl) (by simp [PumpPc.toGo])
  | other hstep hquiet =>
    obtain ⟨hless, hcontrol, hcleared⟩ := hs.threads_toGo hstep hquiet hl
    exact ⟨⟨hsound, hcontrol, hcleared⟩, hless, .inl rfl⟩

/-- The pump thread `u` can take a step. -/
def PumpEnabled (content : Bytes) (fps : Int) (s : FileHub σ) (u : Nat) : Prop :=
  ∃ l t, Step content fps s l t ∧ (l = .pump u ∨ ∃ x, l = .send u x)

/-- The control thread can take a step inside its call, or return from it. -/
def ControlEnabled (content : Bytes) (fps : Int) (s : FileHub σ) : Prop :=
  ∃ l t, Step content fps s l t ∧
    (l = .control ∨ (∃ x ok, l = .returnSubscribe (some x) ok) ∨ ∃ x, l = .returnUnsubscribe x)

/-- A live pump can go on, unless it waits for the mutex. -/
theorem pump_enabled {u : Nat} (hlive : (s.threads.pump u).live = true)
    (hfree : ∀ nal, s.threads.pump u = .wantLock nal → s.threads.mutex = none) :
    PumpEnabled content fps s u := by
  cases hp : s.threads.pump u with
  | absent => simp [hp, PumpPc.live] at hlive
  | done eof => simp [hp, PumpPc.live] at hlive
  | test =>
    cases hrun : s.threads.running with
    | true => exact ⟨_, _, .call hp hrun, .inl rfl⟩
    | false =>
      exact ⟨_, _, .other (.pumpQuit hp hrun) (by simp [Threads.Label.handlesSource, hp, hrun]),
        .inl rfl⟩
  | reading =>
    obtain ⟨inHand, ok, hcall⟩ : ∃ inHand ok, s.call u = (inHand, ok) := ⟨_, _, rfl⟩
    cases inHand with
    | nil =>
      cases ok with
      | true => exact ⟨_, _, .returnTrue hp hcall, .inl rfl⟩
      | false => exact ⟨_, _, .returnFalse hp hcall, .inl rfl⟩
    | cons nal rest =>
      by_cases hnal : nal = []
      · exact ⟨_, _, .callbackEmpty hp (hnal ▸ hcall), .inl rfl⟩
      · exact ⟨_, _, .callback hp hcall hnal, .inl rfl⟩
  | wantLock nal => exact ⟨_, _, .lock hp (hfree nal hp), .inl rfl⟩
  | sending nal todo =>
    cases todo with
    | nil =>
      exact ⟨_, _, .other (.pumpUnlock hp) (by simp [Threads.Label.handlesSource, hp]), .inl rfl⟩
    | cons x todo =>
      exact ⟨_, _, .other (.pumpSend hp) (by simp [Threads.Label.handlesSource]), .inr ⟨x, rfl⟩⟩
  | ended =>
    exact ⟨_, _, .other (.pumpBreak hp) (by simp [Threads.Label.handlesSource, hp]), .inl rfl⟩
  | left eof => exact ⟨_, _, .stop hp, .inl rfl⟩
  | stopped eof =>
    exact ⟨_, _, .other (.pumpStore hp) (by simp [Threads.Label.handlesSource, hp]), .inl rfl⟩

end FileHub

namespace Threads

variable [DecidableEq σ] {s t : Threads σ} {l : Label σ}

theorem started_step (h : Step s l t) (hs : ∀ u < s.spawned, s.pump u ≠ .absent) :
    ∀ u < t.spawned, t.pump u ≠ .absent := by
  cases h <;> first | exact hs | grind -ring -linarith

omit [DecidableEq σ] in
/-- The pump that a `join` outside the mutex waits for does not wait for the mutex in vain. -/
theorem Sound.join_free (hs : Sound s) {u : Nat} (hlive : (s.pump u).live = true)
    (hc : s.control.holds = false) {nal : Bytes} (hp : s.pump u = .wantLock nal) :
    s.mutex = none := by
  cases hm : s.mutex with
  | none => rfl
  | some owner =>
    cases owner with
    | control => simp [hs.locking.owner.mp hm] at hc
    | pump v =>
      have hsends := (hs.locking.sender v).mp hm
      have hv : (s.pump v).live = true := by
        cases hpv : s.pump v <;> simp_all [PumpPc.sends, PumpPc.live]
      have hsame := hs.handles.same hlive hv
      simp [← hsame, hp, PumpPc.sends] at hsends

end Threads

namespace FileHub

variable [DecidableEq σ] {content : Bytes} {fps : Int} {s t : FileHub σ}
  {l : Threads.Label σ} {ls : List (Threads.Label σ)}

/-- What progress needs to know of a state. -/
structure Ready (content : Bytes) (fps : Int) (s : FileHub σ) : Prop where
  sound : s.threads.Sound
  feeding : s.Feeding content fps
  started : ∀ u < s.threads.spawned, s.threads.pump u ≠ .absent

theorem ready_reachable (h : Reachable (Initial content fps) (Step content fps) s) :
    Ready content fps s := by
  refine h.invariant (p := Ready content fps) ?_ ?_
  · intro s l t hst hs
    exact ⟨Threads.sound_step _ _ _ hst.threads hs.sound, feeding_step hst hs.sound hs.feeding,
      Threads.started_step hst.threads hs.started⟩
  · intro s hi
    refine ⟨Threads.sound_initial hi.threads, feeding_initial hi, ?_⟩
    rw [hi.threads.2]
    simp

/-- A step of the control thread that leaves the source alone. -/
theorem ControlEnabled.of_threads {threads : Threads σ} (h : s.threads.Step .control threads)
    (hmake : ∀ x, s.threads.control ≠ .subscribe .make x)
    (hstart : ∀ x, s.threads.control ≠ .subscribe .start x) : ControlEnabled content fps s := by
  refine ⟨_, _, .other h ?_, .inl rfl⟩
  rintro ⟨x, hx | hx⟩
  · exact hmake x hx
  · exact hstart x hx

/-- At the lock: the mutex is free, or its holder is a pump that can go on. -/
theorem Ready.lock (hr : Ready content fps s) (hc : s.threads.control.holds = false)
    (hfree : s.threads.mutex = none → ControlEnabled content fps s) :
    ControlEnabled content fps s ∨
      ∃ u, s.threads.mutex = some (.pump u) ∧ PumpEnabled content fps s u := by
  cases hm : s.threads.mutex with
  | none => exact .inl (hfree hm)
  | some owner =>
    cases owner with
    | control => simp [hr.sound.locking.owner.mp hm] at hc
    | pump u =>
      have hsends := (hr.sound.locking.sender u).mp hm
      refine .inr ⟨u, rfl, pump_enabled ?_ ?_⟩
      · cases hp : s.threads.pump u <;> simp_all [PumpPc.sends, PumpPc.live]
      · intro nal hp
        simp [hp, PumpPc.sends] at hsends

/-- At a join outside the mutex: the thread has ended, or it can go on. -/
theorem Ready.join (hr : Ready content fps s) (hc : s.threads.control.holds = false) {u : Nat}
    (hu : s.threads.pumpThread = some u ∨ s.threads.toJoin = some u)
    (hended : (s.threads.pump u).finished = true → ControlEnabled content fps s) :
    ControlEnabled content fps s ∨ PumpEnabled content fps s u := by
  cases hfin : (s.threads.pump u).finished with
  | true => exact .inl (hended hfin)
  | false =>
    have habsent := hr.started u (hr.sound.handles.known u hu)
    have hlive : (s.threads.pump u).live = true := by
      cases hp : s.threads.pump u <;> simp_all [PumpPc.finished, PumpPc.live]
    exact .inr (pump_enabled hlive fun nal hp => hr.sound.join_free hlive hc hp)

theorem Ready.subscribe (hr : Ready content fps s) {pc : SubscribeAt} {x : σ}
    (hc : s.threads.control = .subscribe pc x) : ControlEnabled content fps s ∨
      ∃ u, s.threads.mutex = some (.pump u) ∧ PumpEnabled content fps s u := by
  cases pc with
  | lock =>
    refine hr.lock (by simp [hc, ControlPc.holds]) fun hm => ?_
    exact .of_threads (.subscribeLock hc hm) (by simp [hc]) (by simp [hc])
  | test =>
    left
    cases hrun : s.threads.running with
    | true => exact .of_threads (.subscribeRunning hc hrun) (by simp [hc]) (by simp [hc])
    | false => exact .of_threads (.subscribeStopped hc hrun) (by simp [hc]) (by simp [hc])
  | join =>
    left
    cases hp : s.threads.pumpThread with
    | none => exact .of_threads (.subscribeNoJoin hc hp) (by simp [hc]) (by simp [hc])
    | some u =>
      -- the mutex is held, but the thread has ended
      have hdown := hr.sound.flags.down x (.inl hc)
      have hended := hr.sound.flags.quiet hdown (by simp [hc]) (by simp [hc]) u hp
      exact .of_threads (.subscribeJoin hc hp hended) (by simp [hc]) (by simp [hc])
  | make => exact .inl ⟨_, _, .make hc, .inl rfl⟩
  | start =>
    have hfails : (s.source.start none 0).1 = false := by
      rw [hr.feeding.made x hc]
      rfl
    exact .inl ⟨_, _, .startFails 0 hc hfails, .inl rfl⟩
  | reset => exact .inl (.of_threads (.subscribeReset hc) (by simp [hc]) (by simp [hc]))
  | run => exact .inl (.of_threads (.subscribeRun hc) (by simp [hc]) (by simp [hc]))
  | spawn => exact .inl (.of_threads (.subscribeSpawn hc) (by simp [hc]) (by simp [hc]))
  | push => exact .inl (.of_threads (.subscribePush hc) (by simp [hc]) (by simp [hc]))
  | leave ok =>
    exact .inl ⟨_, _, .other (.subscribeLeave hc) (by simp [Threads.Label.handlesSource]),
      .inr (.inl ⟨x, ok, rfl⟩)⟩

theorem Ready.unsubscribe (hr : Ready content fps s) {pc : UnsubscribeAt} {x : σ}
    (hc : s.threads.control = .unsubscribe pc x) : ControlEnabled content fps s ∨
      ∃ u, (s.threads.mutex = some (.pump u) ∨ s.threads.joining = some u) ∧
        PumpEnabled content fps s u := by
  cases pc with
  | lock =>
    have hlock := hr.lock (by simp [hc, ControlPc.holds]) fun hm =>
      .of_threads (.unsubscribeLock hc hm) (by simp [hc]) (by simp [hc])
    rcases hlock with hgo | ⟨u, hu, hpump⟩
    · exact .inl hgo
    · exact .inr ⟨u, .inl hu, hpump⟩
  | erase => exact .inl (.of_threads (.unsubscribeErase hc) (by simp [hc]) (by simp [hc]))
  | test =>
    left
    by_cases hlast : s.threads.hub.subscribers = [] ∧ s.threads.running = true
    · exact .of_threads (.unsubscribeLast hc hlast.1 hlast.2) (by simp [hc]) (by simp [hc])
    · exact .of_threads (.unsubscribeKeep hc hlast) (by simp [hc]) (by simp [hc])
  | stop => exact .inl (.of_threads (.unsubscribeStop hc) (by simp [hc]) (by simp [hc]))
  | move => exact .inl (.of_threads (.unsubscribeMove hc) (by simp [hc]) (by simp [hc]))
  | unlock => exact .inl (.of_threads (.unsubscribeUnlock hc) (by simp [hc]) (by simp [hc]))
  | join =>
    cases hj : s.threads.toJoin with
    | none =>
      exact .inl ⟨_, _, .other (.unsubscribeNoJoin hc hj) (by simp [Threads.Label.handlesSource]),
        .inr (.inr ⟨x, rfl⟩)⟩
    | some u =>
      have hjoin := hr.join (by simp [hc, ControlPc.holds]) (.inr hj) fun hfin =>
        ⟨_, _, .other (.unsubscribeJoin hc hj hfin) (by simp [Threads.Label.handlesSource]),
          .inr (.inr ⟨x, rfl⟩)⟩
      have hjoining : s.threads.joining = some u := by
        simp only [Threads.joining, hc, hj]
      exact hjoin.imp_right fun hpump => ⟨u, .inr hjoining, hpump⟩

/-- In a call the control thread can go on, or the pump that it waits for can. -/
theorem Ready.enabled (hr : Ready content fps s) (hidle : s.threads.control ≠ .idle)
    (hdead : s.threads.control ≠ .dead) : ControlEnabled content fps s ∨
      ∃ u, (s.threads.mutex = some (.pump u) ∨ s.threads.joining = some u) ∧
        PumpEnabled content fps s u := by
  cases hc : s.threads.control with
  | idle => exact absurd hc hidle
  | dead => exact absurd hc hdead
  | subscribe pc x =>
    rcases hr.subscribe hc with hgo | ⟨u, hu, hpump⟩
    · exact .inl hgo
    · exact .inr ⟨u, .inl hu, hpump⟩
  | unsubscribe pc x => exact hr.unsubscribe hc
  | destroyStop => exact .inl (.of_threads (.destroyStop hc) (by simp [hc]) (by simp [hc]))
  | destroyMembers => exact .inl (.of_threads (.destroyMembers hc) (by simp [hc]) (by simp [hc]))
  | destroyJoin =>
    cases hp : s.threads.pumpThread with
    | none => exact .inl (.of_threads (.destroyNoJoin hc hp) (by simp [hc]) (by simp [hc]))
    | some u =>
      have hjoin := hr.join (by simp [hc, ControlPc.holds]) (.inl hp) fun hfin =>
        .of_threads (.destroyJoin hc hp hfin) (by simp [hc]) (by simp [hc])
      have hjoining : s.threads.joining = some u := by
        simp only [Threads.joining, hc, hp]
      exact hjoin.imp_right fun hpump => ⟨u, .inr hjoining, hpump⟩

/-- A wait for the pump, from the step that clears `running_` on. -/
theorem stopping_run {ls : List (Threads.Label σ)} (h : Run (Step content fps) s ls t)
    (hs : s.Stopping) (hl : ∀ l ∈ ls, ∀ x, l ≠ .returnUnsubscribe x) :
    t.Stopping ∧ ls.length + t.toGo ≤ s.toGo ∧
      (t.source = s.source ∨ t.source = s.source.stop) := by
  have hstep : ∀ (u : FileHub σ) l v, (Step content fps u l v ∧ ∀ x, l ≠ .returnUnsubscribe x) →
      u.Stopping ∧ (u.source = s.source ∨ u.source = s.source.stop) →
      (v.Stopping ∧ (v.source = s.source ∨ v.source = s.source.stop)) ∧ v.toGo < u.toGo := by
    rintro u l v ⟨hstep, hl⟩ ⟨hu, hsource⟩
    obtain ⟨hv, hless, hstopped⟩ := stopping_step hstep hu hl
    refine ⟨⟨hv, ?_⟩, hless⟩
    rcases hsource with hsame | hstop <;> rcases hstopped with hsame' | hstop'
    · exact .inl (hsame'.trans hsame)
    · exact .inr (hstop'.trans (congrArg FileSource.stop hsame))
    · exact .inr (hsame'.trans hstop)
    · exact .inr (by rw [hstop', hstop, stop_stop])
  obtain ⟨⟨ht, hsource⟩, hbound⟩ := (h.restrict hl).bounded hstep ⟨hs, .inl rfl⟩
  exact ⟨ht, hbound, hsource⟩

/-- The Hub over a file does not hang. In a call the control thread can go on, or the pump that it
waits for can. When the last `unsubscribe` or the destructor has cleared `running_`, every run
until the call has returned has a bounded length and does not read the source again. -/
theorem hub_progress (h : Reachable (Initial content fps) (Step content fps) s) :
    (s.threads.control ≠ .idle → s.threads.control ≠ .dead → ControlEnabled content fps s ∨
      ∃ u, (s.threads.mutex = some (.pump u) ∨ s.threads.joining = some u) ∧
        PumpEnabled content fps s u) ∧
    (s.threads.control.stopping = true → s.threads.running = false →
      ∀ ls t, Run (Step content fps) s ls t → (∀ l ∈ ls, ∀ x, l ≠ .returnUnsubscribe x) →
        ls.length + t.toGo ≤ s.toGo ∧ (t.source = s.source ∨ t.source = s.source.stop) ∧
        (t.threads.control ≠ .dead → ∃ l v, Step content fps t l v)) := by
  have hready := ready_reachable h
  refine ⟨hready.enabled, ?_⟩
  intro hc hcleared ls t hrun hl
  obtain ⟨ht, hbound, hsource⟩ := stopping_run hrun ⟨hready.sound, hc, hcleared⟩ hl
  refine ⟨hbound, hsource, fun hdead => ?_⟩
  obtain ⟨s₀, ms, hinit, hbefore⟩ := h
  have hidle : t.threads.control ≠ .idle := by
    intro hidle
    have hstopping := ht.control
    simp [hidle, ControlPc.stopping] at hstopping
  rcases (ready_reachable ⟨s₀, _, hinit, hbefore.append hrun⟩).enabled hidle hdead with
    ⟨l, v, hstep, -⟩ | ⟨u, -, l, v, hstep, -⟩
  · exact ⟨l, v, hstep⟩
  · exact ⟨l, v, hstep⟩

/-- The last viewer leaves while the pump is about to broadcast. -/
theorem hub_progress_last_viewer : ∃ (s t : FileHub Unit) (ls : List (Threads.Label Unit)),
    s.threads.control.stopping = true ∧ Run (Step [0, 0, 1, 103, 66, 0, 0, 1, 101, 136] 30) s ls t ∧
      ls.length = 2 ∧ ls.length + t.toGo ≤ s.toGo ∧
      ∃ l v, Step [0, 0, 1, 103, 66, 0, 0, 1, 101, 136] 30 t l v := by
  let content : Bytes := [0, 0, 1, 103, 66, 0, 0, 1, 101, 136]
  let recording : Recording := ⟨content, fun _ => [content], fun _ => rfl⟩
  let s₀ : FileHub Unit :=
    { threads := { hub := Hub.create 30 }, source := .create 30 true, scanned := [] }
  have r : Reachable (Initial content 30) (Step content 30) s₀ :=
    .initial ⟨none, .create 30 true, by simp, rfl⟩
  have r := r.step (.other (.callSubscribe () rfl) (by simp [Threads.Label.handlesSource]))
  have r := r.step (.other (.subscribeLock rfl rfl) (by simp [Threads.Label.handlesSource]))
  have r := r.step (.other (.subscribeStopped rfl rfl) (by simp [Threads.Label.handlesSource]))
  have r := r.step (.other (.subscribeNoJoin rfl rfl) (by simp [Threads.Label.handlesSource]))
  have r := r.step (.make rfl)
  have r := r.step (.start recording 0 rfl rfl rfl)
  have r := r.step (.other (.subscribeRun rfl) (by simp [Threads.Label.handlesSource]))
  have r := r.step (.other (.subscribeSpawn rfl) (by simp [Threads.Label.handlesSource]))
  have r := r.step (.other (.subscribePush rfl) (by simp [Threads.Label.handlesSource]))
  have r := r.step (.other (.subscribeLeave rfl) (by simp [Threads.Label.handlesSource]))
  have r := r.step (@Step.call Unit _ content 30 _ 0 rfl rfl)
  have r := r.step (@Step.callback Unit _ content 30 _ 0 [103, 66] [] true rfl
    (by decide +kernel) (by decide))
  have r := r.step (.other (.callUnsubscribe () rfl) (by simp [Threads.Label.handlesSource]))
  have r := r.step (.other (.unsubscribeLock rfl rfl) (by simp [Threads.Label.handlesSource]))
  have r := r.step (.other (.unsubscribeErase rfl) (by simp [Threads.Label.handlesSource]))
  have r := r.step (.other (.unsubscribeLast rfl rfl rfl) (by simp [Threads.Label.handlesSource]))
  have r := r.step (.other (.unsubscribeStop rfl) (by simp [Threads.Label.handlesSource]))
  have hstart : ∀ s, Reachable (Initial content 30) (Step content 30) s →
      Run (Step (σ := Unit) content 30) s [] s := fun _ _ => .refl
  have q := (hstart _ r).snoc
    (.other (.unsubscribeMove rfl) (by simp [Threads.Label.handlesSource]))
  have q := q.snoc (.other (.unsubscribeUnlock rfl) (by simp [Threads.Label.handlesSource]))
  have hprogress := (hub_progress r).2 rfl rfl _ _ q (by simp)
  exact ⟨_, _, _, rfl, q, rfl, hprogress.1, hprogress.2.2 (by simp)⟩

end FileHub
end Veda.Media
