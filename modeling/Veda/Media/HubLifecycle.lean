import Veda.Lib.Transitions
import Veda.Media.HubThreads

/-!
Invariants of the Hub under any interleaving: who holds the mutex, which threads the handles
stand for, what `running_` says about the pump, and what the source pointer stands for.
-/
namespace Veda.Media.Threads

open Transitions

variable {σ : Type} {s t : Threads σ} {l : Label σ}

/-- The thread that a `join` in progress waits for. -/
def joining (s : Threads σ) : Option Nat :=
  match s.control with
  | .subscribe .join _ => s.pumpThread
  | .unsubscribe .join _ => s.toJoin
  | .destroyJoin => s.pumpThread
  | _ => none

/-- The mutex has the holder that the program points say. -/
structure Locking (s : Threads σ) : Prop where
  owner : s.mutex = some .control ↔ s.control.holds = true
  sender : ∀ u, s.mutex = some (.pump u) ↔ (s.pump u).sends = true

/-- Each live pump thread stands in one of the two handles. -/
structure Handles (s : Threads σ) : Prop where
  handle : ∀ u, (s.pump u).live = true → s.pumpThread = some u ∨ s.toJoin = some u
  one : s.pumpThread = none ∨ s.toJoin = none
  absent : ∀ u, s.spawned ≤ u → s.pump u = .absent
  known : ∀ u, s.pumpThread = some u ∨ s.toJoin = some u → u < s.spawned
  moved : s.toJoin ≠ none →
    ∃ x, s.control = .unsubscribe .unlock x ∨ s.control = .unsubscribe .join x
  starting : s.control.starting = true → s.pumpThread = none
  joined : s.control = .destroyMembers → s.pumpThread = none

/-- `running_` is set only beside a live pump, and cleared only by the last step of a pump or
by a control thread that then waits for it. -/
structure Flags (s : Threads σ) : Prop where
  run : s.running = true → (∃ x, s.control = .subscribe .spawn x) ∨
    ∃ u, s.pumpThread = some u ∧ (s.pump u).live = true
  quiet : s.running = false → (∀ x, s.control ≠ .unsubscribe .move x) →
    s.control ≠ .destroyJoin → ∀ u, s.pumpThread = some u → (s.pump u).finished = true
  spawn : ∀ x, s.control = .subscribe .spawn x → s.running = true
  down : ∀ x, s.control = .subscribe .join x ∨ s.control = .subscribe .make x ∨
    s.control = .subscribe .start x ∨ s.control = .subscribe .reset x ∨
    s.control = .subscribe .run x ∨ s.control = .unsubscribe .move x → s.running = false
  quit : ∀ u, (s.pump u).quits = true → s.running = false
  drained : ∀ x, s.control = .unsubscribe .unlock x ∨ s.control = .unsubscribe .join x →
    s.hub.subscribers = [] → s.running = false

/-- A pump uses a source that was started; without one, what was started has been stopped. -/
structure Sourcing (s : Threads σ) : Prop where
  used : ∀ u, (s.pump u).usesSource = true → s.source = some .started
  made : ∀ x, s.control = .subscribe .start x ∨ s.control = .subscribe .reset x →
    s.source = some .made
  started : ∀ x, s.control = .subscribe .run x ∨ s.control = .subscribe .spawn x →
    s.source = some .started
  fresh : s.source = some .made →
    ∃ x, s.control = .subscribe .start x ∨ s.control = .subscribe .reset x
  ended : s.source = some .started → (∃ u, (s.pump u).usesSource = true) ∨
    ∃ x, s.control = .subscribe .run x ∨ s.control = .subscribe .spawn x

theorem PumpPc.live_of_finished {pc : PumpPc σ} (h : pc.finished = true) : pc.live = false := by
  cases pc <;> simp_all [PumpPc.finished, PumpPc.live]

theorem PumpPc.live_of_usesSource {pc : PumpPc σ} (h : pc.usesSource = true) :
    pc.live = true := by
  cases pc <;> simp_all [PumpPc.usesSource, PumpPc.live]

theorem PumpPc.live_of_quits {pc : PumpPc σ} (h : pc.quits = true) : pc.live = true := by
  cases pc <;> simp_all [PumpPc.quits, PumpPc.live]

theorem Handles.same (ha : Handles s) {u v : Nat} (hu : (s.pump u).live = true)
    (hv : (s.pump v).live = true) : u = v := by
  have hone := ha.one
  have hu := ha.handle u hu
  have hv := ha.handle v hv
  grind

/-- No thread is live while the control thread builds a source or takes the members away. -/
theorem Handles.idle (ha : Handles s)
    (hc : s.control.starting = true ∨ s.control = .destroyMembers) (u : Nat) :
    (s.pump u).live = false := by
  have hp : s.pumpThread = none := by
    rcases hc with hc | hc
    · exact ha.starting hc
    · exact ha.joined hc
  have hj : s.toJoin = none := by
    by_contra hj
    obtain ⟨x, h | h⟩ := ha.moved hj <;> simp [h, ControlPc.starting] at hc
  by_contra hu
  have hlive := ha.handle u (by simpa using hu)
  simp [hp, hj] at hlive

theorem exists_usesSource_setPump {u : Nat} {pc : PumpPc σ} :
    (∃ v, ((s.setPump u pc).pump v).usesSource = true) ↔
      pc.usesSource = true ∨ ∃ v, v ≠ u ∧ (s.pump v).usesSource = true := by
  constructor
  · rintro ⟨v, hv⟩
    by_cases hvu : v = u <;> grind
  · rintro (hpc | ⟨v, hvu, hv⟩)
    · exact ⟨u, by simpa⟩
    · exact ⟨v, by simpa [hvu]⟩

/-- What holds in every reachable state. -/
structure Sound (s : Threads σ) : Prop where
  handles : Handles s
  locking : Locking s
  flags : Flags s
  sourcing : Sourcing s

theorem sound_initial (h : Initial s) : Sound s := by
  obtain ⟨hsub, hs⟩ := h
  rw [hs]
  constructor
  · constructor <;> simp [PumpPc.live, ControlPc.starting]
  · constructor <;> simp [ControlPc.holds, PumpPc.sends]
  · constructor <;> simp [PumpPc.quits]
  · constructor <;> simp [PumpPc.usesSource]

/-- What the life cycle of the pump and of the source never does. -/
structure LifecycleSafe (s : Threads σ) : Prop where
  onePump : ∀ u v, (s.pump u).live = true → (s.pump v).live = true → u = v
  sourceKept : s.control.setsSource = true →
    s.source ≠ some .started ∧ ∀ u, (s.pump u).usesSource = false
  /-- The assignments to `pump_thread_` and to `to_join`, and the end of `pump_thread_`. -/
  noTerminate : ∀ x, (s.control = .subscribe .spawn x → s.pumpThread = none) ∧
    (s.control = .unsubscribe .move x → s.toJoin = none) ∧
    (s.control = .destroyMembers → s.pumpThread = none)
  noDeadlock : ∀ u, s.joining = some u → s.mutex = some .control →
    (s.pump u).needsLock = false

theorem Sound.source_unused (hs : Sound s) (h : s.control.setsSource = true) :
    s.source ≠ some .started ∧ ∀ u, (s.pump u).usesSource = false := by
  have hidle : ∀ u, (s.pump u).usesSource = false := by
    intro u
    have hlive : (s.pump u).live = false := by
      apply hs.handles.idle
      cases hc : s.control with
      | subscribe pc x => cases pc <;> simp_all [ControlPc.setsSource, ControlPc.starting]
      | destroyMembers => exact .inr rfl
      | _ => simp_all [ControlPc.setsSource]
    by_contra hu
    simp [PumpPc.live_of_usesSource (by simpa using hu)] at hlive
  refine ⟨?_, hidle⟩
  intro hstarted
  rcases hs.sourcing.ended hstarted with ⟨u, hu⟩ | ⟨x, hx | hx⟩
  · simp [hidle u] at hu
  · simp [hx, ControlPc.setsSource] at h
  · simp [hx, ControlPc.setsSource] at h

/-- The only `join` under the mutex waits for a thread that has left `on_nal` for good. -/
theorem Sound.join_locked (hs : Sound s) {u : Nat} (hj : s.joining = some u)
    (hm : s.mutex = some .control) : (s.pump u).finished = true := by
  have hholds := hs.locking.owner.mp hm
  unfold joining at hj
  split at hj
  case h_1 x hc =>
    have hdown := hs.flags.down x (.inl hc)
    exact hs.flags.quiet hdown (by simp [hc]) (by simp [hc]) u hj
  all_goals simp_all [ControlPc.holds]

theorem Sound.lifecycleSafe (hs : Sound s) : LifecycleSafe s := by
  refine ⟨fun u v => hs.handles.same, hs.source_unused, ?_, ?_⟩
  · intro x
    refine ⟨?_, ?_, hs.handles.joined⟩
    · intro hc
      exact hs.handles.starting (by simp [hc, ControlPc.starting])
    · intro hc
      by_contra hj
      obtain ⟨y, hy | hy⟩ := hs.handles.moved hj <;> simp [hc] at hy
  · intro u hj hm
    have hfin := hs.join_locked hj hm
    cases hp : s.pump u <;> simp_all [PumpPc.finished, PumpPc.needsLock]

variable [DecidableEq σ]

theorem handles_step (h : Step s l t) (hs : Handles s) : Handles t := by
  obtain ⟨hhandle, hone, habsent, hknown, hmoved, hstarting, hjoined⟩ := hs
  -- most steps leave the fields that a clause reads alone
  constructor
  · cases h <;> first
      | exact hhandle
      | grind -ring -linarith [PumpPc.live, PumpPc.live_of_finished, ControlPc.starting]
  · cases h <;> first | exact hone | grind -ring -linarith
  · cases h <;> first | exact habsent | grind -ring -linarith
  · cases h <;> first | exact hknown | grind -ring -linarith
  · cases h <;> first | exact hmoved | grind -ring -linarith
  · cases h <;> first | exact hstarting | grind -ring -linarith [ControlPc.starting]
  · cases h <;> first | exact hjoined | grind -ring -linarith

theorem locking_step (h : Step s l t) (ha : Handles s) (hs : Locking s) : Locking t := by
  obtain ⟨howner, hsender⟩ := hs
  have habsent := ha.absent
  constructor
  · cases h <;> first | exact howner | grind -ring -linarith [ControlPc.holds, PumpPc.sends]
  · cases h <;> first | exact hsender | grind -ring -linarith [ControlPc.holds, PumpPc.sends]

theorem flags_step (h : Step s l t) (ha : Handles s) (hs : Flags s) : Flags t := by
  obtain ⟨hrun, hquiet, hspawn, hdown, hquit, hdrained⟩ := hs
  obtain ⟨hhandle, hone, habsent, hknown, hmoved, hstarting, hjoined⟩ := ha
  constructor
  · cases h <;> first | exact hrun | grind -ring -linarith [PumpPc.live, PumpPc.live_of_finished]
  · cases h <;> first | exact hquiet | grind -ring -linarith [PumpPc.live, PumpPc.finished]
  · cases h <;> first | exact hspawn | grind -ring -linarith [PumpPc.live, ControlPc.starting]
  · cases h <;> first | exact hdown | grind -ring -linarith
  · cases h <;> first
      | exact hquit
      | grind -ring -linarith [PumpPc.quits, PumpPc.live_of_quits, ControlPc.starting]
  · cases h <;> first | exact hdrained | grind -ring -linarith [Hub.cacheParameterSets_subscribers]

theorem sourcing_step (h : Step s l t) (ha : Handles s) (hs : Sourcing s) : Sourcing t := by
  obtain ⟨hused, hmade, hstarted, hfresh, hended⟩ := hs
  have hidle := ha.idle
  have hsame : ∀ u v, (s.pump u).live = true → (s.pump v).live = true → u = v :=
    fun u v => ha.same
  constructor
  · cases h <;> first
      | exact hused
      | grind -ring -linarith [PumpPc.usesSource, PumpPc.live, PumpPc.live_of_usesSource,
          ControlPc.starting]
  · cases h <;> first | exact hmade | grind -ring -linarith [PumpPc.live, ControlPc.starting]
  · cases h <;> first | exact hstarted | grind -ring -linarith [PumpPc.live, ControlPc.starting]
  · cases h <;> first | exact hfresh | grind -ring -linarith [PumpPc.usesSource]
  · cases h <;> first
      | exact hended
      | (simp only [exists_usesSource_setPump]; grind -ring -linarith [PumpPc.usesSource])

theorem sound_step : Preserved (Step (σ := σ)) Sound := by
  intro s l t h hs
  exact ⟨handles_step h hs.handles, locking_step h hs.handles hs.locking,
    flags_step h hs.handles hs.flags, sourcing_step h hs.handles hs.sourcing⟩

theorem sound_reachable (h : Reachable Initial Step s) : Sound s :=
  h.invariant sound_step fun _ => sound_initial

theorem spawned_step (h : Step s l t) :
    t.spawned = s.spawned ∨ t.spawned = s.spawned + 1 := by
  cases h <;> simp

/-- A thread that was started and has ended stays ended. -/
theorem dead_run {ls : List (Label σ)} (hr : Run Step s ls t) {u : Nat}
    (hu : u < s.spawned ∧ (s.pump u).live = false) :
    u < t.spawned ∧ (t.pump u).live = false := by
  refine hr.invariant (p := fun s => u < s.spawned ∧ (s.pump u).live = false) ?_ hu
  rintro s l t h ⟨hlt, hdead⟩
  cases h <;> grind -ring -linarith [PumpPc.live]

/-- When `unsubscribe` returns and no viewer is left, every pump thread has ended and nothing
is on. -/
theorem Sound.last_returns (hs : Sound s) {x : σ} (h : Step s (.returnUnsubscribe x) t)
    (hempty : t.hub.subscribers = []) :
    (∀ u, (t.pump u).live = false) ∧ (t.source = none ∨ t.source = some .stopped) := by
  have hdead : ∀ u, (t.pump u).live = false := by
    intro u
    by_contra hu
    have ht := sound_step _ _ _ h hs
    have hrun : s.running = false := by
      cases h with
      | unsubscribeNoJoin hc => exact hs.flags.drained x (.inr hc) hempty
      | unsubscribeJoin hc => exact hs.flags.drained x (.inr hc) hempty
    have hfin : ∀ v, t.pumpThread = some v → (t.pump v).finished = true := by
      cases h with
      | unsubscribeNoJoin hc => exact hs.flags.quiet hrun (by simp [hc]) (by simp [hc])
      | unsubscribeJoin hc => exact hs.flags.quiet hrun (by simp [hc]) (by simp [hc])
    rcases ht.handles.handle u (by simpa using hu) with hu' | hu'
    · simp [PumpPc.live_of_finished (hfin u hu')] at hu
    · cases h <;> simp_all
  refine ⟨hdead, ?_⟩
  have ht := sound_step _ _ _ h hs
  have hidle : t.control = .idle := by
    cases h <;> rfl
  cases hsrc : t.source with
  | none => exact .inl rfl
  | some src =>
    cases src with
    | stopped => exact .inr rfl
    | made =>
      obtain ⟨y, hy | hy⟩ := ht.sourcing.fresh hsrc <;> simp [hidle] at hy
    | started =>
      rcases ht.sourcing.ended hsrc with ⟨u, hu⟩ | ⟨y, hy | hy⟩
      · have hlive := PumpPc.live_of_usesSource hu
        rw [hdead u] at hlive
        cases hlive
      · simp [hidle] at hy
      · simp [hidle] at hy

/-- The life cycle is safe in every reachable state, and the last `unsubscribe` turns the
media off: no thread that exists when it returns ever reads again. -/
theorem hub_lifecycle (h : Reachable Initial Step s) :
    LifecycleSafe s ∧
    ∀ x t, Step s (.returnUnsubscribe x) t → t.hub.subscribers = [] →
      (t.source = none ∨ t.source = some .stopped) ∧
      (∀ u, (t.pump u).live = false) ∧
      ∀ ls v, Run Step t ls v → ∀ u < t.spawned, (v.pump u).live = false := by
  have hs := sound_reachable h
  refine ⟨hs.lifecycleSafe, ?_⟩
  intro x t hstep hempty
  obtain ⟨hdead, hsource⟩ := hs.last_returns hstep hempty
  refine ⟨hsource, hdead, ?_⟩
  intro ls v hr u hu
  exact (dead_run hr ⟨hu, hdead u⟩).2

/-- One viewer comes and goes while a broadcast is on. -/
theorem hub_lifecycle_viewer : ∃ s t : Threads Nat,
    Reachable Initial Step s ∧ Step s (.returnUnsubscribe 7) t ∧ s.toJoin = some 0 ∧
      LifecycleSafe s ∧ (t.source = none ∨ t.source = some .stopped) := by
  have r : Reachable Initial Step ({ hub := Hub.create 30 } : Threads Nat) := .initial ⟨rfl, rfl⟩
  have r := r.step (.callSubscribe 7 rfl)
  have r := r.step (.subscribeLock rfl rfl)
  have r := r.step (.subscribeStopped rfl rfl)
  have r := r.step (.subscribeNoJoin rfl rfl)
  have r := r.step (.subscribeMake rfl)
  have r := r.step (.subscribeStart rfl)
  have r := r.step (.subscribeRun rfl)
  have r := r.step (.subscribeSpawn rfl)
  have r := r.step (.subscribePush rfl)
  have r := r.step (.subscribeLeave rfl)
  have r := r.step (.pumpTest (t := 0) rfl rfl)
  have r := r.step (.pumpNal (t := 0) [0x65] rfl (by simp))
  have r := r.step (.callUnsubscribe 7 rfl)
  have r := r.step (.pumpLock (t := 0) rfl rfl)
  have r := r.step (.pumpSend (t := 0) rfl)
  have r := r.step (.pumpUnlock (t := 0) rfl)
  have r := r.step (.unsubscribeLock rfl rfl)
  have r := r.step (.unsubscribeErase rfl)
  have r := r.step (.unsubscribeLast rfl rfl rfl)
  have r := r.step (.unsubscribeStop rfl)
  have r := r.step (.unsubscribeMove rfl)
  have r := r.step (.pumpRead (t := 0) rfl)
  have r := r.step (.pumpQuit (t := 0) rfl rfl)
  have r := r.step (.unsubscribeUnlock rfl)
  have r := r.step (.pumpStop (t := 0) rfl)
  have r := r.step (.pumpStore (t := 0) rfl)
  have hsafe := hub_lifecycle r
  refine ⟨_, _, r, .unsubscribeJoin rfl rfl rfl, rfl, hsafe.1, ?_⟩
  exact (hsafe.2 7 _ (.unsubscribeJoin rfl rfl rfl) rfl).1

end Veda.Media.Threads
