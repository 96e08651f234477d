import Veda.Media.HubLifecycle

/-!
A new viewer and the pump it is attached to. Here a section of the control thread that holds
`mu_` runs without a step of a pump in between. The pump leaves its loop, stops the source and
clears `running_` without the lock, so `subscribe` can find `running_` set in between.
-/
namespace Veda.Media

open Transitions

variable {σ : Type}

/-- The thread is still inside `while (running_)`. -/
def PumpPc.inLoop : PumpPc σ → Bool
  | test => true
  | reading => true
  | wantLock _ => true
  | sending _ _ => true
  | _ => false

theorem PumpPc.inLoop_iff {pc : PumpPc σ} : pc.inLoop = true ↔
    pc.live = true ∧ pc.sawEof = false ∧ pc.quits = false := by
  cases pc <;> simp [inLoop, live, sawEof, quits]

namespace Threads

variable {s t : Threads σ} {l : Label σ}

def Label.ofPump : Label σ → Bool
  | .pump _ => true
  | .send _ _ => true
  | _ => false

/-- `pump_thread_` is inside its loop, with a source that is on. -/
def LivePump (s : Threads σ) : Prop :=
  ∃ u, s.pumpThread = some u ∧ (s.pump u).inLoop = true ∧ s.source = some .started

/-- No thread is between a `read_nal` that returned `false` and its last step. -/
def NoneEnding (s : Threads σ) : Prop :=
  ∀ u, (s.pump u).sawEof = true → (s.pump u).finished = true

/-- Outside its start, a pump that `running_` announces and that is not ending is in its
loop. -/
theorem Sound.inLoop_of_running (hs : Sound s) (hrun : s.running = true)
    (hc : s.control.starting = false) (hending : NoneEnding s) :
    ∃ u, s.pumpThread = some u ∧ (s.pump u).inLoop = true := by
  rcases hs.flags.run hrun with ⟨x, hx⟩ | ⟨u, hu, hlive⟩
  · simp [hx, ControlPc.starting] at hc
  · refine ⟨u, hu, PumpPc.inLoop_iff.mpr ⟨hlive, ?_, ?_⟩⟩
    · by_contra heof
      have hfin := hending u (by simpa using heof)
      simp [PumpPc.live_of_finished hfin] at hlive
    · by_contra hquit
      have hstop := hs.flags.quit u (by simpa using hquit)
      simp [hstop] at hrun

/-- The pump that `running_` still announces is the ending one. -/
theorem Sound.running_of_ending {x : σ} {u : Nat} (hs : Sound s)
    (hc : s.control = .subscribe .lock x) (heof : (s.pump u).sawEof = true)
    (hfin : (s.pump u).finished = false) : s.pumpThread = some u ∧ s.running = true := by
  have hlive : (s.pump u).live = true := by
    cases hp : s.pump u <;> simp_all [PumpPc.sawEof, PumpPc.finished, PumpPc.live]
  have hj : s.toJoin = none := by
    by_contra hj
    obtain ⟨y, hy | hy⟩ := hs.handles.moved hj <;> simp [hc] at hy
  have hu : s.pumpThread = some u := by
    simpa [hj] using hs.handles.handle u hlive
  refine ⟨hu, ?_⟩
  by_contra hrun
  have hquiet := hs.flags.quiet (by simpa using hrun) (by simp [hc]) (by simp [hc]) u hu
  simp [hfin] at hquiet

variable [DecidableEq σ]

/-- A step, with the sections of the control thread uninterrupted. -/
def AtomicStep (s : Threads σ) (l : Label σ) (t : Threads σ) : Prop :=
  Step s l t ∧ (l.ofPump = true → s.control.holds = false)

/-- An atomic step that lets `subscribe` take `mu_` only while no thread is ending. -/
def CarefulStep (s : Threads σ) (l : Label σ) (t : Threads σ) : Prop :=
  AtomicStep s l t ∧ ∀ x, s.control = .subscribe .lock x → l = .control → NoneEnding s

/-- What the section of `subscribe` knows about the pump once it will add to its viewers. -/
structure Attaching (s : Threads σ) : Prop where
  tested : ∀ x, s.control = .subscribe .test x → s.running = true →
    ∃ u, s.pumpThread = some u ∧ (s.pump u).inLoop = true
  added : ∀ x, s.control = .subscribe .push x ∨ s.control = .subscribe (.leave true) x →
    ∃ u, s.pumpThread = some u ∧ (s.pump u).inLoop = true

theorem CarefulStep.step (h : CarefulStep s l t) : Step s l t := h.1.1

theorem AtomicStep.control (h : Step s l t) (hl : l.ofPump = false) : AtomicStep s l t :=
  ⟨h, by simp [hl]⟩

theorem CarefulStep.control (h : Step s l t) (hl : l.ofPump = false)
    (hc : ∀ x, s.control = .subscribe .lock x → NoneEnding s) : CarefulStep s l t :=
  ⟨.control h hl, fun x hx _ => hc x hx⟩

theorem attaching_step (h : CarefulStep s l t) (hs : Sound s) (ha : Attaching s) :
    Attaching t := by
  obtain ⟨htested, hadded⟩ := ha
  obtain ⟨⟨h, hatomic⟩, hcareful⟩ := h
  have hloop := hs.inLoop_of_running
  constructor
  · cases h <;> grind -ring -linarith [ControlPc.starting, ControlPc.holds, Label.ofPump]
  · cases h <;> grind -ring -linarith [ControlPc.holds, Label.ofPump, PumpPc.inLoop]

theorem attaching_reachable (h : Reachable Initial CarefulStep s) : Sound s ∧ Attaching s := by
  refine h.invariant (p := fun s => Sound s ∧ Attaching s) ?_ ?_
  · rintro s l t h ⟨hs, ha⟩
    exact ⟨sound_step _ _ _ h.step hs, attaching_step h hs ha⟩
  · intro s hi
    refine ⟨sound_initial hi, ?_⟩
    rw [hi.2]
    constructor <;> simp

/-- Where no `subscribe` meets an ending pump, each one that returns `true` has a live one. -/
theorem careful_attaches {x : σ} (h : Reachable Initial CarefulStep s)
    (hret : Step s (.returnSubscribe (some x) true) t) : LivePump t := by
  obtain ⟨hs, ha⟩ := attaching_reachable h
  cases hret with
  | subscribeLeave hc =>
    obtain ⟨u, hu, hloop⟩ := ha.added x (.inr hc)
    refine ⟨u, hu, hloop, hs.sourcing.used u ?_⟩
    cases hp : s.pump u <;> simp_all [PumpPc.inLoop, PumpPc.usesSource]

theorem lock_eq {x : σ} (h : Step s .control t) (hc : s.control = .subscribe .lock x) :
    t = { s with mutex := some .control, control := .subscribe .test x } := by
  cases h <;> simp_all

/-- A `subscribe` that meets an ending pump returns `true` all the same. -/
theorem ending_attaches {x : σ} (h : Reachable Initial AtomicStep s)
    (hc : s.control = .subscribe .lock x) (hlock : AtomicStep s .control t)
    (hending : ¬ NoneEnding s) : ∃ ls v w, Run AtomicStep t ls v ∧
      AtomicStep v (.returnSubscribe (some x) true) w ∧ ¬ LivePump w := by
  have hs := sound_reachable (h.mono fun _ _ _ => And.left)
  obtain ⟨u, heof, hfin⟩ : ∃ u, (s.pump u).sawEof = true ∧ (s.pump u).finished = false := by
    simpa [NoneEnding] using hending
  obtain ⟨hu, hrun⟩ := hs.running_of_ending hc heof hfin
  obtain rfl := lock_eq hlock.1 hc
  refine ⟨[.control, .control], _, _, .stepL (AtomicStep.control (.subscribeRunning rfl hrun) rfl)
    (.single (AtomicStep.control (.subscribePush rfl) rfl)),
    AtomicStep.control (.subscribeLeave rfl) rfl, ?_⟩
  rintro ⟨v, hv, hloop, -⟩
  obtain rfl : u = v := Option.some.inj (hu.symm.trans hv)
  have hsaw := (PumpPc.inLoop_iff.mp hloop).2.1
  simp [heof] at hsaw

/-- `subscribe` returns `true` with a live pump in every run where it never takes `mu_` while
a pump is ending, and with a dead one wherever it does. -/
theorem subscribe_attaches :
    (∀ s t x, Reachable Initial CarefulStep (s : Threads σ) →
      Step s (.returnSubscribe (some x) true) t → LivePump t) ∧
    ∀ s t x, Reachable Initial AtomicStep (s : Threads σ) → s.control = .subscribe .lock x →
      AtomicStep s .control t → ¬ NoneEnding s → ∃ ls v w, Run AtomicStep t ls v ∧
        AtomicStep v (.returnSubscribe (some x) true) w ∧ ¬ LivePump w := by
  constructor
  · intro s t x h hret
    exact careful_attaches h hret
  · intro s t x h hc hlock hending
    exact ending_attaches h hc hlock hending

section FirstViewer

/-- Viewer 7 is about to be told that it is subscribed. -/
def firstViewer : Threads Nat where
  hub := { tsIncrement := 3000, subscribers := [7] }
  mutex := some .control
  running := true
  pumpThread := some 0
  source := some .started
  control := .subscribe (.leave true) 7
  pump := Function.update (fun _ => .absent) 0 .test
  spawned := 1

theorem firstViewer_reachable : Reachable Initial CarefulStep firstViewer := by
  have r : Reachable Initial CarefulStep ({ hub := { tsIncrement := 3000 } } : Threads Nat) :=
    .initial ⟨rfl, rfl⟩
  have r := r.step (.control (.callSubscribe 7 rfl) rfl (by simp))
  have r := r.step (.control (.subscribeLock rfl rfl) rfl (by simp [NoneEnding, PumpPc.sawEof]))
  have r := r.step (.control (.subscribeStopped rfl rfl) rfl (by simp))
  have r := r.step (.control (.subscribeNoJoin rfl rfl) rfl (by simp))
  have r := r.step (.control (.subscribeMake rfl) rfl (by simp))
  have r := r.step (.control (.subscribeStart rfl) rfl (by simp))
  have r := r.step (.control (.subscribeRun rfl) rfl (by simp))
  have r := r.step (.control (.subscribeSpawn rfl) rfl (by simp))
  exact r.step (.control (.subscribePush rfl) rfl (by simp))

theorem subscribe_attaches_first :
    ∃ t, Step firstViewer (.returnSubscribe (some 7) true) t ∧ LivePump t :=
  have hret := .subscribeLeave rfl
  ⟨_, hret, subscribe_attaches.1 firstViewer _ 7 firstViewer_reachable hret⟩

/-- The second viewer comes between the end of the file and `running_ = false`. -/
theorem subscribe_attaches_ended : ∃ s t : Threads Nat, Reachable Initial AtomicStep s ∧
    AtomicStep s (.returnSubscribe (some 8) true) t ∧ t.pumpThread = some 0 ∧
      (t.pump 0).sawEof = true ∧ ¬ LivePump t := by
  have r := firstViewer_reachable.mono fun _ _ _ => And.left
  have r := r.step (.control (.subscribeLeave rfl) rfl)
  have r := r.step ⟨.pumpTest (t := 0) rfl rfl, fun _ => rfl⟩
  have r := r.step ⟨.pumpEof (t := 0) rfl, fun _ => rfl⟩
  have r := r.step (.control (.callSubscribe 8 rfl) rfl)
  have r := r.step (.control (.subscribeLock rfl rfl) rfl)
  have r := r.step (.control (.subscribeRunning rfl rfl) rfl)
  have r := r.step (.control (.subscribePush rfl) rfl)
  refine ⟨_, _, r, .control (.subscribeLeave rfl) rfl, rfl, rfl, ?_⟩
  rintro ⟨u, hu, hloop, -⟩
  cases hu
  simp [PumpPc.inLoop] at hloop

end FirstViewer

end Threads
end Veda.Media
