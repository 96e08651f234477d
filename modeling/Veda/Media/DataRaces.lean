import Veda.Media.Broadcast
import Veda.Media.SharedHub

/-!
Data races of the Hub. Which memory a thread touches in its next step is read off its program
point; `running_` is atomic and left out. The streamer that `unsubscribe` gives back is destroyed
by its caller.
-/
namespace Veda.Media

open AtomicObject Rtp Transitions

variable {σ : Type}

/-- Memory that the threads share. -/
inductive Cell (σ : Type)
  /-- `subscribers_` -/
  | subscribers
  /-- `sps_` and `pps_` -/
  | parameterSets
  /-- `pump_thread_` -/
  | pumpThread
  /-- The pointer `source_`. -/
  | source
  /-- The object that `source_` points to. -/
  | sourceObject
  | streamer (x : σ)

structure Access (σ : Type) where
  cell : Cell σ
  writes : Bool
  /-- `mu_` is held. -/
  locked : Bool

namespace Access

def read (cell : Cell σ) (locked : Bool) : Access σ := ⟨cell, false, locked⟩
def write (cell : Cell σ) (locked : Bool) : Access σ := ⟨cell, true, locked⟩

/-- Two accesses of different threads that have to be ordered. -/
def Conflicts (a b : Access σ) : Prop :=
  a.cell = b.cell ∧ (a.writes = true ∨ b.writes = true)

end Access

open Access

/-- The accesses of the next step of the control thread. -/
def ControlPc.accesses : ControlPc σ → List (Access σ)
  | subscribe .join _ => [write .pumpThread true]
  -- `source_ = make_source()` destroys the old object.
  | subscribe .make _ => [write .source true, write .sourceObject true]
  | subscribe .start _ => [read .source true, write .sourceObject true]
  | subscribe .reset _ => [write .source true, write .sourceObject true]
  | subscribe .spawn _ => [write .pumpThread true]
  | subscribe .push _ => [write .subscribers true]
  | unsubscribe .erase _ => [write .subscribers true]
  | unsubscribe .test _ => [read .subscribers true]
  | unsubscribe .move _ => [write .pumpThread true]
  | unsubscribe .join x => [write (.streamer x) false]
  | destroyJoin => [write .pumpThread false]
  | destroyMembers => [write .subscribers false, write .parameterSets false,
      write .pumpThread false, write .source false, write .sourceObject false]
  | _ => []

/-- The accesses of the next step of a pump thread. -/
def PumpPc.accesses : PumpPc σ → List (Access σ)
  | reading => [read .source false, write .sourceObject false]
  | wantLock _ => [write .parameterSets true, read .subscribers true]
  | sending _ (x :: _) => [read .subscribers true, write (.streamer x) true]
  | sending _ [] => [read .subscribers true]
  | left _ => [read .source false, write .sourceObject false]
  | _ => []

namespace SharedHub

/-- The accesses of the next step of a thread. -/
def next (s : SharedHub σ) : Owner → List (Access σ)
  | .pump u => (s.threads.pump u).accesses
  | .control =>
    match s.asking with
    | none => s.threads.control.accesses
    | some none => [read .parameterSets true]
    | some (some _) => []

/-- Two threads are about to touch the same memory, one of them writes, and they do not both hold
the mutex for it. -/
def Race (s : SharedHub σ) : Prop :=
  ∃ i j, i ≠ j ∧ ∃ a ∈ s.next i, ∃ b ∈ s.next j, a.Conflicts b ∧
    ¬ (a.locked = true ∧ b.locked = true)

/-- The thread that makes a step. -/
def actor : Threads.Label σ → Owner
  | .pump u => .pump u
  | .send u _ => .pump u
  | _ => .control

/-- The memory that a step changes. A source object changes when it starts or stops and when it
is destroyed. -/
def Changed (s t : SharedHub σ) : Cell σ → Prop
  | .subscribers => t.threads.hub.subscribers ≠ s.threads.hub.subscribers
  | .parameterSets => t.threads.hub.sps ≠ s.threads.hub.sps ∨ t.threads.hub.pps ≠ s.threads.hub.pps
  | .pumpThread => t.threads.pumpThread ≠ s.threads.pumpThread
  | .source => t.threads.source.isSome ≠ s.threads.source.isSome ∨
      t.threads.source = some .made ∧ s.threads.source ≠ some .made
  | .sourceObject => s.threads.source ≠ none ∧ t.threads.source ≠ s.threads.source
  | .streamer x => t.mem x ≠ s.mem x

variable {s t : SharedHub σ} {a b : Access σ} {u : Nat}

theorem live_of_accesses {pc : PumpPc σ} (h : a ∈ pc.accesses) : pc.live = true := by
  cases pc <;> simp_all [PumpPc.accesses, PumpPc.live]

/-- Without the mutex a pump touches its source only. -/
theorem unlocked_of_accesses {pc : PumpPc σ} (h : a ∈ pc.accesses) (hl : a.locked = false) :
    a.cell = .source ∧ a.writes = false ∨ a.cell = .sourceObject := by
  unfold PumpPc.accesses at h
  split at h <;> simp only [List.mem_cons, List.not_mem_nil, or_false] at h <;>
    rcases h with rfl | rfl <;> simp_all [Access.read, Access.write]

theorem locked_of_accesses {pc : PumpPc σ} (h : a ∈ pc.accesses) (hsource : a.cell ≠ .source)
    (hobject : a.cell ≠ .sourceObject) : a.locked = true := by
  by_contra hl
  rcases unlocked_of_accesses h (by simpa using hl) with ⟨hcell, -⟩ | hcell
  · exact hsource hcell
  · exact hobject hcell

/-- A pump leaves its handle alone, and touches a streamer that it serves. -/
theorem cell_of_accesses {pc : PumpPc σ} (h : a ∈ pc.accesses) : a.cell ≠ .pumpThread ∧
    ∀ x, a.cell = .streamer x → ∃ nal todo, pc = .sending nal (x :: todo) := by
  unfold PumpPc.accesses at h
  split at h <;> simp_all [Access.read, Access.write] <;> rcases h with rfl | rfl <;> simp

/-- The control thread touches what a pump uses while no pump is there, or under the mutex, or it
is a streamer that has left the Hub. -/
theorem Race.control_cases {pc : ControlPc σ} (h : a ∈ pc.accesses) :
    pc.starting = true ∨ pc = .destroyMembers ∨ a.cell = .pumpThread ∨
      (a.cell = .subscribers ∧ a.locked = true) ∨
      ∃ x, pc = .unsubscribe .join x ∧ a = write (.streamer x) false := by
  unfold ControlPc.accesses at h
  split at h <;> simp_all [Access.read, Access.write, ControlPc.starting]

theorem next_control (h : a ∈ s.next .control) :
    s.asking = none ∧ a ∈ s.threads.control.accesses ∨
      s.asking ≠ none ∧ a = read .parameterSets true := by
  simp only [next] at h
  split at h <;> simp_all

/-- The invariants that keep the threads apart. -/
structure Apart (s : SharedHub σ) : Prop where
  sound : s.Sound
  broadcasting : s.threads.Broadcasting

theorem Apart.control_pump (hs : s.Apart) (ha : a ∈ s.next .control) (hb : b ∈ s.next (.pump u))
    (hc : a.Conflicts b) : a.locked = true ∧ b.locked = true := by
  have hlive := live_of_accesses hb
  obtain ⟨hhandle, hstreamer⟩ := cell_of_accesses hb
  rcases next_control ha with ⟨-, ha⟩ | ⟨-, rfl⟩
  · rcases Race.control_cases ha with hstarting | hgone | hcell | ⟨hcell, hlocked⟩ | ⟨x, hjoin, rfl⟩
    · have hidle := hs.sound.threads.handles.idle (.inl hstarting) u
      rw [hidle] at hlive
      cases hlive
    · have hidle := hs.sound.threads.handles.idle (.inr hgone) u
      rw [hidle] at hlive
      cases hlive
    · exact absurd (hc.1.symm.trans hcell) hhandle
    · have hsame := hc.1.symm.trans hcell
      exact ⟨hlocked, locked_of_accesses hb (by simp [hsame]) (by simp [hsame])⟩
    · obtain ⟨nal, todo, hsending⟩ := hstreamer x hc.1.symm
      have hin := hs.broadcasting.todo u nal _ hsending x List.mem_cons_self
      exact absurd hin (hs.broadcasting.erased .join x hjoin (by simp) (by simp))
  · have hsame : b.cell = .parameterSets := hc.1.symm
    exact ⟨rfl, locked_of_accesses hb (by simp [hsame]) (by simp [hsame])⟩

/-- Only one pump is ever about to touch anything. -/
theorem Apart.pump_pump (hs : s.Apart) {v : Nat} (ha : a ∈ s.next (.pump u))
    (hb : b ∈ s.next (.pump v)) : u = v :=
  hs.sound.threads.handles.same (live_of_accesses ha) (live_of_accesses hb)

theorem Apart.no_race (hs : s.Apart) : ¬ s.Race := by
  rintro ⟨i, j, hne, a, ha, b, hb, hc, hunlocked⟩
  cases i with
  | control =>
    cases j with
    | control => exact hne rfl
    | pump v => exact hunlocked (hs.control_pump ha hb hc)
  | pump u =>
    cases j with
    | control =>
      have hback : b.Conflicts a := ⟨hc.1.symm, hc.2.symm⟩
      exact hunlocked (hs.control_pump hb ha hback).symm
    | pump v => exact hne (congrArg Owner.pump (hs.pump_pump ha hb))

variable [DecidableEq σ] {l : Threads.Label σ} {threads : Threads σ}

theorem apart_step {events : List (HubEvent σ)} (h : Step s events t) (hs : s.Apart) :
    t.Apart := by
  refine ⟨sound_step h hs.sound, ?_⟩
  cases h with
  | threads hstep _ =>
    exact Threads.broadcasting_step hstep hs.sound.threads hs.broadcasting
  | _ => exact hs.broadcasting

/-- No step of the control thread lies inside a call of `sprop_parameter_sets`. -/
theorem Apart.not_asking (hs : s.Apart) (h : s.threads.Step l threads)
    (hbegins : begins l = true → s.asking = none) (hl : actor l = .control) : s.asking = none := by
  by_contra hasking
  have hidle := hs.sound.outside hasking
  cases h <;> simp_all [actor, begins]

omit [DecidableEq σ] in
theorem holds_of_accesses {pc : ControlPc σ} (h : a ∈ pc.accesses) (hl : a.locked = true) :
    pc.holds = true := by
  unfold ControlPc.accesses at h
  split at h <;> simp_all [Access.read, Access.write, ControlPc.holds]
  rcases h with rfl | rfl | rfl | rfl | rfl <;> cases hl

omit [DecidableEq σ] in
theorem locked_cases {pc : PumpPc σ} (h : a ∈ pc.accesses) (hl : a.locked = true) :
    pc.sends = true ∨ ∃ nal, pc = .wantLock nal := by
  unfold PumpPc.accesses at h
  split at h <;> simp_all [Access.read, Access.write, PumpPc.sends] <;>
    rcases h with rfl | rfl <;> cases hl

/-- A locked access is made by the holder of the mutex, which the step may have taken. -/
theorem Apart.held (hs : s.Apart) (h : s.threads.Step l threads)
    (hbegins : begins l = true → s.asking = none) (ha : a ∈ s.next (actor l))
    (hl : a.locked = true) :
    s.threads.mutex = some (actor l) ∨ threads.mutex = some (actor l) := by
  have hlocking := hs.sound.threads.locking
  have hpump : ∀ u, actor l = .pump u → a ∈ (s.threads.pump u).accesses →
      s.threads.mutex = some (.pump u) ∨ threads.mutex = some (.pump u) := by
    intro u hu ha
    rcases locked_cases ha hl with hsends | ⟨nal, hwants⟩
    · exact .inl ((hlocking.sender u).mpr hsends)
    · right
      cases h <;> simp_all [actor]
  cases hactor : actor l with
  | pump u =>
    rw [hactor] at ha
    exact hpump u hactor ha
  | control =>
    rw [hactor] at ha
    rcases next_control ha with ⟨-, ha⟩ | ⟨hasking, -⟩
    · exact .inl (hlocking.owner.mpr (holds_of_accesses ha hl))
    · exact absurd (hs.not_asking h hbegins hactor) hasking

end SharedHub

namespace Threads

variable [DecidableEq σ] {s t : Threads σ} {l : Label σ}

theorem subscribers_changed (h : Step s l t) (hc : t.hub.subscribers ≠ s.hub.subscribers) :
    l = .control ∧ ∃ x, s.control = .subscribe .push x ∨ s.control = .unsubscribe .erase x := by
  cases h <;> simp_all

theorem parameterSets_changed (h : Step s l t)
    (hc : t.hub.sps ≠ s.hub.sps ∨ t.hub.pps ≠ s.hub.pps) :
    ∃ u nal, l = .pump u ∧ s.pump u = .wantLock nal := by
  cases h <;> simp_all [Hub.subscribe, Hub.unsubscribe]

theorem pumpThread_changed (h : Step s l t) (hc : t.pumpThread ≠ s.pumpThread) :
    l = .control ∧ ((∃ x, s.control = .subscribe .join x ∨ s.control = .subscribe .spawn x ∨
      s.control = .unsubscribe .move x) ∨ s.control = .destroyJoin) := by
  cases h <;> simp_all

theorem source_changed (h : Step s l t) (hs : s.Sound) (hc : t.source ≠ s.source) :
    l = .control ∧ t.source = some .made ∧ (∃ x, s.control = .subscribe .make x) ∨
    l = .control ∧ t.source = none ∧
      ((∃ x, s.control = .subscribe .reset x) ∨ s.control = .destroyMembers) ∨
    t.source.isSome = s.source.isSome ∧ t.source ≠ some .made ∧
      (l = .control ∧ (∃ x, s.control = .subscribe .start x) ∨
        ∃ u eof, l = .pump u ∧ s.pump u = .left eof) := by
  have hmade := hs.sourcing.made
  cases h <;> simp_all

end Threads

namespace SharedHub

variable [DecidableEq σ] {s : SharedHub σ} {l : Threads.Label σ} {threads : Threads σ}

theorem mem_changed (h : s.threads.Step l threads) {x : σ}
    (hc : memAfter s.threads l s.mem x ≠ s.mem x) :
    ∃ u nal todo, l = .send u x ∧ s.threads.pump u = .sending nal (x :: todo) := by
  cases h with
  | @pumpSend u nal y todo hp =>
    have hxy : x = y := by
      by_contra hxy
      simp [memAfter, hp, hxy] at hc
    exact ⟨u, nal, todo, by rw [hxy], by rw [hp, hxy]⟩
  | _ => exact absurd rfl hc

/-- What a step changes, its thread was about to write. -/
theorem Apart.changed (hs : s.Apart) (h : s.threads.Step l threads)
    (hbegins : begins l = true → s.asking = none) (c : Cell σ)
    (hc : Changed s { s with threads, mem := memAfter s.threads l s.mem } c) :
    ∃ a ∈ s.next (actor l), a.cell = c ∧ a.writes = true := by
  have hcontrol : ∀ a, l = .control → a ∈ s.threads.control.accesses → a ∈ s.next (actor l) := by
    rintro a rfl ha
    simpa [next, actor, hs.not_asking h hbegins rfl] using ha
  cases c with
  | subscribers =>
    obtain ⟨hl, x, hx | hx⟩ := Threads.subscribers_changed h hc
    · exact ⟨write .subscribers true, hcontrol _ hl (by simp [hx, ControlPc.accesses]), rfl, rfl⟩
    · exact ⟨write .subscribers true, hcontrol _ hl (by simp [hx, ControlPc.accesses]), rfl, rfl⟩
  | parameterSets =>
    obtain ⟨u, nal, rfl, hp⟩ := Threads.parameterSets_changed h hc
    exact ⟨write .parameterSets true, by simp [next, actor, hp, PumpPc.accesses], rfl, rfl⟩
  | pumpThread =>
    obtain ⟨hl, ⟨x, hx | hx | hx⟩ | hx⟩ := Threads.pumpThread_changed h hc
    · exact ⟨write .pumpThread true, hcontrol _ hl (by simp [hx, ControlPc.accesses]), rfl, rfl⟩
    · exact ⟨write .pumpThread true, hcontrol _ hl (by simp [hx, ControlPc.accesses]), rfl, rfl⟩
    · exact ⟨write .pumpThread true, hcontrol _ hl (by simp [hx, ControlPc.accesses]), rfl, rfl⟩
    · exact ⟨write .pumpThread false, hcontrol _ hl (by simp [hx, ControlPc.accesses]), rfl, rfl⟩
  | source =>
    have hsource : threads.source ≠ s.threads.source := by
      rintro he
      rcases hc with hc | ⟨hmade, hc⟩
      · exact hc (congrArg Option.isSome he)
      · exact hc (he.symm.trans hmade)
    rcases Threads.source_changed h hs.sound.threads hsource with
      ⟨hl, -, x, hx⟩ | ⟨hl, -, ⟨x, hx⟩ | hx⟩ | ⟨hsome, hmade, -⟩
    · exact ⟨write .source true, hcontrol _ hl (by simp [hx, ControlPc.accesses]), rfl, rfl⟩
    · exact ⟨write .source true, hcontrol _ hl (by simp [hx, ControlPc.accesses]), rfl, rfl⟩
    · exact ⟨write .source false, hcontrol _ hl (by simp [hx, ControlPc.accesses]), rfl, rfl⟩
    · rcases hc with hc | ⟨hnew, -⟩
      · exact absurd hsome hc
      · exact absurd hnew hmade
  | sourceObject =>
    rcases Threads.source_changed h hs.sound.threads hc.2 with
      ⟨hl, -, x, hx⟩ | ⟨hl, -, ⟨x, hx⟩ | hx⟩ | ⟨-, -, ⟨hl, x, hx⟩ | ⟨u, eof, rfl, hp⟩⟩
    · exact ⟨write .sourceObject true, hcontrol _ hl (by simp [hx, ControlPc.accesses]), rfl, rfl⟩
    · exact ⟨write .sourceObject true, hcontrol _ hl (by simp [hx, ControlPc.accesses]), rfl, rfl⟩
    · exact ⟨write .sourceObject false, hcontrol _ hl (by simp [hx, ControlPc.accesses]), rfl, rfl⟩
    · exact ⟨write .sourceObject true, hcontrol _ hl (by simp [hx, ControlPc.accesses]), rfl, rfl⟩
    · exact ⟨write .sourceObject false, by simp [next, actor, hp, PumpPc.accesses], rfl, rfl⟩
  | streamer x =>
    obtain ⟨u, nal, todo, rfl, hp⟩ := mem_changed h hc
    exact ⟨write (.streamer x) true, by simp [next, actor, hp, PumpPc.accesses], rfl, rfl⟩

variable {ssrc : σ → UInt32} {sequence : σ → UInt16} {outcome : σ → Nat → Bool}

/-- No data race in any interleaving: two threads are never about to touch the same memory, one of
them to write, unless both do it under the mutex. An access that counts as under the mutex is made
by its holder, and every change of shared memory is an access of the thread that makes it. -/
theorem data_race_free
    (h : Reachable (Initial ssrc sequence outcome) (Step (σ := σ)) s) :
    ¬ s.Race ∧ ∀ l t, s.threads.Step l t → (begins l = true → s.asking = none) →
      (∀ a ∈ s.next (actor l), a.locked = true →
        s.threads.mutex = some (actor l) ∨ t.mutex = some (actor l)) ∧
      ∀ c, Changed s { s with threads := t, mem := memAfter s.threads l s.mem } c →
        ∃ a ∈ s.next (actor l), a.cell = c ∧ a.writes = true := by
  have hapart : s.Apart := by
    refine h.invariant (p := Apart) (fun _ _ _ => apart_step) ?_
    rintro s ⟨hthreads, hasking, -⟩
    refine ⟨⟨Threads.sound_initial hthreads, by simp [hasking], ?_⟩,
      Threads.broadcasting_initial hthreads⟩
    rw [hthreads.2]
    simp
  refine ⟨hapart.no_race, fun l t hstep hbegins => ⟨?_, ?_⟩⟩
  · exact fun a ha hl => hapart.held hstep hbegins ha hl
  · exact fun c hc => hapart.changed hstep hbegins c hc

/-- A second viewer is about to be added while the pump waits for the mutex to broadcast. -/
theorem data_race_free_broadcast : ∃ s : SharedHub Nat, ¬ s.Race ∧
    write .subscribers true ∈ s.next .control ∧ read .subscribers true ∈ s.next (.pump 0) := by
  have r : Reachable (Initial (fun _ => 1) (fun _ => 2) fun _ _ => true) (Step (σ := Nat))
      { threads := { hub := Hub.create 30 }, mem := fun _ => newStreamer 1 2 fun _ => true } :=
    .initial ⟨⟨rfl, rfl⟩, rfl, rfl⟩
  have r := r.step (.threads (.callSubscribe 7 rfl) fun _ => rfl)
  have r := r.step (.threads (.subscribeLock rfl rfl) fun _ => rfl)
  have r := r.step (.threads (.subscribeStopped rfl rfl) fun _ => rfl)
  have r := r.step (.threads (.subscribeNoJoin rfl rfl) fun _ => rfl)
  have r := r.step (.threads (.subscribeMake rfl) fun _ => rfl)
  have r := r.step (.threads (.subscribeStart rfl) fun _ => rfl)
  have r := r.step (.threads (.subscribeRun rfl) fun _ => rfl)
  have r := r.step (.threads (.subscribeSpawn rfl) fun _ => rfl)
  have r := r.step (.threads (.subscribePush rfl) fun _ => rfl)
  have r := r.step (.threads (.subscribeLeave rfl) fun _ => rfl)
  have r := r.step (.threads (.callSubscribe 8 rfl) fun _ => rfl)
  have r := r.step (.threads (.pumpTest (t := 0) rfl rfl) (by simp [begins]))
  have r := r.step (.threads (.pumpNal (t := 0) [0x65] rfl (by simp)) (by simp [begins]))
  have r := r.step (.threads (.subscribeLock rfl rfl) fun _ => rfl)
  have r := r.step (.threads (.subscribeRunning rfl rfl) fun _ => rfl)
  exact ⟨_, (data_race_free r).1, List.mem_cons_self, List.mem_cons_of_mem _ List.mem_cons_self⟩

end SharedHub
end Veda.Media
