import Veda.Media.SharedHub

/-!
Linearizability of the Hub: every interleaving of its threads looks to their callers as if each
call had taken effect at one point.
-/
namespace Veda.Media

open AtomicObject Rtp Transitions

variable {σ : Type}

def PumpPc.phase : PumpPc σ → Phase (HubCall σ) HubCall.Res
  | wantLock nal => .called (.onNal nal)
  | sending nal _ => .answered (.onNal nal) ()
  | _ => .idle

namespace SharedHub

def controlPhase (s : SharedHub σ) : Phase (HubCall σ) HubCall.Res :=
  match s.threads.control with
  | .idle =>
    match s.asking with
    | none => .idle
    | some none => .called .spropParameterSets
    | some (some sprop) => .answered .spropParameterSets sprop
  | .subscribe (.leave ok) x => .answered (.subscribe (some x)) ok
  | .subscribe _ x => .called (.subscribe (some x))
  | .unsubscribe .lock x => .called (.unsubscribe x)
  | .unsubscribe .erase x => .called (.unsubscribe x)
  | .unsubscribe _ x => .answered (.unsubscribe x) ()
  | _ => .idle

/-- Where each thread is with its call: a broadcast takes effect as it takes the mutex, the
other calls as they change the list or read the slots. -/
def phases (s : SharedHub σ) : Owner → Phase (HubCall σ) HubCall.Res
  | .control => s.controlPhase
  | .pump u => (s.threads.pump u).phase

/-- The control thread has moved and no pump has. -/
theorem phase_of_control {s t : SharedHub σ} (h : t.threads.pump = s.threads.pump) :
    t.phases = Function.update s.phases .control t.controlPhase := by
  funext o
  cases o with
  | control => simp [phases]
  | pump u => simp [phases, h]

/-- A pump has moved and the control thread has not. -/
theorem phase_of_pump {s t : SharedHub σ} {u : Nat} (pc : PumpPc σ)
    (h : t.threads.pump = (s.threads.setPump u pc).pump)
    (hc : t.controlPhase = s.controlPhase) :
    t.phases = Function.update s.phases (.pump u) pc.phase := by
  funext o
  cases o with
  | control => simpa [phases] using hc
  | pump v =>
    by_cases hv : v = u
    · subst hv
      simp [phases, h]
    · simp [phases, h, hv]

/-- What a step does to the calls of the threads, with its sections under the mutex and the
begins and ends that are seen. -/
inductive Moves (s t : SharedHub σ) : List (HubOp σ) → List (HubEvent σ) → Prop
  | silent : t.phases = s.phases → Moves s t [] []
  | invoke (o : Owner) {c : HubCall σ} : s.phases o = .idle →
      t.phases = Function.update s.phases o (.called c) → Moves s t [] [.invoke o c]
  | perform (o : Owner) {c : HubCall σ} {r : c.Res} : s.phases o = .called c →
      t.phases = Function.update s.phases o (.answered c r) → c.Allowed s.threads.hub r →
      Moves s t (c.ops r) []
  | respond (o : Owner) {c : HubCall σ} {r : c.Res} : s.phases o = .answered c r →
      t.phases = Function.update s.phases o .idle → Moves s t [] [.respond o c r]
  /-- `subscribe` without a streamer. -/
  | null : s.phases .control = .idle → t.phases = s.phases → Moves s t []
      [.invoke .control (.subscribe none), .respond .control (.subscribe none) false]

section Calls
variable {s t : SharedHub σ}

/-- A step of the control thread away from the data, inside a call or outside all. -/
theorem Moves.control {threads : Threads σ} (hpump : threads.pump = s.threads.pump)
    (hphase : controlPhase { s with threads } = s.controlPhase) :
    Moves s { s with threads } [] [] := by
  refine .silent ?_
  rw [phase_of_control (s := s) hpump, hphase]
  exact Function.update_eq_self _ _

theorem Moves.control_perform {c : HubCall σ} {r : c.Res} {threads : Threads σ}
    (hpump : threads.pump = s.threads.pump) (hcalled : s.controlPhase = .called c)
    (hphase : controlPhase { s with threads } = .answered c r)
    (hallowed : c.Allowed s.threads.hub r) : Moves s { s with threads } (c.ops r) [] := by
  refine .perform .control hcalled ?_ hallowed
  rw [phase_of_control (s := s) hpump, hphase]

theorem Moves.control_invoke {c : HubCall σ} {threads : Threads σ}
    (hpump : threads.pump = s.threads.pump) (hidle : s.controlPhase = .idle)
    (hphase : controlPhase { s with threads } = .called c) :
    Moves s { s with threads } [] [.invoke .control c] := by
  refine .invoke .control hidle ?_
  rw [phase_of_control (s := s) hpump, hphase]

theorem Moves.control_respond {c : HubCall σ} {r : c.Res} {threads : Threads σ}
    (hpump : threads.pump = s.threads.pump) (hanswered : s.controlPhase = .answered c r)
    (hphase : controlPhase { s with threads } = .idle) :
    Moves s { s with threads } [] [.respond .control c r] := by
  refine .respond .control hanswered ?_
  rw [phase_of_control (s := s) hpump, hphase]

/-- A pump stays where it is with its call. -/
theorem Moves.pump {u : Nat} {pc : PumpPc σ} (pc' : PumpPc σ) {threads : Threads σ}
    {mem : σ → Streamer} (hp : s.threads.pump u = pc) (hphase : pc.phase = pc'.phase)
    (hpump : threads.pump = (s.threads.setPump u pc').pump)
    (hcontrol : controlPhase { s with threads, mem } = s.controlPhase) :
    Moves s { s with threads, mem } [] [] := by
  refine .silent ?_
  rw [phase_of_pump (s := s) pc' hpump hcontrol, ← hphase, ← hp]
  exact Function.update_eq_self _ _

theorem moves_step [DecidableEq σ] {l : Threads.Label σ} {threads : Threads σ}
    (h : s.threads.Step l threads) (hbegins : begins l = true → s.asking = none)
    (hs : s.Sound) : Moves s { s with threads, mem := memAfter s.threads l s.mem }
      (point s.threads l) (events s.threads l threads) := by
  have hidle : s.threads.control = .idle → begins l = true → s.controlPhase = .idle := by
    intro hc hl
    simp only [controlPhase, hc, hbegins hl]
  have hreturned : s.threads.control ≠ .idle →
      controlPhase { s with threads := { threads with control := .idle } } = .idle := by
    intro hc
    simp only [controlPhase, hs.not_asking hc]
  cases h with
  | subscribeNull hc => exact .null (hidle hc rfl) rfl
  | callSubscribe x hc => exact .control_invoke rfl (hidle hc rfl) rfl
  | callUnsubscribe x hc => exact .control_invoke rfl (hidle hc rfl) rfl
  | callDestroy hc => exact .control rfl (by rw [hidle hc rfl]; rfl)
  | @subscribeReset x hc =>
    simp only [point, hc]
    exact .control_perform (c := .subscribe (some x)) rfl (by simp [controlPhase, hc]) rfl trivial
  | @subscribePush x hc =>
    simp only [point, hc]
    exact .control_perform (c := .subscribe (some x)) rfl (by simp [controlPhase, hc]) rfl trivial
  | @unsubscribeErase x hc =>
    simp only [point, hc]
    exact .control_perform (c := .unsubscribe x) rfl (by simp [controlPhase, hc]) rfl trivial
  | subscribeLeave hc =>
    exact .control_respond rfl (by simp [controlPhase, hc]) (hreturned (by simp [hc]))
  | unsubscribeNoJoin hc hj =>
    exact .control_respond rfl (by simp [controlPhase, hc]) (hreturned (by simp [hc]))
  | unsubscribeJoin hc hj hfin =>
    exact .control_respond rfl (by simp [controlPhase, hc]) (hreturned (by simp [hc]))
  | @pumpNal u nal hp hnal =>
    simp only [point, events, hp, Threads.setPump_pump, if_true]
    refine .invoke (.pump u) ?_ (phase_of_pump (.wantLock nal) rfl rfl)
    simp only [phases, hp, PumpPc.phase]
  | @pumpLock u nal hp hmutex =>
    simp only [point, events, hp, Threads.setPump_pump, if_true]
    refine .perform (.pump u) (c := .onNal nal) ?_
      (phase_of_pump (.sending nal s.threads.hub.subscribers) rfl rfl) trivial
    simp only [phases, hp, PumpPc.phase]
  | @pumpUnlock u nal hp =>
    simp only [point, events, hp, Threads.setPump_pump, if_true]
    refine .respond (.pump u) ?_ (phase_of_pump .reading rfl rfl)
    simp only [phases, hp, PumpPc.phase]
  | @pumpSend u nal x todo hp => exact .pump (.sending nal todo) hp rfl rfl rfl
  | pumpEmptyNal hp =>
    simp only [point, events, hp]
    exact .silent rfl
  | pumpTest hp _ =>
    simp only [point, events, hp]
    exact .pump .reading hp rfl rfl rfl
  | pumpQuit hp _ =>
    simp only [point, events, hp]
    exact .pump (.left false) hp rfl rfl rfl
  | pumpRead hp =>
    simp only [point, events, hp, Threads.setPump_pump, if_true]
    exact .pump .test hp rfl rfl rfl
  | pumpEof hp =>
    simp only [point, events, hp, Threads.setPump_pump, if_true]
    exact .pump .ended hp rfl rfl rfl
  | pumpBreak hp =>
    simp only [point, events, hp]
    exact .pump (.left true) hp rfl rfl rfl
  | @pumpStop u eof hp =>
    simp only [point, events, hp]
    exact .pump (.stopped eof) hp rfl rfl rfl
  | @pumpStore u eof hp =>
    simp only [point, events, hp]
    exact .pump (.done eof) hp rfl rfl rfl
  | subscribeSpawn hc =>
    have habsent := hs.threads.handles.absent _ (Nat.le_refl s.threads.spawned)
    simp only [point, hc]
    exact .pump .test habsent rfl rfl (by simp [controlPhase, hc])
  -- the other steps of the control thread only move it inside its call
  | _ =>
    simp only [point, *]
    exact .control rfl (by simp [controlPhase, *])

end Calls

variable [DecidableEq σ] {s t : SharedHub σ}
  {a : Obj Owner (HubRun σ) (HubCall σ) HubCall.Res}

/-- The atomic object makes the same moves. -/
theorem Moves.matched {ops : List (HubOp σ)} {events : List (HubEvent σ)}
    (h : Moves s t ops events) (hhub : a.object.hub = s.threads.hub) (ha : a.phase = s.phases) :
    ∃ es, Run (AtomicObject.Step HubRun.spec) a es ⟨a.object.run ops, t.phases⟩ ∧
      es.flatMap Event.seen = events := by
  obtain ⟨object, phase⟩ := a
  cases ha
  cases h with
  | silent hphases =>
    rw [hphases]
    exact ⟨[], .refl, rfl⟩
  | invoke o hidle hphases =>
    rw [hphases]
    exact ⟨_, .single (.invoke hidle), rfl⟩
  | perform o hcalled hphases hallowed =>
    rw [hphases]
    exact ⟨_, .single (.perform hcalled ⟨hhub ▸ hallowed, rfl⟩), rfl⟩
  | respond o hanswered hphases =>
    rw [hphases]
    exact ⟨_, .single (.respond hanswered), rfl⟩
  | null hidle hphases =>
    have hspec : HubRun.spec object ⟨.subscribe none, false⟩ object := ⟨rfl, rfl⟩
    rw [hphases]
    exact ⟨_, run_whole (t := Owner.control) hidle hspec, rfl⟩

/-- The sections and the calls of every step. -/
theorem step_moves {events : List (HubEvent σ)} (h : Step s events t) (hs : s.Sound) :
    ∃ ops, Moves s t ops events ∧ ∀ r, Ahead r s → Ahead (r.run ops) t := by
  cases h with
  | threads hstep hbegins => exact ⟨_, moves_step hstep hbegins hs, fun r => ahead_step hstep hs⟩
  | callSprop hidle hasking =>
    refine ⟨[], .invoke .control ?_ ?_, fun r ha => ha.aside rfl rfl fun _ _ => rfl⟩
    · simp only [phases, controlPhase, hidle, hasking]
    · refine Eq.trans (phase_of_control (s := s) rfl) ?_
      simp only [controlPhase, hidle]
  | readSprop hasking hmutex =>
    have hidle := hs.outside (by simp [hasking])
    refine ⟨_, .perform .control (c := .spropParameterSets) ?_ ?_ rfl,
      fun r ha => ha.aside rfl rfl fun _ _ => rfl⟩
    · simp only [phases, controlPhase, hidle, hasking]
    · refine Eq.trans (phase_of_control (s := s) rfl) ?_
      simp only [controlPhase, hidle]
  | returnSprop hasking =>
    have hidle := hs.outside (by simp [hasking])
    refine ⟨[], .respond .control (c := .spropParameterSets) ?_ ?_,
      fun r ha => ha.aside rfl rfl fun _ _ => rfl⟩
    · simp only [phases, controlPhase, hidle, hasking]
    · refine Eq.trans (phase_of_control (s := s) rfl) ?_
      simp only [controlPhase, hidle]

structure Follows [DecidableEq σ] (s : SharedHub σ)
    (a : Obj Owner (HubRun σ) (HubCall σ) HubCall.Res) : Prop where
  sound : s.Sound
  ahead : Ahead a.object s
  standing : a.phase = s.phases

/-- The atomic object keeps up with every step. -/
theorem follows_simulation :
    Simulation (Step (σ := σ)) (AtomicObject.Step HubRun.spec) id Event.seen Follows := by
  intro s events t a h hf
  obtain ⟨ops, hmoves, hahead⟩ := step_moves h hf.sound
  obtain ⟨es, hrun, hseen⟩ := hmoves.matched hf.ahead.hub hf.standing
  exact ⟨es, _, hrun, hseen, sound_step h hf.sound, hahead _ hf.ahead, rfl⟩

/-- The atomic object beside the Hub after its constructor. -/
theorem follows_initial {ssrc : σ → UInt32} {sequence : σ → UInt16} {outcome : σ → Nat → Bool}
    (h : Initial ssrc sequence outcome s) :
    Follows s ⟨⟨s.threads.hub, s.mem⟩, fun _ => .idle⟩ := by
  obtain ⟨hthreads, hasking, -⟩ := h
  have hsound := Threads.sound_initial hthreads
  obtain ⟨-, hstart⟩ := hthreads
  have hpump : ∀ u, s.threads.pump u = .absent := by
    intro u
    rw [hstart]
  refine ⟨⟨hsound, by simp [hasking], by simp [hpump]⟩, ⟨rfl, fun _ => rfl, by simp [hpump]⟩, ?_⟩
  funext o
  cases o with
  | control =>
    have hidle : s.threads.control = .idle := by
      rw [hstart]
    simp only [phases, controlPhase, hidle, hasking]
  | pump u => simp only [phases, hpump u, PumpPc.phase]

/-- Every interleaving of the two threads is linearizable: there are points between the begin and
the end of the calls at which they take effect, and in that order they are a run of the Hub one
section after the other. A streamer that no broadcast has still to serve is as in that run. -/
theorem hub_linearizable {ssrc : σ → UInt32} {sequence : σ → UInt16} {outcome : σ → Nat → Bool}
    {events : List (List (HubEvent σ))} (h₀ : Initial ssrc sequence outcome s)
    (hr : Run Step s events t) :
    ∃ es r, Linearizes HubRun.spec ⟨s.threads.hub, s.mem⟩ events.flatten r es ∧
      r.hub = t.threads.hub ∧
      ∀ x, (∀ u nal todo, t.threads.pump u = .sending nal todo → x ∉ todo) →
        r.mem x = t.mem x := by
  obtain ⟨es, a, hlin, hf⟩ :=
    linearizes_of_simulation follows_simulation hr (follows_initial h₀) fun _ => rfl
  rw [List.flatMap_id] at hlin
  exact ⟨es, a.object, hlin, hf.ahead.hub, fun x => hf.ahead.served⟩

/-- A viewer asks to leave in the middle of a broadcast to two. -/
theorem hub_linearizable_leaving : ∃ (s t : SharedHub Nat) (events : List (List (HubEvent Nat)))
    (es : List (HubEvent Nat)) (r : HubRun Nat), Run Step s events t ∧
      t.threads.pump 0 = .sending [0x65] [8] ∧ t.threads.control = .unsubscribe .lock 7 ∧
      Linearizes HubRun.spec ⟨s.threads.hub, s.mem⟩ events.flatten r es ∧
      r.hub = t.threads.hub ∧ r.mem 7 = t.mem 7 := by
  let s₀ : SharedHub Nat :=
    { threads := { hub := Hub.create 30 }, mem := fun _ => newStreamer 1 2 fun _ => true }
  have h₀ : Initial (fun _ => 1) (fun _ => 2) (fun _ _ => true) s₀ := ⟨⟨rfl, rfl⟩, rfl, rfl⟩
  have r : Run Step s₀ [] s₀ := .refl
  have r := r.snoc (.threads (.callSubscribe 7 rfl) fun _ => rfl)
  have r := r.snoc (.threads (.subscribeLock rfl rfl) fun _ => rfl)
  have r := r.snoc (.threads (.subscribeStopped rfl rfl) fun _ => rfl)
  have r := r.snoc (.threads (.subscribeNoJoin rfl rfl) fun _ => rfl)
  have r := r.snoc (.threads (.subscribeMake rfl) fun _ => rfl)
  have r := r.snoc (.threads (.subscribeStart rfl) fun _ => rfl)
  have r := r.snoc (.threads (.subscribeRun rfl) fun _ => rfl)
  have r := r.snoc (.threads (.subscribeSpawn rfl) fun _ => rfl)
  have r := r.snoc (.threads (.subscribePush rfl) fun _ => rfl)
  have r := r.snoc (.threads (.subscribeLeave rfl) fun _ => rfl)
  have r := r.snoc (.threads (.callSubscribe 8 rfl) fun _ => rfl)
  have r := r.snoc (.threads (.subscribeLock rfl rfl) fun _ => rfl)
  have r := r.snoc (.threads (.subscribeRunning rfl rfl) fun _ => rfl)
  have r := r.snoc (.threads (.pumpTest (t := 0) rfl rfl) fun _ => rfl)
  have r := r.snoc (.threads (.pumpNal (t := 0) [0x65] rfl (by simp)) fun _ => rfl)
  have r := r.snoc (.threads (.subscribePush rfl) fun _ => rfl)
  have r := r.snoc (.threads (.subscribeLeave rfl) fun _ => rfl)
  have r := r.snoc (.callSprop rfl rfl)
  have r := r.snoc (.readSprop rfl rfl)
  have r := r.snoc (.threads (.pumpLock (t := 0) rfl rfl) (by simp [begins]))
  have r := r.snoc (.returnSprop rfl)
  have r := r.snoc (.threads (.callUnsubscribe 7 rfl) fun _ => rfl)
  have r := r.snoc (.threads (.pumpSend (t := 0) rfl) fun _ => rfl)
  obtain ⟨es, q, hlin, hhub, hmem⟩ := hub_linearizable h₀ r
  refine ⟨s₀, _, _, es, q, r, rfl, rfl, hlin, hhub, hmem 7 ?_⟩
  intro u nal todo hu
  by_cases hu0 : u = 0
  · subst hu0
    cases hu
    simp
  · simp [hu0, s₀, Hub.create] at hu

end SharedHub
end Veda.Media
