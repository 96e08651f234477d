import Veda.Rtsp.OwnCalls
import Veda.Rtsp.Replay
import Veda.Rtsp.RtpWindow

/-!
The program under its threads against its control thread by itself. Whatever the threads do, one
outside world explains it: with the answers of that world, the actions one after another on a Hub
without threads leave the same sessions, make the same calls and fill the same list.
-/
namespace Veda.Rtsp

open Cpp Effects Media Transitions History

/-- What the control thread does as a whole. -/
inductive Act
  | opened (conn : ConnId) (ip : Bytes)
  | done (conn : ConnId) (a : Action)

/-- The sessions between two actions, with a Hub that has no threads. -/
structure Serial where
  sessions : ConnId → Option Session := fun _ => none
  world : World

namespace Serial

inductive Step (ord : HashOrder) (o : Oracle) : Serial → Act → Serial → Prop
  | opened {s : Serial} (conn : ConnId) (ip : Bytes) : s.sessions conn = none →
      Step ord o s (.opened conn ip) { s with
        sessions := Function.update s.sessions conn (some (Session.create ip true conn)) }
  | done {s : Serial} {session : Session} (conn : ConnId) (a : Action) :
      s.sessions conn = some session →
      Step ord o s (.done conn a) {
        sessions := Function.update s.sessions conn ((a.program ord session).exec o s.world).1
        world := ((a.program ord session).exec o s.world).2 }

end Serial

namespace System

/-- The label of a step that ends an action, or opens a connection. -/
def Label.ends : Label → Bool
  | .opened _ _ => true
  | .finished _ _ => true
  | _ => false

def Act.label : Act → Label
  | .opened conn ip => .opened conn ip
  | .done conn a => .finished conn a

/-- What the Hub's list is while the control thread is in a call; `listed` is the list before. -/
def settled (listed : List StreamerId) : ControlPc StreamerId → List StreamerId
  | .subscribe (.leave true) x => listed ++ [x]
  | .unsubscribe .lock _ => listed
  | .unsubscribe .erase _ => listed
  | .unsubscribe _ x => listed.filter (· ≠ x)
  | _ => listed

/-- The list before a call is the one after it, once it has returned. -/
def returned (listed : List StreamerId) : Threads.Label StreamerId → List StreamerId
  | .returnSubscribe (some x) ok => nextSubscribers listed ⟨.subscribe x, ok⟩
  | .returnUnsubscribe x => nextSubscribers listed ⟨.unsubscribe x, ()⟩
  | _ => listed

theorem settled_step {s t : Threads StreamerId} {l : Threads.Label StreamerId}
    {listed : List StreamerId} (hstep : s.Step l t)
    (hs : s.hub.subscribers = settled listed s.control) :
    t.hub.subscribers = settled (returned listed l) t.control := by
  cases hstep with
  | @subscribeLeave x ok hc =>
    rw [hc] at hs
    cases ok <;> exact hs
  | unsubscribeLast hc _ _ =>
    rw [hc] at hs
    exact hs
  | unsubscribeErase hc => simp_all [settled, returned, Hub.unsubscribe]
  | subscribePush hc => simp_all [settled, returned, Hub.subscribe]
  | _ => simp_all [settled, returned, nextSubscribers]

/-- A streamer that its session has not connected yet. -/
def Unconnected (h : History) (m : Streamers) : Prop :=
  ∀ x, m.fresh = some x → ∀ ip port ok, (⟨.connect x ip port, ok⟩ : Call) ∉ h

theorem Unconnected.snoc {h : History} {m : Streamers} {op : Op} {r : op.Res}
    (hm : Unconnected h m) (hf : h.Fresh ⟨op, r⟩) :
    Unconnected (h ++ [⟨op, r⟩]) (m.note op r) := by
  intro x hx ip port ok hc
  rcases List.mem_append.mp hc with hold | hnew
  · cases op with
    | makeStreamer conn =>
      obtain rfl : r = x := Option.some.inj hx
      exact hf ⟨_, hold, rfl⟩
    | connect y ip' port' => cases hx
    | _ => exact hm x hx ip port ok hold
  · obtain ⟨rfl, -⟩ := Sigma.mk.inj (List.mem_singleton.mp hnew)
    cases hx

/-- The invariant of a run with the calls `h`: their answers fit together. -/
structure Answerable (ord : HashOrder) (h : History) (s : System) : Prop where
  lawful : Lawful ord h s
  consistent : Consistent h
  numbered : s.streamers = h.streamers.length
  listed : s.threads.hub.subscribers = settled (h.foldl nextSubscribers []) s.threads.control
  active : ∀ act, s.activity = some act → ∃ ip m, Unconnected h m ∧
    act.rest.Meets (ownCalls act.conn ip) (fun _ _ => True) m

variable {ord : HashOrder} {o : Oracle} {h : History} {s t : System} {l : Label}
  {ls past : List Label} {conn : ConnId} {w : World}

theorem program_own {session : Session} {ip : Bytes} {m : Streamers} (a : Action)
    (hs : session.Of conn ip m) : (a.program ord session).Meets (ownCalls conn ip)
      (fun result m' => ∀ s', result = some s' → s'.Of conn ip m') m := by
  cases a with
  | feed data =>
    rw [Action.program, Program.meets_bind]
    apply (Session.feed_own data hs).mono
    rintro ⟨s', result⟩ m' hs' _ ⟨⟩
    exact hs'
  | disconnect =>
    rw [Action.program, Program.meets_bind]
    apply (Session.onDisconnect_own hs).mono
    rintro s' m' hs' _ ⟨⟩
    exact hs'
  | destroy =>
    rw [Action.program, Program.meets_bind]
    apply (Session.destroy_own hs).mono
    rintro _ m' _ _ ⟨⟩

/-- The next call fits, and the code that is left goes on with its own calls. -/
theorem Answerable.called {a : Action} {op : Op} {r : op.Res}
    {k : op.Res → Control (Option Session)} (hs : Answerable ord h s)
    (hact : s.activity = some ⟨conn, a, .call op k⟩) (hf : h.Fresh ⟨op, r⟩)
    (hmade : ∀ c, op = .makeStreamer c → HEq r s.streamers)
    (hsprop : op = .spropParameterSets → ∃ p, HEq r (spropOf p)) :
    Consistent (h ++ [⟨op, r⟩]) ∧ ∃ ip m, Unconnected (h ++ [⟨op, r⟩]) m ∧
      (k r).Meets (ownCalls conn ip) (fun _ _ => True) m := by
  obtain ⟨ip, m, hm, hown, hrest⟩ := hs.active _ hact
  obtain ⟨hpermits, -⟩ := hs.lawful.called hact hf
  refine ⟨hs.consistent.snoc ?_, ip, _, hm.snoc hf, hrest r _ rfl⟩
  cases op with
  | makeStreamer c => exact (eq_of_heq (hmade c rfl)).trans hs.numbered
  | connect x ip port => exact hm x hown.2
  | subscribe x => exact (hs.lawful.regular.prepared x hpermits.1).2.2
  | spropParameterSets =>
    obtain ⟨p, hp⟩ := hsprop rfl
    exact ⟨p, eq_of_heq hp⟩
  | _ => trivial

/-- A step inside the Hub. -/
theorem Answerable.inside {threads : Threads StreamerId} {l : Threads.Label StreamerId}
    (hs : Answerable ord h s) (hstep : s.threads.Step l threads)
    (hlawful : Lawful ord h { s with threads }) (hl : ∀ listed, returned listed l = listed) :
    Answerable ord h { s with threads } := by
  refine ⟨hlawful, hs.consistent, hs.numbered, ?_, hs.active⟩
  have hlisted := settled_step hstep hs.listed
  rwa [hl] at hlisted

theorem answerable_step (hstep : Step ord s l t) (hs : Answerable ord h s) :
    Answerable ord (h ++ l.calls) t := by
  have hlawful := lawful_step hstep hs.lawful
  cases hstep with
  | opened conn ip hidle _ _ =>
    simp only [Label.calls, List.append_nil] at hlawful ⊢
    exact ⟨hlawful, hs.consistent, hs.numbered, hs.listed, hs.active⟩
  | @begun session conn a hidle _ hsome =>
    simp only [Label.calls, List.append_nil] at hlawful ⊢
    refine ⟨hlawful, hs.consistent, hs.numbered, hs.listed, ?_⟩
    rintro act ⟨⟩
    have hrest := hs.lawful.resting conn (by simp [hidle])
    rw [hsome] at hrest
    exact ⟨_, _, fun x hx => (by cases hx),
      (program_own a (session.of_made hrest.1)).mono fun _ _ _ => trivial⟩
  | @call conn a op k r hact ha =>
    have hcalled := hs.called hact (hs.lawful.fresh_answer ha) (by
      rintro c rfl
      exact heq_of_eq ha) (by
      rintro rfl
      exact ⟨(s.threads.hub.sps, s.threads.hub.pps), heq_of_eq ha.2⟩)
    refine ⟨hlawful, hcalled.1, ?_, ?_, ?_⟩
    · cases op <;> simp_all [made, Label.calls, History.streamers, hs.numbered]
    · cases op <;> first
        | exact ha.elim
        | simpa [Label.calls, nextSubscribers] using hs.listed
    · rintro act ⟨⟩
      exact hcalled.2
  | subscribes hact hth =>
    simp only [Label.calls, List.append_nil] at hlawful ⊢
    exact hs.inside hth hlawful fun _ => rfl
  | @subscribed conn a x ok k threads hact hth =>
    have hcalled := hs.called (r := ok) hact trivial (by rintro c ⟨⟩) (by rintro ⟨⟩)
    refine ⟨hlawful, hcalled.1, ?_, ?_, ?_⟩
    · simpa [Label.calls, History.streamers] using hs.numbered
    · have hlisted := settled_step hth hs.listed
      rw [Label.calls, List.foldl_append]
      exact hlisted
    · rintro act ⟨⟩
      exact hcalled.2
  | unsubscribes hact hth =>
    simp only [Label.calls, List.append_nil] at hlawful ⊢
    exact hs.inside hth hlawful fun _ => rfl
  | @unsubscribed conn a x k threads hact hth =>
    have hcalled := hs.called (r := ()) hact trivial (by rintro c ⟨⟩) (by rintro ⟨⟩)
    refine ⟨hlawful, hcalled.1, ?_, ?_, ?_⟩
    · simpa [Label.calls, History.streamers] using hs.numbered
    · have hlisted := settled_step hth hs.listed
      rw [Label.calls, List.foldl_append]
      exact hlisted
    · rintro act ⟨⟩
      exact hcalled.2
  | control hth =>
    simp only [Label.calls, List.append_nil] at hlawful ⊢
    exact hs.inside hth hlawful fun _ => rfl
  | pump hth =>
    simp only [Label.calls, List.append_nil] at hlawful ⊢
    exact hs.inside hth hlawful fun _ => rfl
  | sendNal hth =>
    simp only [Label.calls, List.append_nil] at hlawful ⊢
    exact hs.inside hth hlawful fun _ => rfl
  | finished hact =>
    simp only [Label.calls, List.append_nil] at hlawful ⊢
    exact ⟨hlawful, hs.consistent, hs.numbered, hs.listed, by simp⟩
  | shutdown _ _ hth =>
    simp only [Label.calls, List.append_nil] at hlawful ⊢
    exact hs.inside hth hlawful fun _ => rfl

theorem answerable_run (hr : Run (Step ord) s ls t) (hs : Answerable ord h s) :
    Answerable ord (h ++ callsOf ls) t := by
  induction hr generalizing h with
  | refl => simpa [callsOf] using hs
  | stepL hstep _ ih =>
    simpa [callsOf, List.append_assoc] using ih (answerable_step hstep hs)

theorem answerable_initial (hi : Initial s) : Answerable ord [] s := by
  have hlawful : Lawful ord [] s := lawful_initial hi
  obtain ⟨hth, hs⟩ := hi
  rw [hs] at hlawful ⊢
  refine ⟨hlawful, .nil, rfl, ?_, by simp⟩
  have hcontrol : s.threads.control = .idle := by rw [hth.2]
  simp only [hth.1, hcontrol]
  rfl

/-- The run so far, seen as a run of whole actions: `calls` are those of the action in progress. -/
structure Follows (ord : HashOrder) (o : Oracle) (w : World) (past : List Label) (s : System)
    (acts : List Act) (u : Serial) (calls : List Call) : Prop where
  run : Run (Serial.Step ord o) { world := w } acts u
  labels : acts.map Act.label = past.filter Label.ends
  sessions : u.sessions = s.sessions
  history : ∃ before, callsOf past = before ++ calls ∧
    u.world = Program.handled (World.answer o) w before
  idle : s.activity = none → calls = []
  active : ∀ act, s.activity = some act → ∃ session, s.sessions act.conn = some session ∧
    (act.action.program ord session).resume calls = some act.rest

variable {acts : List Act} {u : Serial} {calls : List Call}

/-- A step that is neither a call of a session nor the end of an action. -/
theorem Follows.inside (hf : Follows ord o w past s acts u calls) (hcalls : l.calls = [])
    (hends : l.ends = false) (hsessions : t.sessions = s.sessions)
    (hactivity : t.activity = s.activity) : Follows ord o w (past ++ [l]) t acts u calls := by
  refine ⟨hf.run, ?_, hf.sessions.trans hsessions.symm, ?_, ?_, ?_⟩
  · rw [List.filter_append, hf.labels, List.filter_singleton, hends]
    simp
  · simpa [callsOf, hcalls] using hf.history
  · exact fun h => hf.idle (hactivity ▸ h)
  · intro act hact
    rw [hsessions]
    exact hf.active act (hactivity ▸ hact)

/-- A call of the action in progress. -/
theorem Follows.call {a : Action} {op : Op} {r : op.Res} {k : op.Res → Control (Option Session)}
    (hf : Follows ord o w past s acts u calls) (hact : s.activity = some ⟨conn, a, .call op k⟩)
    (hsessions : t.sessions = s.sessions) (hactivity : t.activity = some ⟨conn, a, k r⟩) :
    Follows ord o w (past ++ [.call ⟨op, r⟩]) t acts u (calls ++ [⟨op, r⟩]) := by
  obtain ⟨before, hbefore, hworld⟩ := hf.history
  refine ⟨hf.run, ?_, hf.sessions.trans hsessions.symm, ⟨before, ?_, hworld⟩, ?_, ?_⟩
  · rw [List.filter_append, hf.labels]
    simp [Label.ends]
  · have hsplit : callsOf (past ++ [.call ⟨op, r⟩]) = callsOf past ++ [⟨op, r⟩] := by
      simp [callsOf, Label.calls]
    rw [hsplit, hbefore, List.append_assoc]
  · simp [hactivity]
  · intro act hact'
    obtain ⟨session, hsome, hresume⟩ := hf.active _ hact
    rw [hactivity] at hact'
    cases hact'
    exact ⟨session, by rw [hsessions]; exact hsome, Program.resume_snoc r hresume⟩

/-- The whole action runs as it has run call by call. -/
theorem Follows.finished {a : Action} {result : Option Session}
    (hf : Follows ord o w past s acts u calls)
    (hanswers : Program.Answers (World.answer o) w (callsOf past))
    (hact : s.activity = some ⟨conn, a, .ret result⟩) :
    ∃ v, Follows ord o w (past ++ [.finished conn a]) { s with
      activity := none, sessions := Function.update s.sessions conn result }
      (acts ++ [.done conn a]) v [] := by
  obtain ⟨before, hbefore, hworld⟩ := hf.history
  obtain ⟨session, hsome, hresume⟩ := hf.active _ hact
  rw [hbefore, Program.answers_append, ← hworld] at hanswers
  have hexec : (a.program ord session).exec o u.world =
      (result, Program.handled (World.answer o) u.world calls) :=
    Program.run_resume hresume hanswers.2
  have hstep : Serial.Step ord o u (.done conn a) _ := .done conn a (hf.sessions ▸ hsome)
  rw [hexec] at hstep
  refine ⟨_, hf.run.snoc hstep, ?_, ?_, ⟨callsOf past, ?_, ?_⟩, fun _ => rfl, by simp⟩
  · rw [List.map_append, List.filter_append, hf.labels]
    rfl
  · rw [hf.sessions]
  · simp [callsOf, Label.calls]
  · rw [hbefore, Program.handled_append, ← hworld]

theorem follows_snoc (hstep : Step ord s l t) (hf : Follows ord o w past s acts u calls)
    (hanswers : Program.Answers (World.answer o) w (callsOf past)) :
    ∃ acts u calls, Follows ord o w (past ++ [l]) t acts u calls := by
  cases hstep with
  | opened conn ip hidle _ hnone =>
    refine ⟨acts ++ [.opened conn ip], _, calls,
      hf.run.snoc (.opened conn ip (hf.sessions ▸ hnone)), ?_, ?_, ?_, hf.idle, ?_⟩
    · rw [List.map_append, List.filter_append, hf.labels]
      rfl
    · rw [hf.sessions]
    · simpa [callsOf, Label.calls] using hf.history
    · intro act hact
      rw [hidle] at hact
      cases hact
  | @begun session conn a hidle _ hsome =>
    refine ⟨acts, u, calls, hf.run, ?_, hf.sessions, ?_, by simp, ?_⟩
    · rw [List.filter_append, hf.labels]
      simp [Label.ends]
    · simpa [callsOf, Label.calls] using hf.history
    · rintro act ⟨⟩
      exact ⟨session, hsome, by rw [hf.idle hidle, Program.resume_nil]⟩
  | call r hact _ => exact ⟨acts, u, _, hf.call hact rfl rfl⟩
  | subscribes _ _ => exact ⟨acts, u, calls, hf.inside rfl rfl rfl rfl⟩
  | subscribed hact _ => exact ⟨acts, u, _, hf.call hact rfl rfl⟩
  | unsubscribes _ _ => exact ⟨acts, u, calls, hf.inside rfl rfl rfl rfl⟩
  | unsubscribed hact _ => exact ⟨acts, u, _, hf.call hact rfl rfl⟩
  | control _ => exact ⟨acts, u, calls, hf.inside rfl rfl rfl rfl⟩
  | pump _ => exact ⟨acts, u, calls, hf.inside rfl rfl rfl rfl⟩
  | sendNal _ => exact ⟨acts, u, calls, hf.inside rfl rfl rfl rfl⟩
  | finished hact =>
    obtain ⟨v, hv⟩ := hf.finished hanswers hact
    exact ⟨_, v, [], hv⟩
  | shutdown _ _ _ => exact ⟨acts, u, calls, hf.inside rfl rfl rfl rfl⟩

theorem follows_run {s₀ : System} (hi : Initial s₀) (hr : Run (Step ord) s₀ ls s)
    (hanswers : Program.Answers (World.answer o) w (callsOf ls)) :
    ∃ acts u calls, Follows ord o w ls s acts u calls := by
  have hstart : Follows ord o w [] s₀ [] { world := w } [] := by
    obtain ⟨-, hs⟩ := hi
    rw [hs]
    exact ⟨.refl, rfl, rfl, ⟨[], rfl, rfl⟩, fun _ => rfl, by simp⟩
  refine hr.history (p := fun past v => Program.Answers (World.answer o) w (callsOf past) →
    ∃ acts u calls, Follows ord o w past v acts u calls) ?_ (fun _ => ⟨_, _, _, hstart⟩) hanswers
  intro past v l v' hv hstep ha
  have hpast : Program.Answers (World.answer o) w (callsOf past) := by
    rw [callsOf, List.flatMap_append] at ha
    exact (Program.answers_append.mp ha).1
  obtain ⟨acts, u, calls, hf⟩ := hv hpast
  exact follows_snoc hstep hf hpast

/-- In every interleaving of the control thread and the pump threads, what the sessions see is
what one outside world would show them if the control thread ran alone: for the actions so far,
run one after another with no other thread, that world makes the same calls with the same answers
and leaves the same sessions; the action in progress has made its calls as it makes them there;
and between the actions the Hub's list and the number of streamers agree as well. -/
theorem runs_serially {s₀ s : System} {ls : List Label} (hi : Initial s₀)
    (hr : Run (Step ord) s₀ ls s) : ∃ o acts u calls,
      Run (Serial.Step ord o) { world := { hub := s₀.threads.hub } } acts u ∧
      acts.map Act.label = ls.filter Label.ends ∧ u.sessions = s.sessions ∧
      callsOf ls = u.world.log ++ calls ∧
      (∀ act, s.activity = some act → ∃ session, s.sessions act.conn = some session ∧
        (act.action.program ord session).resume calls = some act.rest ∧
        (act.action.program ord session).exec o u.world =
          act.rest.exec o (Program.handled (World.answer o) u.world calls)) ∧
      (s.activity = none → calls = [] ∧ u.world.streamers = s.streamers ∧
        (s.threads.control = .idle →
          u.world.hub.subscribers = s.threads.hub.subscribers)) := by
  have hs : Answerable ord (callsOf ls) s := by
    simpa using answerable_run hr (answerable_initial hi)
  obtain ⟨sets, hsets⟩ := hs.consistent.encoding
  have hcounts : World.Counts { hub := s₀.threads.hub } [] := ⟨rfl, rfl, rfl⟩
  obtain ⟨o, hanswers⟩ : ∃ o, Program.Answers (World.answer o) { hub := s₀.threads.hub }
      (callsOf ls) :=
    ⟨_, answers_again hs.consistent hsets (List.nil_append _).symm hcounts⟩
  obtain ⟨acts, u, calls, hf⟩ := follows_run hi hr hanswers
  obtain ⟨before, hbefore, hworld⟩ := hf.history
  have hsplit := hanswers
  rw [hbefore, Program.answers_append, ← hworld] at hsplit
  refine ⟨o, acts, u, calls, hf.run, hf.labels, hf.sessions, ?_, ?_, ?_⟩
  · rw [hbefore, hworld, log_handled hsplit.1]
    rfl
  · intro act hact
    obtain ⟨session, hsome, hresume⟩ := hf.active act hact
    exact ⟨session, hsome, hresume, Program.run_resume hresume hsplit.2⟩
  · intro hidle
    have hcalls := hf.idle hidle
    rw [hcalls, List.append_nil] at hbefore
    rw [← hbefore] at hworld
    refine ⟨hcalls, ?_, ?_⟩
    · rw [hworld, (hcounts.handled _).streamers, hs.numbered]
      rfl
    · intro hcontrol
      rw [hworld, subscribers_handled hanswers, hs.listed, hcontrol, hi.1.1]
      rfl

/-- A viewer whose TEARDOWN waits while the pump serves it. -/
theorem runs_serially_viewer : ∃ ls s,
    Run (Step default) { threads := { hub := Hub.create 30 } } ls s ∧
    (s.threads.pump 0).sends = true ∧ ∃ o acts u calls,
      Run (Serial.Step default o) { world := { hub := Hub.create 30 } } acts u ∧
      callsOf ls = u.world.log ++ calls := by
  have hcalls : ((viewerAction.program default (Session.create [] true 5)).resume
      viewerCalls).isSome = true := by
    decide +kernel
  obtain ⟨q, hq⟩ := Option.isSome_iff_exists.mp hcalls
  obtain ⟨_, h₁, hq⟩ := Program.resume_cons hq
  obtain ⟨_, h₂, hq⟩ := Program.resume_cons hq
  obtain ⟨_, h₃, hq⟩ := Program.resume_cons hq
  obtain ⟨_, h₄, hq⟩ := Program.resume_cons hq
  obtain ⟨_, h₅, hq⟩ := Program.resume_cons hq
  obtain ⟨_, h₆, hq⟩ := Program.resume_cons hq
  obtain ⟨_, h₇, hq⟩ := Program.resume_cons hq
  obtain ⟨k₈, h₈, hq⟩ := Program.resume_cons hq
  obtain ⟨_, h₉, hq⟩ := Program.resume_cons hq
  obtain ⟨_, h₁₀, hq⟩ := Program.resume_cons hq
  have hat : ∀ {p p' : Control (Option Session)}, p = p' →
      some (Activity.mk 5 viewerAction p) = some ⟨5, viewerAction, p'⟩ := fun hp => hp ▸ rfl
  have hi : Initial { threads := { hub := Hub.create 30 } } := ⟨⟨rfl, rfl⟩, rfl⟩
  have hopened : Step default { threads := { hub := Hub.create 30 } } (.opened 5 []) _ :=
    .opened 5 [] rfl rfl rfl
  have r := Run.single hopened
  have r := r.snoc (.begun 5 viewerAction rfl rfl rfl)
  have r := r.snoc (.performs () h₁ rfl trivial)
  have r := r.snoc (.performs viewerId h₂ rfl trivial)
  have r := r.snoc (.performs () h₃ rfl trivial)
  have r := r.snoc (.performs () h₄ rfl trivial)
  have r := r.snoc (.performs 0 h₅ rfl rfl)
  have r := r.snoc (.performs true h₆ rfl trivial)
  have r := r.snoc (.performs () h₇ rfl trivial)
  have r := r.snoc (.subscribes (hat h₈) (.callSubscribe 0 rfl))
  have r := r.snoc (.control (.subscribeLock rfl rfl))
  have r := r.snoc (.control (.subscribeStopped rfl rfl))
  have r := r.snoc (.control (.subscribeNoJoin rfl rfl))
  have r := r.snoc (.control (.subscribeMake rfl))
  have r := r.snoc (.control (.subscribeStart rfl))
  have r := r.snoc (.control (.subscribeRun rfl))
  have r := r.snoc (.control (.subscribeSpawn rfl))
  have r := r.snoc (.control (.subscribePush rfl))
  have r := r.snoc (.subscribed (hat h₈) (.subscribeLeave rfl))
  have r := r.snoc (.performs () h₉ rfl trivial)
  have r := r.snoc (.unsubscribes (hat h₁₀) (.callUnsubscribe 0 rfl))
  have r := r.snoc (.pump (.pumpTest (t := 0) rfl rfl))
  have r := r.snoc (.pump (.pumpNal (t := 0) [0x65] rfl (by simp)))
  have r := r.snoc (.pump (.pumpLock (t := 0) rfl rfl))
  obtain ⟨o, acts, u, calls, hserial, -, -, hhistory, -⟩ := runs_serially hi r
  exact ⟨_, _, r, rfl, o, acts, u, calls, hserial, hhistory⟩

end System
end Veda.Rtsp
