import Veda.Rtsp.EventLoop
import Veda.Rtsp.Subscriptions

/-!
`Server::run` over any kernel is a run of the server over its events: what it does to the map of
clients and to the Hub, it does by one `handleEvent` after another.
-/
namespace Veda.Rtsp

open Cpp Effects Transitions

/-- The calls of the sessions go to the world; a system call may have any answer and leaves the
world alone. -/
def worldCalls (o : Oracle) : Program.Spec LoopOp LoopOp.Res World where
  pre _ _ := True
  post w op r w' :=
    match op, r with
    | .session op, r => (r, w') = w.answer o op
    | _, _ => w' = w

namespace EventLoop

variable {o : Oracle} {ord : HashOrder} {clients : Clients} {listener epoll fd retries : Nat}
  {w w' : World} {s : Session} {data : Bytes} {p q : Clients × World}
  {result : Clients × Option Halt} {halt : Option Halt}

/-- Where code of the loop comes to from these clients and this world: behind a number of events,
or out of one by an exception. -/
inductive Serves (ord : HashOrder) (o : Oracle) (p : Clients × World) :
    Clients × Option Halt → World → Prop
  | goes {events : List Event} {q : Clients × World} {halt : Option Halt} :
      Run (Server.Step ord o) p events q → halt = none ∨ halt = some .givenUp →
      Serves ord o p (q.1, halt) q.2
  | raises {events : List Event} {q : Clients × World} {event : Event} {clients : Clients}
      {e : StdException} {w : World} : Run (Server.Step ord o) p events q →
      (Server.handleEvent ord q.1 event).exec o q.2 = ((clients, some e), w) →
      Serves ord o p (clients, some (.raised e)) w

namespace Serves

/-- Nothing has happened. -/
theorem still (h : halt = none ∨ halt = some .givenUp) :
    Serves ord o (clients, w) (clients, halt) w :=
  .goes (q := (clients, w)) .refl h

theorem event (event : Event)
    (h : (Server.handleEvent ord clients event).exec o w = ((q.1, none), q.2)) :
    Serves ord o (clients, w) (q.1, none) q.2 :=
  .goes (.single h) (.inl rfl)

/-- The code goes on where it has not halted. -/
theorem next (h : Serves ord o p (clients, none) w)
    (hnext : Serves ord o (clients, w) result w') : Serves ord o p result w' := by
  cases h with
  | goes hrun _ =>
    cases hnext with
    | goes hrest hhalt => exact .goes (hrun.append hrest) hhalt
    | raises hrest he => exact .raises (hrun.append hrest) he

end Serves

/-- The code of a session does what it does by itself. -/
theorem session_exec {α : Type} (p : Control α) :
    (Loop.session p).Meets (worldCalls o) (fun a w' => (a, w') = p.exec o w) w := by
  have himplements : ∀ op (u v : World), v = u → True →
      (Program.perform (LoopOp.session op) : Loop op.Res).Meets (worldCalls o)
        (fun r v' => ∃ u', (r, u') = u.answer o op ∧ v' = u') v := by
    rintro op u _ rfl -
    exact ⟨trivial, fun r v' hv' => ⟨v', hv', rfl⟩⟩
  have hrun := Program.meets_run (s := w) (World.answer o) p
  apply (Program.Meets.interpret (R := fun u v => v = u) himplements hrun rfl).mono
  rintro a _ ⟨w', hw', rfl⟩
  exact hw'

theorem destroyClient_exec : (destroyClient fd s).Meets (worldCalls o)
    (fun _ w' => w' = (s.destroy.exec o w).2) w := by
  rw [destroyClient, Program.meets_bind]
  apply (session_exec s.destroy).mono
  rintro _ w' hw'
  refine ⟨trivial, ?_⟩
  rintro _ _ rfl
  exact congrArg Prod.snd hw'

theorem dropClient_exec : (dropClient epoll clients fd).Meets (worldCalls o)
    (fun clients' w' => (clients', w') = (Server.dropClient clients fd).exec o w) w := by
  rw [dropClient, Program.perform_bind]
  refine ⟨trivial, ?_⟩
  intro _ w₁ hw₁
  obtain rfl : w = w₁ := Eq.symm hw₁
  dsimp only
  rw [Server.dropClient]
  cases clients.lookup fd with
  | none => rfl
  | some s =>
    dsimp only
    rw [Program.meets_bind]
    apply (session_exec s.onDisconnect).mono
    intro s' w₁ hdone
    rw [Program.meets_bind]
    apply destroyClient_exec.mono
    rintro _ w₂ rfl
    rw [Control.exec_bind, ← hdone, Control.exec_bind]
    rfl

/-- Code that drops a client on this event. -/
theorem dropClient_serves (event : Event) (h : Server.handleEvent ord clients event =
      Server.dropClient clients fd >>= fun clients => pure (clients, none)) :
    (dropClient epoll clients fd >>= fun clients =>
      (pure (clients, none) : Loop (Clients × Option Halt))).Meets (worldCalls o)
        (Serves ord o (clients, w)) w := by
  rw [Program.meets_bind]
  apply dropClient_exec.mono
  intro clients' w' hdone
  refine Serves.event event (q := (clients', w')) ?_
  rw [h, Control.exec_bind, ← hdone]
  rfl

theorem peerIp_exec : (peerIp fd).Meets (worldCalls o) (fun _ w' => w' = w) w :=
  ⟨trivial, fun _ _ hw' => hw'⟩

theorem readConnection_exec (len retries : Nat) :
    (readConnection fd len retries).Meets (worldCalls o) (fun _ w' => w' = w) w := by
  induction retries with
  | zero => rfl
  | succ retries ih =>
    refine ⟨trivial, ?_⟩
    intro answer w' hw'
    obtain rfl : w = w' := Eq.symm hw'
    cases answer with
    | interrupted => exact ih
    | count data => rfl
    | failed => rfl

theorem acceptClient_serves : (acceptClient listener epoll clients).Meets (worldCalls o)
    (fun clients' w' => Serves ord o (clients, w) (clients', none) w') w := by
  rw [acceptClient, acceptOne, Program.perform_bind]
  refine ⟨trivial, ?_⟩
  intro fd w₁ hw₁
  obtain rfl : w = w₁ := Eq.symm hw₁
  cases fd with
  | none => exact Serves.event .acceptFailed (q := (clients, w)) rfl
  | some fd =>
    dsimp only
    rw [Program.meets_bind]
    apply peerIp_exec.mono
    intro ip w₁ hw₁
    obtain rfl : w = w₁ := Eq.symm hw₁
    have hdestroyed : ∀ registered, (registered && !decide (fd ∈ clients)) = false →
        (destroyClient fd (Session.create ip true fd) >>= fun _ =>
          (pure clients : Loop Clients)).Meets (worldCalls o)
            (fun clients' w' => Serves ord o (clients, w) (clients', none) w') w := by
      intro registered hkept
      rw [Program.meets_bind]
      apply destroyClient_exec.mono
      rintro _ w' rfl
      refine Serves.event (.accept fd ip registered) (q := (clients, _)) ?_
      rw [Server.handleEvent, Server.acceptClient, hkept]
      rfl
    rw [Program.perform_bind]
    refine ⟨trivial, ?_⟩
    intro registered w₁ hw₁
    obtain rfl : w = w₁ := Eq.symm hw₁
    dsimp only
    cases registered with
    | false => exact hdestroyed false rfl
    | true =>
      rw [if_pos rfl, Program.meets_bind]
      apply peerIp_exec.mono
      intro _ w₁ hw₁
      obtain rfl : w = w₁ := Eq.symm hw₁
      by_cases hmem : fd ∈ clients
      · rw [if_pos hmem]
        exact hdestroyed true (by simp [hmem])
      · rw [if_neg hmem]
        refine Serves.event (.accept fd ip true) (q := (clients.insert fd _, w)) ?_
        rw [Server.handleEvent, Server.acceptClient]
        simp [hmem]

theorem feedClient_serves (hlookup : clients.lookup fd = some s) (hdata : data ≠ []) :
    (feedClient ord epoll clients fd s data).Meets (worldCalls o)
      (Serves ord o (clients, w)) w := by
  have hexec : (Server.handleEvent ord clients (.read fd data)).exec o w =
      (Server.feedClient ord clients fd s data).exec o w := by
    rw [Server.handleEvent, hlookup]
    simp only [hdata, if_false]
  rw [feedClient, Program.meets_bind]
  apply (session_exec (s.feed ord data)).mono
  rintro ⟨s', fed⟩ w₁ hfed
  rw [Server.feedClient, Control.exec_bind, ← hfed] at hexec
  cases fed with
  | raised e => exact .raises .refl hexec
  | returned open_ =>
    cases open_ with
    | true => exact Serves.event (.read fd data) (q := (clients.insert fd s', w₁)) hexec
    | false =>
      rw [Program.meets_bind]
      apply dropClient_exec.mono
      intro clients' w' hdropped
      refine Serves.event (.read fd data) (q := (clients', w')) (hexec.trans ?_)
      rw [Control.exec_bind, ← hdropped]
      rfl

theorem handleReady_serves (r : Ready) : (handleReady ord retries listener epoll clients r).Meets
    (worldCalls o) (Serves ord o (clients, w)) w := by
  unfold handleReady
  split
  · rw [Program.meets_bind]
    apply acceptClient_serves.mono
    exact fun _ _ h => h
  · cases hlookup : clients.lookup r.fd with
    | none => exact .still (.inl rfl)
    | some s =>
      dsimp only
      split
      · exact dropClient_serves (.hangup r.fd) rfl
      · rw [Program.meets_bind]
        apply (readConnection_exec bufferLength retries).mono
        intro answer w₁ hw₁
        obtain rfl : w = w₁ := Eq.symm hw₁
        cases answer with
        | interrupted => exact .still (.inr rfl)
        | failed => exact dropClient_serves (.readFailed r.fd) rfl
        | count data =>
          dsimp only
          split
          · rename_i hdata
            refine dropClient_serves (.read r.fd []) ?_
            simp [Server.handleEvent, hlookup]
          · exact feedClient_serves hlookup ‹_›

theorem handleBatch_serves (ready : List Ready) :
    (handleBatch ord retries listener epoll clients ready).Meets (worldCalls o)
      (Serves ord o (clients, w)) w := by
  induction ready generalizing clients w with
  | nil => exact .still (.inl rfl)
  | cons r ready ih =>
    rw [handleBatch, Program.meets_bind]
    apply (handleReady_serves r).mono
    rintro ⟨clients', halt⟩ w₁ hr
    cases halt with
    | none =>
      apply ih.mono
      exact fun _ _ hrest => hr.next hrest
    | some why => exact hr

/-- The loop serves one event after another. -/
theorem loop_serves (rounds : Nat) : (loop ord retries listener epoll rounds clients).Meets
    (worldCalls o) (Serves ord o (clients, w)) w := by
  induction rounds generalizing clients w with
  | zero => exact .still (.inr rfl)
  | succ rounds ih =>
    rw [loop, Program.perform_bind]
    refine ⟨trivial, ?_⟩
    intro running w₁ hw₁
    obtain rfl : w = w₁ := Eq.symm hw₁
    dsimp only
    cases running with
    | false => exact .still (.inl rfl)
    | true =>
      rw [if_pos rfl, Program.perform_bind]
      refine ⟨trivial, ?_⟩
      intro answer w₁ hw₁
      obtain rfl : w = w₁ := Eq.symm hw₁
      cases answer with
      | interrupted => exact ih
      | failed => exact .still (.inl rfl)
      | events ready =>
        dsimp only
        rw [Program.meets_bind]
        apply (handleBatch_serves ready).mono
        rintro ⟨clients', halt⟩ w₁ hbatch
        cases halt with
        | none =>
          apply ih.mono
          exact fun _ _ hrest => hbatch.next hrest
        | some why => exact hbatch

theorem clearClients_exec (left : List (Sigma fun _ : Nat => Session)) :
    (clearClients left).Meets (worldCalls o)
      (fun _ w' => w' = ((Server.clear (left.map Sigma.snd)).exec o w).2) w := by
  induction left generalizing w with
  | nil => rfl
  | cons c left ih =>
    obtain ⟨fd, s⟩ := c
    rw [clearClients, Program.meets_bind]
    apply destroyClient_exec.mono
    rintro _ w₁ rfl
    rw [List.map_cons, Server.clear, Control.exec_bind]
    exact ih

theorem openListener_exec (port : UInt16) :
    (openListener port).Meets (worldCalls o) (fun _ w' => w' = w) w := by
  have hclosed : ∀ fd, (Program.perform (LoopOp.close fd) >>= fun _ =>
      (pure none : Loop (Option Nat))).Meets (worldCalls o) (fun _ w' => w' = w) w :=
    fun fd => ⟨trivial, fun _ _ hw' => hw'⟩
  rw [openListener, Program.perform_bind]
  refine ⟨trivial, ?_⟩
  rintro (_ | fd) w₁ hw₁
  · exact hw₁
  · obtain rfl : w = w₁ := Eq.symm hw₁
    refine ⟨trivial, ?_⟩
    rintro (_ | _) w₁ hw₁ <;> obtain rfl : w = w₁ := Eq.symm hw₁
    · exact hclosed fd
    · refine ⟨trivial, ?_⟩
      rintro (_ | _) w₁ hw₁ <;> obtain rfl : w = w₁ := Eq.symm hw₁
      · exact hclosed fd
      · refine ⟨trivial, ?_⟩
        rintro (_ | _) w₁ hw₁ <;> obtain rfl : w = w₁ := Eq.symm hw₁
        · exact hclosed fd
        · rfl

/-- Whatever the kernel answers, the loop of `run` serves the events of a run of the server from
no clients, one after another. If `run` returns 0 it has then cleared the map, and the Hub has no
subscriber left; while it runs, the Hub's subscribers are the streamers of the sessions that play;
an exception leaves it in the midst of one event; and it returns 1 with nothing done. -/
theorem run_serves (ord : HashOrder) (o : Oracle) (clear : ClearOrder) (retries rounds : Nat)
    (port : UInt16) (sourcePath : Bytes) (fps : Int) :
    (run ord clear retries rounds port sourcePath).Meets (worldCalls o)
      (fun outcome w => match outcome with
        | .exited code =>
          code = 1 ∧ w = { hub := Media.Hub.create fps } ∨
          code = 0 ∧ w.hub.subscribers = [] ∧ ∃ events q ss,
            Run (Server.Step ord o) (∅, { hub := Media.Hub.create fps }) events q ∧
            ss.Perm (Server.sessions q.1) ∧ w = ((Server.clear ss).exec o q.2).2
        | .halted .givenUp _ _ clients =>
          w.hub.subscribers.Perm (Server.playingStreamers clients) ∧ ∃ events,
            Run (Server.Step ord o) (∅, { hub := Media.Hub.create fps }) events (clients, w)
        | .halted (.raised e) _ _ clients => ∃ events q event,
            Run (Server.Step ord o) (∅, { hub := Media.Hub.create fps }) events q ∧
            (Server.handleEvent ord q.1 event).exec o q.2 = ((clients, some e), w))
      { hub := Media.Hub.create fps } := by
  have hreached : ∀ events q,
      Run (Server.Step ord o) (∅, { hub := Media.Hub.create fps }) events q →
      Reachable Server.Initial (Server.Step ord o) q :=
    fun events _ hrun => ⟨_, events, ⟨rfl, rfl⟩, hrun⟩
  generalize hw₀ : ({ hub := Media.Hub.create fps } : World) = w₀ at hreached ⊢
  rw [run, Program.meets_bind]
  apply (openListener_exec port).mono
  rintro (_ | listener) w₁ hw₁ <;> obtain rfl : w₀ = w₁ := Eq.symm hw₁
  · exact .inl ⟨rfl, rfl⟩
  · dsimp only
    rw [Program.perform_bind]
    refine ⟨trivial, ?_⟩
    rintro (_ | epoll) w₁ hw₁ <;> obtain rfl : w₀ = w₁ := Eq.symm hw₁
    · exact ⟨trivial, fun _ _ hw₁ => .inl ⟨rfl, hw₁⟩⟩
    · dsimp only
      rw [Program.perform_bind]
      refine ⟨trivial, ?_⟩
      rintro (_ | _) w₁ hw₁ <;> obtain rfl : w₀ = w₁ := Eq.symm hw₁
      · exact ⟨trivial, fun _ _ h₁ => ⟨trivial, fun _ _ h₂ => .inl ⟨rfl, h₂.trans h₁⟩⟩⟩
      · dsimp only
        rw [if_pos rfl, Program.perform_bind]
        refine ⟨trivial, ?_⟩
        intro _ w₁ hw₁
        obtain rfl : w₀ = w₁ := Eq.symm hw₁
        dsimp only
        rw [Program.meets_bind]
        apply (loop_serves rounds).mono
        rintro ⟨clients, halt⟩ w₁ hserved
        cases hserved with
        | raises hrun he => exact ⟨_, _, _, hrun, he⟩
        | @goes events q _ hrun hhalt =>
          have hq := (hreached _ _ hrun).invariant Server.step_sound fun _ => Server.initial_sound
          have hsubscribers := hq.subscribed.subscribers
          rw [← Server.playingStreamers_eq hq] at hsubscribers
          rcases hhalt with rfl | rfl
          · have hsessions := (clear.perm q.1).map Sigma.snd
            have hcleared := Server.shutdown_unsubscribes (hreached _ _ hrun) hsessions.symm
            dsimp only
            rw [Program.meets_bind]
            apply (clearClients_exec (clear.order q.1)).mono
            rintro _ w₂ rfl
            refine ⟨trivial, fun _ _ h₁ => ⟨trivial, fun _ _ h₂ => ⟨trivial, fun _ w₂ h₃ => ?_⟩⟩⟩
            rw [h₃.trans (h₂.trans h₁)]
            exact .inr ⟨rfl, hcleared, events, q, _, hrun, hsessions, rfl⟩
          · exact ⟨hsubscribers, events, hrun⟩

end EventLoop
end Veda.Rtsp
