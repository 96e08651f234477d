import Veda.Rtsp.Exchange
import Veda.Rtsp.Server

/-!
Who is subscribed. In every reachable state of the server the Hub's subscribers are the
streamers of the sessions that play, each of them once.
-/
namespace Veda.Rtsp

open Cpp Effects Transitions

variable {ord : HashOrder} {o : Oracle} {w w' : World} {s s' : Session} {req : Request}
  {x : Exchange} {xs : List Exchange} {others ss ss' : List Session} {data : Bytes}

/-- A session of the server: it holds a streamer exactly while it plays. -/
structure Session.Sound (s : Session) : Prop where
  hub : s.hub = true
  playing : s.state = .playing ↔ s.streamer.isSome

/-- The Hub's subscribers are the streamers of these sessions, each once, and the next
streamer is a new one. -/
structure Subscribed (ss : List Session) (w : World) : Prop where
  sound : ∀ s ∈ ss, s.Sound
  subscribers : w.hub.subscribers.Perm (ss.filterMap Session.streamer)
  nodup : w.hub.subscribers.Nodup
  fresh : ∀ x ∈ w.hub.subscribers, x < w.streamers

namespace Subscribed

theorem perm (h : Subscribed ss w) (hp : ss.Perm ss') : Subscribed ss' w where
  sound := fun s hs => h.sound s (hp.mem_iff.mpr hs)
  subscribers := h.subscribers.trans (hp.filterMap _)
  nodup := h.nodup
  fresh := h.fresh

/-- Calls that leave the subscriber list alone. -/
theorem quiet {ops : List Op} (h : Subscribed ss w) (hq : ∀ op ∈ ops, op.editsHub = false) :
    Subscribed ss (w.afterAll o ops) := by
  have hsub := World.afterAll_subscribers (o := o) (w := w) hq
  have hnew := World.afterAll_streamers (o := o) (w := w) ops
  refine ⟨h.sound, hsub ▸ h.subscribers, hsub ▸ h.nodup, fun y hy => ?_⟩
  rw [hsub] at hy
  exact Nat.lt_of_lt_of_le (h.fresh y hy) hnew

/-- A session may change its other fields. -/
theorem replace (h : Subscribed (s :: others) w) (hs : s'.Sound)
    (hx : s'.streamer = s.streamer) : Subscribed (s' :: others) w := by
  refine ⟨fun t ht => ?_, ?_, h.nodup, h.fresh⟩
  · rcases List.mem_cons.mp ht with rfl | ht
    · exact hs
    · exact h.sound t (List.mem_cons_of_mem _ ht)
  · have := h.subscribers
    simpa [List.filterMap_cons, hx] using this

theorem cons_idle (h : Subscribed others w) (hs : s.Sound) (hx : s.streamer = none) :
    Subscribed (s :: others) w := by
  refine ⟨fun t ht => ?_, ?_, h.nodup, h.fresh⟩
  · rcases List.mem_cons.mp ht with rfl | ht
    · exact hs
    · exact h.sound t ht
  · simpa [List.filterMap_cons, hx] using h.subscribers

theorem head (h : Subscribed (s :: others) w) : s.Sound := h.sound s (List.mem_cons_self ..)

/-- `stop_streaming` takes the session's streamer out of the Hub. -/
theorem stop (h : Subscribed (s :: others) w) :
    Subscribed others (w.afterAll o s.stopOps) := by
  have hsound : ∀ t ∈ others, t.Sound := fun t ht => h.sound t (List.mem_cons_of_mem _ ht)
  have hperm := h.subscribers
  cases hx : s.streamer with
  | none =>
    have hops : s.stopOps = [] := by simp [Session.stopOps, hx]
    rw [hops]
    exact ⟨hsound, by simpa [List.filterMap_cons, hx] using hperm, h.nodup, h.fresh⟩
  | some x =>
    have hops : s.stopOps = [.unsubscribe x] := by simp [Session.stopOps, hx, h.head.hub]
    have hcons : w.hub.subscribers.Perm (x :: others.filterMap Session.streamer) := by
      simpa [List.filterMap_cons, hx] using hperm
    have hnot : x ∉ others.filterMap Session.streamer :=
      (List.nodup_cons.mp (hcons.nodup_iff.mp h.nodup)).1
    have hrest : (others.filterMap Session.streamer).filter (· ≠ x) =
        others.filterMap Session.streamer := by
      rw [List.filter_eq_self]
      intro y hy
      simp only [ne_eq, decide_eq_true_eq]
      rintro rfl
      exact hnot hy
    have hfilter : (w.hub.subscribers.filter (· ≠ x)).Perm
        (others.filterMap Session.streamer) := by
      have := hcons.filter (· ≠ x)
      rw [List.filter_cons_of_neg (by simp), hrest] at this
      exact this
    rw [hops]
    exact ⟨hsound, hfilter, h.nodup.filter _, fun y hy => h.fresh y (List.mem_filter.mp hy).1⟩

/-- A new streamer enters the Hub with the session that starts to play. -/
theorem start (h : Subscribed (s :: others) w) (hs : s'.Sound) (hnone : s.streamer = none)
    (hx : s'.streamer = some w.streamers) (before : List Op)
    (hup : o.sourceUp w.streamers = true) (hb : ∀ op ∈ before, op.editsHub = false)
    (hcount : w.streamers < (w.afterAll o before).streamers) :
    Subscribed (s' :: others) (w.afterAll o (before ++ [.subscribe w.streamers])) := by
  have hsub := World.afterAll_subscribers (o := o) (w := w) hb
  have hlist : (w.afterAll o (before ++ [.subscribe w.streamers])).hub.subscribers =
      w.hub.subscribers ++ [w.streamers] := by
    rw [World.afterAll_append, ← hsub]
    simp [World.after, World.answer, World.note, Media.Hub.subscribe, hup]
  have hnew : (w.afterAll o (before ++ [.subscribe w.streamers])).streamers =
      (w.afterAll o before).streamers := by
    rw [World.afterAll_append]
    simp [World.after, World.answer, World.note, Media.Hub.subscribe, hup]
  refine ⟨fun t ht => ?_, ?_, ?_, fun y hy => ?_⟩
  · rcases List.mem_cons.mp ht with rfl | ht
    · exact hs
    · exact h.sound t (List.mem_cons_of_mem _ ht)
  · have hperm : w.hub.subscribers.Perm (others.filterMap Session.streamer) := by
      simpa [List.filterMap_cons, hnone] using h.subscribers
    rw [hlist, List.filterMap_cons, hx]
    exact (List.perm_append_singleton _ _).trans (hperm.cons _)
  · rw [hlist, List.nodup_append]
    refine ⟨h.nodup, List.nodup_singleton _, fun y hy z hz => ?_⟩
    rw [List.mem_singleton.mp hz]
    exact Nat.ne_of_lt (h.fresh y hy)
  · rw [hlist] at hy
    rw [hnew]
    rcases List.mem_append.mp hy with hy | hy
    · exact Nat.lt_trans (h.fresh y hy) hcount
    · rw [List.mem_singleton.mp hy]
      exact hcount

/-- A source that cannot be started leaves the list alone. -/
theorem not_started (h : Subscribed ss w) {y : StreamerId} (hup : o.sourceUp y = false) :
    Subscribed ss (w.after o (.subscribe y)) := by
  have hsame : (w.after o (.subscribe y)).hub.subscribers = w.hub.subscribers ∧
      (w.after o (.subscribe y)).streamers = w.streamers := by
    simp [World.after, World.answer, World.note, Media.Hub.subscribe, hup]
  refine ⟨h.sound, hsame.1 ▸ h.subscribers, hsame.1 ▸ h.nodup, ?_⟩
  rw [hsame.1, hsame.2]
  exact h.fresh

end Subscribed

/-- Handling a request keeps the subscriber list in step with the sessions. -/
theorem Session.Handled.subscribed {a : Answer} {before after : List Op}
    (hh : Session.Handled o w s req a s' before after) (h : Subscribed (s :: others) w) :
    Subscribed (s' :: others) (w.afterAll o (s.callsOf req a before after)) := by
  have hidle : s.state ≠ .playing → s.streamer = none := by
    intro hs
    rw [Ne, h.head.playing, Bool.not_eq_true, Option.isSome_eq_false_iff] at hs
    exact Option.isNone_iff_eq_none.mp hs
  have hstopped : ∀ st : State, st ≠ .playing →
      Session.Sound { s with streamer := none, state := st } := by
    intro st hst
    exact ⟨h.head.hub, by simp [hst]⟩
  cases hh with
  | badTransport t hm ha ht hok =>
    have hsound : (s.withPorts t).Sound := ⟨h.head.hub, h.head.playing⟩
    exact Subscribed.replace (h.quiet (by simp [callsOf, Op.editsHub])) hsound rfl
  | setup t hm ha ht hok =>
    have hs : s.state ≠ .playing := by
      intro hp
      simp [methodAllowed, hp] at ha
    have hsound : Session.Sound
        { s.withPorts t with sessionId := s.announcedId o w, state := .ready } :=
      ⟨h.head.hub, by simp [withPorts, hidle hs]⟩
    refine Subscribed.replace (h.quiet ?_) hsound rfl
    unfold idOps
    split <;> simp [callsOf, Op.editsHub]
  | describe => exact h.quiet (by split <;> simp [callsOf, Op.editsHub])
  | playing hm hr hid hcn hhub hup =>
    have hnone : s.streamer = none := hidle (by simp [hr])
    have hsound : Session.Sound { s with streamer := some w.streamers, state := .playing } :=
      ⟨h.head.hub, by simp⟩
    exact h.start hsound hnone rfl
      [.makeStreamer s.conn, .connect w.streamers s.clientIp (toUint16 s.clientRtpPort),
        .send s.conn (Reply.mk req.cseq (.play s.sessionId)).render]
      hup (by simp [Op.editsHub]) (Nat.lt_succ_self _)
  | noSource hm hr hid hcn hhub hup =>
    have hsent : Subscribed (s :: others) (w.afterAll o [.makeStreamer s.conn,
        .connect w.streamers s.clientIp (toUint16 s.clientRtpPort),
        .send s.conn (Reply.mk req.cseq (.play s.sessionId)).render]) :=
      h.quiet (by simp [Op.editsHub])
    exact hsent.not_started hup
  | paused hm hr hid =>
    rw [callsOf, World.afterAll_append]
    exact (h.stop.quiet (by simp [Op.editsHub])).cons_idle (hstopped .ready (by simp)) rfl
  | closed hm ha hid =>
    rw [callsOf, World.afterAll_append]
    exact (h.stop.quiet (by simp [Op.editsHub])).cons_idle (hstopped .closed (by simp)) rfl
  | keepAlive => split <;> exact h.quiet (by simp [callsOf, Op.editsHub])
  | _ => exact h.quiet (by simp [callsOf, Op.editsHub])

section Run
variable {p q : Session × World}

theorem exchanges_subscribed (hx : Exchanges ord o p x q) (h : Subscribed (p.1 :: others) p.2) :
    Subscribed (q.1 :: others) q.2 := by
  cases hx with
  | unparsable hs hp => exact h.quiet (by simp [Exchange.calls, Exchange.badRequest, Op.editsHub])
  | @handled s s' w raw req a before after hs hp hh =>
    have hlogged : Subscribed (s :: others) (w.afterAll o [.logRequest s.conn raw]) :=
      h.quiet (by simp [Op.editsHub])
    exact hh.subscribed hlogged

theorem run_subscribed (hx : Run (Exchanges ord o) p xs q) (h : Subscribed (p.1 :: others) p.2) :
    Subscribed (q.1 :: others) q.2 :=
  hx.invariant (p := fun p => Subscribed (p.1 :: others) p.2)
    (fun _ _ _ hx h => exchanges_subscribed hx h) h

end Run

theorem Session.Sound.withRx (h : s.Sound) (b : Bytes) : (s.withRx b).Sound :=
  ⟨h.hub, h.playing⟩

/-- One `feed` call keeps the subscriber list in step, and where it returns `true` the session
is still open. -/
theorem feed_subscribed (ord : HashOrder) (o : Oracle) (data : Bytes) (hs : s.state ≠ .closed)
    (h : Subscribed (s :: others) w) :
    let fed := (s.feed ord data).exec o w
    Subscribed (fed.1.1 :: others) fed.2 ∧
      (fed.1.2 = .returned true → fed.1.1.state ≠ .closed) := by
  by_cases hlen : (s.rxBuffer ++ data).length ≤ kMaxRxBuffer
  · obtain ⟨xs, s', w', hrun, hends⟩ := Session.serveAll_run ord o w
      (Delimited.pieces crlfcrlf (s.rxBuffer ++ data)) hs
    have hsub : Subscribed (s' :: others) w' := run_subscribed hrun h
    rw [Session.feed_exec hlen]
    generalize (Session.serveAll ord s (Delimited.pieces crlfcrlf (s.rxBuffer ++ data))).exec o w =
      served at hends ⊢
    obtain ⟨served, w₁⟩ := served
    cases hends with
    | opened hraws hopen =>
      exact ⟨hsub.replace (hsub.head.withRx _) rfl, fun _ => hopen⟩
    | closed unserved hraws hclosed =>
      exact ⟨hsub.replace (hsub.head.withRx _) rfl, fun h => by cases h⟩
    | raised e bad unserved hraws hopen he =>
      have hlogged : Subscribed (s' :: others) (w'.afterAll o [.logRequest s'.conn bad]) :=
        hsub.quiet (by simp [Op.editsHub])
      exact ⟨hlogged.replace (hlogged.head.withRx _) rfl, fun _ => hopen⟩
  · rw [Session.feed_overflow hlen]
    exact ⟨h.replace (h.head.withRx _) rfl, fun _ => hs⟩

namespace Server

variable {clients : Clients} {fd : Nat} {event : Event}

theorem destroy_exec : s.destroy.exec o w = ((), w.afterAll o s.stopOps) := by
  rw [Session.destroy, Control.exec_bind, Session.stopStreaming_exec]
  rfl

theorem dropClient_exec (h : clients.lookup fd = some s) :
    (dropClient clients fd).exec o w = (clients.erase fd, w.afterAll o s.stopOps) := by
  have hdone : Session.stopOps { s with streamer := none, state := .closed } = [] := rfl
  rw [dropClient, h]
  simp only [Session.onDisconnect, Control.exec_bind, Session.stopStreaming_exec,
    Program.pure_eq, Control.exec_ret, destroy_exec, hdone]
  rfl

/-- The sessions in the map. -/
def sessions (clients : Clients) : List Session := clients.entries.map Sigma.snd

theorem sessions_perm (h : clients.lookup fd = some s) :
    (sessions clients).Perm (s :: sessions (clients.erase fd)) := by
  have hmem : fd ∈ clients.entries.keys := AList.lookup_isSome.mp (by rw [h]; rfl)
  obtain ⟨b, l₁, l₂, _, hl, hk⟩ := List.exists_of_kerase hmem
  have hb : b = s := by
    have : b ∈ clients.lookup fd := AList.mem_lookup_iff.mpr (by rw [hl]; simp)
    rw [h] at this
    exact (Option.some.inj this).symm
  subst hb
  have herase : (clients.erase fd).entries = l₁ ++ l₂ := hk
  rw [sessions, sessions, hl, herase, List.map_append, List.map_append, List.map_cons]
  exact List.perm_middle

theorem sessions_insert : sessions (clients.insert fd s) = s :: sessions (clients.erase fd) := by
  rw [sessions, AList.entries_insert]
  rfl

theorem erase_insert : (clients.insert fd s).erase fd = clients.erase fd := by
  apply AList.ext
  change List.kerase fd (clients.insert fd s).entries = List.kerase fd clients.entries
  rw [AList.entries_insert]
  exact List.kerase_cons_eq (by rfl)

/-- The invariant of the server: the subscriber list is in step with the sessions of the map,
and none of them is closed. -/
structure Sound (p : Clients × World) : Prop where
  subscribed : Subscribed (sessions p.1) p.2
  opened : ∀ s ∈ sessions p.1, s.state ≠ .closed

theorem dropClient_sound (h : Sound (clients, w)) :
    Sound ((dropClient clients fd).exec o w) := by
  cases hl : clients.lookup fd with
  | none =>
    rw [dropClient, hl]
    exact h
  | some s =>
    rw [dropClient_exec hl]
    have hperm := sessions_perm hl
    refine ⟨(h.subscribed.perm hperm).stop, fun t ht => h.opened t ?_⟩
    exact hperm.mem_iff.mpr (List.mem_cons_of_mem _ ht)

theorem dropClient_lookup : ((dropClient clients fd).exec o w).1.lookup fd = none := by
  cases hl : clients.lookup fd with
  | none =>
    rw [dropClient, hl]
    exact hl
  | some s =>
    rw [dropClient_exec hl]
    exact AList.lookup_erase ..

theorem acceptClient_sound {peerIp : Bytes} {registered : Bool} (h : Sound (clients, w)) :
    Sound ((acceptClient clients fd peerIp registered).exec o w) := by
  have hidle : (Session.create peerIp true fd).Sound := ⟨rfl, by simp [Session.create]⟩
  rw [acceptClient]
  split
  · rename_i hnew
    have hmem : fd ∉ clients := by simpa using (Bool.and_eq_true_iff.mp hnew).2
    have hsessions : sessions (clients.insert fd (Session.create peerIp true fd)) =
        Session.create peerIp true fd :: sessions clients := by
      rw [sessions, AList.entries_insert_of_notMem hmem]
      rfl
    refine ⟨?_, ?_⟩
    · change Subscribed (sessions (clients.insert fd (Session.create peerIp true fd))) w
      rw [hsessions]
      exact h.subscribed.cons_idle hidle rfl
    · change ∀ s ∈ sessions (clients.insert fd (Session.create peerIp true fd)), _
      rw [hsessions]
      intro s hs
      rcases List.mem_cons.mp hs with rfl | hs
      · simp [Session.create]
      · exact h.opened s hs
  · exact h

/-- What one round of the loop comes to, where no exception leaves it. -/
inductive Round (ord : HashOrder) (o : Oracle) (clients : Clients) (w : World) :
    Event → Clients × World → Prop
  | accepted (fd : Nat) (peerIp : Bytes) (registered : Bool) :
      Round ord o clients w (.accept fd peerIp registered)
        ((acceptClient clients fd peerIp registered).exec o w)
  | acceptFailed : Round ord o clients w .acceptFailed (clients, w)
  | dropped (fd : Nat) (event : Event) :
      event = .hangup fd ∨ event = .readFailed fd ∨ event = .read fd [] →
      Round ord o clients w event ((dropClient clients fd).exec o w)
  | stale (fd : Nat) (data : Bytes) : clients.lookup fd = none →
      Round ord o clients w (.read fd data) (clients, w)
  | fed (fd : Nat) (data : Bytes) (s s' : Session) (w' : World) : data ≠ [] →
      clients.lookup fd = some s → (s.feed ord data).exec o w = ((s', .returned true), w') →
      Round ord o clients w (.read fd data) (clients.insert fd s', w')
  | ended (fd : Nat) (data : Bytes) (s s' : Session) (w' : World) : data ≠ [] →
      clients.lookup fd = some s → (s.feed ord data).exec o w = ((s', .returned false), w') →
      Round ord o clients w (.read fd data) (clients.erase fd, w'.afterAll o s'.stopOps)

theorem feedClient_round {clients' : Clients} (hd : data ≠ []) (hl : clients.lookup fd = some s)
    (h : (feedClient ord clients fd s data).exec o w = ((clients', none), w')) :
    Round ord o clients w (.read fd data) (clients', w') := by
  rw [feedClient, Control.exec_bind] at h
  cases hf : (s.feed ord data).exec o w with
  | mk fed w₁ =>
    obtain ⟨s', result⟩ := fed
    rw [hf] at h
    cases result with
    | raised e => cases h
    | returned open_ =>
      cases open_ with
      | true =>
        cases h
        exact .fed fd data s s' w₁ hd hl hf
      | false =>
        have hdrop : (dropClient (clients.insert fd s') fd).exec o w₁ =
            (clients.erase fd, w₁.afterAll o s'.stopOps) := by
          rw [dropClient_exec (AList.lookup_insert ..), erase_insert]
        dsimp only at h
        rw [Control.exec_bind, hdrop] at h
        cases h
        exact .ended fd data s s' w₁ hd hl hf

theorem step_round {p q : Clients × World} {event : Event} (h : Step ord o p event q) :
    Round ord o p.1 p.2 event q := by
  obtain ⟨clients, w⟩ := p
  obtain ⟨clients', w'⟩ := q
  change (handleEvent ord clients event).exec o w = ((clients', none), w') at h
  cases event with
  | accept fd peerIp registered =>
    rw [handleEvent, Control.exec_bind] at h
    cases h
    exact .accepted fd peerIp registered
  | acceptFailed =>
    cases h
    exact .acceptFailed
  | hangup fd =>
    rw [handleEvent, Control.exec_bind] at h
    cases h
    exact .dropped fd _ (Or.inl rfl)
  | readFailed fd =>
    rw [handleEvent, Control.exec_bind] at h
    cases h
    exact .dropped fd _ (Or.inr (Or.inl rfl))
  | read fd data =>
    rw [handleEvent] at h
    cases hl : clients.lookup fd with
    | none =>
      rw [hl] at h
      cases h
      exact .stale fd data hl
    | some s =>
      simp only [hl] at h
      by_cases hd : data = []
      · rw [if_pos hd, Control.exec_bind] at h
        cases h
        exact .dropped fd _ (Or.inr (Or.inr (by rw [hd])))
      · rw [if_neg hd] at h
        exact feedClient_round hd hl h

theorem step_sound : Preserved (Step ord o) Sound := by
  rintro ⟨clients, w⟩ event q hstep h
  cases step_round hstep with
  | accepted fd peerIp registered => exact acceptClient_sound h
  | acceptFailed => exact h
  | dropped fd event he => exact dropClient_sound h
  | stale fd data hl => exact h
  | fed fd data s s' w' hd hl hf =>
    have hperm := sessions_perm hl
    have hopen : s.state ≠ .closed := h.opened s (hperm.mem_iff.mpr (List.mem_cons_self ..))
    obtain ⟨hsub, hfed⟩ := feed_subscribed ord o data hopen (h.subscribed.perm hperm)
    rw [hf] at hsub hfed
    refine ⟨?_, ?_⟩
    · change Subscribed (sessions (clients.insert fd s')) w'
      rw [sessions_insert]
      exact hsub
    · change ∀ t ∈ sessions (clients.insert fd s'), t.state ≠ .closed
      rw [sessions_insert]
      intro t ht
      rcases List.mem_cons.mp ht with rfl | ht
      · exact hfed rfl
      · exact h.opened t (hperm.mem_iff.mpr (List.mem_cons_of_mem _ ht))
  | ended fd data s s' w' hd hl hf =>
    have hperm := sessions_perm hl
    have hopen : s.state ≠ .closed := h.opened s (hperm.mem_iff.mpr (List.mem_cons_self ..))
    obtain ⟨hsub, -⟩ := feed_subscribed ord o data hopen (h.subscribed.perm hperm)
    rw [hf] at hsub
    refine ⟨hsub.stop, ?_⟩
    intro t ht
    exact h.opened t (hperm.mem_iff.mpr (List.mem_cons_of_mem _ ht))

theorem initial_sound {p : Clients × World} (h : Initial p) : Sound p := by
  obtain ⟨clients, w⟩ := p
  obtain ⟨rfl, hsub⟩ := h
  change w.hub.subscribers = [] at hsub
  refine ⟨⟨by simp [sessions], ?_, ?_, ?_⟩, by simp [sessions]⟩
  · simp [sessions, hsub]
  · simp [hsub]
  · simp [hsub]

/-- The streamers of the sessions that play. -/
def playingStreamers (clients : Clients) : List StreamerId :=
  ((sessions clients).filter (·.state == .playing)).filterMap Session.streamer

theorem playingStreamers_eq {p : Clients × World} (h : Sound p) :
    playingStreamers p.1 = (sessions p.1).filterMap Session.streamer := by
  rw [playingStreamers, List.filterMap_filter]
  refine List.filterMap_congr fun s hs => ?_
  have hplaying := (h.subscribed.sound s hs).playing
  cases hx : s.streamer with
  | none => simp
  | some x => simp [hplaying, hx]

/-- No zombie and no duplicate subscription: in every reachable state a session plays exactly
if it has a streamer, the Hub's subscribers are the streamers of the playing sessions in the
map, each once, and a session that is closed or whose `feed` returned `false` is gone. -/
theorem subscribers_are_playing (ord : HashOrder) (o : Oracle) {p : Clients × World}
    (h : Reachable Initial (Step ord o) p) :
    (∀ s ∈ sessions p.1, (s.state = .playing ↔ s.streamer.isSome) ∧ s.state ≠ .closed) ∧
    p.2.hub.subscribers.Perm (playingStreamers p.1) ∧ p.2.hub.subscribers.Nodup ∧
    ∀ fd data s q, p.1.lookup fd = some s → Step ord o p (.read fd data) q →
      ((s.feed ord data).exec o p.2).1.2 = .returned false → q.1.lookup fd = none := by
  have hsound : Sound p := h.invariant step_sound fun _ => initial_sound
  refine ⟨fun s hs => ?_, ?_, hsound.subscribed.nodup, fun fd data s q hl hstep hfalse => ?_⟩
  · exact ⟨(hsound.subscribed.sound s hs).playing, hsound.opened s hs⟩
  · rw [playingStreamers_eq hsound]
    exact hsound.subscribed.subscribers
  · cases step_round hstep with
    | dropped fd event he =>
      rcases he with he | he | he <;> cases he
      exact dropClient_lookup
    | stale _ _ hnone =>
      rw [hnone] at hl
      cases hl
    | fed _ _ s₀ s' w' _ hl₀ hf =>
      obtain rfl : s = s₀ := Option.some.inj (hl.symm.trans hl₀)
      rw [hf] at hfalse
      cases hfalse
    | ended => exact AList.lookup_erase ..

theorem clear_subscribers (h : Subscribed ss w) :
    ((clear ss).exec o w).2.hub.subscribers = [] := by
  induction ss generalizing w with
  | nil => exact List.Perm.eq_nil h.subscribers
  | cons s ss ih =>
    rw [clear, Control.exec_bind, destroy_exec]
    exact ih h.stop

/-- At shutdown the map is cleared, in whatever order, and the Hub is left without
subscribers. -/
theorem shutdown_unsubscribes {p : Clients × World} (h : Reachable Initial (Step ord o) p)
    (hss : (sessions p.1).Perm ss) : ((clear ss).exec o p.2).2.hub.subscribers = [] := by
  have hsound : Sound p := h.invariant step_sound fun _ => initial_sound
  exact clear_subscribers (hsound.subscribed.perm hss)

/-- A viewer that connects, negotiates and plays, while a second one has only connected. -/
theorem subscribers_are_playing_viewer :
    let setup := ascii "SETUP rtsp://h/s RTSP/1.0\r\nCSeq: 1\r\nTransport: client_port=5000\r\n\r\n"
    let play := ascii "PLAY rtsp://h/s RTSP/1.0\r\nCSeq: 2\r\nSession: 1A2B3C4D\r\n\r\n"
    let events := [.accept 5 [] true, .accept 6 [] true, .read 5 setup, .read 5 play]
    let p := events.foldl (next default default) (∅, default)
    p.2.hub.subscribers.Perm (playingStreamers p.1) ∧ playingStreamers p.1 = [0] := by
  intro setup play events p
  have hrun : Reachable Initial (Step default default) p := by
    refine ⟨(∅, default), events, ⟨rfl, rfl⟩, ?_⟩
    refine .stepL (step_next ?_) (.stepL (step_next ?_) (.stepL (step_next ?_)
      (.stepL (step_next ?_) .refl))) <;> decide +kernel
  exact ⟨(subscribers_are_playing default default hrun).2.1, by decide +kernel⟩

end Server
end Veda.Rtsp
