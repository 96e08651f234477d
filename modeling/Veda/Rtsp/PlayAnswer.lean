import Veda.Rtsp.Moves

/-!
What a PLAY is told and what becomes of it. The success response goes out before the Hub is
asked, so it speaks of the connection only; the session starts to stream if the source is up
as well.
-/
namespace Veda.Rtsp

open Cpp Transitions

variable {ord : HashOrder} {o : Oracle} {w w' : World} {s s' : Session} {raw : Bytes}
  {req : Request} {a : Answer} {before after : List Op} {m : Move} {ms : List Move}
  {p q : Session × World}

/-- The session plays with the streamer `x`, and the Hub has it on its list. -/
structure Streaming (s : Session) (w : World) (x : StreamerId) : Prop where
  state : s.state = .playing
  streamer : s.streamer = some x
  subscribed : x ∈ w.hub.subscribers

/-- A session that has a Hub and no streamer that is still to be made. -/
structure Equipped (s : Session) (w : World) : Prop where
  hub : s.hub = true
  made : ∀ x, s.streamer = some x → x < w.streamers

theorem Equipped.later (h : Equipped s w) (ops : List Op) : Equipped s (w.afterAll o ops) :=
  ⟨h.hub, fun x hx => Nat.lt_of_lt_of_le (h.made x hx) (World.afterAll_streamers ops)⟩

theorem Effect.equipped (h : Effect ord o w m) (hs : Equipped m.before w) :
    Equipped m.after (w.afterAll o m.calls) := by
  cases h with
  | received b => exact ⟨hs.hub, hs.made⟩
  | raised hp => exact hs.later _
  | unparsable hp => exact hs.later _
  | @handled s s' raw req a before after hp hh =>
    have hlater := hs.later (o := o)
      (.logRequest s.conn raw :: Session.callsOf s req a before after)
    cases hh with
    | setup => exact ⟨hs.hub, hlater.made⟩
    | badTransport => exact ⟨hs.hub, hlater.made⟩
    | playing =>
      refine ⟨hs.hub, ?_⟩
      intro x hx
      cases hx
      -- the new streamer is counted by the first call
      have hcounted := World.afterAll_streamers (o := o)
        (w := (w.after o (.logRequest s.conn raw)).after o (.makeStreamer s.conn))
        (.connect w.streamers s.clientIp (toUint16 s.clientRtpPort) ::
          .send s.conn (Reply.mk req.cseq (.play s.sessionId)).render :: [.subscribe w.streamers])
      exact Nat.lt_of_lt_of_le (Nat.lt_succ_self _) hcounted
    | paused => exact ⟨hs.hub, by simp⟩
    | closed => exact ⟨hs.hub, by simp⟩
    | _ => exact hlater
  | disconnect => exact ⟨hs.hub, by simp⟩

theorem run_equipped (h : Run (Moves ord o) p ms q) (hp : Equipped p.1 p.2) :
    Equipped q.1 q.2 := by
  refine h.invariant (p := fun r : Session × World => Equipped r.1 r.2) ?_ hp
  intro r m r' hm hr
  obtain ⟨hbefore, hafter, heffect⟩ := hm.effect
  rw [← hbefore] at hr
  rw [hafter]
  exact heffect.equipped hr

/-- What becomes of a PLAY, by the connection and by the source. -/
structure PlayOutcome (o : Oracle) (w : World) (s : Session) (req : Request) (status : Int)
    (s' : Session) (w' : World) : Prop where
  told : status = 200 ↔
    s.state = .ready ∧ s.sessionHeaderMatches req = true ∧ o.connects w.streamers = true
  started : Streaming s' w' w.streamers ↔ status = 200 ∧ o.sourceUp w.streamers = true
  unchanged : ¬ Streaming s' w' w.streamers →
    s' = s ∧ w'.hub.subscribers = w.hub.subscribers
  error : status ≠ 200 → 400 ≤ status

theorem Equipped.not_streaming (h : Equipped s w) : ¬ Streaming s w' w.streamers := by
  intro hstreaming
  exact Nat.lt_irrefl _ (h.made _ hstreaming.streamer)

theorem Refusal.statusCode_error (why : Refusal) : 400 ≤ why.statusCode := by
  cases why <;> decide

theorem PlayOutcome.refused {cseq : Int} (why : Refusal) (hs : Equipped s w)
    (hno : ¬ (s.state = .ready ∧ s.sessionHeaderMatches req = true ∧
      o.connects w.streamers = true))
    (hsub : w'.hub.subscribers = w.hub.subscribers) :
    PlayOutcome o w s req (Reply.mk cseq (.refused why)).status s w' := by
  have hne : why.statusCode ≠ 200 := why.statusCode_ne_ok
  refine ⟨?_, ?_, fun _ => ⟨rfl, hsub⟩, fun _ => why.statusCode_error⟩
  · exact ⟨fun h => absurd h hne, fun h => absurd h hno⟩
  · exact ⟨fun h => absurd h hs.not_streaming, fun h => absurd h.1 hne⟩

theorem Session.Handled.playOutcome (h : Session.Handled o w s req a s' before after)
    (hm : req.method = .play) (hs : Equipped s w) :
    PlayOutcome o w s req (Reply.mk req.cseq a).status s'
      (w.afterAll o (Session.callsOf s req a before after)) := by
  cases h with
  | notAllowed _ ha =>
    refine .refused _ hs ?_ (Session.callsOf_subscribers (by simp))
    rintro ⟨hready, -⟩
    rw [hm, Session.methodAllowed, hready] at ha
    cases ha
  | noSession _ _ hid =>
    refine .refused _ hs ?_ (Session.callsOf_subscribers (by simp))
    rintro ⟨-, hmatch, -⟩
    rw [hid] at hmatch
    cases hmatch
  | notConnected _ _ _ hcn =>
    refine .refused _ hs ?_ (Session.callsOf_subscribers (by simp [Op.editsHub]))
    rintro ⟨-, -, hconnects⟩
    rw [hcn] at hconnects
    cases hconnects
  | noHub _ _ _ _ hh =>
    rw [hs.hub] at hh
    cases hh
  | noSource _ hready hid hcn _ hup =>
    refine ⟨⟨fun _ => ⟨hready, hid, hcn⟩, fun _ => rfl⟩, ?_, ?_, fun hne => absurd rfl hne⟩
    · refine ⟨fun h => absurd h hs.not_streaming, ?_⟩
      rintro ⟨-, hsource⟩
      rw [hup] at hsource
      cases hsource
    · intro _
      refine ⟨rfl, ?_⟩
      change ((((w.after o _).after o _).after o _).after o (.subscribe _)).hub.subscribers = _
      rw [World.after_subscribe, hup]
      rfl
  | playing _ hready hid hcn _ hup =>
    have hstreaming : Streaming { s with streamer := some w.streamers, state := .playing }
        (w.afterAll o (Session.callsOf s req (.play s.sessionId)
          [.makeStreamer s.conn, .connect w.streamers s.clientIp (toUint16 s.clientRtpPort)]
          [.subscribe w.streamers])) w.streamers := by
      refine ⟨rfl, rfl, ?_⟩
      change w.streamers ∈
        ((((w.after o _).after o _).after o _).after o (.subscribe _)).hub.subscribers
      rw [World.after_subscribe, hup]
      simp
    refine ⟨⟨fun _ => ⟨hready, hid, hcn⟩, fun _ => rfl⟩, ?_, fun h => absurd hstreaming h,
      fun hne => absurd rfl hne⟩
    exact ⟨fun _ => ⟨rfl, hup⟩, fun _ => hstreaming⟩
  | _ => simp_all

/-- Every PLAY on a session that has a Hub, in every state that a use of it reaches. The
response has status 200 exactly where the session is ready, the request has its id and the
streamer connects; the session then streams exactly where the source is up. Otherwise nothing
changes, and the response is an error unless only the source was missing. -/
theorem play_answered (ord : HashOrder) (o : Oracle) (w₀ : World) (clientIp : Bytes)
    (conn : ConnId) (uses : List Use) (raw : Bytes) (req : Request)
    (hp : parseRequest ord raw = .ok (some req)) (hm : req.method = .play) :
    let p := ((Session.create clientIp true conn).useAll ord uses).exec o w₀
    let q := (p.1.serve ord raw).exec o p.2
    ∃ response status, q.2.responses = p.2.responses ++ [response] ∧
      statusOf response = .ok status ∧ PlayOutcome o p.2 p.1 req status q.1.1 q.2 := by
  intro p q
  obtain ⟨ms, hrun⟩ : ∃ ms, Run (Moves ord o) (Session.create clientIp true conn, w₀) ms p :=
    Session.useAll_moves uses
  have hs : Equipped p.1 p.2 := run_equipped hrun ⟨rfl, by simp [Session.create]⟩
  obtain ⟨s', result, calls, heffect, hexec⟩ := Session.serve_effect ord o p.2 p.1 raw
  have hq : q = ((s', result), p.2.afterAll o calls) := hexec
  rw [hq]
  generalize p.1 = s at hs heffect
  generalize p.2 = w at hs heffect
  cases heffect with
  | raised he =>
    rw [hp] at he
    cases he
  | unparsable hn =>
    rw [hp] at hn
    cases hn
  | @handled _ _ _ req' a before after hp' hh =>
    rw [hp] at hp'
    cases hp'
    refine ⟨_, _, ?_, Reply.statusOf_render ⟨req.cseq, a⟩, ?_⟩
    · rw [World.afterAll_responses, List.filterMap_cons, Session.callsOf_sent hh]
      rfl
    · have houtcome := hh.playOutcome hm (hs.later [_])
      exact ⟨houtcome.told, houtcome.started, houtcome.unchanged, houtcome.error⟩

/-- A source that cannot be started: the PLAY is told 200, and nothing streams. -/
theorem play_answered_source_down :
    let o : Oracle := { (default : Oracle) with sourceUp := fun _ => false }
    let setup := [
      .feed (ascii "SETUP rtsp://h/s/track0 RTSP/1.0\r\nCSeq: 1\r\n"),
      .feed (ascii "Transport: RTP/AVP;unicast;client_port=5000-5001\r\n\r\n")]
    let p := ((Session.create (ascii "10.0.0.2") true 5).useAll default setup).exec o default
    let q := (p.1.serve default
      (ascii "PLAY rtsp://h/s RTSP/1.0\r\nCSeq: 2\r\nSession: 1A2B3C4D\r\n\r\n")).exec o p.2
    q.2.responses.map statusOf = [.ok 200, .ok 200] ∧ q.1.1.state = .ready ∧
      q.2.hub.subscribers = [] := by
  decide +kernel

/-- A session that is ready after SETUP is told 200: it streams where the source is up, and stands
where it was where the source cannot be started. -/
theorem play_answered_ready :
    let o (up : Bool) : Oracle := { (default : Oracle) with sourceUp := fun _ => up }
    let setup := ascii ("SETUP rtsp://h/s/track0 RTSP/1.0\r\nCSeq: 1\r\n" ++
      "Transport: RTP/AVP;unicast;client_port=5000-5001\r\n\r\n")
    let play := ascii "PLAY rtsp://h/s RTSP/1.0\r\nCSeq: 2\r\nSession: 1A2B3C4D\r\n\r\n"
    let p (up : Bool) := ((Session.create (ascii "10.0.0.2") true 5).useAll default
      [.feed setup]).exec (o up) default
    let q (up : Bool) := ((p up).1.serve default play).exec (o up) (p up).2
    (∃ response, (q true).2.responses = (p true).2.responses ++ [response] ∧
      statusOf response = .ok 200 ∧ Streaming (q true).1.1 (q true).2 0) ∧
    ∃ response, (q false).2.responses = (p false).2.responses ++ [response] ∧
      statusOf response = .ok 200 ∧ (q false).1.1 = (p false).1 ∧
      (q false).2.hub.subscribers = (p false).2.hub.subscribers := by
  intro o setup play p q
  let req : Request :=
    { method := .play, uri := ascii "rtsp://h/s", cseq := 2,
      headers := [(ascii "CSeq", ascii "2"), (ascii "Session", ascii "1A2B3C4D")] }
  have hparsed : parseRequest default play = .ok (some req) := by decide +kernel
  have hanswered : ∀ up, ∃ response status,
      (q up).2.responses = (p up).2.responses ++ [response] ∧ statusOf response = .ok status ∧
      PlayOutcome (o up) (p up).2 (p up).1 req status (q up).1.1 (q up).2 := by
    intro up
    have h := play_answered default (o up) default (ascii "10.0.0.2") 5 [.feed setup] play req
      hparsed rfl
    -- so that no text is unfolded
    clear_value o setup play req
    exact h
  have hready : ∀ up, (p up).1.state = .ready ∧ (p up).1.sessionHeaderMatches req = true ∧
      (o up).connects (p up).2.streamers = true := by
    intro up
    cases up <;> decide +kernel
  have hfirst : (p true).2.streamers = 0 := by decide +kernel
  constructor
  · obtain ⟨response, status, hsent, hstatus, houtcome⟩ := hanswered true
    obtain rfl := houtcome.told.mpr (hready true)
    refine ⟨response, hsent, hstatus, ?_⟩
    rw [← hfirst]
    exact houtcome.started.mpr ⟨rfl, rfl⟩
  · obtain ⟨response, status, hsent, hstatus, houtcome⟩ := hanswered false
    obtain rfl := houtcome.told.mpr (hready false)
    obtain ⟨hsession, hsubscribers⟩ := houtcome.unchanged fun hstreaming =>
      Bool.noConfusion (houtcome.started.mp hstreaming).2
    exact ⟨response, hsent, hstatus, hsession, hsubscribers⟩

end Veda.Rtsp
