import Veda.Rtsp.Environment
import Veda.Rtsp.Reply

/-!
Everything one request can do: the reply it gets, the session it leaves behind and the calls
it makes on the way, as one relation that the other results take apart.
-/
namespace Veda.Rtsp

open Cpp Effects

variable {o : Oracle} {w : World} {s s' : Session} {req : Request} {r : Reply} {ops : List Op}

/-- A call that changes the Hub's subscriber list. -/
def Op.editsHub : Op → Bool
  | .subscribe _ => true
  | .unsubscribe _ => true
  | _ => false

/-- A call that writes to the client or to the log. -/
def Op.writes : Op → Bool
  | .logRequest _ _ => true
  | .send _ _ => true
  | _ => false

/-- The text that a call hands to `send_`. -/
def Op.sent : Op → Option Bytes
  | .send _ response => some response
  | _ => none

namespace World

theorem after_responses (op : Op) :
    (w.after o op).responses = w.responses ++ op.sent.toList := by
  rw [responses, responsesOf, after_log, List.filterMap_append]
  cases op <;> rfl

theorem afterAll_responses : (w.afterAll o ops).responses =
    w.responses ++ ops.filterMap Op.sent := by
  induction ops generalizing w with
  | nil => simp
  | cons op ops ih =>
    rw [afterAll_cons, ih, after_responses, List.append_assoc]
    cases h : op.sent <;> simp [h]

theorem afterAll_append (ops ops' : List Op) :
    w.afterAll o (ops ++ ops') = (w.afterAll o ops).afterAll o ops' :=
  List.foldl_append

theorem afterAll_streamers (ops : List Op) : w.streamers ≤ (w.afterAll o ops).streamers := by
  induction ops generalizing w with
  | nil => exact Nat.le_refl _
  | cons op ops ih =>
    have hop : w.streamers ≤ (w.after o op).streamers := by
      cases op with
      | makeStreamer => exact Nat.le_succ _
      | _ => exact Nat.le_refl _
    exact Nat.le_trans hop ih

theorem afterAll_log (ops : List Op) : ∃ calls : List Call,
    (w.afterAll o ops).log = w.log ++ calls ∧ calls.map (·.1) = ops := by
  induction ops generalizing w with
  | nil => exact ⟨[], by simp, rfl⟩
  | cons op ops ih =>
    obtain ⟨calls, hlog, hops⟩ := ih (w := w.after o op)
    refine ⟨⟨op, (w.answer o op).1⟩ :: calls, ?_, by simp [hops]⟩
    rw [afterAll_cons, hlog, after_log, List.append_assoc]
    rfl

theorem afterAll_subscribers (h : ∀ op ∈ ops, op.editsHub = false) :
    (w.afterAll o ops).hub.subscribers = w.hub.subscribers := by
  induction ops generalizing w with
  | nil => rfl
  | cons op ops ih =>
    have hop : (w.after o op).hub.subscribers = w.hub.subscribers := by
      have := h op (List.mem_cons_self ..)
      cases op <;> simp_all [Op.editsHub, after, answer, note, hubAtLookup]
    rw [afterAll_cons, ih fun op' hop' => h op' (List.mem_cons_of_mem _ hop'), hop]

theorem after_subscribe (x : StreamerId) : (w.after o (.subscribe x)).hub.subscribers =
    if o.sourceUp x then w.hub.subscribers ++ [x] else w.hub.subscribers := by
  simp only [after, answer, Media.Hub.subscribe, note]
  split <;> rfl

end World

namespace Session

/-- The calls of `stop_streaming`. -/
def stopOps (s : Session) : List Op :=
  match s.streamer with
  | some x => if s.hub then [.unsubscribe x] else []
  | none => []

theorem stopStreaming_exec : s.stopStreaming.exec o w =
    ({ s with streamer := none }, w.afterAll o s.stopOps) := by
  obtain ⟨ip, hub, conn, rx, state, id, p, q, x⟩ := s
  cases x <;> cases hub <;> rfl

/-- The session with the ports that `parse_transport` leaves in it. -/
def withPorts (s : Session) (t : TransportResult) : Session :=
  { s with clientRtpPort := t.rtpPort, clientRtcpPort := t.rtcpPort }

/-- The Transport header of the request against the ports stored in the session. -/
def transportOf (s : Session) (req : Request) : Option TransportResult :=
  (header req (ascii "Transport")).map fun v =>
    parseTransport v s.clientRtpPort s.clientRtcpPort

/-- The session id that a successful SETUP announces, and the calls that get it. -/
def announcedId (o : Oracle) (w : World) (s : Session) : Bytes :=
  if s.sessionId = [] then o.sessionId w.sessionIds else s.sessionId

def idOps (s : Session) : List Op := if s.sessionId = [] then [.generateSessionId] else []

/-- The session description that a DESCRIBE gets. -/
def sdpOf (o : Oracle) (w : World) (s : Session) : Bytes :=
  Sdp.build { payloadType := 96, clockRate := 90000,
              spropParameterSets := if s.hub then (w.hubAtLookup o).spropParameterSets else [] }

/-- What `handle` does to a request: its reply, the session afterwards, and the calls made
before and after the reply. -/
inductive Handled (o : Oracle) (w : World) (s : Session) (req : Request) :
    Answer → Session → List Op → List Op → Prop
  | unknown : req.method = .unknown → Handled o w s req (.refused .notImplemented) s [] []
  | notAllowed : req.method ≠ .unknown → s.methodAllowed req.method = false →
      Handled o w s req (.refused .notValidInState) s [] []
  | options : req.method = .options → Handled o w s req .options s [] []
  | keepAlive : req.method = .getParameter → Handled o w s req
      (if s.sessionId = [] then .ok else .okSession s.sessionId) s [] []
  | describe : req.method = .describe →
      Handled o w s req (.describe (sdpOf o w s) (req.uri ++ ascii "/")) s
        (if s.hub then [.spropParameterSets] else []) []
  | noTransport : req.method = .setup → s.methodAllowed .setup = true →
      s.transportOf req = none → Handled o w s req (.refused .noTransport) s [] []
  | badTransport (t : TransportResult) : req.method = .setup → s.methodAllowed .setup = true →
      s.transportOf req = some t → t.ok = false →
      Handled o w s req (.refused .unsupportedTransport) (s.withPorts t) [] []
  | setup (t : TransportResult) : req.method = .setup → s.methodAllowed .setup = true →
      s.transportOf req = some t → t.ok = true →
      Handled o w s req (.setup (announcedId o w s) t.rtpPort t.rtcpPort)
        { s.withPorts t with sessionId := announcedId o w s, state := .ready } s.idOps []
  | noSession : req.method = .play ∨ req.method = .pause ∨ req.method = .teardown →
      s.methodAllowed req.method = true → s.sessionHeaderMatches req = false →
      Handled o w s req (.refused .sessionNotFound) s [] []
  | notConnected : req.method = .play → s.state = .ready → s.sessionHeaderMatches req = true →
      o.connects w.streamers = false →
      Handled o w s req (.refused .internalError) s
        [.makeStreamer s.conn, .connect w.streamers s.clientIp (toUint16 s.clientRtpPort)] []
  | noHub : req.method = .play → s.state = .ready → s.sessionHeaderMatches req = true →
      o.connects w.streamers = true → s.hub = false →
      Handled o w s req (.play s.sessionId) s
        [.makeStreamer s.conn, .connect w.streamers s.clientIp (toUint16 s.clientRtpPort)] []
  | noSource : req.method = .play → s.state = .ready → s.sessionHeaderMatches req = true →
      o.connects w.streamers = true → s.hub = true → o.sourceUp w.streamers = false →
      Handled o w s req (.play s.sessionId) s
        [.makeStreamer s.conn, .connect w.streamers s.clientIp (toUint16 s.clientRtpPort)]
        [.subscribe w.streamers]
  | playing : req.method = .play → s.state = .ready → s.sessionHeaderMatches req = true →
      o.connects w.streamers = true → s.hub = true → o.sourceUp w.streamers = true →
      Handled o w s req (.play s.sessionId)
        { s with streamer := some w.streamers, state := .playing }
        [.makeStreamer s.conn, .connect w.streamers s.clientIp (toUint16 s.clientRtpPort)]
        [.subscribe w.streamers]
  | paused : req.method = .pause → s.state = .playing → s.sessionHeaderMatches req = true →
      Handled o w s req (.okSession s.sessionId) { s with streamer := none, state := .ready }
        s.stopOps []
  | closed : req.method = .teardown → s.methodAllowed .teardown = true →
      s.sessionHeaderMatches req = true →
      Handled o w s req (.teardown s.sessionId) { s with streamer := none, state := .closed }
        s.stopOps []

/-- The calls of a handled request in order: the reply goes out between the two groups. -/
def callsOf (s : Session) (req : Request) (a : Answer) (before after : List Op) : List Op :=
  before ++ .send s.conn (Reply.mk req.cseq a).render :: after

theorem mem_stopOps {op : Op} (h : op ∈ s.stopOps) : ∃ x, op = .unsubscribe x := by
  unfold stopOps at h
  split at h
  · split at h
    · exact ⟨_, List.mem_singleton.mp h⟩
    · cases h
  · cases h

theorem stopOps_filterMap {β : Type} {f : Op → Option β}
    (hf : ∀ op, op.writes = false → f op = none) : s.stopOps.filterMap f = [] := by
  rw [List.filterMap_eq_nil_iff]
  intro op hop
  obtain ⟨x, rfl⟩ := mem_stopOps hop
  exact hf _ rfl

section Calls
variable {a : Answer} {before after : List Op}

/-- The calls around a reply write nothing. -/
theorem Handled.silent (h : Handled o w s req a s' before after) :
    ∀ op ∈ before ++ after, op.writes = false := by
  have hstop : ∀ op ∈ s.stopOps ++ [], op.writes = false := by
    intro op hop
    rw [List.append_nil] at hop
    obtain ⟨x, rfl⟩ := mem_stopOps hop
    rfl
  cases h with
  | describe => split <;> simp [Op.writes]
  | setup =>
    unfold idOps
    split <;> simp [Op.writes]
  | paused => exact hstop
  | closed => exact hstop
  | _ => simp [Op.writes]

/-- Of what a handled request writes there is only the reply. -/
theorem callsOf_filterMap {β : Type} {f : Op → Option β}
    (hf : ∀ op, op.writes = false → f op = none) (h : Handled o w s req a s' before after) :
    (callsOf s req a before after).filterMap f =
      (f (.send s.conn (Reply.mk req.cseq a).render)).toList := by
  have hbefore : before.filterMap f = [] := by
    rw [List.filterMap_eq_nil_iff]
    intro op hop
    exact hf op (h.silent op (List.mem_append_left _ hop))
  have hafter : after.filterMap f = [] := by
    rw [List.filterMap_eq_nil_iff]
    intro op hop
    exact hf op (h.silent op (List.mem_append_right _ hop))
  rw [callsOf, List.filterMap_append, hbefore, List.filterMap_cons, hafter]
  cases f (.send s.conn (Reply.mk req.cseq a).render) <;> rfl

theorem sent_of_silent (op : Op) (h : op.writes = false) : op.sent = none := by
  cases op <;> first | rfl | cases h

theorem callsOf_sent (h : Handled o w s req a s' before after) :
    (callsOf s req a before after).filterMap Op.sent = [(Reply.mk req.cseq a).render] :=
  callsOf_filterMap sent_of_silent h

theorem stopOps_sent : s.stopOps.filterMap Op.sent = [] :=
  stopOps_filterMap sent_of_silent

/-- A reply leaves the Hub's list alone where the calls around it do. -/
theorem callsOf_subscribers (h : ∀ op ∈ before ++ after, op.editsHub = false) :
    (w.afterAll o (callsOf s req a before after)).hub.subscribers = w.hub.subscribers := by
  apply World.afterAll_subscribers
  intro op hop
  rcases List.mem_append.mp hop with hop | hop
  · exact h op (List.mem_append_left _ hop)
  · rcases List.mem_cons.mp hop with rfl | hop
    · rfl
    · exact h op (List.mem_append_right _ hop)

end Calls

/-- What one request does, with the world it leaves. -/
def Responds (o : Oracle) (w : World) (s : Session) (req : Request) : Prop :=
  ∃ a s' before after, Handled o w s req a s' before after ∧
    (s.respond req).exec o w = (s', w.afterAll o (callsOf s req a before after))

theorem responds_of_text {a : Answer} {before : List Op}
    (h : Handled o w s req a s' before []) (hc : s'.conn = s.conn)
    (he : (s.handle req).exec o w = ((s', (Reply.mk req.cseq a).render), w.afterAll o before)) :
    Responds o w s req := by
  refine ⟨a, s', before, [], h, ?_⟩
  rw [respond, Control.exec_bind, he]
  simp only [Reply.render_ne_nil, if_false, callsOf, World.afterAll, List.foldl_append, hc]
  rfl

theorem responds_of_empty {a : Answer} {before after : List Op}
    (h : Handled o w s req a s' before after)
    (he : (s.handle req).exec o w = ((s', []), w.afterAll o (callsOf s req a before after))) :
    Responds o w s req := by
  refine ⟨a, s', before, after, h, ?_⟩
  rw [respond, Control.exec_bind, he]
  rfl

theorem describe_responds (hm : req.method = .describe) : Responds o w s req := by
  have hu : req.method ≠ .unknown := by simp [hm]
  have ha : s.methodAllowed req.method = true := by rw [hm]; rfl
  apply responds_of_text (.describe hm) rfl
  rw [handle, if_neg hu, if_pos ha, hm]
  cases hh : s.hub <;> simp only [handleDescribe, sdpOf, hh] <;> rfl

theorem setup_responds (hm : req.method = .setup) (ha : s.methodAllowed .setup = true) :
    Responds o w s req := by
  have hu : req.method ≠ .unknown := by simp [hm]
  have he : s.handle req = s.handleSetup req := by
    rw [handle, if_neg hu, hm, if_pos ha]
  cases ht : header req (ascii "Transport") with
  | none =>
    apply responds_of_text (.noTransport hm ha (by rw [transportOf, ht]; rfl)) rfl
    rw [he, handleSetup, ht]
    rfl
  | some v =>
    have htr : s.transportOf req = some (parseTransport v s.clientRtpPort s.clientRtcpPort) := by
      rw [transportOf, ht]; rfl
    cases hok : (parseTransport v s.clientRtpPort s.clientRtcpPort).ok with
    | false =>
      apply responds_of_text (.badTransport _ hm ha htr hok) rfl
      rw [he, handleSetup, ht]
      simp only [hok]
      rfl
    | true =>
      apply responds_of_text (.setup _ hm ha htr hok) rfl
      rw [he, handleSetup, ht]
      simp only [hok, announcedId, idOps]
      by_cases hid : s.sessionId = []
      · simp only [hid]
        rfl
      · simp only [hid]
        rfl

theorem play_responds (hm : req.method = .play) (ha : s.methodAllowed .play = true) :
    Responds o w s req := by
  have hu : req.method ≠ .unknown := by simp [hm]
  have he : s.handle req = s.handlePlay req := by
    rw [handle, if_neg hu, hm, if_pos ha]
  have hs : s.state = .ready := by simpa [methodAllowed] using ha
  cases hid : s.sessionHeaderMatches req with
  | false =>
    apply responds_of_text (.noSession (.inl hm) (by rw [hm]; exact ha) hid) rfl
    rw [he, handlePlay, hid]
    rfl
  | true =>
    cases hcn : o.connects w.streamers with
    | false =>
      apply responds_of_text (.notConnected hm hs hid hcn) rfl
      rw [he, handlePlay, hid]
      simp only [if_true, Control.exec_bind, Control.exec_makeStreamer, Control.exec_connect, hcn]
      rfl
    | true =>
      cases hh : s.hub with
      | false =>
        apply responds_of_empty (.noHub hm hs hid hcn hh)
        rw [he, handlePlay, hid]
        simp only [if_true, Control.exec_bind, Control.exec_makeStreamer, Control.exec_connect,
          Control.exec_send, hcn, hh]
        rfl
      | true =>
        cases hup : o.sourceUp w.streamers with
        | false =>
          apply responds_of_empty (.noSource hm hs hid hcn hh hup)
          rw [he, handlePlay, hid]
          simp only [if_true, Control.exec_bind, Control.exec_makeStreamer,
            Control.exec_connect, Control.exec_send, Control.exec_subscribe, hcn, hh, hup]
          rfl
        | true =>
          apply responds_of_empty (.playing hm hs hid hcn hh hup)
          rw [he, handlePlay, hid]
          simp only [if_true, Control.exec_bind, Control.exec_makeStreamer,
            Control.exec_connect, Control.exec_send, Control.exec_subscribe, hcn, hh, hup]
          rfl

theorem pause_responds (hm : req.method = .pause) (ha : s.methodAllowed .pause = true) :
    Responds o w s req := by
  have hu : req.method ≠ .unknown := by simp [hm]
  have he : s.handle req = s.handlePause req := by
    rw [handle, if_neg hu, hm, if_pos ha]
  have hs : s.state = .playing := by simpa [methodAllowed] using ha
  cases hid : s.sessionHeaderMatches req with
  | false =>
    apply responds_of_text (.noSession (.inr (.inl hm)) (by rw [hm]; exact ha) hid) rfl
    rw [he, handlePause, hid]
    rfl
  | true =>
    apply responds_of_text (.paused hm hs hid) rfl
    rw [he, handlePause, hid]
    simp only [if_true, Control.exec_bind, stopStreaming_exec]
    rfl

theorem teardown_responds (hm : req.method = .teardown)
    (ha : s.methodAllowed .teardown = true) : Responds o w s req := by
  have hu : req.method ≠ .unknown := by simp [hm]
  have he : s.handle req = s.handleTeardown req := by
    rw [handle, if_neg hu, hm, if_pos ha]
  cases hid : s.sessionHeaderMatches req with
  | false =>
    apply responds_of_text (.noSession (.inr (.inr hm)) (by rw [hm]; exact ha) hid) rfl
    rw [he, handleTeardown, hid]
    rfl
  | true =>
    apply responds_of_text (.closed hm ha hid) rfl
    rw [he, handleTeardown, hid]
    simp only [if_true, Control.exec_bind, stopStreaming_exec]
    rfl

/-- Every request is handled in one of the ways of `Handled`. -/
theorem responds (o : Oracle) (w : World) (s : Session) (req : Request) :
    Responds o w s req := by
  by_cases hu : req.method = .unknown
  · apply responds_of_text (.unknown hu) rfl
    rw [handle, if_pos hu]
    rfl
  · cases ha : s.methodAllowed req.method with
    | false =>
      apply responds_of_text (.notAllowed hu ha) rfl
      rw [handle, if_neg hu, ha]
      rfl
    | true =>
      cases hm : req.method with
      | options =>
        apply responds_of_text (.options hm) rfl
        rw [handle, if_neg hu, if_pos ha, hm]
        rfl
      | getParameter =>
        apply responds_of_text (.keepAlive hm) rfl
        rw [handle, if_neg hu, if_pos ha, hm]
        by_cases hid : s.sessionId = [] <;> simp only [hid] <;> rfl
      | describe => exact describe_responds hm
      | setup => exact setup_responds hm (by rw [← hm]; exact ha)
      | play => exact play_responds hm (by rw [← hm]; exact ha)
      | pause => exact pause_responds hm (by rw [← hm]; exact ha)
      | teardown => exact teardown_responds hm (by rw [← hm]; exact ha)
      | unknown => exact absurd hm hu

end Session
end Veda.Rtsp
