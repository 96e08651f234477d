import Veda.Rtsp.Moves
import Veda.Rtsp.Responses

/-!
The session state machine over whole runs, whatever bytes arrive: which moves change the
state, when the session has an id, and who may start, stop or close its stream.
-/
namespace Veda.Rtsp

open Cpp Effects Transitions

namespace Move

/-- The method of the request line, where there is one. -/
def method (m : Move) : Option Method :=
  match m.cause with
  | .request raw => (requestLine raw).map Prod.fst
  | _ => none

/-- A response with status 200 is sent. -/
def Succeeds (m : Move) : Prop := ∃ response ∈ m.sent, statusOf response = .ok 200

/-- A SETUP answered 200. -/
def Identifies (m : Move) : Prop := m.method = some .setup ∧ m.Succeeds

/-- A SETUP answered 200 with this id in its Session line. -/
def Announces (m : Move) (id : Bytes) : Prop :=
  m.Identifies ∧ ∃ cseq rtpPort rtcpPort,
    m.sent = [Response.setup cseq id rtpPort rtcpPort 6970 6971]

/-- The transitions of the state machine. -/
def Permitted (m : Move) : Prop :=
  match m.cause with
  | .received => m.after.state = m.before.state
  | .disconnect => m.after.state = .closed
  | .request _ =>
    m.after.state = m.before.state ∨
    match m.method with
    | some .setup => m.Succeeds ∧ (m.before.state = .init ∨ m.before.state = .ready) ∧
        m.after.state = .ready
    | some .play => m.before.state = .ready ∧ m.after.state = .playing
    | some .pause => m.before.state = .playing ∧ m.after.state = .ready
    | some .teardown => (m.before.state = .ready ∨ m.before.state = .playing) ∧
        m.after.state = .closed
    | _ => False

/-- A PLAY, PAUSE or TEARDOWN that has an effect: it changes the state or the stream, or asks
the Hub for a change. -/
def Acts (m : Move) : Prop :=
  (m.method = some .play ∨ m.method = some .pause ∨ m.method = some .teardown) ∧
  (m.after.state ≠ m.before.state ∨ m.after.streamer ≠ m.before.streamer ∨
    ∃ op ∈ m.calls, op.editsHub = true)

/-- The request has a Session header with this id before its first `;`. -/
def Carries (m : Move) (id : Bytes) : Prop :=
  ∃ raw e, m.cause = .request raw ∧ e ∈ requestHeaders raw ∧
    iequals e.1 (ascii "Session") = true ∧ sessionIdOf e.2 = id

end Move

/-- What every run of a session keeps to. -/
structure Lawful (ms : List Move) : Prop where
  permitted : ∀ m ∈ ms, m.Permitted
  closed : ∀ m ∈ ms, m.before.state = .closed → m.after.state = .closed
  unidentified : ∀ i m, ms[i]? = some m →
    (m.after.sessionId = [] ↔ ∀ m' ∈ ms.take (i + 1), ¬ m'.Identifies)
  constant : ∀ m ∈ ms, m.before.sessionId ≠ [] → m.after.sessionId = m.before.sessionId
  identified : ∀ m ∈ ms, m.after.state = .ready ∨ m.after.state = .playing →
    m.after.sessionId ≠ []
  authorised : ∀ i m, ms[i]? = some m → m.Acts →
    ∃ id, m.Carries id ∧ ∃ m' ∈ ms.take i, m'.Announces id

variable {ord : HashOrder} {o : Oracle} {w w' : World} {s s' : Session} {raw : Bytes}
  {req : Request} {a : Answer} {before after : List Op} {m : Move} {ms past : List Move}
  {p q : Session × World}

namespace Session

theorem Handled.transition (h : Handled o w s req a s' before after) :
    s'.state = s.state ∨
    match req.method with
    | .setup => (Reply.mk req.cseq a).status = 200 ∧ (s.state = .init ∨ s.state = .ready) ∧
        s'.state = .ready
    | .play => s.state = .ready ∧ s'.state = .playing
    | .pause => s.state = .playing ∧ s'.state = .ready
    | .teardown => (s.state = .ready ∨ s.state = .playing) ∧ s'.state = .closed
    | _ => False := by
  cases h with
  | setup t hm ha =>
    right
    rw [hm]
    exact ⟨rfl, by simpa [methodAllowed] using ha, rfl⟩
  | playing hm hs =>
    right
    rw [hm]
    exact ⟨hs, rfl⟩
  | paused hm hs =>
    right
    rw [hm]
    exact ⟨hs, rfl⟩
  | closed hm ha =>
    right
    rw [hm]
    exact ⟨by simpa [methodAllowed] using ha, rfl⟩
  | _ => exact Or.inl rfl

/-- Only a successful SETUP touches the session id, and it announces it. -/
theorem Handled.identity (h : Handled o w s req a s' before after) :
    (req.method = .setup ∧ s'.sessionId = announcedId o w s ∧
      ∃ rtpPort rtcpPort, a = .setup s'.sessionId rtpPort rtcpPort) ∨
    (¬ (req.method = .setup ∧ (Reply.mk req.cseq a).status = 200) ∧
      s'.sessionId = s.sessionId ∧
      (s'.state = .ready ∨ s'.state = .playing → s.state = .ready ∨ s.state = .playing)) := by
  cases h with
  | setup t hm => exact Or.inl ⟨hm, rfl, _, _, rfl⟩
  | notAllowed => exact Or.inr ⟨by simp [Reply.status, Refusal.statusCode], rfl, id⟩
  | noTransport => exact Or.inr ⟨by simp [Reply.status, Refusal.statusCode], rfl, id⟩
  | badTransport => exact Or.inr ⟨by simp [Reply.status, Refusal.statusCode], rfl, id⟩
  | noSession => exact Or.inr ⟨by simp [Reply.status, Refusal.statusCode], rfl, id⟩
  | playing hm hs => exact Or.inr ⟨by simp [hm], rfl, fun _ => Or.inl hs⟩
  | paused hm hs => exact Or.inr ⟨by simp [hm], rfl, fun _ => Or.inr hs⟩
  | closed hm ha => exact Or.inr ⟨by simp [hm], rfl, by simp⟩
  | unknown hm => exact Or.inr ⟨by simp [hm], rfl, id⟩
  | options hm => exact Or.inr ⟨by simp [hm], rfl, id⟩
  | keepAlive hm => exact Or.inr ⟨by simp [hm], rfl, id⟩
  | describe hm => exact Or.inr ⟨by simp [hm], rfl, id⟩
  | notConnected hm => exact Or.inr ⟨by simp [hm], rfl, id⟩
  | noHub hm => exact Or.inr ⟨by simp [hm], rfl, id⟩
  | noSource hm => exact Or.inr ⟨by simp [hm], rfl, id⟩

/-- A PLAY, PAUSE or TEARDOWN without the right id only gets a reply. -/
theorem Handled.authorised (h : Handled o w s req a s' before after)
    (hm : req.method = .play ∨ req.method = .pause ∨ req.method = .teardown) :
    (s.sessionHeaderMatches req = true ∧ (s.state = .ready ∨ s.state = .playing)) ∨
    (s' = s ∧ ∀ op ∈ callsOf s req a before after, op.editsHub = false) := by
  have hreply : ∀ op ∈ callsOf s req a [] [], op.editsHub = false := by
    intro op hop
    rw [List.mem_singleton.mp hop]
    rfl
  cases h with
  | notConnected _ hs hid => exact Or.inl ⟨hid, Or.inl hs⟩
  | noHub _ hs hid => exact Or.inl ⟨hid, Or.inl hs⟩
  | noSource _ hs hid => exact Or.inl ⟨hid, Or.inl hs⟩
  | playing _ hs hid => exact Or.inl ⟨hid, Or.inl hs⟩
  | paused _ hs hid => exact Or.inl ⟨hid, Or.inr hs⟩
  | closed _ ha hid => exact Or.inl ⟨hid, by simpa [methodAllowed] using ha⟩
  | noSession => exact Or.inr ⟨rfl, hreply⟩
  | notAllowed => exact Or.inr ⟨rfl, hreply⟩
  | _ => simp_all

/-- The id that a request is checked against stands in one of its headers. -/
theorem sessionHeader_of_matches (hp : parseRequest ord raw = .ok (some req))
    (h : s.sessionHeaderMatches req = true) : ∃ e ∈ requestHeaders raw,
      iequals e.1 (ascii "Session") = true ∧ sessionIdOf e.2 = s.sessionId := by
  rw [sessionHeaderMatches, header] at h
  split at h
  · cases h
  · rename_i value hvalue
    obtain ⟨e, he, rfl⟩ := Option.map_eq_some_iff.mp hvalue
    have hname : iequals e.1 (ascii "Session") = true := by
      have := List.find?_some he
      exact this
    have hmem := List.mem_of_find?_eq_some he
    rw [(parseRequest_parsed hp).2] at hmem
    exact ⟨e, (ord.perm raw _).mem_iff.mp hmem, hname, by simpa using h⟩

end Session

/-- What a request that is parsed and handled looks like as a move. -/
structure Handles (ord : HashOrder) (o : Oracle) (w : World) (m : Move) (req : Request)
    (a : Answer) (before after : List Op) : Prop where
  parsed : ∃ raw, m.cause = .request raw ∧ parseRequest ord raw = .ok (some req)
  handled : Session.Handled o w m.before req a m.after before after
  method : m.method = some req.method
  sent : m.sent = [(Reply.mk req.cseq a).render]
  calls : ∀ op, op ∈ m.calls → op.editsHub = true →
    op ∈ Session.callsOf m.before req a before after

theorem Move.not_acts (hs : m.after = m.before ∨ m.method = none)
    (hc : ∀ op ∈ m.calls, op.editsHub = false) : ¬ m.Acts := by
  rintro ⟨hm, hact⟩
  rcases hs with hs | hs
  · rcases hact with hact | hact | ⟨op, hop, hedit⟩
    · exact hact (congrArg Session.state hs)
    · exact hact (congrArg Session.streamer hs)
    · rw [hc op hop] at hedit
      cases hedit
  · rw [hs] at hm
    simp at hm

theorem handles_handled {before after : List Op} (hp : parseRequest ord raw = .ok (some req))
    (hh : Session.Handled o w s req a s' before after) :
    Handles ord o w ⟨.request raw, s, s', .logRequest s.conn raw ::
      Session.callsOf s req a before after⟩ req a before after := by
  refine ⟨⟨raw, rfl, hp⟩, hh, parseRequest_method hp, Session.callsOf_sent hh, ?_⟩
  intro op hop hedit
  rcases List.mem_cons.mp hop with rfl | hop
  · cases hedit
  · exact hop

/-- A move handles a request, or it leaves state and id alone and has no effect, or it is the
end of the connection. -/
theorem Effect.cases (h : Effect ord o w m) :
    (∃ w' req a before after, Handles ord o w' m req a before after) ∨
    (m.cause ≠ .disconnect ∧ m.after.state = m.before.state ∧
      m.after.sessionId = m.before.sessionId ∧ ¬ m.Succeeds ∧ ¬ m.Acts) ∨
    (m.cause = .disconnect ∧ m.after.state = .closed ∧
      m.after.sessionId = m.before.sessionId ∧ m.method = none) := by
  cases h with
  | received b =>
    refine Or.inr (Or.inl ⟨by simp, rfl, rfl, ?_, Move.not_acts (Or.inr rfl) (by simp)⟩)
    rintro ⟨response, hmem, -⟩
    simp [Move.sent] at hmem
  | raised hp =>
    refine Or.inr (Or.inl ⟨by simp, rfl, rfl, ?_, ?_⟩)
    · rintro ⟨response, hmem, -⟩
      simp [Move.sent, Op.sent] at hmem
    · exact Move.not_acts (Or.inl rfl) (by simp [Op.editsHub])
  | @unparsable s raw hp =>
    have hcalls : ∀ op ∈ (Exchange.badRequest raw).calls s.conn, op.editsHub = false := by
      intro op hop
      rcases List.mem_cons.mp hop with rfl | hop
      · rfl
      · rw [List.mem_singleton.mp hop]
        rfl
    refine Or.inr (Or.inl ⟨by simp, rfl, rfl, ?_, Move.not_acts (Or.inl rfl) hcalls⟩)
    rintro ⟨response, hmem, hstatus⟩
    have hsent : response = (Reply.mk 0 (.refused .badRequest)).render := by
      have hrender : (Reply.mk 0 (.refused .badRequest)).render = response := by
        simpa [Move.sent, Exchange.calls, Exchange.badRequest, Op.sent] using hmem
      exact hrender.symm
    rw [hsent, Reply.statusOf_render] at hstatus
    cases hstatus
  | handled hp hh => exact Or.inl ⟨_, _, _, _, _, handles_handled hp hh⟩
  | disconnect => exact Or.inr (Or.inr ⟨rfl, rfl, rfl, rfl⟩)

namespace Handles

theorem succeeds_iff (h : Handles ord o w m req a before after) :
    m.Succeeds ↔ (Reply.mk req.cseq a).status = 200 := by
  simp [Move.Succeeds, h.sent, Reply.statusOf_render]

theorem permitted (h : Handles ord o w m req a before after) : m.Permitted := by
  obtain ⟨raw, hcause, -⟩ := h.parsed
  rw [Move.Permitted, hcause]
  rcases h.handled.transition with hstate | hstate
  · exact Or.inl hstate
  · right
    rw [h.method]
    cases hm : req.method with
    | setup =>
      rw [hm] at hstate
      exact ⟨h.succeeds_iff.mpr hstate.1, hstate.2⟩
    | play =>
      rw [hm] at hstate
      exact hstate
    | pause =>
      rw [hm] at hstate
      exact hstate
    | teardown =>
      rw [hm] at hstate
      exact hstate
    | _ =>
      rw [hm] at hstate
      exact hstate

end Handles

/-- What a session knows about itself after these moves. -/
structure Known (past : List Move) (s : Session) : Prop where
  unidentified : s.sessionId = [] ↔ ∀ m ∈ past, ¬ m.Identifies
  announced : s.sessionId ≠ [] → ∃ m ∈ past, m.Announces s.sessionId
  identified : s.state = .ready ∨ s.state = .playing → s.sessionId ≠ []

theorem known_create (clientIp : Bytes) (hub : Bool) (conn : ConnId) :
    Known [] (Session.create clientIp hub conn) := by
  refine ⟨by simp [Session.create], by simp [Session.create], by simp [Session.create]⟩

/-- A move that is no successful SETUP. -/
theorem Known.unchanged (h : Known past m.before) (hm : ¬ m.Identifies)
    (hid : m.after.sessionId = m.before.sessionId)
    (hs : m.after.state = .ready ∨ m.after.state = .playing →
      m.before.state = .ready ∨ m.before.state = .playing) : Known (past ++ [m]) m.after := by
  refine ⟨?_, ?_, ?_⟩
  · rw [hid, h.unidentified]
    constructor
    · intro hpast m' hm'
      rcases List.mem_append.mp hm' with hm' | hm'
      · exact hpast m' hm'
      · rwa [List.mem_singleton.mp hm']
    · intro hpast m' hm'
      exact hpast m' (List.mem_append_left _ hm')
  · rw [hid]
    intro hne
    obtain ⟨m', hm', ha⟩ := h.announced hne
    exact ⟨m', List.mem_append_left _ hm', ha⟩
  · rw [hid]
    intro hstate
    exact h.identified (hs hstate)

/-- A successful SETUP. -/
theorem known_setup (hne : m.after.sessionId ≠ [])
    (ha : m.Announces m.after.sessionId) : Known (past ++ [m]) m.after := by
  refine ⟨?_, fun _ => ⟨m, by simp, ha⟩, fun _ => hne⟩
  constructor
  · intro hnil
    exact absurd hnil hne
  · intro hpast
    exact absurd ha.1 (hpast m (by simp))

theorem known_step (hid : ∀ n, o.sessionId n ≠ []) (h : Known past p.1)
    (hm : Moves ord o p m q) : Known (past ++ [m]) q.1 ∧
      (m.before.sessionId ≠ [] → m.after.sessionId = m.before.sessionId) := by
  obtain ⟨hbefore, rfl, heffect⟩ := hm.effect
  rw [← hbefore] at h
  rcases heffect.cases with ⟨w', req, a, before, after, hh⟩ | ⟨-, hstate, hsid, hfail, -⟩ |
    ⟨-, hclosed, hsid, hnone⟩
  · rcases hh.handled.identity with ⟨hset, hann, rtpPort, rtcpPort, ha⟩ | ⟨hno, hsid, hstate⟩
    · have hne : m.after.sessionId ≠ [] := by
        rw [hann, Session.announcedId]
        split
        · exact hid _
        · assumption
      have hstatus : (Reply.mk req.cseq a).status = 200 := by rw [ha]; rfl
      refine ⟨known_setup hne ⟨⟨by rw [hh.method, hset], hh.succeeds_iff.mpr hstatus⟩, ?_⟩, ?_⟩
      · refine ⟨req.cseq, rtpPort, rtcpPort, ?_⟩
        rw [hh.sent, ha]
        rfl
      · intro hne
        rw [hann, Session.announcedId, if_neg hne]
    · refine ⟨h.unchanged ?_ hsid hstate, fun _ => hsid⟩
      rintro ⟨hset, hsucc⟩
      rw [hh.method, Option.some.injEq] at hset
      exact hno ⟨hset, hh.succeeds_iff.mp hsucc⟩
  · refine ⟨h.unchanged (fun hi => hfail hi.2) hsid ?_, fun _ => hsid⟩
    rw [hstate]
    exact id
  · refine ⟨h.unchanged ?_ hsid ?_, fun _ => hsid⟩
    · rintro ⟨hset, -⟩
      rw [hnone] at hset
      cases hset
    · rw [hclosed]
      simp

theorem Moves.permitted (h : Moves ord o p m q) : m.Permitted := by
  obtain ⟨-, -, heffect⟩ := h.effect
  rcases heffect.cases with ⟨w', req, a, before, after, hh⟩ | ⟨hne, hstate, -⟩ |
    ⟨hcause, hclosed, -⟩
  · exact hh.permitted
  · rw [Move.Permitted]
    split
    · exact hstate
    · rename_i hcause
      exact absurd hcause hne
    · exact Or.inl hstate
  · rw [Move.Permitted, hcause]
    exact hclosed

/-- No transition leaves the closed state. -/
theorem Move.Permitted.closed (h : m.Permitted) (hc : m.before.state = .closed) :
    m.after.state = .closed := by
  rw [Move.Permitted] at h
  split at h
  · exact h.trans hc
  · exact h
  · rcases h with h | h
    · exact h.trans hc
    · split at h <;> simp_all

theorem acts_authorised (h : Known past p.1) (hm : Moves ord o p m q) (ha : m.Acts) :
    ∃ id, m.Carries id ∧ ∃ m' ∈ past, m'.Announces id := by
  obtain ⟨hbefore, -, heffect⟩ := hm.effect
  rw [← hbefore] at h
  rcases heffect.cases with ⟨w', req, a, before, after, hh⟩ | ⟨-, -, -, -, hno⟩ |
    ⟨-, -, -, hnone⟩
  · obtain ⟨hmethod, hact⟩ := ha
    simp only [hh.method, Option.some.injEq] at hmethod
    rcases hh.handled.authorised hmethod with ⟨hid, hstate⟩ | ⟨hsame, hquiet⟩
    · obtain ⟨raw, hcause, hparsed⟩ := hh.parsed
      obtain ⟨e, he, hname, hvalue⟩ := Session.sessionHeader_of_matches hparsed hid
      obtain ⟨m', hm', hann⟩ := h.announced (h.identified hstate)
      exact ⟨_, ⟨raw, e, hcause, he, hname, hvalue⟩, m', hm', hann⟩
    · exfalso
      rcases hact with hact | hact | ⟨op, hop, hedit⟩
      · exact hact (congrArg Session.state hsame)
      · exact hact (congrArg Session.streamer hsame)
      · rw [hquiet op (hh.calls op hop hedit)] at hedit
        cases hedit
  · exact absurd ha hno
  · have hmethod := ha.1
    rw [hnone] at hmethod
    simp at hmethod

/-- The knowledge of a session along a run that begins with the session itself. -/
theorem known_run (hid : ∀ n, o.sessionId n ≠ []) (hp : Known [] p.1)
    (h : Run (Moves ord o) p ms q) : Known ms q.1 := by
  refine Run.history (p := fun past (r : Session × World) => Known past r.1) ?_ h hp
  intro past u m v hknown hm
  exact (known_step hid hknown hm).1

theorem lawful_run (hid : ∀ n, o.sessionId n ≠ []) (hp : Known [] p.1)
    (h : Run (Moves ord o) p ms q) : Lawful ms := by
  have hat : ∀ {i m}, ms[i]? = some m → ∃ u v, Known (ms.take i) u.1 ∧ Moves ord o u m v ∧
      u.1 = m.before ∧ v.1 = m.after := by
    intro i m hi
    obtain ⟨u, v, hrun, hm⟩ := h.get hi
    obtain ⟨hu, hv, -⟩ := hm.effect
    exact ⟨u, v, known_run hid hp hrun, hm, hu.symm, by rw [hv]⟩
  have hmem : ∀ {m}, m ∈ ms → ∃ past u v, Known past u.1 ∧ Moves ord o u m v ∧
      u.1 = m.before ∧ v.1 = m.after := by
    intro m hm
    obtain ⟨i, hi⟩ := List.mem_iff_getElem?.mp hm
    exact ⟨_, hat hi⟩
  refine ⟨?_, ?_, ?_, ?_, ?_, ?_⟩
  · intro m hm
    obtain ⟨past, u, v, -, hmove, -⟩ := hmem hm
    exact hmove.permitted
  · intro m hm
    obtain ⟨past, u, v, -, hmove, -⟩ := hmem hm
    exact hmove.permitted.closed
  · intro i m hi
    obtain ⟨u, v, hknown, hmove, -, hv⟩ := hat hi
    have hnext := (known_step hid hknown hmove).1
    rw [hv] at hnext
    rw [List.take_add_one, hi]
    exact hnext.unidentified
  · intro m hm
    obtain ⟨past, u, v, hknown, hmove, -⟩ := hmem hm
    exact (known_step hid hknown hmove).2
  · intro m hm
    obtain ⟨past, u, v, hknown, hmove, -, hv⟩ := hmem hm
    have hnext := (known_step hid hknown hmove).1
    rw [hv] at hnext
    exact hnext.identified
  · intro i m hi ha
    obtain ⟨u, v, hknown, hmove, -⟩ := hat hi
    exact acts_authorised hknown hmove ha

/-- Every use of a session, whatever bytes it is fed, is a run of moves, and every run keeps to
the state machine: it moves along the table only, has an id exactly from the first successful
SETUP on, and lets only requests with that id start, stop or close the stream. -/
theorem session_lawful (ord : HashOrder) (o : Oracle) (hid : ∀ n, o.sessionId n ≠ [])
    (w : World) (clientIp : Bytes) (hub : Bool) (conn : ConnId) :
    let s := Session.create clientIp hub conn
    (∀ uses, ∃ ms, Run (Moves ord o) (s, w) ms ((s.useAll ord uses).exec o w)) ∧
    ∀ ms q, Run (Moves ord o) (s, w) ms q → Lawful ms := by
  intro s
  refine ⟨Session.useAll_moves, ?_⟩
  intro ms q h
  exact lawful_run hid (known_create clientIp hub conn) h

/-- A viewer who sets up, plays with the id announced, and hangs up. -/
theorem session_lawful_viewer :
    let s := Session.create (ascii "10.0.0.2") true 5
    let requests := [
      .feed (ascii "SETUP rtsp://h/s/track0 RTSP/1.0\r\nCSeq: 1\r\n"),
      .feed (ascii "Transport: RTP/AVP;unicast;client_port=5000-5001\r\n\r\n"),
      .feed (ascii "PLAY rtsp://h/s RTSP/1.0\r\nCSeq: 2\r\nSession: 1A2B3C4D;timeout=60\r\n\r\n")]
    ((s.useAll default requests).exec default default).1.state = .playing ∧
    ∃ ms, Run (Moves default default) (s, default) ms
      ((s.useAll default (requests ++ [.disconnect])).exec default default) ∧ Lawful ms := by
  intro s requests
  have hid : ascii "1A2B3C4D" ≠ [] := by decide +kernel
  obtain ⟨hruns, hlaw⟩ :=
    session_lawful default default (fun _ => hid) default (ascii "10.0.0.2") true 5
  obtain ⟨ms, hrun⟩ := hruns (requests ++ [.disconnect])
  exact ⟨by decide +kernel, ms, hrun, hlaw ms _ hrun⟩

end Veda.Rtsp
