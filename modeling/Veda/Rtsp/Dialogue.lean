import Mathlib.Data.List.Forall2
import Veda.Rtsp.Negotiation
import Veda.Rtsp.PrintParse

/-!
A viewer and the server in turn. The viewer knows only what it reads off the answers, makes the
requests that the protocol lets it make, and is never refused.
-/
namespace Veda.Rtsp

open Cpp Delimited Transitions

/-- What a viewer knows of its session. -/
structure Viewer where
  state : State := .init
  id : Bytes := []
  rtpPort : Int := 0
  rtcpPort : Int := 0

namespace Printed

/-- The request asks for these ports in its Transport header. -/
def Asks (r : Printed) (ports : ClientPorts) : Prop :=
  ports.Valid ∧ ∃ name front back,
    (name, front ++ clientPortKey ++ ports.text ++ back) ∈ r.headers ∧
    iequals (ascii "Transport") name = true ∧ ¬ clientPortKey <:+: front ∧ Delimits back

/-- The request has this id in its Session header, with parameters or without. -/
def Names (r : Printed) (id : Bytes) : Prop :=
  ∃ name parameters, (name, id ++ parameters) ∈ r.headers ∧
    iequals (ascii "Session") name = true ∧ (parameters = [] ∨ parameters.head? = some 59)

end Printed

namespace Client

/-- The status code in the first line. -/
def status (message : Message) : Except StdException Int := statusOf (message.lines.headD [])

end Client

namespace Viewer

/-- The requests that the protocol lets a viewer make. -/
def May (v : Viewer) (r : Printed) : Prop :=
  match r.method with
  | .options => v.state ≠ .closed
  | .describe => v.state ≠ .closed
  | .getParameter => v.state ≠ .closed
  | .setup => (v.state = .init ∨ v.state = .ready) ∧ ∃ ports, r.Asks ports
  | .play => v.state = .ready ∧ r.Names v.id
  | .pause => v.state = .playing ∧ r.Names v.id
  | .teardown => (v.state = .ready ∨ v.state = .playing) ∧ r.Names v.id
  | .unknown => False

/-- What a viewer takes from a success. -/
def learns (v : Viewer) (m : Method) (message : Message) : Viewer :=
  match m with
  | .setup =>
    let id := sessionIdOf ((Client.headerOf message.lines (ascii "Session")).getD [])
    let transport :=
      parseTransport ((Client.headerOf message.lines (ascii "Transport")).getD []) 0 0
    { state := .ready, id, rtpPort := transport.rtpPort, rtcpPort := transport.rtcpPort }
  | .play => { v with state := .playing }
  | .pause => { v with state := .ready }
  | .teardown => { v with state := .closed }
  | _ => v

/-- A viewer reads one message, and goes by its status. -/
def hears (v : Viewer) (r : Printed) (answer : Bytes) : Viewer :=
  match Client.nextMessage answer with
  | none => v
  | some (message, _) =>
    if Client.status message = .ok 200 then v.learns r.method message else v

end Viewer

/-- A request, and the portions in which the server gets it. -/
structure Round where
  request : Printed
  chunks : List Bytes

structure Dialogue where
  viewer : Viewer
  session : Session
  world : World

namespace Dialogue

/-- The session is fed the request, and the viewer reads what was sent since. -/
def next (ord : HashOrder) (o : Oracle) (d : Dialogue) (x : Round) : Dialogue :=
  let fed := (d.session.feedAll ord x.chunks).exec o d.world
  let answer := (fed.2.responses.drop d.world.responses.length).flatten
  { viewer := d.viewer.hears x.request answer, session := fed.1.1, world := fed.2 }

inductive Step (ord : HashOrder) (o : Oracle) : Dialogue → Round → Dialogue → Prop
  | round {d : Dialogue} {x : Round} : d.viewer.May x.request →
      x.chunks.flatten = x.request.text → x.request.text.length ≤ kMaxRxBuffer →
      Step ord o d x (d.next ord o x)

/-- A viewer that has just connected. -/
def start (clientIp : Bytes) (conn : ConnId) (w : World) : Dialogue :=
  { viewer := {}, session := .create clientIp true conn, world := w }

/-- The viewer knows its session, and gets the stream that it has asked for; `others` are the
subscribers that were there before. -/
structure Agrees (clientIp : Bytes) (others : List StreamerId) (d : Dialogue) : Prop where
  ip : d.session.clientIp = clientIp
  hub : d.session.hub = true
  state : d.viewer.state = d.session.state
  id : d.viewer.id = d.session.sessionId
  hex : IdHex d.session
  rtpPort : d.viewer.rtpPort = d.session.clientRtpPort
  rtcpPort : d.viewer.rtcpPort = d.session.clientRtcpPort
  rxBuffer : d.session.state ≠ .closed → d.session.rxBuffer = []
  streaming : ∀ x, d.session.streamer = some x → d.session.state = .playing ∧ x ∉ others ∧
    ⟨.connect x clientIp (toUint16 d.viewer.rtpPort), true⟩ ∈ d.world.log
  silent : d.session.streamer = none → d.session.state ≠ .playing
  subscribers : d.world.hub.subscribers = others ++ d.session.streamer.toList
  older : ∀ y ∈ others, y < d.world.streamers

end Dialogue

variable {ord : HashOrder} {o : Oracle} {w : World} {s s' s₁ : Session} {req : Request}
  {raw : Bytes} {a : Answer} {before after : List Op} {chunks : List Bytes} {w₁ : World}

namespace Printed

theorem parsed (ord : HashOrder) (r : Printed) : parseRequest ord r.text =
    .ok (some ⟨r.method, r.uri, r.cseq, ord.order r.text r.lines⟩) := by
  have hd := r.lines_distinct
  have hcseq : cseqValue (ord.order r.text r.lines) = some (showInt r.cseq) := by
    rw [(hd.perm (ord.perm _ _).symm).cseqValue, hd.find?_order,
      hd.find?_of_mem (r.order.mem_iff.mpr List.mem_cons_self) (iequals_refl _)]
    rfl
  rw [parseRequest_eq, r.requestLine_text, r.requestHeaders_text, hcseq]
  dsimp only
  rw [stoi_showInt r.cseqInt.1 r.cseqInt.2]

theorem header_of_mem {r : Printed} {name field value : Bytes} (ord : HashOrder)
    (he : (name, value) ∈ r.headers) (hname : iequals field name = true) :
    header ⟨r.method, r.uri, r.cseq, ord.order r.text r.lines⟩ field = some value := by
  have hmem : (name, value) ∈ r.lines := r.order.mem_iff.mpr (List.mem_cons_of_mem _ he)
  rw [header, r.lines_distinct.find?_order,
    r.lines_distinct.find?_of_mem hmem (iequals_symm hname)]
  rfl

/-- The text of a request is one piece. -/
theorem scan_text (r : Printed) : scan crlfcrlf [] r.text = ([r.text], []) := by
  have hne : crlfcrlf ≠ [] := by decide
  obtain ⟨n, hfind, hlen⟩ := find_linesText r.clean.1 r.clean.2 (by simp) []
  rw [List.append_nil] at hfind
  change Cpp.find crlfcrlf r.text = some n at hfind
  change n + crlfcrlf.length = r.text.length at hlen
  have hrest : scan crlfcrlf [] ([] : Bytes) = ([], []) := rfl
  rw [scan_of_find hne hfind, hlen, List.take_length, List.drop_length, pieces, rest, hrest]

end Printed

namespace Session

/-- One request in any portions. -/
theorem feedAll_one {result : Option FeedResult} (hs : s.rxBuffer = [])
    (hscan : scan crlfcrlf [] raw = ([raw], [])) (hlen : raw.length ≤ kMaxRxBuffer)
    (hchunks : chunks.flatten = raw) (hserved : (s.serve ord raw).exec o w = ((s₁, result), w₁)) :
    ∃ b, ((s.feedAll ord chunks).exec o w).1.1 = s₁.withRx b ∧
      ((s.feedAll ord chunks).exec o w).2 = w₁ ∧ (result = none → b = []) := by
  have hempty : Clean crlfcrlf s.rxBuffer := by
    rw [hs]
    exact clean_nil
  have hguard : WithinGuard ord o s w chunks := by
    apply withinGuard_of_length hempty
    rw [hs, hchunks, List.length_nil]
    omega
  have hall : (serveAll ord s [raw]).exec o w =
      ((s₁, result.map fun r => (r, [])), w₁) := by
    rw [serveAll_cons, Control.exec_bind, hserved]
    cases result <;> rfl
  obtain ⟨b, hrun, hrest⟩ := feedAll_exec hempty hguard
  rw [hs, hchunks, hscan, hall] at hrun hrest
  refine ⟨b, by rw [hrun], by rw [hrun], ?_⟩
  rintro rfl
  exact hrest rfl

/-- A request that asks for nothing but an answer. -/
theorem Handled.of_query (h : Handled o w s req a s' before after)
    (hm : req.method = .options ∨ req.method = .describe ∨ req.method = .getParameter) :
    (Reply.mk req.cseq a).status = 200 ∧ s' = s ∧
      ∀ op ∈ before ++ after, op.editsHub = false := by
  have hallowed : s.methodAllowed req.method = true := by
    rcases hm with hm | hm | hm <;> rw [hm] <;> rfl
  cases h with
  | options => exact ⟨rfl, rfl, by simp⟩
  | keepAlive => exact ⟨by split <;> rfl, rfl, by simp⟩
  | describe => exact ⟨rfl, rfl, by split <;> simp [Op.editsHub]⟩
  | notAllowed _ hno =>
    rw [hallowed] at hno
    cases hno
  | noSession hother => rcases hm with hm | hm | hm <;> simp [hm] at hother
  | _ => simp_all

theorem Handled.setup_edits (h : Handled o w s req a s' before after)
    (hm : req.method = .setup) : ∀ op ∈ before ++ after, op.editsHub = false := by
  cases h with
  | setup =>
    unfold idOps
    split <;> simp [Op.editsHub]
  | describe => split <;> simp [Op.editsHub]
  | _ => simp_all

/-- PLAY with the right id, a connection and a source. -/
theorem Handled.of_play (h : Handled o w s req a s' before after) (hm : req.method = .play)
    (hs : s.state = .ready) (hid : s.sessionHeaderMatches req = true)
    (hconnects : o.connects w.streamers = true) (hub : s.hub = true)
    (hup : o.sourceUp w.streamers = true) :
    a = .play s.sessionId ∧
    s' = { s with streamer := some w.streamers, state := .playing } ∧
    before = [.makeStreamer s.conn,
      .connect w.streamers s.clientIp (toUint16 s.clientRtpPort)] ∧
    after = [.subscribe w.streamers] := by
  have hallowed : s.methodAllowed .play = true := by simp [methodAllowed, hs]
  cases h with
  | playing => exact ⟨rfl, rfl, rfl, rfl⟩
  | _ => simp_all

theorem Handled.of_pause (h : Handled o w s req a s' before after) (hm : req.method = .pause)
    (hs : s.state = .playing) (hid : s.sessionHeaderMatches req = true) :
    a = .okSession s.sessionId ∧ s' = { s with streamer := none, state := .ready } ∧
    before = s.stopOps ∧ after = [] := by
  have hallowed : s.methodAllowed .pause = true := by simp [methodAllowed, hs]
  cases h with
  | paused => exact ⟨rfl, rfl, rfl, rfl⟩
  | _ => simp_all

theorem Handled.of_teardown (h : Handled o w s req a s' before after)
    (hm : req.method = .teardown) (hs : s.state = .ready ∨ s.state = .playing)
    (hid : s.sessionHeaderMatches req = true) :
    a = .teardown s.sessionId ∧ s' = { s with streamer := none, state := .closed } ∧
    before = s.stopOps ∧ after = [] := by
  have hallowed : s.methodAllowed .teardown = true := by
    rcases hs with hs | hs <;> simp [methodAllowed, hs]
  cases h with
  | closed => exact ⟨rfl, rfl, rfl, rfl⟩
  | _ => simp_all

/-- An id ends where its parameters begin. -/
theorem sessionIdOf_hex {id parameters : Bytes} (hid : ∀ b ∈ id, isxdigit b = true)
    (hp : parameters = [] ∨ parameters.head? = some 59) :
    sessionIdOf (id ++ parameters) = id := by
  have hplain : ∀ b ∈ id, (b ≠ 59 : Bool) = true := by
    intro b hb
    simp only [decide_eq_true_eq]
    rintro rfl
    exact absurd (hid 59 hb) (by decide)
  have hend : parameters.takeWhile (fun b => b ≠ 59) = [] := by
    cases parameters with
    | nil => rfl
    | cons b rest =>
      rcases hp with hp | hp
      · cases hp
      · cases hp
        rfl
  rw [sessionIdOf, List.takeWhile_append_of_pos hplain, hend, List.append_nil]

theorem transportOf_asks {r : Printed} {ports : ClientPorts} (ord : HashOrder) (s : Session)
    (h : r.Asks ports) : s.transportOf ⟨r.method, r.uri, r.cseq, ord.order r.text r.lines⟩ =
      some { ok := true, rtpPort := ports.rtpPort, rtcpPort := ports.rtcpPort } := by
  obtain ⟨hports, name, front, back, hmem, hname, hfront, hback⟩ := h
  rw [transportOf, Printed.header_of_mem ord hmem hname, Option.map_some,
    parseTransport_negotiated hports hfront hback]

theorem matches_of_names {r : Printed} (hs : IdHex s) (h : r.Names s.sessionId) :
    s.sessionHeaderMatches ⟨r.method, r.uri, r.cseq, ord.order r.text r.lines⟩ = true := by
  obtain ⟨name, parameters, hmem, hname, hp⟩ := h
  rw [sessionHeaderMatches, Printed.header_of_mem ord hmem hname]
  simp only [sessionIdOf_hex hs hp, beq_self_eq_true]

end Session

namespace Client

theorem status_message {r : Reply} (h : r.status = 200) : status r.message = .ok 200 := by
  have hok : statusOf (ascii "RTSP/1.0 200 OK") = .ok 200 := by decide +kernel
  obtain ⟨cseq, answer⟩ := r
  cases answer with
  | refused why => exact absurd h why.statusCode_ne_ok
  | _ => exact hok

/-- The Session header of a reply to SETUP as a client finds it. -/
theorem headerOf_session (cseq rtpPort rtcpPort : Int) {id : Bytes} (h : Trimmed id) :
    headerOf (Reply.mk cseq (.setup id rtpPort rtcpPort)).lines (ascii "Session") = some id := by
  have hline : ascii "Session: " ++ id = ascii "Session:" ++ 32 :: id := by
    have hfirst : ascii "Session: " = ascii "Session:" ++ [32] := by decide +kernel
    rw [hfirst, List.append_assoc]
    rfl
  have hvalue : headerValue (ascii "Session:" ++ 32 :: id) = id := by
    rw [headerValue, (takeWhile_dropWhile_colon _ (by decide +kernel)).2]
    exact h.trim
  have hstatus : iequals (headerName (ascii "RTSP/1.0 200 OK")) (ascii "Session") = false := by
    decide +kernel
  have hcseq : iequals (headerName (ascii "CSeq: " ++ showInt cseq)) (ascii "Session") = false := by
    rw [iequals_headerName _ _ (by decide +kernel)]
    decide +kernel
  have hsession : iequals (headerName (ascii "Session:" ++ 32 :: id)) (ascii "Session") = true := by
    rw [iequals_headerName _ _ (by decide +kernel)]
    decide +kernel
  simp only [headerOf, Reply.lines, Reply.statusLine, Reply.headerLines, hline, List.find?_cons,
    hstatus, hcseq, hsession, Option.map_some, hvalue]

end Client

/-- A viewer that is sent a success reads it. -/
theorem Viewer.hears_render {r : Reply} (v : Viewer) (x : Printed) (hr : r.Framed)
    (hs : r.status = 200) : v.hears x r.render = v.learns x.method r.message := by
  have hnext := Client.nextMessage_render hr []
  rw [List.append_nil] at hnext
  rw [hears, hnext]
  exact if_pos (Client.status_message hs)

theorem Viewer.learns_setup (v : Viewer) {message : Message} {id transport : Bytes}
    (hid : Client.headerOf message.lines (ascii "Session") = some id)
    (htransport : Client.headerOf message.lines (ascii "Transport") = some transport) :
    v.learns .setup message =
      { state := .ready
        id := sessionIdOf id
        rtpPort := (parseTransport transport 0 0).rtpPort
        rtcpPort := (parseTransport transport 0 0).rtcpPort } := by
  rw [learns, hid, htransport]
  rfl

theorem isxdigit_isspace {b : UInt8} (h : isxdigit b = true) : isspace b = false := by
  simp only [isxdigit, isdigit, Bool.or_eq_true, Bool.and_eq_true, decide_eq_true_eq,
    UInt8.le_iff_toNat_le] at h
  have h48 : (48 : UInt8).toNat = 48 := rfl
  have h65 : (65 : UInt8).toNat = 65 := rfl
  have h97 : (97 : UInt8).toNat = 97 := rfl
  exact isspace_eq_false (by omega)

theorem trimmed_hex {id : Bytes} (hid : ∀ b ∈ id, isxdigit b = true) : Trimmed id :=
  ⟨fun b hb => isxdigit_isspace (hid b (List.mem_of_mem_head? hb)),
    fun b hb => isxdigit_isspace (hid b (List.mem_of_mem_getLast? hb))⟩

namespace World

theorem afterAll_reply
    (h : Session.Handled o (w.after o (.logRequest s.conn raw)) s req a s' before after) :
    (w.afterAll o (.logRequest s.conn raw :: Session.callsOf s req a before after)).responses =
      w.responses ++ [(Reply.mk req.cseq a).render] := by
  rw [afterAll_responses, List.filterMap_cons, Session.callsOf_sent h]
  rfl

theorem mem_afterAll_log {c : Call} (ops : List Op) (h : c ∈ w.log) :
    c ∈ (w.afterAll o ops).log := by
  obtain ⟨calls, hlog, -⟩ := afterAll_log (o := o) (w := w) ops
  rw [hlog]
  exact List.mem_append_left _ h

end World

namespace Dialogue

variable {clientIp : Bytes} {others : List StreamerId} {d : Dialogue} {x : Round} {reply : Reply}
  {result : Option FeedResult} {b : Bytes} {m : Method} {message : Message}

/-- A round in which the request is served with a success. -/
theorem next_served (hrx : d.session.rxBuffer = []) (hchunks : x.chunks.flatten = x.request.text)
    (hlen : x.request.text.length ≤ kMaxRxBuffer)
    (hserved : (d.session.serve ord x.request.text).exec o d.world = ((s₁, result), w₁))
    (hsent : w₁.responses = d.world.responses ++ [reply.render]) (hframed : reply.Framed)
    (hok : reply.status = 200) :
    ∃ b, d.next ord o x =
      ⟨d.viewer.learns x.request.method reply.message, s₁.withRx b, w₁⟩ ∧
      (result = none → b = []) := by
  obtain ⟨b, hsession, hworld, hb⟩ :=
    Session.feedAll_one hrx x.request.scan_text hlen hchunks hserved
  refine ⟨b, ?_, hb⟩
  rw [next, hsession, hworld, hsent, List.drop_left, List.flatten_singleton,
    d.viewer.hears_render x.request hframed hok]

namespace Agrees

/-- Outside the playing state nothing is subscribed. -/
theorem streamer_none (h : Agrees clientIp others d) (hs : d.session.state ≠ .playing) :
    d.session.streamer = none := by
  cases hx : d.session.streamer with
  | none => rfl
  | some x => exact absurd (h.streaming x hx).1 hs

/-- What the world knows besides the list and the calls does not matter. -/
theorem kept (h : Agrees clientIp others d)
    (hsubs : w₁.hub.subscribers = d.world.hub.subscribers)
    (hlog : ∀ c ∈ d.world.log, c ∈ w₁.log) (hstreamers : d.world.streamers ≤ w₁.streamers)
    (hb : d.session.state ≠ .closed → b = []) :
    Agrees clientIp others ⟨d.viewer, d.session.withRx b, w₁⟩ where
  ip := h.ip
  hub := h.hub
  state := h.state
  id := h.id
  hex := h.hex
  rtpPort := h.rtpPort
  rtcpPort := h.rtcpPort
  rxBuffer := hb
  streaming := by
    intro x hx
    obtain ⟨hplaying, hnew, hconnect⟩ := h.streaming x hx
    exact ⟨hplaying, hnew, hlog _ hconnect⟩
  silent := h.silent
  subscribers := hsubs.trans h.subscribers
  older := fun y hy => Nat.lt_of_lt_of_le (h.older y hy) hstreamers

/-- A SETUP: the viewer reads the id and the ports that the session has now. -/
theorem setup {t : TransportResult} {ports : ClientPorts} {id : Bytes} {cseq : Int}
    (h : Agrees clientIp others d) (hs : d.session.state = .init ∨ d.session.state = .ready)
    (hports : ports.Valid) (ht : t.rtpPort = ports.rtpPort ∧ t.rtcpPort = ports.rtcpPort)
    (hid : ∀ b ∈ id, isxdigit b = true)
    (hsubs : w₁.hub.subscribers = d.world.hub.subscribers)
    (hstreamers : d.world.streamers ≤ w₁.streamers) :
    Agrees clientIp others
      ⟨d.viewer.learns .setup (Reply.mk cseq (.setup id t.rtpPort t.rtcpPort)).message,
        { d.session.withPorts t with sessionId := id, state := .ready, rxBuffer := [] }, w₁⟩ := by
  have hnone : d.session.streamer = none := by
    apply h.streamer_none
    rcases hs with hs | hs <;> simp [hs]
  have hread : parseTransport (transportValue ports.rtpPort ports.rtcpPort) 0 0 =
      { ok := true, rtpPort := ports.rtpPort, rtcpPort := ports.rtcpPort } :=
    parseTransport_transportValue hports 0 0
  have hwhole : sessionIdOf id = id := by
    have hnothing := Session.sessionIdOf_hex hid (Or.inl rfl : ([] : Bytes) = [] ∨ _)
    rwa [List.append_nil] at hnothing
  have hlearns : d.viewer.learns .setup
      (Reply.mk cseq (.setup id t.rtpPort t.rtcpPort)).message =
        { state := .ready, id := id, rtpPort := ports.rtpPort, rtcpPort := ports.rtcpPort } := by
    rw [d.viewer.learns_setup (Client.headerOf_session cseq t.rtpPort t.rtcpPort (trimmed_hex hid))
      (headerOf_setup cseq id t.rtpPort t.rtcpPort), ht.1, ht.2, hread, hwhole]
  rw [hlearns]
  constructor
  · exact h.ip
  · exact h.hub
  · rfl
  · rfl
  · exact hid
  · exact ht.1.symm
  · exact ht.2.symm
  · exact fun _ => rfl
  · intro x hx
    change d.session.streamer = some x at hx
    rw [hnone] at hx
    cases hx
  · intro _
    simp
  · exact hsubs.trans h.subscribers
  · exact fun y hy => Nat.lt_of_lt_of_le (h.older y hy) hstreamers

theorem play {message : Message} (h : Agrees clientIp others d)
    (hsubs : w₁.hub.subscribers = d.world.hub.subscribers ++ [d.world.streamers])
    (hlog : ⟨.connect d.world.streamers clientIp (toUint16 d.session.clientRtpPort), true⟩ ∈
      w₁.log)
    (hstreamers : d.world.streamers < w₁.streamers) (hs : d.session.state = .ready) :
    Agrees clientIp others ⟨d.viewer.learns .play message,
      { d.session with streamer := some d.world.streamers, state := .playing, rxBuffer := [] },
      w₁⟩ := by
  have hnone : d.session.streamer = none := h.streamer_none (by simp [hs])
  constructor
  · exact h.ip
  · exact h.hub
  · rfl
  · exact h.id
  · exact h.hex
  · exact h.rtpPort
  · exact h.rtcpPort
  · exact fun _ => rfl
  · intro x hx
    obtain rfl := Option.some.inj hx
    refine ⟨rfl, ?_, ?_⟩
    · intro hold
      exact absurd (h.older _ hold) (Nat.lt_irrefl _)
    · change ⟨.connect _ _ (toUint16 d.viewer.rtpPort), true⟩ ∈ w₁.log
      rw [h.rtpPort]
      exact hlog
  · intro hx
    cases hx
  · rw [hsubs, h.subscribers, hnone]
    simp
  · exact fun y hy => Nat.lt_trans (h.older y hy) hstreamers

/-- The stream is taken down: the subscribers are the others. -/
theorem stopped {state : State} (h : Agrees clientIp others d) (hs : state ≠ .playing)
    (hsubs : w₁.hub.subscribers = others) (hstreamers : d.world.streamers ≤ w₁.streamers)
    (hb : state ≠ .closed → b = []) :
    Agrees clientIp others ⟨{ d.viewer with state := state },
      { d.session with streamer := none, state := state, rxBuffer := b }, w₁⟩ := by
  constructor
  · exact h.ip
  · exact h.hub
  · rfl
  · exact h.id
  · exact h.hex
  · exact h.rtpPort
  · exact h.rtcpPort
  · exact hb
  · intro x hx
    cases hx
  · exact fun _ => hs
  · rw [hsubs]
    exact (List.append_nil _).symm
  · exact fun y hy => Nat.lt_of_lt_of_le (h.older y hy) hstreamers

end Agrees

theorem stopOps_others (hub : s.hub = true)
    (hsubs : w.hub.subscribers = others ++ s.streamer.toList)
    (hnew : ∀ x, s.streamer = some x → x ∉ others) :
    (w.afterAll o s.stopOps).hub.subscribers = others := by
  cases hx : s.streamer with
  | none =>
    rw [hx] at hsubs
    simpa [Session.stopOps, hx] using hsubs
  | some x =>
    have hkeep : others.filter (· ≠ x) = others := by
      rw [List.filter_eq_self]
      intro y hy
      have hne : y ≠ x := fun he => hnew x hx (he ▸ hy)
      simpa using hne
    have hops : s.stopOps = [.unsubscribe x] := by
      simp [Session.stopOps, hx, hub]
    rw [hops]
    change w.hub.subscribers.filter (· ≠ x) = others
    rw [hsubs, hx, List.filter_append, hkeep]
    simp

variable (hid : ∀ n, ∀ b ∈ o.sessionId n, isxdigit b = true) (hconnects : ∀ n, o.connects n = true)
  (hup : ∀ n, o.sourceUp n = true)

include hid hconnects hup in
/-- A request that the viewer may make is answered with success, and the two agree again. -/
theorem agrees_served {r : Printed} (h : Agrees clientIp others d) (hm : d.viewer.May r)
    (hh : Session.Handled o (d.world.after o (.logRequest d.session.conn raw)) d.session
      ⟨r.method, r.uri, r.cseq, ord.order r.text r.lines⟩ a s' before after)
    (hb : s'.state ≠ .closed → b = []) :
    (Reply.mk r.cseq a).status = 200 ∧
    Agrees clientIp others ⟨d.viewer.learns r.method (Reply.mk r.cseq a).message, s'.withRx b,
      d.world.afterAll o (.logRequest d.session.conn raw :: Session.callsOf d.session
        ⟨r.method, r.uri, r.cseq, ord.order r.text r.lines⟩ a before after)⟩ := by
  have hquery : r.method = .options ∨ r.method = .describe ∨ r.method = .getParameter →
      (Reply.mk r.cseq a).status = 200 ∧
      Agrees clientIp others ⟨d.viewer.learns r.method (Reply.mk r.cseq a).message, s'.withRx b,
        d.world.afterAll o (.logRequest d.session.conn raw :: Session.callsOf d.session
          ⟨r.method, r.uri, r.cseq, ord.order r.text r.lines⟩ a before after)⟩ := by
    intro hmethod
    obtain ⟨hok, rfl, hquiet⟩ := hh.of_query hmethod
    have hlearns : d.viewer.learns r.method (Reply.mk r.cseq a).message = d.viewer := by
      rcases hmethod with hmethod | hmethod | hmethod <;> rw [hmethod] <;> rfl
    rw [hlearns]
    exact ⟨hok, h.kept (Session.callsOf_subscribers hquiet) (fun _ => World.mem_afterAll_log _)
      (World.afterAll_streamers _) hb⟩
  have hmatch : r.Names d.viewer.id → d.session.sessionHeaderMatches
      ⟨r.method, r.uri, r.cseq, ord.order r.text r.lines⟩ = true := by
    intro hnames
    rw [h.id] at hnames
    exact Session.matches_of_names h.hex hnames
  have hnew : ∀ x, d.session.streamer = some x → x ∉ others := fun x hx => (h.streaming x hx).2.1
  rw [Viewer.May, h.state] at hm
  cases hmethod : r.method with
  | options => rw [← hmethod]; exact hquery (by simp [hmethod])
  | describe => rw [← hmethod]; exact hquery (by simp [hmethod])
  | getParameter => rw [← hmethod]; exact hquery (by simp [hmethod])
  | unknown =>
    rw [hmethod] at hm
    exact hm.elim
  | setup =>
    rw [hmethod] at hm
    obtain ⟨hstate, ports, hasks⟩ := hm
    have hallowed : d.session.methodAllowed .setup = true := by
      rcases hstate with hs | hs <;> simp [Session.methodAllowed, hs]
    have ht := Session.transportOf_asks ord d.session hasks
    have hhex := hh.idHex hid h.hex
    have hsubs : (d.world.afterAll o (.logRequest d.session.conn raw :: Session.callsOf d.session
        ⟨r.method, r.uri, r.cseq, ord.order r.text r.lines⟩ a before after)).hub.subscribers =
          d.world.hub.subscribers :=
      Session.callsOf_subscribers (hh.setup_edits hmethod)
    obtain ⟨rfl, rfl⟩ := hh.of_setup hmethod hallowed ht rfl
    obtain rfl := hb (by simp)
    refine ⟨rfl, ?_⟩
    rw [hmethod] at hsubs
    exact h.setup (t := { ok := true, rtpPort := ports.rtpPort, rtcpPort := ports.rtcpPort })
      hstate hasks.1 ⟨rfl, rfl⟩ hhex hsubs (World.afterAll_streamers _)
  | play =>
    rw [hmethod] at hm
    obtain ⟨hstate, hnames⟩ := hm
    obtain ⟨rfl, rfl, rfl, rfl⟩ :=
      hh.of_play hmethod hstate (hmatch hnames) (hconnects _) h.hub (hup _)
    obtain rfl := hb (by simp)
    refine ⟨rfl, h.play ?_ ?_ (Nat.lt_succ_self _) hstate⟩
    · change (World.after o _ (.subscribe d.world.streamers)).hub.subscribers = _
      rw [World.after_subscribe, if_pos (hup _)]
      rfl
    · apply World.mem_afterAll_log [.send _ _, .subscribe _]
      rw [World.after_log]
      apply List.mem_append_right
      rw [← h.ip, ← hconnects d.world.streamers]
      exact List.mem_singleton_self _
  | pause =>
    rw [hmethod] at hm
    obtain ⟨hstate, hnames⟩ := hm
    obtain ⟨rfl, rfl, rfl, rfl⟩ := hh.of_pause hmethod hstate (hmatch hnames)
    refine ⟨rfl, h.stopped (by simp) ?_ (World.afterAll_streamers _) hb⟩
    rw [World.afterAll_cons, Session.callsOf, World.afterAll_append]
    exact stopOps_others h.hub h.subscribers hnew
  | teardown =>
    rw [hmethod] at hm
    obtain ⟨hstate, hnames⟩ := hm
    obtain ⟨rfl, rfl, rfl, rfl⟩ := hh.of_teardown hmethod hstate (hmatch hnames)
    refine ⟨rfl, h.stopped (by simp) ?_ (World.afterAll_streamers _) hb⟩
    rw [World.afterAll_cons, Session.callsOf, World.afterAll_append]
    exact stopOps_others h.hub h.subscribers hnew

/-- What one round brings about. -/
structure Served (clientIp : Bytes) (others : List StreamerId) (d : Dialogue) (x : Round)
    (d' : Dialogue) : Prop where
  reply : ∃ reply : Reply, d'.world.responses = d.world.responses ++ [reply.render] ∧
    reply.cseq = x.request.cseq ∧ reply.status = 200
  agrees : Agrees clientIp others d'
  asked : x.request.method = .setup → ∀ ports, x.request.Asks ports →
    d'.viewer.rtpPort = ports.rtpPort ∧ d'.viewer.rtcpPort = ports.rtcpPort
  kept : x.request.method ≠ .setup →
    d'.viewer.rtpPort = d.viewer.rtpPort ∧ d'.viewer.rtcpPort = d.viewer.rtcpPort

include hid hconnects hup in
theorem step_served {d' : Dialogue} (h : Agrees clientIp others d) (hstep : Step ord o d x d') :
    Served clientIp others d x d' := by
  obtain ⟨hm, hchunks, hlen⟩ := hstep
  have hopen : d.session.state ≠ .closed := by
    rw [← h.state]
    intro hclosed
    rw [Viewer.May, hclosed] at hm
    split at hm <;> simp at hm
  have hparsed := x.request.parsed ord
  obtain ⟨a, s', before, after, hh, hserve⟩ :=
    @Session.serve_handled ord o d.world d.session _ _ hparsed
  have hsent := World.afterAll_reply hh
  have hframed := hh.framed hid h.hex hparsed
  have hgranted := fun {b} => agrees_served (b := b) hid hconnects hup h hm hh
  obtain ⟨hok, -⟩ := hgranted (b := []) fun _ => rfl
  obtain ⟨b, hnext, hb⟩ :=
    next_served (h.rxBuffer hopen) hchunks hlen hserve hsent hframed hok
  have hagrees := (hgranted fun hc => hb (if_neg hc)).2
  rw [hnext]
  refine ⟨⟨_, hsent, rfl, hok⟩, hagrees, ?_, ?_⟩
  · intro hmethod ports hasks
    have hallowed : d.session.methodAllowed .setup = true := by
      rw [Viewer.May, hmethod, h.state] at hm
      rcases hm.1 with hs | hs <;> simp [Session.methodAllowed, hs]
    have hsession := (hh.of_setup hmethod hallowed (Session.transportOf_asks ord _ hasks) rfl).2
    rw [hagrees.rtpPort, hagrees.rtcpPort, hsession]
    exact ⟨rfl, rfl⟩
  · intro hmethod
    cases hx : x.request.method with
    | setup => exact absurd hx hmethod
    | _ => exact ⟨rfl, rfl⟩

/-- The last SETUP of these rounds asked for these ports. -/
def LastAsked (xs : List Round) (ports : ClientPorts) : Prop :=
  ∃ before x later, xs = before ++ x :: later ∧ x.request.method = .setup ∧
    x.request.Asks ports ∧ ∀ y ∈ later, y.request.method ≠ .setup

theorem LastAsked.last {xs : List Round} {ports : ClientPorts} (h : LastAsked (xs ++ [x]) ports) :
    x.request.method = .setup ∧ x.request.Asks ports ∨
    x.request.method ≠ .setup ∧ LastAsked xs ports := by
  obtain ⟨before, y, later, hsplit, hsetup, hasks, hlater⟩ := h
  rcases List.eq_nil_or_concat later with rfl | ⟨later, z, rfl⟩
  · obtain ⟨-, hlast⟩ := List.append_inj' hsplit rfl
    obtain rfl := List.cons.inj hlast |>.1
    exact Or.inl ⟨hsetup, hasks⟩
  · rw [List.concat_eq_append, ← List.cons_append, ← List.append_assoc] at hsplit
    obtain ⟨hinit, hlast⟩ := List.append_inj' hsplit rfl
    obtain rfl := List.cons.inj hlast |>.1
    refine Or.inr ⟨hlater x (by simp), before, y, later, hinit, hsetup, hasks, ?_⟩
    intro w hw
    exact hlater w (by simp [hw])

/-- What a whole dialogue has brought about. -/
structure Spoken (clientIp : Bytes) (w : World) (xs : List Round) (d : Dialogue) : Prop where
  replies : ∃ replies : List Reply, d.world.responses = w.responses ++ replies.map Reply.render ∧
    List.Forall₂ (fun x r => r.cseq = x.request.cseq ∧ r.status = 200) xs replies
  agrees : Agrees clientIp w.hub.subscribers d
  asked : ∀ ports, LastAsked xs ports →
    d.viewer.rtpPort = ports.rtpPort ∧ d.viewer.rtcpPort = ports.rtcpPort

include hid hconnects hup in
theorem run_spoken {conn : ConnId} {xs : List Round}
    (hw : ∀ y ∈ w.hub.subscribers, y < w.streamers)
    (h : Run (Step ord o) (start clientIp conn w) xs d) : Spoken clientIp w xs d := by
  refine Run.history ?_ h ?_
  · intro past u x v hpast hstep
    obtain ⟨⟨replies, hsent, hall⟩, hagrees, hasked⟩ := hpast
    obtain ⟨⟨reply, hreply, hcseq, hok⟩, hnext, hsetup, hother⟩ :=
      step_served hid hconnects hup hagrees hstep
    refine ⟨⟨replies ++ [reply], ?_, ?_⟩, hnext, ?_⟩
    · rw [hreply, hsent, List.map_append, List.append_assoc]
      rfl
    · exact List.rel_append hall (List.Forall₂.cons ⟨hcseq, hok⟩ .nil)
    · intro ports hlast
      rcases hlast.last with ⟨hmethod, hasks⟩ | ⟨hmethod, hbefore⟩
      · exact hsetup hmethod ports hasks
      · rw [(hother hmethod).1, (hother hmethod).2]
        exact hasked ports hbefore
  · refine ⟨⟨[], by simp [start], .nil⟩, ?_, ?_⟩
    · exact ⟨rfl, rfl, rfl, rfl, by simp [start, Session.create, IdHex], rfl, rfl, fun _ => rfl,
        by simp [start, Session.create], by simp [start, Session.create],
        by simp [start, Session.create], hw⟩
    · rintro ports ⟨before, x, later, hsplit, -⟩
      simp at hsplit

end Dialogue

open Dialogue in
/-- A viewer that keeps to the protocol is never refused where every connect and every start of
the source succeeds: each request is answered once, with 200 and its own number. The viewer reads
off the answers what the server knows of it, and after PLAY one more streamer is subscribed,
connected to the port that the last SETUP has asked for. -/
theorem viewer_served (hdrawn : ∀ n, ∃ drawn, o.sessionId n = generateSessionId drawn)
    (hconnects : ∀ n, o.connects n = true) (hup : ∀ n, o.sourceUp n = true) (clientIp : Bytes)
    (conn : ConnId) (hw : ∀ y ∈ w.hub.subscribers, y < w.streamers) {xs : List Round}
    {d : Dialogue} (h : Run (Step ord o) (start clientIp conn w) xs d) :
    (∃ replies : List Reply, d.world.responses = w.responses ++ replies.map Reply.render ∧
      List.Forall₂ (fun x r => r.cseq = x.request.cseq ∧ r.status = 200) xs replies) ∧
    (d.viewer.state = d.session.state ∧ d.viewer.id = d.session.sessionId ∧
      d.viewer.rtpPort = d.session.clientRtpPort ∧
      d.viewer.rtcpPort = d.session.clientRtcpPort) ∧
    (∀ ports, LastAsked xs ports →
      d.viewer.rtpPort = ports.rtpPort ∧ d.viewer.rtcpPort = ports.rtcpPort) ∧
    (d.viewer.state = .playing → ∃ s, d.session.streamer = some s ∧
      d.world.hub.subscribers = w.hub.subscribers ++ [s] ∧
      ⟨.connect s clientIp (toUint16 d.viewer.rtpPort), true⟩ ∈ d.world.log) ∧
    (d.viewer.state ≠ .playing → d.world.hub.subscribers = w.hub.subscribers) := by
  have hid := sessionId_hex hdrawn
  obtain ⟨hreplies, hagrees, hasked⟩ := run_spoken hid hconnects hup hw h
  refine ⟨hreplies, ⟨hagrees.state, hagrees.id, hagrees.rtpPort, hagrees.rtcpPort⟩, hasked, ?_, ?_⟩
  · intro hplaying
    rw [hagrees.state] at hplaying
    cases hx : d.session.streamer with
    | none => exact absurd hplaying (hagrees.silent hx)
    | some s =>
      obtain ⟨-, -, hconnect⟩ := hagrees.streaming s hx
      refine ⟨s, rfl, ?_, hconnect⟩
      rw [hagrees.subscribers, hx]
      rfl
  · intro hother
    rw [hagrees.state] at hother
    rw [hagrees.subscribers, hagrees.streamer_none hother]
    exact List.append_nil _

open Dialogue in
/-- SETUP for port 5000 and PLAY, which comes in two portions. -/
theorem viewer_served_playing : ∃ xs d, Run (Step default default)
    (start (ascii "10.0.0.2") 5 default) xs d ∧ xs.length = 2 ∧ d.viewer.rtpPort = 5000 ∧
    d.world.hub.subscribers = [0] ∧
    ∃ replies : List Reply, d.world.responses = replies.map Reply.render ∧
      List.Forall₂ (fun x r => r.cseq = x.request.cseq ∧ r.status = 200) xs replies := by
  let setup : Printed :=
    { method := .setup
      spelling := ascii "SETUP"
      uri := ascii "rtsp://h/s/track0"
      cseq := 1
      headers := [(ascii "Transport", ascii "RTP/AVP;unicast;client_port=5000-5001")]
      lines := [(cseqName, showInt 1),
        (ascii "Transport", ascii "RTP/AVP;unicast;client_port=5000-5001")]
      spelled := by
        change iequals _ _ = true
        decide +kernel
      uriPlain := by decide +kernel
      cseqInt := by decide
      plain := by
        rw [List.forall_mem_singleton]
        exact ⟨by decide +kernel, by decide +kernel, by decide +kernel⟩
      distinct := List.pairwise_singleton _ _
      noCseq := by decide +kernel
      order := .refl _ }
  let play : Printed :=
    { method := .play
      spelling := ascii "play"
      uri := ascii "rtsp://h/s"
      cseq := 2
      headers := [(ascii "session", ascii "1A2B3C4D;timeout=60")]
      lines := [(ascii "session", ascii "1A2B3C4D;timeout=60"), (cseqName, showInt 2)]
      spelled := by
        change iequals _ _ = true
        decide +kernel
      uriPlain := by decide +kernel
      cseqInt := by decide
      plain := by
        rw [List.forall_mem_singleton]
        exact ⟨by decide +kernel, by decide +kernel, by decide +kernel⟩
      distinct := List.pairwise_singleton _ _
      noCseq := by decide +kernel
      order := .swap .. }
  let first : Round := ⟨setup, [setup.text]⟩
  let second : Round := ⟨play, [play.text.take 20, play.text.drop 20]⟩
  let d₀ := start (ascii "10.0.0.2") 5 default
  let d₁ := d₀.next default default first
  let d₂ := d₁.next default default second
  have hports : (ClientPorts.range 5000 5001).Valid :=
    ⟨⟨by decide, by decide⟩, ⟨by decide, by decide⟩⟩
  have hasks : setup.Asks (.range 5000 5001) :=
    ⟨hports, ascii "Transport", ascii "RTP/AVP;unicast;", [], by decide +kernel, by decide +kernel,
      by decide +kernel, Or.inl rfl⟩
  have hid : d₁.viewer.id = ascii "1A2B3C4D" := by decide +kernel
  have hnames : play.Names d₁.viewer.id := by
    rw [hid]
    exact ⟨ascii "session", ascii ";timeout=60", by decide +kernel, by decide +kernel,
      Or.inr (by decide +kernel)⟩
  have hfirst : Step default default d₀ first d₁ :=
    .round ⟨Or.inl rfl, _, hasks⟩ (by decide +kernel) (by decide +kernel)
  have hsecond : Step default default d₁ second d₂ :=
    .round ⟨by decide +kernel, hnames⟩ (by decide +kernel) (by decide +kernel)
  have hrun : Run (Step default default) d₀ [first, second] d₂ := .stepL hfirst (.single hsecond)
  have hdrawn : ascii "1A2B3C4D" = generateSessionId 0x1A2B3C4D := by decide +kernel
  obtain ⟨⟨replies, hsent, hall⟩, -, hasked, -⟩ := viewer_served (fun _ => ⟨_, hdrawn⟩)
    (fun _ => rfl) (fun _ => rfl) (ascii "10.0.0.2") 5 (by simp [default, Media.Hub.create]) hrun
  have hlast : LastAsked [first, second] (.range 5000 5001) :=
    ⟨[], first, [second], rfl, rfl, hasks, by simp [second, play]⟩
  exact ⟨_, _, hrun, rfl, (hasked _ hlast).1, by decide +kernel, replies, hsent, hall⟩

end Veda.Rtsp
