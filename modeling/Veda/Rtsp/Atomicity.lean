import Veda.Rtsp.Exchange

/-!
Failed requests. A refused request leaves the session and the Hub as they were, with one
exception: a rejected SETUP keeps the numbers that it carried.
-/
namespace Veda.Rtsp

open Cpp Effects Transitions

variable {ord : HashOrder} {o : Oracle} {w w' : World} {s s' : Session} {req : Request}
  {x : Exchange} {xs : List Exchange} {p q : Session × World}

def ValidPort (port : Int) : Prop := 0 < port ∧ port ≤ 65535

/-- Where the Transport value is rejected, the numbers that can be read from it are those
already stored. -/
def LeavesPorts (transport : Bytes) (rtpPort rtcpPort : Int) : Prop :=
  ∀ text, clientPortText transport = some text →
    match find [45] text with
    | none => ∀ port, stoi text = .ok port → ¬ ValidPort port →
        port = rtpPort ∧ intAdd port 1 = rtcpPort
    | some dash => ∀ port, stoi (text.take dash) = .ok port →
        match stoi (text.drop (dash + 1)) with
        | .error _ => port = rtpPort
        | .ok port' => ¬ ValidPort port → port = rtpPort ∧ port' = rtcpPort

theorem leavesPorts_iff {v : Bytes} {rtpPort rtcpPort : Int} :
    LeavesPorts v rtpPort rtcpPort ↔
      ((parseTransport v rtpPort rtcpPort).ok = false →
        (parseTransport v rtpPort rtcpPort).rtpPort = rtpPort ∧
        (parseTransport v rtpPort rtcpPort).rtcpPort = rtcpPort) := by
  have hrange : ∀ port : Int, (decide (port > 0) && decide (port ≤ 65535)) = false ↔
      ¬ ValidPort port := by
    intro port
    simp only [ValidPort, Bool.and_eq_false_iff, decide_eq_false_iff_not, not_and_or, gt_iff_lt]
  unfold LeavesPorts parseTransport
  cases clientPortText v with
  | none => simp
  | some text =>
    simp only [Option.some.injEq, forall_eq']
    cases find [45] text with
    | none =>
      cases stoi text with
      | error e => simp
      | ok port => simp only [Except.ok.injEq, forall_eq', hrange]
    | some dash =>
      dsimp only
      cases stoi (text.take dash) with
      | error e => simp
      | ok port =>
        cases stoi (text.drop (dash + 1)) with
        | error e => simp
        | ok port' => simp only [Except.ok.injEq, forall_eq', hrange]

namespace Session

/-- The condition on a request under which a refusal changes nothing. -/
def KeepsPorts (s : Session) (req : Request) : Prop :=
  req.method = .setup → s.methodAllowed .setup = true →
    ∀ v, header req (ascii "Transport") = some v →
      LeavesPorts v s.clientRtpPort s.clientRtcpPort

/-- The negotiated state of a session and the Hub's subscriber list are the same. -/
structure SameNegotiated (s : Session) (w : World) (s' : Session) (w' : World) : Prop where
  state : s'.state = s.state
  sessionId : s'.sessionId = s.sessionId
  clientRtpPort : s'.clientRtpPort = s.clientRtpPort
  clientRtcpPort : s'.clientRtcpPort = s.clientRtcpPort
  streamer : s'.streamer = s.streamer
  subscribers : w'.hub.subscribers = w.hub.subscribers

theorem keepsPorts_transport {t : TransportResult} (hm : req.method = .setup)
    (ha : s.methodAllowed .setup = true) (ht : s.transportOf req = some t) (hok : t.ok = false) :
    s.KeepsPorts req ↔ t.rtpPort = s.clientRtpPort ∧ t.rtcpPort = s.clientRtcpPort := by
  obtain ⟨v, hv, rfl⟩ := Option.map_eq_some_iff.mp ht
  have hval : ∀ v', header req (ascii "Transport") = some v' → v' = v := by
    intro v' hv'
    rw [hv] at hv'
    exact (Option.some.inj hv').symm
  constructor
  · intro hk
    exact leavesPorts_iff.mp (hk hm ha v hv) hok
  · intro hports _ _ v' hv'
    rw [hval v' hv']
    exact leavesPorts_iff.mpr fun _ => hports

theorem keepsPorts_of_method (hm : req.method ≠ .setup) : s.KeepsPorts req :=
  fun h => absurd h hm

/-- A refusal changes nothing exactly under the condition. -/
theorem Handled.same_iff {a : Answer} {before after : List Op}
    (h : Handled o w s req a s' before after) (hst : (Reply.mk req.cseq a).status ≠ 200) :
    SameNegotiated s w s' (w.afterAll o (callsOf s req a before after)) ↔ s.KeepsPorts req := by
  have hsame : s' = s → (∀ op ∈ before ++ after, op.editsHub = false) →
      SameNegotiated s w s' (w.afterAll o (callsOf s req a before after)) := by
    rintro rfl hops
    exact ⟨rfl, rfl, rfl, rfl, rfl, callsOf_subscribers hops⟩
  cases h with
  | unknown hm => exact iff_of_true (hsame rfl (by simp)) (keepsPorts_of_method (by simp [hm]))
  | notAllowed hu ha =>
    refine iff_of_true (hsame rfl (by simp)) fun hm hallowed => ?_
    rw [hm, hallowed] at ha
    cases ha
  | noTransport hm ha ht =>
    refine iff_of_true (hsame rfl (by simp)) fun _ _ v hv => ?_
    simp [transportOf, hv] at ht
  | badTransport t hm ha ht hok =>
    rw [keepsPorts_transport hm ha ht hok]
    constructor
    · intro h
      exact ⟨h.clientRtpPort, h.clientRtcpPort⟩
    · rintro ⟨hp, hq⟩
      exact ⟨rfl, rfl, hp, hq, rfl, callsOf_subscribers (by simp)⟩
  | noSession hm ha hid =>
    refine iff_of_true (hsame rfl (by simp)) (keepsPorts_of_method ?_)
    rcases hm with hm | hm | hm <;> simp [hm]
  | notConnected hm hs hid hcn =>
    exact iff_of_true (hsame rfl (by simp [Op.editsHub])) (keepsPorts_of_method (by simp [hm]))
  | keepAlive hm => split at hst <;> exact absurd rfl hst
  | _ => exact absurd rfl hst

end Session

/-- The client ports that a successful SETUP announces. -/
def Reply.announced (r : Reply) : Option (Int × Int) :=
  match r.answer with
  | .setup _ rtpPort rtcpPort => some (rtpPort, rtcpPort)
  | _ => none

/-- The ports of the most recent successful SETUP. -/
def lastSetup (replies : List Reply) : Option (Int × Int) :=
  (replies.filterMap Reply.announced).getLast?

theorem lastSetup_concat (replies : List Reply) (r : Reply) :
    lastSetup (replies ++ [r]) = r.announced.or (lastSetup replies) := by
  simp only [lastSetup, List.filterMap_append, List.getLast?_append]
  cases h : r.announced <;> simp [h]

theorem parseTransport_ok {v : Bytes} {rtpPort rtcpPort : Int}
    (h : (parseTransport v rtpPort rtcpPort).ok = true) :
    ValidPort (parseTransport v rtpPort rtcpPort).rtpPort := by
  revert h
  unfold parseTransport
  cases clientPortText v with
  | none => simp
  | some text =>
    dsimp only
    cases find [45] text with
    | none => cases stoi text <;> simp [ValidPort]
    | some dash =>
      dsimp only
      cases stoi (text.take dash) with
      | error e => simp
      | ok port => cases stoi (text.drop (dash + 1)) <;> simp [ValidPort]

namespace Session

/-- A session outside INIT holds the ports of the last successful SETUP. -/
def HoldsPorts (s : Session) (announced : Option (Int × Int)) : Prop :=
  s.state = .init ∨
    (announced = some (s.clientRtpPort, s.clientRtcpPort) ∧ ValidPort s.clientRtpPort)

theorem Handled.holdsPorts {a : Answer} {before after : List Op} {replies : List Reply}
    (h : Handled o w s req a s' before after) (hk : s.KeepsPorts req)
    (hs : s.HoldsPorts (lastSetup replies)) :
    s'.HoldsPorts (lastSetup (replies ++ [⟨req.cseq, a⟩])) := by
  rw [lastSetup_concat]
  cases h with
  | setup t hm ha ht hok =>
    obtain ⟨v, _, rfl⟩ := Option.map_eq_some_iff.mp ht
    exact Or.inr ⟨rfl, parseTransport_ok hok⟩
  | badTransport t hm ha ht hok =>
    obtain ⟨hp, hq⟩ := (keepsPorts_transport hm ha ht hok).mp hk
    simpa [HoldsPorts, withPorts, hp, hq, Reply.announced] using hs
  | keepAlive => split <;> exact hs
  | playing hm hr => simpa [HoldsPorts, hr, Reply.announced] using hs
  | paused hm hr => simpa [HoldsPorts, hr, Reply.announced] using hs
  | closed hm ha =>
    have hinit : s.state ≠ .init := by
      intro hi
      simp [methodAllowed, hi] at ha
    simpa [HoldsPorts, hinit, Reply.announced] using hs
  | _ => exact hs

/-- A PLAY connects to the port that the session holds. -/
theorem Handled.connect {a : Answer} {before after : List Op} {x : StreamerId} {ip : Bytes}
    {port : UInt16} (h : Handled o w s req a s' before after)
    (hmem : .connect x ip port ∈ callsOf s req a before after) :
    s.state = .ready ∧ port = toUint16 s.clientRtpPort := by
  have hstop : Op.connect x ip port ∉ s.stopOps := by
    intro hop
    obtain ⟨y, hy⟩ := mem_stopOps hop
    cases hy
  cases h with
  | notConnected hm hr => simp_all [callsOf]
  | noHub hm hr => simp_all [callsOf]
  | noSource hm hr => simp_all [callsOf]
  | playing hm hr => simp_all [callsOf]
  | describe => simp [callsOf] at hmem
  | setup => simp [callsOf, idOps] at hmem
  | paused => simp [callsOf, hstop] at hmem
  | closed => simp [callsOf, hstop] at hmem
  | _ => simp [callsOf] at hmem

end Session
/-- An exchange whose request meets the condition on its ports. -/
def CarefulExchanges (ord : HashOrder) (o : Oracle) (p : Session × World) (x : Exchange)
    (q : Session × World) : Prop :=
  Exchanges ord o p x q ∧ ∀ req, parseRequest ord x.raw = .ok (some req) → p.1.KeepsPorts req

theorem careful_same (h : CarefulExchanges ord o p x q) (hst : x.reply.status ≠ 200) :
    Session.SameNegotiated p.1 p.2 q.1 q.2 := by
  obtain ⟨hx, hk⟩ := h
  cases hx with
  | unparsable hs hp =>
    exact ⟨rfl, rfl, rfl, rfl, rfl, World.afterAll_subscribers (by
      simp [Exchange.calls, Exchange.badRequest, Op.editsHub])⟩
  | @handled s s' w raw req a before after hs hp hh =>
    have h := (hh.same_iff hst).mpr (hk req hp)
    exact ⟨h.state, h.sessionId, h.clientRtpPort, h.clientRtcpPort, h.streamer, h.subscribers⟩

theorem careful_holdsPorts {replies : List Reply} (h : CarefulExchanges ord o p x q)
    (hp : p.1.HoldsPorts (lastSetup replies)) :
    q.1.HoldsPorts (lastSetup (replies ++ [x.reply])) := by
  obtain ⟨hx, hk⟩ := h
  cases hx with
  | unparsable hs hr =>
    rw [lastSetup_concat]
    exact hp
  | handled hs hr hh => exact hh.holdsPorts (hk _ hr) hp

theorem careful_run_holdsPorts {replies : List Reply} (h : Run (CarefulExchanges ord o) p xs q)
    (hp : p.1.HoldsPorts (lastSetup replies)) :
    q.1.HoldsPorts (lastSetup (replies ++ xs.map Exchange.reply)) := by
  induction h generalizing replies with
  | refl => simpa using hp
  | stepL hx _ ih =>
    have := ih (careful_holdsPorts hx hp)
    simpa [List.append_assoc] using this

theorem toUint16_of_validPort {port : Int} (h : ValidPort port) :
    ((toUint16 port).toNat : Int) = port := by
  obtain ⟨hpos, hmax⟩ := h
  rw [toUint16, UInt16.ofInt, UInt16.toNat_ofNat']
  omega

/-- A refusal leaves the negotiated state alone exactly when the request is no rejected SETUP
that carries other numbers than those stored. In a run without such requests every refusal
does, and every PLAY connects to the port that the last successful SETUP has announced. -/
theorem refused_request_keeps_session (ord : HashOrder) (o : Oracle) :
    (∀ (s : Session) (w : World) (req : Request),
      let run := (s.respond req).exec o w
      ∃ response, run.2.responses = w.responses ++ [response] ∧
        (statusOf response ≠ .ok 200 →
          (Session.SameNegotiated s w run.1 run.2 ↔ s.KeepsPorts req))) ∧
    ∀ (w : World) (clientIp : Bytes) (hub : Bool) (conn : ConnId) (xs : List Exchange)
      (q : Session × World),
      Run (CarefulExchanges ord o) (Session.create clientIp hub conn, w) xs q →
      (∀ x q', CarefulExchanges ord o q x q' → x.reply.status ≠ 200 →
        Session.SameNegotiated q.1 q.2 q'.1 q'.2) ∧
      ∀ req, ∃ calls, ((q.1.respond req).exec o q.2).2.log = q.2.log ++ calls ∧
        ∀ s ip port answer, ⟨.connect s ip port, answer⟩ ∈ calls →
          ∃ rtpPort rtcpPort, lastSetup (xs.map Exchange.reply) = some (rtpPort, rtcpPort) ∧
            (port.toNat : Int) = rtpPort := by
  refine ⟨fun s w req => ?_, fun w clientIp hub conn xs q hrun => ⟨?_, fun req => ?_⟩⟩
  · obtain ⟨a, s', before, after, hh, he⟩ := Session.responds o w s req
    refine ⟨(Reply.mk req.cseq a).render, ?_, fun hst => ?_⟩
    · rw [he, World.afterAll_responses, Session.callsOf_sent hh]
    · rw [Reply.statusOf_render] at hst
      rw [he]
      exact hh.same_iff fun h => hst (congrArg Except.ok h)
  · intro x q' hx hst
    exact careful_same hx hst
  · obtain ⟨a, s', before, after, hh, he⟩ := Session.responds o q.2 q.1 req
    obtain ⟨calls, hlog, hops⟩ := World.afterAll_log (o := o) (w := q.2)
      (Session.callsOf q.1 req a before after)
    refine ⟨calls, by rw [he, hlog], fun s ip port answer hmem => ?_⟩
    have hop : Op.connect s ip port ∈ Session.callsOf q.1 req a before after := by
      rw [← hops]
      exact List.mem_map_of_mem (f := Sigma.fst) hmem
    obtain ⟨hready, hport⟩ := hh.connect hop
    have hinit : (Session.create clientIp hub conn, w).1.HoldsPorts (lastSetup []) := Or.inl rfl
    rcases careful_run_holdsPorts hrun hinit with hi | ⟨hannounced, hvalid⟩
    · rw [hready] at hi
      cases hi
    · refine ⟨_, _, hannounced, ?_⟩
      rw [hport]
      exact toUint16_of_validPort hvalid

/-- A SETUP that is rejected in READY for its port 70000 moves the stored ports, and the PLAY
after it streams to port 4464. -/
theorem rejected_setup_moves_ports :
    let setup := ascii ("SETUP rtsp://h/s RTSP/1.0\r\nCSeq: 1\r\n" ++
      "Transport: client_port=5000-5001\r\n\r\n")
    let rejected := ascii ("SETUP rtsp://h/s RTSP/1.0\r\nCSeq: 2\r\n" ++
      "Transport: client_port=70000-5\r\n\r\n")
    let play := ascii "PLAY rtsp://h/s RTSP/1.0\r\nCSeq: 3\r\nSession: 1A2B3C4D\r\n\r\n"
    let s := Session.create (ascii "10.0.0.2") true 5
    let before := (Session.feedAll default s [setup]).exec default default
    let run := (Session.feedAll default s [setup, rejected]).exec default default
    let later := (Session.feedAll default s [setup, rejected, play]).exec default default
    run.2.responses = before.2.responses ++
        [Response.error 2 461 (ascii "Unsupported Transport")] ∧
      before.1.1.clientRtpPort = 5000 ∧ run.1.1.clientRtpPort = 70000 ∧
      (later.2.log.filterMap fun
        | ⟨.connect _ _ port, _⟩ => some port
        | _ => none) = [4464] := by
  decide +kernel

end Veda.Rtsp
