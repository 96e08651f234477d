import Veda.Rtsp.Alike
import Veda.Rtsp.Lookup
import Veda.Rtsp.Moves

/-!
A session never reads the Content-Length of a request: a request ends at its blank line. So
requests without a body are handled the same with and without such a header, and a body is
read as the requests that follow.
-/
namespace Veda.Rtsp

open Cpp Effects Delimited

def contentLengthName : Bytes := ascii "Content-Length"

def isContentLength (e : Bytes × Bytes) : Bool := iequals e.1 contentLengthName

def RequestText.withoutContentLength (r : RequestText) : RequestText :=
  { r with headers := r.headers.filter fun e => !isContentLength e }

/-- Two requests that no handler can tell apart. -/
structure Request.Agrees (req req' : Request) : Prop where
  method : req.method = req'.method
  uri : req.uri = req'.uri
  cseq : req.cseq = req'.cseq
  header : ∀ name, iequals name contentLengthName = false → header req name = header req' name

/-- The requests that a session has begun to handle, in order. -/
def World.requested (w : World) : List Bytes := w.ops.filterMap Op.begins

variable {ord : HashOrder} {o : Oracle} {w w' : World} {s : Session} {r : RequestText}
  {req req' : Request} {h h' : Headers} {name raw raw' : Bytes} {rs : List RequestText}

/-- No handler looks up the Content-Length. -/
theorem Request.Agrees.alike (ha : req.Agrees req') : req.Alike req' where
  method := ha.method
  uri := ha.uri
  cseq := ha.cseq
  transport := ha.header _ (by decide +kernel)
  session := ha.header _ (by decide +kernel)

namespace RequestText

/-- Leaving out a header does not change what is found under another name. -/
theorem find?_withoutContentLength (hn : iequals name contentLengthName = false) :
    ((h.filter fun e => !isContentLength e).find? fun e => iequals e.1 name) =
      h.find? fun e => iequals e.1 name := by
  rw [List.find?_filter]
  congr 1
  funext e
  cases hname : iequals e.1 name with
  | false => simp
  | true =>
    have hother : isContentLength e = false := by
      rw [Bool.eq_false_iff] at hn ⊢
      intro hcl
      exact hn (iequals_trans (iequals_symm hname) hcl)
    simp [hother]

theorem WellFormed.withoutContentLength (hr : r.WellFormed) :
    r.withoutContentLength.WellFormed where
  method := hr.method
  uri := hr.uri
  version := hr.version
  names e he := hr.names e (List.mem_filter.mp he).1
  values e he := hr.values e (List.mem_filter.mp he).1
  distinct := hr.distinct.filter _

theorem stored_withoutContentLength (h : Headers) :
    (h.filter fun e => !isContentLength e).map stored =
      (h.map stored).filter fun e => !isContentLength e := by
  rw [List.filter_map]
  rfl

/-- The parser takes the same from a request and from the one without Content-Length. -/
theorem WellFormed.parsedAlike (hr : r.WellFormed) (ord : HashOrder) :
    ParsedAlike Request.Agrees (parseRequest ord r.text)
      (parseRequest ord r.withoutContentLength.text) := by
  have hr' := hr.withoutContentLength
  have hd := hr.distinct.stored
  have hd' := hr'.distinct.stored
  have hfound : ∀ name, iequals name contentLengthName = false →
      ((ord.order r.text (r.headers.map stored)).find? fun e => iequals e.1 name) =
        (ord.order r.withoutContentLength.text
          (r.withoutContentLength.headers.map stored)).find? fun e => iequals e.1 name := by
    intro name hn
    rw [hd.find?_order, hd'.find?_order]
    change _ = ((r.headers.filter fun e => !isContentLength e).map stored).find? _
    rw [stored_withoutContentLength, find?_withoutContentLength hn]
  have hcseq : Rtsp.cseqValue (ord.order r.text (r.headers.map stored)) =
      Rtsp.cseqValue (ord.order r.withoutContentLength.text
        (r.withoutContentLength.headers.map stored)) := by
    rw [(hd.perm (ord.perm _ _).symm).cseqValue, (hd'.perm (ord.perm _ _).symm).cseqValue,
      hfound cseqName (by decide +kernel)]
  have hline : Rtsp.requestLine r.text = Rtsp.requestLine r.withoutContentLength.text :=
    hr.requestLine_text.trans hr'.requestLine_text.symm
  refine parsedAlike_of_reading hline (congrArg _ hr.requestHeaders_text)
    (congrArg _ hr'.requestHeaders_text) hcseq fun method uri cseq => ⟨rfl, rfl, rfl, ?_⟩
  intro name hn
  rw [header, header, hfound name hn]

/-- Without Content-Length the requests are cut apart in the same places. -/
theorem scan_withoutContentLength (hrs : ∀ r ∈ rs, r.WellFormed) :
    scan crlfcrlf [] (rs.flatMap fun r => r.withoutContentLength.text) =
      (rs.map (text ∘ withoutContentLength), []) := by
  have hrs' : ∀ r ∈ rs.map withoutContentLength, r.WellFormed := by
    intro r hr
    obtain ⟨r', hr', rfl⟩ := List.mem_map.mp hr
    exact (hrs r' hr').withoutContentLength
  have hempty : Cpp.find crlfcrlf [] = none := by decide
  have hpieces := scan_texts hrs' hempty
  rw [List.append_nil, List.flatMap_map, List.map_map] at hpieces
  exact hpieces

end RequestText

section Worlds
variable {α : Type} {ops : List Op}

theorem World.afterAll_requested :
    (w.afterAll o ops).requested = w.requested ++ ops.filterMap Op.begins := by
  rw [requested, afterAll_ops, List.filterMap_append]
  rfl

/-- Serving a request begins the handling of no other. -/
theorem serve_requested (ord : HashOrder) (s : Session) (w : World) (raw : Bytes) :
    ((s.serve ord raw).exec o w).2.requested = w.requested ++ [raw] := by
  obtain ⟨s', result, calls, heffect, hexec⟩ := Session.serve_effect ord o w s raw
  rw [hexec, World.afterAll_requested]
  congr 1
  cases heffect with
  | raised => rfl
  | unparsable => rfl
  | @handled _ _ _ req a before after _ hh =>
    have hsend : (Session.callsOf s req a before after).filterMap Op.begins = [] :=
      Session.callsOf_filterMap (fun op hop => by cases op <;> first | rfl | cases hop) hh
    rw [List.filterMap_cons, hsend]
    rfl

end Worlds

/-- A run over the requests `raws` comes to its end at the `n`-th of them: the session is open
after each of those before, and a result other than `true` is that of the `n`-th. -/
structure Session.StopsAt (ord : HashOrder) (o : Oracle) (s : Session) (w : World)
    (raws : List Bytes) (n : Nat) (result : FeedResult) : Prop where
  before : ∀ k < n, ((Session.serveAll ord s (raws.take k)).exec o w).1.2 = none
  ended : result ≠ .returned true →
    ((Session.serveAll ord s (raws.take n)).exec o w).1.2 = some (result, [])

/-- Two runs over the same requests, the second time without their Content-Length headers: the
same responses, session and Hub, and the same requests begun, up to the one that closes the
session or raises, and all of them where the session stays open. -/
structure SameAnswers (ord : HashOrder) (o : Oracle) (s : Session) (w : World)
    (rs : List RequestText) (r₁ r₂ : (Session × FeedResult) × World) : Prop where
  responses : r₁.2.responses = r₂.2.responses
  result : r₁.1.2 = r₂.1.2
  session : r₁.1.1.withRx [] = r₂.1.1.withRx []
  hub : r₁.2.hub = r₂.2.hub
  requested : ∃ n, Session.StopsAt ord o s w (rs.map RequestText.text) n r₁.1.2 ∧
    r₁.2.requested = w.requested ++ (rs.take n).map RequestText.text ∧
    r₂.2.requested =
      w.requested ++ (rs.take n).map (RequestText.text ∘ RequestText.withoutContentLength) ∧
    (r₁.1.2 = .returned true → rs.take n = rs)

theorem Session.outcome_eq (result : Option (FeedResult × List Bytes)) :
    Session.outcome result = (result.map Prod.fst).getD (.returned true) := by
  rcases result with _ | ⟨r, unserved⟩ <;> rfl

/-- A session that stays open has served everything. -/
theorem Session.serveAll_outcome (ord : HashOrder) (o : Oracle) (s : Session) (w : World)
    (raws : List Bytes) :
    Session.outcome ((Session.serveAll ord s raws).exec o w).1.2 = .returned true →
      ((Session.serveAll ord s raws).exec o w).1.2 = none := by
  intro hopen
  cases hserved : ((Session.serveAll ord s raws).exec o w).1.2 with
  | none => rfl
  | some ended =>
    rw [hserved] at hopen
    exact absurd hopen (Session.serveAll_ends hserved)

namespace Session.StopsAt

variable {s s₁ : Session} {w₁ : World} {raw : Bytes} {raws : List Bytes} {n : Nat}
  {result : FeedResult}

/-- The first request leaves the session open. -/
theorem cons (hserve : (s.serve ord raw).exec o w = ((s₁, none), w₁))
    (h : StopsAt ord o s₁ w₁ raws n result) :
    StopsAt ord o s w (raw :: raws) (n + 1) result := by
  have hrest : ∀ k, ((serveAll ord s ((raw :: raws).take (k + 1))).exec o w).1.2 =
      ((serveAll ord s₁ (raws.take k)).exec o w₁).1.2 := by
    intro k
    rw [List.take_succ_cons, serveAll_cons, Control.exec_bind, hserve]
  refine ⟨?_, fun hne => (hrest n).trans (h.ended hne)⟩
  intro k hk
  cases k with
  | zero => rfl
  | succ k => exact (hrest k).trans (h.before k (Nat.lt_of_succ_lt_succ hk))

/-- The first request ends the session. -/
theorem first (hserve : (s.serve ord raw).exec o w = ((s₁, some result), w₁)) :
    StopsAt ord o s w (raw :: raws) 1 result := by
  refine ⟨?_, fun _ => ?_⟩
  · intro k hk
    obtain rfl := Nat.lt_one_iff.mp hk
    rfl
  · rw [List.take_succ_cons, List.take_zero, serveAll_cons, Control.exec_bind, hserve]
    rfl

end Session.StopsAt

theorem serveAll_same (ord : HashOrder) (o : Oracle) (s : Session) (w w' : World)
    (hrs : ∀ r ∈ rs, r.WellFormed) (hw : w.unlogged = w'.unlogged) :
    let x := (Session.serveAll ord s (rs.map RequestText.text)).exec o w
    let y := (Session.serveAll ord s
      (rs.map (RequestText.text ∘ RequestText.withoutContentLength))).exec o w'
    x.1.1 = y.1.1 ∧ x.1.2.map Prod.fst = y.1.2.map Prod.fst ∧ x.2.unlogged = y.2.unlogged ∧
    ∃ n, Session.StopsAt ord o s w (rs.map RequestText.text) n (Session.outcome x.1.2) ∧
      x.2.requested = w.requested ++ (rs.take n).map RequestText.text ∧
      y.2.requested =
        w'.requested ++ (rs.take n).map (RequestText.text ∘ RequestText.withoutContentLength) ∧
      (x.1.2 = none → rs.take n = rs) := by
  induction rs generalizing s w w' with
  | nil =>
    refine ⟨rfl, rfl, hw, 0, ⟨by simp, ?_⟩, by simp [Session.serveAll], by simp [Session.serveAll],
      by simp⟩
    exact fun hne => absurd rfl hne
  | cons r rs ih =>
    have hr := hrs r (by simp)
    have halike := (hr.parsedAlike ord).mono fun _ _ ha => ha.alike
    obtain ⟨hsame, hworld⟩ := halike.serve_exec o s hw
    have hbegun := serve_requested (o := o) ord s w r.text
    have hbegun' := serve_requested (o := o) ord s w' r.withoutContentLength.text
    simp only [List.map_cons, Function.comp_apply, Session.serveAll_cons, Control.exec_bind]
    generalize hserve : (s.serve ord r.text).exec o w = a at hsame hworld hbegun ⊢
    generalize (s.serve ord r.withoutContentLength.text).exec o w' = b at hsame hworld hbegun' ⊢
    obtain ⟨⟨s₁, result⟩, w₁⟩ := a
    obtain ⟨b₁, w₂⟩ := b
    obtain rfl : (s₁, result) = b₁ := hsame
    cases result with
    | none =>
      obtain ⟨hsession, hresult, hlog, n, hstops, hx, hy, hall⟩ :=
        ih s₁ w₁ w₂ (fun x hx => hrs x (by simp [hx])) hworld
      refine ⟨hsession, hresult, hlog, n + 1, hstops.cons hserve, ?_, ?_, ?_⟩
      · rw [List.take_succ_cons, List.map_cons, List.append_cons, ← hbegun]
        exact hx
      · rw [List.take_succ_cons, List.map_cons, List.append_cons, Function.comp_apply, ← hbegun']
        exact hy
      · intro hnone
        rw [List.take_succ_cons, hall hnone]
    | some result =>
      refine ⟨rfl, rfl, hworld, 1, .first hserve, ?_, ?_, ?_⟩
      · exact hbegun
      · exact hbegun'
      · intro hnone
        cases hnone

/-- Well-formed requests of a client that sends no body, cut into any chunks below the size
guard, with any bytes behind the last that hold no blank line. The session handles exactly
these requests in order, as it does without their Content-Length headers. -/
theorem contentLength_ignored (ord : HashOrder) (o : Oracle) (w : World) (clientIp : Bytes)
    (hub : Bool) (conn : ConnId) (rs : List RequestText) (hrs : ∀ r ∈ rs, r.WellFormed)
    (tail : Bytes) (ht : Cpp.find crlfcrlf tail = none) (chunks chunks' : List Bytes)
    (hc : chunks.flatten = rs.flatMap RequestText.text ++ tail)
    (hc' : chunks'.flatten = rs.flatMap fun r => r.withoutContentLength.text) :
    let s := Session.create clientIp hub conn
    Session.WithinGuard ord o s w chunks → Session.WithinGuard ord o s w chunks' →
      SameAnswers ord o s w rs ((s.feedAll ord chunks).exec o w)
        ((s.feedAll ord chunks').exec o w) := by
  intro s hg hg'
  have hclean : Clean crlfcrlf s.rxBuffer := clean_nil
  have hscan : scan crlfcrlf s.rxBuffer chunks.flatten = (rs.map RequestText.text, tail) := by
    rw [hc]
    exact RequestText.scan_texts hrs ht
  have hscan' : scan crlfcrlf s.rxBuffer chunks'.flatten =
      (rs.map (RequestText.text ∘ RequestText.withoutContentLength), []) := by
    rw [hc']
    exact RequestText.scan_withoutContentLength hrs
  obtain ⟨b, hfeed, -⟩ := Session.feedAll_exec hclean hg
  obtain ⟨b', hfeed', -⟩ := Session.feedAll_exec hclean hg'
  rw [hscan] at hfeed
  rw [hscan'] at hfeed'
  obtain ⟨hsession, hresult, hlog, n, hstops, hbegun, hbegun', hall⟩ :=
    serveAll_same ord o s w w hrs rfl
  rw [hfeed, hfeed']
  have hends := Session.serveAll_outcome ord o s w (rs.map RequestText.text)
  generalize (Session.serveAll ord s (rs.map RequestText.text)).exec o w = x at *
  generalize (Session.serveAll ord s
    (rs.map (RequestText.text ∘ RequestText.withoutContentLength))).exec o w = y at *
  refine ⟨?_, ?_, ?_, ?_, n, hstops, hbegun, hbegun', ?_⟩
  · change x.2.responses = y.2.responses
    rw [← x.2.responses_unlogged, hlog, y.2.responses_unlogged]
  · change Session.outcome x.1.2 = Session.outcome y.1.2
    rw [Session.outcome_eq, Session.outcome_eq, hresult]
  · change x.1.1.withRx [] = y.1.1.withRx []
    rw [hsession]
  · change x.2.unlogged.hub = y.2.unlogged.hub
    rw [hlog]
  · intro hopen
    exact hall (hends hopen)

/-- A SETUP without a body and a keep-alive with one, which holds no blank line. Both are handled,
and the body stays behind in the buffer. -/
theorem contentLength_ignored_last_body :
    let setup : RequestText :=
      { method := ascii "SETUP", uri := ascii "rtsp://h/s/track0",
        headers := [(ascii "CSeq", ascii "1"), (ascii "Content-Length", ascii "0"),
          (ascii "Transport", ascii "RTP/AVP;unicast;client_port=5000-5001")] }
    let keepAlive : RequestText :=
      { method := ascii "GET_PARAMETER", uri := ascii "rtsp://h/s",
        headers := [(ascii "CSeq", ascii "2"), (ascii "content-length", ascii "5")] }
    let s := Session.create (ascii "10.0.0.2") true 5
    let run := (s.feedAll default
      [setup.text ++ keepAlive.text ++ ascii "pos", ascii "e\r"]).exec default default
    let run' := (s.feedAll default
      [setup.withoutContentLength.text, keepAlive.withoutContentLength.text]).exec default default
    run.1.2 = .returned true ∧ run.2.requested = [setup.text, keepAlive.text] ∧
      run.2.responses = run'.2.responses ∧ run.1.2 = run'.1.2 := by
  intro setup keepAlive s run run'
  have hc : [setup.text ++ keepAlive.text ++ ascii "pos", ascii "e\r"].flatten =
      [setup, keepAlive].flatMap RequestText.text ++ ascii "pose\r" := by decide +kernel
  have hc' : [setup.withoutContentLength.text, keepAlive.withoutContentLength.text].flatten =
      [setup, keepAlive].flatMap fun r => r.withoutContentLength.text := by decide +kernel
  have hclean : Clean crlfcrlf s.rxBuffer := clean_nil
  have hlen : s.rxBuffer.length +
      [setup.text ++ keepAlive.text ++ ascii "pos", ascii "e\r"].flatten.length ≤
        kMaxRxBuffer := by decide +kernel
  have hlen' : s.rxBuffer.length +
      [setup.withoutContentLength.text, keepAlive.withoutContentLength.text].flatten.length ≤
        kMaxRxBuffer := by decide +kernel
  have hsame : SameAnswers default default s default [setup, keepAlive] run run' :=
    contentLength_ignored default default default (ascii "10.0.0.2") true 5 [setup, keepAlive]
      (by decide +kernel) (ascii "pose\r") (by decide +kernel) _ _ hc hc'
      (Session.withinGuard_of_length hclean hlen) (Session.withinGuard_of_length hclean hlen')
  have hopen : run.1.2 = .returned true := by decide +kernel
  obtain ⟨n, -, hbegun, -, hall⟩ := hsame.requested
  rw [hall hopen] at hbegun
  exact ⟨hopen, hbegun, hsame.responses, hsame.result⟩

/-- A TEARDOWN inside the body of a keep-alive ends the session. -/
theorem body_ends_session :
    let body := ascii "TEARDOWN rtsp://h/s RTSP/1.0\r\nCSeq: 3\r\nSession: 1A2B3C4D\r\n\r\n"
    let setup : RequestText :=
      { method := ascii "SETUP", uri := ascii "rtsp://h/s/track0",
        headers := [(ascii "CSeq", ascii "1"),
          (ascii "Transport", ascii "RTP/AVP;unicast;client_port=5000-5001")] }
    let keepAlive : RequestText :=
      { method := ascii "GET_PARAMETER", uri := ascii "rtsp://h/s",
        headers := [(ascii "CSeq", ascii "2"), (ascii "Content-Length", decimal body.length)] }
    let s := Session.create (ascii "10.0.0.2") true 5
    let run := (s.feedAll default [setup.text, keepAlive.text ++ body]).exec default default
    let run' := (s.feedAll default [setup.text, keepAlive.withoutContentLength.text]).exec
      default default
    (setup.WellFormed ∧ keepAlive.WellFormed) ∧
      (run.2.responses.length = 3 ∧ run.1.1.state = .closed ∧ run.1.2 = .returned false) ∧
      (run'.2.responses.length = 2 ∧ run'.1.1.state = .ready ∧ run'.1.2 = .returned true) := by
  decide +kernel

end Veda.Rtsp
