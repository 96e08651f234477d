import Veda.Rtsp.Exchange
import Veda.Rtsp.Message
import Mathlib.Data.List.Forall2

/-! One reply for each request, in order, with the sequence number of the request. -/
namespace Veda.Rtsp

open Cpp Effects Delimited Transitions

variable {ord : HashOrder} {o : Oracle} {w w' : World} {s s' : Session} {raw : Bytes}
  {x : Exchange} {xs : List Exchange}

/-- The request is a TEARDOWN and its reply a success. -/
def TearsDown (raw : Bytes) (r : Reply) : Prop :=
  (requestLine raw).map Prod.fst = some .teardown ∧ r.status = 200

/-- The reply carries the sequence number of the request, and status 400 where the request
cannot be parsed. -/
def Echoes (raw : Bytes) (r : Reply) : Prop :=
  HasHead r.status (expectedCseq raw) r.render ∧ (requestLine raw = none → r.status = 400)

theorem Session.Handled.closed_iff {req : Request} {a : Answer} {before after : List Op}
    (h : Session.Handled o w s req a s' before after) (hs : s.state ≠ .closed) :
    s'.state = .closed ↔ req.method = .teardown ∧ (Reply.mk req.cseq a).status = 200 := by
  cases h with
  | closed hm => simp [hm, Reply.status]
  | keepAlive hm => simp [hs, hm]
  | noSession => simp [hs, Reply.status, Refusal.statusCode]
  | notAllowed => simp [hs, Reply.status, Refusal.statusCode]
  | _ => simp_all [Reply.status, Session.withPorts]

/-- The method of a parsed request is the one in its request line. -/
theorem parseRequest_method {req : Request} (h : parseRequest ord raw = .ok (some req)) :
    (requestLine raw).map Prod.fst = some req.method := by
  rw [(parseRequest_parsed h).1]
  rfl

theorem exchanges_responses (h : Exchanges ord o (s, w) x (s', w')) :
    w'.responses = w.responses ++ [x.reply.render] := by
  cases h with
  | unparsable hs hp =>
    rw [World.afterAll_responses]
    rfl
  | handled hs hp hh =>
    rw [World.afterAll_responses]
    exact congrArg (_ ++ ·) (Session.callsOf_sent hh)

theorem exchanges_echoes (h : Exchanges ord o (s, w) x (s', w')) (hc : CseqWellFormed x.raw) :
    Echoes x.raw x.reply := by
  cases h with
  | @unparsable s w raw hs hp =>
    have hl := parseRequest_none.mp hp
    have hcseq : expectedCseq (Exchange.badRequest raw).raw = 0 := by
      simp [expectedCseq, Exchange.badRequest, hl]
    refine ⟨?_, fun _ => rfl⟩
    rw [hcseq]
    exact Reply.render_hasHead _
  | @handled s s' w raw req a before after hs hp hh =>
    cases hl : requestLine raw with
    | none =>
      rw [parseRequest_none.mpr hl] at hp
      cases hp
    | some line =>
      have hcseq : expectedCseq raw = req.cseq := by
        rw [parseRequest_cseq hc hl] at hp
        exact congrArg Request.cseq (Option.some.inj (Except.ok.inj hp))
      refine ⟨?_, fun hnone => ?_⟩
      · rw [hcseq]
        exact Reply.render_hasHead ⟨req.cseq, a⟩
      · rw [hl] at hnone
        cases hnone

theorem exchanges_closed_iff (h : Exchanges ord o (s, w) x (s', w')) :
    s'.state = .closed ↔ TearsDown x.raw x.reply := by
  cases h with
  | unparsable hs hp =>
    have hl := parseRequest_none.mp hp
    simp [hs, TearsDown, Exchange.badRequest, hl]
  | @handled s s' w raw req a before after hs hp hh =>
    have hm := parseRequest_method hp
    rw [hh.closed_iff hs, TearsDown, hm]
    simp

theorem exchanges_open (h : Exchanges ord o (s, w) x (s', w')) : s.state ≠ .closed := by
  cases h <;> assumption

section Run
variable {p q : Session × World}

theorem run_responses (h : Run (Exchanges ord o) p xs q) :
    q.2.responses = p.2.responses ++ (xs.map Exchange.reply).map Reply.render := by
  induction h with
  | refl => simp
  | stepL hx _ ih =>
    rw [ih, exchanges_responses hx, List.append_assoc]
    rfl

theorem run_echoes (h : Run (Exchanges ord o) p xs q)
    (hc : ∀ x ∈ xs, CseqWellFormed x.raw) : ∀ x ∈ xs, Echoes x.raw x.reply := by
  induction h with
  | refl => simp
  | stepL hx _ ih =>
    intro y hy
    rcases List.mem_cons.mp hy with rfl | hy
    · exact exchanges_echoes hx (hc _ (List.mem_cons_self ..))
    · exact ih (fun z hz => hc z (List.mem_cons_of_mem _ hz)) y hy

/-- No exchange follows a successful TEARDOWN. -/
theorem run_teardown_last {i : Nat} (h : Run (Exchanges ord o) p xs q) (hi : xs[i]? = some x)
    (ht : TearsDown x.raw x.reply) : i + 1 = xs.length := by
  induction h generalizing i with
  | refl => simp at hi
  | stepL hx hrest ih =>
    cases i with
    | zero =>
      simp only [List.getElem?_cons_zero, Option.some.injEq] at hi
      subst hi
      have hclosed := (exchanges_closed_iff hx).mpr ht
      cases hrest with
      | refl => rfl
      | stepL hy _ => exact absurd hclosed (exchanges_open hy)
    | succ i =>
      have := ih hi
      simp only [List.length_cons]
      omega

/-- A run that ends closed ends with a successful TEARDOWN. -/
theorem run_closed (h : Run (Exchanges ord o) p xs q) (hp : p.1.state ≠ .closed)
    (hq : q.1.state = .closed) :
    ∃ (i : Nat) (x : Exchange), xs[i]? = some x ∧ TearsDown x.raw x.reply := by
  induction h with
  | refl => exact absurd hq hp
  | @stepL p r q x xs hx hrest ih =>
    by_cases hr : r.1.state = .closed
    · exact ⟨0, x, rfl, (exchanges_closed_iff hx).mp hr⟩
    · obtain ⟨i, y, hi, hy⟩ := ih hr hq
      exact ⟨i + 1, y, hi, hy⟩

end Run

/-- The `i`-th request of the stream is a TEARDOWN whose reply is a success. -/
def TearsDownAt (raws : List Bytes) (replies : List Reply) (i : Nat) : Prop :=
  ∃ raw r, raws[i]? = some raw ∧ replies[i]? = some r ∧ TearsDown raw r

theorem tearsDownAt_iff {raws unserved : List Bytes} {i : Nat}
    (h : raws = xs.map Exchange.raw ++ unserved) :
    TearsDownAt raws (xs.map Exchange.reply) i ↔
      ∃ x, xs[i]? = some x ∧ TearsDown x.raw x.reply := by
  subst h
  constructor
  · rintro ⟨raw, r, hraw, hr, ht⟩
    rw [List.getElem?_map, Option.map_eq_some_iff] at hr
    obtain ⟨x, hx, rfl⟩ := hr
    have hi : i < xs.length := (List.getElem?_eq_some_iff.mp hx).1
    rw [List.getElem?_append_left (by simpa using hi), List.getElem?_map, hx] at hraw
    cases hraw
    exact ⟨x, hx, ht⟩
  · rintro ⟨x, hx, ht⟩
    have hi : i < xs.length := (List.getElem?_eq_some_iff.mp hx).1
    refine ⟨x.raw, x.reply, ?_, by rw [List.getElem?_map, hx]; rfl, ht⟩
    rw [List.getElem?_append_left (by simpa using hi), List.getElem?_map, hx]
    rfl

/-- One reply for each request of the stream, in order and with its sequence number, up to the
first successful TEARDOWN. -/
structure AnsweredBy (raws : List Bytes) (replies : List Reply) : Prop where
  echoes : List.Forall₂ Echoes (raws.take replies.length) replies
  last : ∀ i, TearsDownAt raws replies i → i + 1 = replies.length
  complete : replies.length = raws.length ∨ ∃ i, TearsDownAt raws replies i

theorem run_answeredBy {p q : Session × World} {raws unserved : List Bytes}
    (h : Run (Exchanges ord o) p xs q) (hp : p.1.state ≠ .closed)
    (hraws : raws = xs.map Exchange.raw ++ unserved)
    (hend : unserved = [] ∨ q.1.state = .closed) (hc : ∀ raw ∈ raws, CseqWellFormed raw) :
    AnsweredBy raws (xs.map Exchange.reply) := by
  have hmem : ∀ x ∈ xs, CseqWellFormed x.raw := by
    intro x hx
    apply hc
    rw [hraws]
    exact List.mem_append_left _ (List.mem_map_of_mem hx)
  refine ⟨?_, ?_, ?_⟩
  · rw [List.length_map, hraws, List.take_left' (by simp), List.forall₂_map_left_iff,
      List.forall₂_map_right_iff, List.forall₂_same]
    exact run_echoes h hmem
  · intro i hi
    obtain ⟨x, hx, ht⟩ := (tearsDownAt_iff hraws).mp hi
    rw [List.length_map]
    exact run_teardown_last h hx ht
  · rcases hend with rfl | hclosed
    · exact Or.inl (by simp [hraws])
    · obtain ⟨i, x, hx, ht⟩ := run_closed h hp hclosed
      exact Or.inr ⟨i, (tearsDownAt_iff hraws).mpr ⟨x, hx, ht⟩⟩

/-- The parser never raises on a well-formed sequence number. -/
theorem parseRequest_ne_error (hc : CseqWellFormed raw) (e : StdException) :
    parseRequest ord raw ≠ .error e := by
  intro he
  cases hl : requestLine raw with
  | none =>
    rw [parseRequest_none.mpr hl] at he
    cases he
  | some line =>
    rw [parseRequest_cseq hc hl] at he
    cases he

/-- The requests of a stream are answered one by one with their own sequence numbers, up to
the first successful TEARDOWN. -/
theorem one_reply_per_request (ord : HashOrder) (o : Oracle) (w : World) (clientIp : Bytes)
    (hub : Bool) (conn : ConnId) (chunks : List Bytes)
    (hg : Session.WithinGuard ord o (Session.create clientIp hub conn) w chunks)
    (hc : ∀ raw ∈ pieces crlfcrlf chunks.flatten, CseqWellFormed raw) :
    let run := (Session.feedAll ord (Session.create clientIp hub conn) chunks).exec o w
    ∃ replies : List Reply, run.2.responses = w.responses ++ replies.map Reply.render ∧
      AnsweredBy (pieces crlfcrlf chunks.flatten) replies := by
  intro run
  have hopen : (Session.create clientIp hub conn).state ≠ .closed := by
    simp [Session.create]
  have hclean : Clean crlfcrlf (Session.create clientIp hub conn).rxBuffer := clean_nil
  obtain ⟨b, hrun, _⟩ := Session.feedAll_exec hclean hg
  obtain ⟨xs, s', w', hxs, hends⟩ :=
    Session.serveAll_run ord o w (pieces crlfcrlf chunks.flatten) hopen
  have hworld := congrArg Prod.snd hrun
  change run.2 = ((Session.serveAll ord (Session.create clientIp hub conn)
    (pieces crlfcrlf chunks.flatten)).exec o w).2 at hworld
  generalize (Session.serveAll ord (Session.create clientIp hub conn)
    (pieces crlfcrlf chunks.flatten)).exec o w = served at hends hworld
  obtain ⟨served, w₁⟩ := served
  have hsent := run_responses hxs
  refine ⟨xs.map Exchange.reply, ?_⟩
  cases hends with
  | opened hraws _ =>
    have hsplit : pieces crlfcrlf chunks.flatten = xs.map Exchange.raw ++ [] := by simp [hraws]
    exact ⟨hworld ▸ hsent, run_answeredBy hxs hopen hsplit (Or.inl rfl) hc⟩
  | closed unserved hraws hclosed =>
    exact ⟨hworld ▸ hsent, run_answeredBy hxs hopen hraws (Or.inr hclosed) hc⟩
  | raised e bad unserved hraws _ he =>
    have hbad : CseqWellFormed bad := hc bad (by rw [hraws]; simp)
    exact absurd he (parseRequest_ne_error hbad e)

/-- Two requests in one read, the second of them no RTSP at all. -/
theorem one_reply_per_request_pipelined :
    let chunks := [ascii "OPTIONS * RTSP/1.0\r\nCSeq: 7\r\n\r\nhello\r\n\r\n"]
    let run := (Session.feedAll default (Session.create [] true 5) chunks).exec default default
    ∃ replies : List Reply, run.2.responses = replies.map Reply.render ∧
      AnsweredBy (pieces crlfcrlf chunks.flatten) replies := by
  intro chunks run
  have hlen : chunks.flatten.length ≤ kMaxRxBuffer := by decide +kernel
  have hg : Session.WithinGuard default default (Session.create [] true 5) default chunks :=
    Session.withinGuard_of_length clean_nil ((Nat.zero_add _).trans_le hlen)
  exact one_reply_per_request default default default [] true 5 chunks hg (by decide +kernel)

end Veda.Rtsp
