import Veda.Rtsp.Network
import Veda.Rtsp.Responses
import Veda.Rtsp.Subscriptions

/-!
What becomes of the requests of a client that closes its side. A hang-up is looked at before
the socket is read, so what is still unread then is lost; without such a report every complete
request reaches `feed`.
-/
namespace Veda.Rtsp

open Cpp Delimited Transitions

namespace Conn

/-- Every complete request that the client has sent has been handed to `feed`. -/
def Handed (c : Conn) : Prop := pieces crlfcrlf c.fed.flatten = pieces crlfcrlf c.sent

/-- One of the requests was a TEARDOWN, and it was answered with success. -/
def TornDown (c : Conn) : Prop :=
  ∃ (i : Nat) (raw response : Bytes), (pieces crlfcrlf c.fed.flatten)[i]? = some raw ∧
    c.responses[i]? = some response ∧ (requestLine raw).map Prod.fst = some .teardown ∧
    statusOf response = .ok 200

/-- The connection of a client in the map, with its session. -/
structure Attends (c : Conn) (s : Session) : Prop where
  opened : s.state ≠ .closed
  sent : c.fed.flatten <+: c.sent
  rxBuffer : s.rxBuffer = rest crlfcrlf c.fed.flatten
  answered : c.responses.length = (pieces crlfcrlf c.fed.flatten).length
  notFailed : c.failed = false
  notTornDown : ¬ c.TornDown

/-- Why a client is no longer in the map. -/
def Released (c : Conn) : Prop :=
  (c.halfClosed = true ∧ c.Handed) ∨ c.failed = true ∨ c.TornDown

end Conn

namespace Network

/-- No complete request of a client that was dropped is lost, unless it had torn its session
down or its connection failed. -/
def NothingLost (n : Network) : Prop :=
  ∀ fd c, n.conns fd = some c → n.clients.lookup fd = none →
    c.Handed ∨ c.failed = true ∨ c.TornDown

/-- Where a hang-up is reported of a client, the bytes that wait in its socket complete no
request. -/
def Drained (n : Network) : Label → Prop
  | .report fd _ true => ∀ s c, n.clients.lookup fd = some s → n.conns fd = some c →
      Cpp.find crlfcrlf (s.rxBuffer ++ c.unread) = none
  | _ => True

/-- A step that meets this condition. -/
def DrainedStep (ord : HashOrder) (o : Oracle) (n : Network) (l : Label) (n' : Network) : Prop :=
  Step ord o n l n' ∧ Drained n l

structure Kept (n : Network) : Prop where
  attends : ∀ fd s, n.clients.lookup fd = some s → ∃ c, n.conns fd = some c ∧ c.Attends s
  released : ∀ fd c, n.conns fd = some c → n.clients.lookup fd = none → c.Released

end Network

variable {ord : HashOrder} {o : Oracle} {w w' : World} {s s' : Session} {c : Conn}
  {data : Bytes} {clients : Clients} {fd : Nat} {n n' : Network} {l : Network.Label}
  {x : Exchange} {xs : List Exchange} {q : Clients × World}

section Reading
variable {p p' : Session × World}

/-- A session that is open at the end has torn nothing down. -/
theorem run_open (h : Run (Exchanges ord o) p xs p') (hp : p'.1.state ≠ .closed) :
    ∀ x ∈ xs, ¬ TearsDown x.raw x.reply := by
  induction h with
  | refl => simp
  | @stepL p r p' x xs hx hrest ih =>
    intro y hy ht
    rcases List.mem_cons.mp hy with rfl | hy
    · have hclosed := (exchanges_closed_iff hx).mpr ht
      cases hrest with
      | refl => exact hp hclosed
      | stepL hz _ => exact exchanges_open hz hclosed
    · exact ih hp y hy ht

theorem tearsDown_iff {raw : Bytes} {r : Reply} : TearsDown raw r ↔
    (requestLine raw).map Prod.fst = some .teardown ∧ statusOf r.render = .ok 200 := by
  rw [TearsDown, Reply.statusOf_render, Except.ok.injEq]

theorem Conn.Attends.pieces_feed (h : c.Attends s) :
    pieces crlfcrlf (c.feed data w w').fed.flatten =
      pieces crlfcrlf c.fed.flatten ++ pieces crlfcrlf (s.rxBuffer ++ data) := by
  rw [h.rxBuffer, ← pieces_append]
  simp [Conn.feed]

theorem Conn.feed_responses {replies : List Reply}
    (hw : w'.responses = w.responses ++ replies.map Reply.render) :
    (c.feed data w w').responses = c.responses ++ replies.map Reply.render := by
  simp [Conn.feed, hw]

/-- The `i`-th request read now, with its reply. -/
theorem Conn.Attends.tornDown_feed {unserved : List Bytes} {i : Nat} (h : c.Attends s)
    (hw : w'.responses = w.responses ++ (xs.map Exchange.reply).map Reply.render)
    (hraws : pieces crlfcrlf (s.rxBuffer ++ data) = xs.map Exchange.raw ++ unserved)
    (hi : xs[i]? = some x) (ht : TearsDown x.raw x.reply) : (c.feed data w w').TornDown := by
  obtain ⟨hm, hstatus⟩ := tearsDown_iff.mp ht
  have hlt : i < xs.length := (List.getElem?_eq_some_iff.mp hi).1
  refine ⟨c.responses.length + i, x.raw, x.reply.render, ?_, ?_, hm, hstatus⟩
  · rw [h.pieces_feed, h.answered, List.getElem?_append_right (by omega), Nat.add_sub_cancel_left,
      hraws, List.getElem?_append_left (by simpa using hlt), List.getElem?_map, hi]
    rfl
  · rw [Conn.feed_responses hw, List.getElem?_append_right (by omega), Nat.add_sub_cancel_left,
      List.getElem?_map, List.getElem?_map, hi]
    rfl

theorem Conn.Attends.notTornDown_feed (h : c.Attends s)
    (hw : w'.responses = w.responses ++ (xs.map Exchange.reply).map Reply.render)
    (hraws : pieces crlfcrlf (s.rxBuffer ++ data) = xs.map Exchange.raw)
    (hxs : ∀ x ∈ xs, ¬ TearsDown x.raw x.reply) : ¬ (c.feed data w w').TornDown := by
  rintro ⟨i, raw, response, hraw, hresponse, hm, hstatus⟩
  rw [h.pieces_feed, hraws] at hraw
  rw [Conn.feed_responses hw] at hresponse
  by_cases hi : i < c.responses.length
  · rw [List.getElem?_append_left (by rw [← h.answered]; exact hi)] at hraw
    rw [List.getElem?_append_left hi] at hresponse
    exact h.notTornDown ⟨i, raw, response, hraw, hresponse, hm, hstatus⟩
  · rw [List.getElem?_append_right (by rw [← h.answered]; omega), ← h.answered,
      List.getElem?_map, Option.map_eq_some_iff] at hraw
    rw [List.getElem?_append_right (by omega), List.getElem?_map, List.getElem?_map,
      Option.map_map, Option.map_eq_some_iff] at hresponse
    obtain ⟨x, hx, rfl⟩ := hraw
    obtain ⟨y, hy, rfl⟩ := hresponse
    obtain rfl : x = y := Option.some.inj (hx.symm.trans hy)
    exact hxs x (List.mem_of_getElem? hx) (tearsDown_iff.mpr ⟨hm, hstatus⟩)

/-- What one read does to a connection: the session goes on, or it has been torn down. -/
theorem Conn.Attends.feed (h : c.Attends s) (ord : HashOrder) (o : Oracle) (w : World)
    (hlen : (s.rxBuffer ++ data).length ≤ kMaxRxBuffer) (hdata : c.fed.flatten ++ data <+: c.sent)
    (hw : w'.responses = ((s.feed ord data).exec o w).2.responses) :
    (((s.feed ord data).exec o w).1.2 = .returned true →
      (c.feed data w w').Attends ((s.feed ord data).exec o w).1.1) ∧
    (((s.feed ord data).exec o w).1.2 = .returned false → (c.feed data w w').TornDown) := by
  obtain ⟨xs, s', w₁, hrun, hends⟩ :=
    Session.serveAll_run ord o w (pieces crlfcrlf (s.rxBuffer ++ data)) h.opened
  have hsent := run_responses hrun
  rw [Session.feed_exec hlen] at hw ⊢
  generalize (Session.serveAll ord s (pieces crlfcrlf (s.rxBuffer ++ data))).exec o w =
    served at hends hw ⊢
  obtain ⟨served, w₂⟩ := served
  cases hends with
  | opened hraws hopen =>
    dsimp only [Session.settle] at hw ⊢
    refine ⟨fun _ => ?_, (by intro hclosed; cases hclosed)⟩
    have hresponses := hw.trans hsent
    refine ⟨hopen, by simpa [Conn.feed] using hdata, ?_, ?_, h.notFailed, ?_⟩
    · change rest crlfcrlf (s.rxBuffer ++ data) = _
      rw [h.rxBuffer, ← rest_append]
      simp [Conn.feed]
    · rw [Conn.feed_responses hresponses, h.pieces_feed, ← hraws]
      simp [h.answered]
    · exact h.notTornDown_feed hresponses hraws.symm (run_open hrun hopen)
  | closed unserved hraws hclosed =>
    dsimp only [Session.settle] at hw ⊢
    refine ⟨(by intro hopen; cases hopen), fun _ => ?_⟩
    obtain ⟨i, x, hi, ht⟩ := run_closed hrun h.opened hclosed
    exact h.tornDown_feed (hw.trans hsent) hraws hi ht
  | raised e bad unserved hraws hopen he =>
    dsimp only [Session.settle]
    constructor
    · intro hopen
      cases hopen
    · intro hclosed
      cases hclosed

/-- The unread bytes complete no request exactly if all requests have been handed on. -/
theorem Conn.Attends.handed_iff (h : c.Attends s) :
    c.Handed ↔ Cpp.find crlfcrlf (s.rxBuffer ++ c.unread) = none := by
  have hsplit : c.sent = c.fed.flatten ++ c.unread :=
    (List.prefix_iff_eq_append.mp h.sent).symm
  rw [← pieces_eq_nil_iff (by decide), Conn.Handed, hsplit, pieces_append, ← h.rxBuffer]
  exact List.self_eq_append_right

theorem Conn.Attends.send (h : c.Attends s) (data : Bytes) :
    { c with sent := c.sent ++ data }.Attends s :=
  ⟨h.opened, h.sent.trans (List.prefix_append _ _), h.rxBuffer, h.answered, h.notFailed,
    h.notTornDown⟩

end Reading

section Events

/-- What a read does to the map. -/
theorem step_read (hl : clients.lookup fd = some s) (hd : data ≠ [])
    (h : Server.Step ord o (clients, w) (.read fd data) q) :
    q.2.responses = ((s.feed ord data).exec o w).2.responses ∧
    ((((s.feed ord data).exec o w).1.2 = .returned true ∧
        q.1 = clients.insert fd ((s.feed ord data).exec o w).1.1) ∨
      (((s.feed ord data).exec o w).1.2 = .returned false ∧ q.1 = clients.erase fd)) := by
  cases Server.step_round h with
  | dropped _ _ he =>
    rcases he with he | he | he <;> cases he
    exact absurd rfl hd
  | stale _ _ hnone =>
    rw [hnone] at hl
    cases hl
  | fed _ _ s₀ s' w' _ hl₀ hf =>
    obtain rfl : s = s₀ := Option.some.inj (hl.symm.trans hl₀)
    rw [hf]
    exact ⟨rfl, Or.inl ⟨rfl, rfl⟩⟩
  | ended _ _ s₀ s' w' _ hl₀ hf =>
    obtain rfl : s = s₀ := Option.some.inj (hl.symm.trans hl₀)
    rw [hf]
    refine ⟨?_, Or.inr ⟨rfl, rfl⟩⟩
    rw [World.afterAll_responses, Session.stopOps_sent, List.append_nil]

/-- What the other events of a client do to the map. -/
theorem step_drop {event : Event}
    (he : event = .hangup fd ∨ event = .readFailed fd ∨ event = .read fd [])
    (h : Server.Step ord o (clients, w) event q) :
    q.1.lookup fd = none ∧ ∀ x, x ≠ fd → q.1.lookup x = clients.lookup x := by
  have hdrop : ((Server.dropClient clients fd).exec o w).1.lookup fd = none ∧ ∀ x, x ≠ fd →
      ((Server.dropClient clients fd).exec o w).1.lookup x = clients.lookup x := by
    refine ⟨Server.dropClient_lookup, ?_⟩
    intro x hx
    cases hl : clients.lookup fd with
    | none =>
      rw [Server.dropClient, hl]
      rfl
    | some s =>
      rw [Server.dropClient_exec hl]
      exact AList.lookup_erase_ne hx
  cases Server.step_round h with
  | accepted => rcases he with he | he | he <;> cases he
  | acceptFailed => rcases he with he | he | he <;> cases he
  | dropped fd₀ _ he₀ =>
    obtain rfl : fd = fd₀ := by
      rcases he with rfl | rfl | rfl <;> simpa using he₀
    exact hdrop
  | stale fd₀ _ hnone =>
    obtain rfl : fd = fd₀ := by
      rcases he with he | he | he <;> cases he
      rfl
    exact ⟨hnone, fun _ _ => rfl⟩
  | fed _ _ _ _ _ hd =>
    rcases he with he | he | he <;> cases he
    exact absurd rfl hd
  | ended _ _ _ _ _ hd =>
    rcases he with he | he | he <;> cases he
    exact absurd rfl hd

end Events

namespace Network

theorem Kept.attends_of (h : Kept n) (hl : n.clients.lookup fd = some s)
    (hc : n.conns fd = some c) : c.Attends s := by
  obtain ⟨c₀, hc₀, hattends⟩ := h.attends fd s hl
  obtain rfl : c = c₀ := Option.some.inj (hc.symm.trans hc₀)
  exact hattends

/-- Only the connection on `fd` changes. -/
theorem Kept.update (h : Kept n) (fd : Nat)
    (hother : ∀ x, x ≠ fd → n'.clients.lookup x = n.clients.lookup x ∧ n'.conns x = n.conns x)
    (ha : ∀ s, n'.clients.lookup fd = some s → ∃ c, n'.conns fd = some c ∧ c.Attends s)
    (hr : ∀ c, n'.conns fd = some c → n'.clients.lookup fd = none → c.Released) : Kept n' := by
  constructor
  · intro x s hx
    by_cases hfd : x = fd
    · subst hfd
      exact ha s hx
    · rw [(hother x hfd).1] at hx
      rw [(hother x hfd).2]
      exact h.attends x s hx
  · intro x c hc hx
    by_cases hfd : x = fd
    · subst hfd
      exact hr c hc hx
    · rw [(hother x hfd).1] at hx
      rw [(hother x hfd).2] at hc
      exact h.released x c hc hx

theorem withConn_self (n : Network) (fd : Nat) (c : Conn) :
    (n.withConn fd c).conns fd = some c :=
  Function.update_self ..

theorem withConn_other {y : Nat} (n : Network) (c : Conn) (hy : y ≠ fd) :
    (n.withConn fd c).conns y = n.conns y :=
  Function.update_of_ne hy ..

/-- A client that is dropped, and whose connection is accounted for. -/
theorem Kept.drop (h : Kept n) (fd : Nat) (hlookup : n'.clients.lookup fd = none)
    (hother : ∀ x, x ≠ fd → n'.clients.lookup x = n.clients.lookup x ∧ n'.conns x = n.conns x)
    (hr : ∀ c, n'.conns fd = some c → c.Released) : Kept n' := by
  refine h.update fd hother ?_ fun c hc _ => hr c hc
  intro s hs
  rw [hlookup] at hs
  cases hs

theorem accept_lookup {peerIp : Bytes} {registered : Bool} (hfree : clients.lookup fd = none)
    (h : Server.Step ord o (clients, w) (.accept fd peerIp registered) q) :
    (∀ x, x ≠ fd → q.1.lookup x = clients.lookup x) ∧
    q.1.lookup fd = if registered then some (Session.create peerIp true fd) else none := by
  have hnew : fd ∉ clients := AList.lookup_eq_none.mp hfree
  cases Server.step_round h with
  | accepted =>
    rw [Server.acceptClient]
    cases registered with
    | false => exact ⟨fun _ _ => rfl, hfree⟩
    | true =>
      simp only [hnew, decide_false, Bool.not_false, Bool.and_true, if_true]
      exact ⟨fun x hx => AList.lookup_insert_ne hx, AList.lookup_insert ..⟩
  | dropped _ _ he => rcases he with he | he | he <;> cases he

theorem attends_create (peerIp : Bytes) (hub : Bool) (conn : ConnId) :
    Conn.Attends {} (Session.create peerIp hub conn) := by
  refine ⟨by simp [Session.create], List.nil_prefix, rfl, rfl, rfl, ?_⟩
  rintro ⟨i, raw, response, hraw, -⟩
  cases hraw

/-- The connection on `fd` is another one, and the map is as before. -/
theorem Kept.withConn {c' : Conn} (h : Kept n) (hc : n.conns fd = some c)
    (ha : ∀ s, c.Attends s → c'.Attends s) (hr : c.Released → c'.Released) :
    Kept (n.withConn fd c') := by
  refine h.update fd (fun x hx => ⟨rfl, withConn_other n c' hx⟩) ?_ ?_
  · intro s hs
    exact ⟨c', withConn_self n fd c', ha s (h.attends_of hs hc)⟩
  · intro c₀ hc₀ hs
    obtain rfl : c' = c₀ := Option.some.inj ((withConn_self n fd c').symm.trans hc₀)
    exact hr (h.released fd c hc hs)

theorem kept_read {k : Nat} (h : Kept n) (hl : n.clients.lookup fd = some s)
    (hc : n.conns fd = some c) (hpos : 0 < k) (hk : k ≤ c.unread.length)
    (hlen : (s.rxBuffer ++ c.unread.take k).length ≤ kMaxRxBuffer)
    (hserver : Server.Step ord o (n.clients, n.world) (.read fd (c.unread.take k)) q) :
    Kept ((n.after q).withConn fd (c.feed (c.unread.take k) n.world q.2)) := by
  have hattends := h.attends_of hl hc
  have hne : c.unread.take k ≠ [] := by
    intro hnil
    have hlength := congrArg List.length hnil
    rw [List.length_take, List.length_nil] at hlength
    omega
  have hprefix : c.fed.flatten ++ c.unread.take k <+: c.sent := by
    have hsplit : c.sent = c.fed.flatten ++ c.unread :=
      (List.prefix_iff_eq_append.mp hattends.sent).symm
    rw [hsplit, List.prefix_append_right_inj]
    exact List.take_prefix k c.unread
  obtain ⟨hresponses, hmap⟩ := step_read hl hne hserver
  obtain ⟨hopen, htorn⟩ := hattends.feed ord o n.world hlen hprefix hresponses
  have hself := withConn_self (n.after q) fd (c.feed (c.unread.take k) n.world q.2)
  rcases hmap with ⟨hresult, hclients⟩ | ⟨hresult, hclients⟩
  · refine h.update fd ?_ ?_ ?_
    · intro x hx
      refine ⟨?_, withConn_other (n.after q) _ hx⟩
      change q.1.lookup x = n.clients.lookup x
      rw [hclients]
      exact AList.lookup_insert_ne hx
    · intro s' hs'
      change q.1.lookup fd = some s' at hs'
      rw [hclients, AList.lookup_insert] at hs'
      cases hs'
      exact ⟨_, hself, hopen hresult⟩
    · intro c' _ hs'
      change q.1.lookup fd = none at hs'
      rw [hclients, AList.lookup_insert] at hs'
      cases hs'
  · refine h.drop fd ?_ ?_ ?_
    · change q.1.lookup fd = none
      rw [hclients]
      exact AList.lookup_erase ..
    · intro x hx
      refine ⟨?_, withConn_other (n.after q) _ hx⟩
      change q.1.lookup x = n.clients.lookup x
      rw [hclients]
      exact AList.lookup_erase_ne hx
    · intro c' hc'
      obtain rfl := Option.some.inj (hself.symm.trans hc')
      exact Or.inr (Or.inr (htorn hresult))

theorem kept_connect {peerIp : Bytes} {registered : Bool} (h : Kept n)
    (hfree : n.clients.lookup fd = none)
    (hserver : Server.Step ord o (n.clients, n.world) (.accept fd peerIp registered) q) :
    Kept ((n.after q).withConn fd { failed := !registered }) := by
  obtain ⟨hother, hnew⟩ := accept_lookup hfree hserver
  have hself := withConn_self (n.after q) fd { failed := !registered }
  refine h.update fd (fun x hx => ⟨hother x hx, withConn_other (n.after q) _ hx⟩) ?_ ?_
  · intro s hs
    change q.1.lookup fd = some s at hs
    rw [hnew] at hs
    cases registered with
    | false => cases hs
    | true =>
      cases hs
      exact ⟨_, hself, attends_create peerIp true fd⟩
  · intro c hc hs
    change q.1.lookup fd = none at hs
    rw [hnew] at hs
    obtain rfl := Option.some.inj (hself.symm.trans hc)
    cases registered with
    | false => exact Or.inr (Or.inl rfl)
    | true => cases hs

/-- A client that has closed its side is dropped, with all its requests handed on. -/
theorem kept_gone {event : Event} (h : Kept n) (hc : n.conns fd = some c)
    (hclosed : c.halfClosed = true)
    (hhanded : ∀ s, n.clients.lookup fd = some s → c.Handed)
    (he : event = .hangup fd ∨ event = .readFailed fd ∨ event = .read fd [])
    (hserver : Server.Step ord o (n.clients, n.world) event q) : Kept (n.after q) := by
  obtain ⟨hgone, hother⟩ := step_drop he hserver
  refine h.drop fd hgone (fun x hx => ⟨hother x hx, rfl⟩) ?_
  intro c' hc'
  obtain rfl : c = c' := Option.some.inj (hc.symm.trans hc')
  cases hl : n.clients.lookup fd with
  | none => exact h.released fd c hc hl
  | some s => exact Or.inl ⟨hclosed, hhanded s hl⟩

theorem kept_step (h : Kept n) (hs : Step ord o n l n') (hd : Drained n l) : Kept n' := by
  cases hs with
  | connect hfree hserver => exact kept_connect h hfree hserver
  | acceptFailed => exact h
  | @send fd c data hc hopen =>
    apply h.withConn hc (fun s hs => hs.send data)
    rintro (⟨hclosed, -⟩ | hfailed | htorn)
    · rw [hopen] at hclosed
      cases hclosed
    · exact Or.inr (Or.inl hfailed)
    · exact Or.inr (Or.inr htorn)
  | @halfClose fd c hc =>
    refine h.withConn hc (fun s hs => ⟨hs.opened, hs.sent, hs.rxBuffer, hs.answered,
      hs.notFailed, hs.notTornDown⟩) ?_
    rintro (⟨-, hhanded⟩ | hfailed | htorn)
    · exact Or.inl ⟨rfl, hhanded⟩
    · exact Or.inr (Or.inl hfailed)
    · exact Or.inr (Or.inr htorn)
  | @hangup fd c q readable hc hclosed hserver =>
    apply kept_gone h hc hclosed _ (Or.inl rfl) hserver
    intro s hl
    exact (h.attends_of hl hc).handed_iff.mpr (hd s c hl hc)
  | @read fd c s q k hl hc hpos hk hunread hlen hserver =>
    exact kept_read h hl hc hpos hunread hlen hserver
  | @endOfStream fd c q hc hunread hclosed hserver =>
    apply kept_gone h hc hclosed _ (Or.inr (Or.inr rfl)) hserver
    intro s hl
    have hall : c.fed.flatten = c.sent :=
      (h.attends_of hl hc).sent.eq_of_length_le (List.drop_eq_nil_iff.mp hunread)
    exact congrArg (pieces crlfcrlf) hall
  | stale => exact h
  | @fail fd c event q hc he hserver =>
    obtain ⟨hgone, hother⟩ := step_drop (he.imp_right Or.inl) hserver
    have hself := withConn_self (n.after q) fd { c with failed := true }
    refine h.drop fd hgone (fun x hx => ⟨hother x hx, withConn_other (n.after q) _ hx⟩) ?_
    intro c' hc'
    obtain rfl := Option.some.inj (hself.symm.trans hc')
    exact Or.inr (Or.inl rfl)

/-- A hang-up that is reported while a request waits in the socket. -/
theorem hangup_loses (h : Kept n) (hs : Step ord o n l n') (hd : ¬ Drained n l) :
    ¬ NothingLost n' := by
  intro hlost
  cases hs with
  | @hangup fd c q readable hc hclosed hserver =>
    obtain ⟨hgone, -⟩ := step_drop (Or.inl rfl) hserver
    apply hd
    intro s c' hl hc'
    obtain rfl : c = c' := Option.some.inj (hc.symm.trans hc')
    have hattends := h.attends_of hl hc
    rcases hlost fd c hc hgone with hhanded | hfailed | htorn
    · exact hattends.handed_iff.mp hhanded
    · rw [hattends.notFailed] at hfailed
      cases hfailed
    · exact absurd htorn hattends.notTornDown
  | @stale fd readable hangup hl =>
    apply hd
    cases hangup with
    | false => trivial
    | true =>
      intro s c hl'
      rw [hl] at hl'
      cases hl'
  | _ => exact hd trivial

theorem initial_kept (h : Initial n) : Kept n := by
  rw [h]
  constructor
  · intro fd s hs
    cases hs
  · intro fd c hc
    cases hc

/-- In a run in which no hang-up is reported while a request waits in the socket, every
complete request of every client reaches `feed` before the client is dropped, unless it has
torn its session down or its connection has failed. A step that breaks the condition loses a
request. -/
theorem nothing_lost (ord : HashOrder) (o : Oracle)
    (h : Reachable Initial (DrainedStep ord o) n) : NothingLost n ∧
      ∀ l n', Step ord o n l n' → ¬ Drained n l → ¬ NothingLost n' := by
  have hkept : Kept n :=
    h.invariant (p := Kept) (fun _ _ _ hs hn => kept_step hn hs.1 hs.2) fun _ => initial_kept
  refine ⟨?_, fun l n' hs hd => hangup_loses hkept hs hd⟩
  intro fd c hc hl
  rcases hkept.released fd c hc hl with ⟨-, hhanded⟩ | hrest
  · exact Or.inl hhanded
  · exact Or.inr hrest

/-- A client whose request is read before it closes its side. -/
theorem nothing_lost_read_first :
    let c : Conn := { sent := ascii "OPTIONS * RTSP/1.0\r\nCSeq: 7\r\n\r\n" }
    let n₀ : Network := { world := default }
    let q₁ := Server.next default default (n₀.clients, n₀.world) (.accept 5 [] true)
    let n₁ := ((n₀.after q₁).withConn 5 {}).withConn 5 c
    let q₂ := Server.next default default (n₁.clients, n₁.world) (.read 5 (c.unread.take 31))
    let c₂ := c.feed (c.unread.take 31) n₁.world q₂.2
    let n₂ := ((n₁.after q₂).withConn 5 c₂).withConn 5 { c₂ with halfClosed := true }
    let n := n₂.after (Server.next default default (n₂.clients, n₂.world) (.hangup 5))
    NothingLost n ∧ n.clients.lookup 5 = none := by
  intro c n₀ q₁ n₁ q₂ c₂ n₂ n
  have hopened : Step default default n₀ (.connect 5 [] true) ((n₀.after q₁).withConn 5 {}) :=
    .connect rfl (Server.step_next (by decide +kernel))
  have hsent : Step default default ((n₀.after q₁).withConn 5 {}) (.send 5 c.sent) n₁ :=
    .send c.sent (withConn_self _ 5 _) rfl
  have hread : Step default default n₁ (.report 5 true false) ((n₁.after q₂).withConn 5 c₂) := by
    refine .read (s := Session.create [] true 5) 31 ?_ (withConn_self _ 5 c) ?_ ?_ ?_ ?_
      (Server.step_next ?_) <;> decide +kernel
  have hclosed : Step default default ((n₁.after q₂).withConn 5 c₂) (.halfClose 5) n₂ :=
    .halfClose (withConn_self _ 5 c₂)
  have hhangup : Step default default n₂ (.report 5 true true) n :=
    .hangup true (withConn_self _ 5 { c₂ with halfClosed := true }) rfl
      (Server.step_next (by decide +kernel))
  have hdrained : Drained n₂ (.report 5 true true) := by
    intro s c' hl hc'
    have hconn := withConn_self ((n₁.after q₂).withConn 5 c₂) 5 { c₂ with halfClosed := true }
    obtain rfl := Option.some.inj (hconn.symm.trans hc')
    have hempty : (n₂.clients.lookup 5).map Session.rxBuffer = some [] := by decide +kernel
    have hread : Conn.unread { c₂ with halfClosed := true } = [] := by decide +kernel
    rw [hl, Option.map_some, Option.some.injEq] at hempty
    rw [hempty, hread]
    decide
  have hrun : Reachable Initial (DrainedStep default default) n :=
    ⟨n₀, _, rfl, .stepL ⟨hopened, trivial⟩ (.stepL ⟨hsent, trivial⟩ (.stepL ⟨hread, trivial⟩
      (.stepL ⟨hclosed, trivial⟩ (.single ⟨hhangup, hdrained⟩))))⟩
  exact ⟨(nothing_lost default default hrun).1, by decide +kernel⟩

/-- A request and the end of the stream in one report: the client is dropped, and its request
has not been read. -/
theorem hangup_before_read :
    let c : Conn := { sent := ascii "OPTIONS * RTSP/1.0\r\nCSeq: 7\r\n\r\n" }
    let n₀ : Network := { world := default }
    let q₁ := Server.next default default (n₀.clients, n₀.world) (.accept 5 [] true)
    let n₁ := ((n₀.after q₁).withConn 5 {}).withConn 5 c
    let n₂ := n₁.withConn 5 { c with halfClosed := true }
    let n := n₂.after (Server.next default default (n₂.clients, n₂.world) (.hangup 5))
    Run (Step default default) n₀
      [.connect 5 [] true, .send 5 c.sent, .halfClose 5, .report 5 true true] n ∧
    ¬ NothingLost n := by
  intro c n₀ q₁ n₁ n₂ n
  have hopened : Step default default n₀ (.connect 5 [] true) ((n₀.after q₁).withConn 5 {}) :=
    .connect rfl (Server.step_next (by decide +kernel))
  have hsent : Step default default ((n₀.after q₁).withConn 5 {}) (.send 5 c.sent) n₁ :=
    .send c.sent (withConn_self _ 5 _) rfl
  have hclosed : Step default default n₁ (.halfClose 5) n₂ := .halfClose (withConn_self _ 5 c)
  have hhangup : Step default default n₂ (.report 5 true true) n :=
    .hangup true (withConn_self _ 5 { c with halfClosed := true }) rfl
      (Server.step_next (by decide +kernel))
  refine ⟨.stepL hopened (.stepL hsent (.stepL hclosed (.single hhangup))), ?_⟩
  intro hlost
  have hgone : n.clients.lookup 5 = none := by decide +kernel
  have hconn : n.conns 5 = some { c with halfClosed := true } := withConn_self n₁ 5 _
  rcases hlost 5 _ hconn hgone with hhanded | hfailed | ⟨i, raw, response, hraw, -⟩
  · have hpieces : pieces crlfcrlf [] ≠ pieces crlfcrlf c.sent := by decide +kernel
    exact hpieces hhanded
  · cases hfailed
  · cases hraw

end Network

end Veda.Rtsp
