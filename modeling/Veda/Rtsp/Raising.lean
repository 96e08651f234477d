import Veda.Rtsp.Exchange
import Veda.Rtsp.Message

/-!
Exceptions that leave `feed`. The conversion of the sequence number is the only unguarded
one, so a run raises exactly where it reaches a request whose number cannot be converted.
-/
namespace Veda.Rtsp.Session

open Cpp Effects Delimited

variable {ord : HashOrder} {o : Oracle} {w : World} {s : Session} {data raw : Bytes}
  {raws chunks : List Bytes} {e : StdException}

theorem serve_raised_iff : ((s.serve ord raw).exec o w).1.2 = some (.raised e) ↔
    parseRequest ord raw = .error e := by
  constructor
  · intro h
    unfold serve at h
    rw [Control.exec_bind] at h
    cases hp : parseRequest ord raw with
    | error e' =>
      simp only [hp, Program.pure_eq, Control.exec_ret, Option.some.injEq,
        FeedResult.raised.injEq] at h
      rw [h]
    | ok parsed =>
      cases parsed with
      | none => simp [hp] at h
      | some req =>
        simp only [hp, Control.exec_bind] at h
        split at h <;> simp at h
  · intro h
    rw [serve_raises h]

/-- A batch raises exactly where the requests before a bad one leave the session open. -/
theorem serveAll_raises_iff :
    (∃ e unserved, ((serveAll ord s raws).exec o w).1.2 = some (.raised e, unserved)) ↔
      ∃ before bad after, raws = before ++ bad :: after ∧
        ((serveAll ord s before).exec o w).1.2 = none ∧ BadCseq ord bad := by
  induction raws generalizing s w with
  | nil => simp [serveAll]
  | cons raw raws ih =>
    constructor
    · rintro ⟨e, unserved, h⟩
      rw [serveAll_cons, Control.exec_bind] at h
      split at h
      · rename_i hopen
        obtain ⟨before, bad, after, rfl, hbefore, hbad⟩ := ih.mp ⟨e, unserved, h⟩
        refine ⟨raw :: before, bad, after, rfl, ?_, hbad⟩
        rw [serveAll_cons, Control.exec_bind]
        simp only [hopen, hbefore]
      · rename_i r hr
        simp only [Program.pure_eq, Control.exec_ret, Option.some.injEq, Prod.mk.injEq] at h
        rw [h.1] at hr
        exact ⟨[], raw, raws, rfl, rfl, parseRequest_raises.mp ⟨e, serve_raised_iff.mp hr⟩⟩
    · rintro ⟨before, bad, after, hsplit, hbefore, hbad⟩
      rw [serveAll_cons, Control.exec_bind]
      cases before with
      | nil =>
        obtain ⟨rfl, rfl⟩ := List.cons_eq_cons.mp hsplit
        obtain ⟨e, he⟩ := parseRequest_raises.mpr hbad
        rw [serve_raised_iff.mpr he]
        exact ⟨e, raws, rfl⟩
      | cons first before =>
        obtain ⟨rfl, rfl⟩ := List.cons_eq_cons.mp hsplit
        rw [serveAll_cons, Control.exec_bind] at hbefore
        split at hbefore
        · rename_i hopen
          exact ih.mpr ⟨before, bad, after, rfl, hbefore, hbad⟩
        · simp at hbefore

/-- Below the size guard, the buffer holds a request with a bad sequence number that the
requests before it let the session reach. -/
def ReachesBadCseq (ord : HashOrder) (o : Oracle) (s : Session) (w : World) (data : Bytes) :
    Prop :=
  (s.rxBuffer ++ data).length ≤ kMaxRxBuffer ∧
    ∃ before bad after, pieces crlfcrlf (s.rxBuffer ++ data) = before ++ bad :: after ∧
      ((serveAll ord s before).exec o w).1.2 = none ∧ BadCseq ord bad

theorem feed_raises_iff : (∃ e, ((s.feed ord data).exec o w).1.2 = .raised e) ↔
    ReachesBadCseq ord o s w data := by
  by_cases hlen : (s.rxBuffer ++ data).length ≤ kMaxRxBuffer
  · rw [ReachesBadCseq, ← serveAll_raises_iff, feed_exec hlen]
    generalize (serveAll ord s (pieces crlfcrlf (s.rxBuffer ++ data))).exec o w = served
    obtain ⟨⟨s', result⟩, w'⟩ := served
    cases result with
    | none => simp [settle]
    | some ended =>
      obtain ⟨r, unserved⟩ := ended
      simp only [settle, hlen, true_and, Option.some.injEq, Prod.mk.injEq, exists_and_left,
        exists_eq', and_true]
  · rw [feed_overflow hlen, ReachesBadCseq]
    simp only [hlen, false_and, reduceCtorEq, exists_false]

theorem feedAll_cons : (feedAll ord s (data :: chunks)).exec o w =
    let fed := (s.feed ord data).exec o w
    if fed.1.2 = .returned true then (feedAll ord fed.1.1 chunks).exec o fed.2 else fed := by
  rw [feedAll, Control.exec_bind]
  generalize (s.feed ord data).exec o w = fed
  obtain ⟨⟨s', result⟩, w'⟩ := fed
  cases result with
  | returned open_ => cases open_ <;> rfl
  | raised e => rfl

/-- A run of `feed` calls raises exactly where one of them reaches a bad sequence number. -/
theorem feedAll_raises_iff : (∃ e, ((feedAll ord s chunks).exec o w).1.2 = .raised e) ↔
    ∃ done data later, chunks = done ++ data :: later ∧
      let run := (feedAll ord s done).exec o w
      run.1.2 = .returned true ∧ ReachesBadCseq ord o run.1.1 run.2 data := by
  induction chunks generalizing s w with
  | nil => simp [feedAll]
  | cons data chunks ih =>
    rw [feedAll_cons]
    dsimp only
    constructor
    · rintro ⟨e, h⟩
      split at h
      · rename_i hopen
        obtain ⟨done, data', later, rfl, hdone, hbad⟩ := ih.mp ⟨e, h⟩
        refine ⟨data :: done, data', later, rfl, ?_⟩
        rw [feedAll_cons]
        dsimp only
        rw [if_pos hopen]
        exact ⟨hdone, hbad⟩
      · exact ⟨[], data, chunks, rfl, rfl, feed_raises_iff.mp ⟨e, h⟩⟩
    · rintro ⟨done, data', later, hsplit, hdone, hbad⟩
      cases done with
      | nil =>
        obtain ⟨rfl, rfl⟩ := List.cons_eq_cons.mp hsplit
        obtain ⟨e, he⟩ := feed_raises_iff.mpr hbad
        change ((s.feed ord data).exec o w).1.2 = .raised e at he
        have hclosed : ((s.feed ord data).exec o w).1.2 ≠ .returned true := by simp [he]
        rw [if_neg hclosed]
        exact ⟨e, he⟩
      | cons first done =>
        obtain ⟨rfl, rfl⟩ := List.cons_eq_cons.mp hsplit
        rw [feedAll_cons] at hdone hbad
        dsimp only at hdone hbad
        split at hdone
        · rename_i hopen
          rw [if_pos hopen] at hbad ⊢
          exact ih.mpr ⟨done, data', later, rfl, hdone, hbad⟩
        · rename_i hclosed
          exact absurd hdone hclosed

/-- A stream whose requests all have convertible sequence numbers never raises. -/
theorem feedAll_returns (hc : Clean crlfcrlf s.rxBuffer)
    (h : ∀ raw ∈ (scan crlfcrlf s.rxBuffer chunks.flatten).1, ¬ BadCseq ord raw) :
    ∃ open_, ((feedAll ord s chunks).exec o w).1.2 = .returned open_ := by
  induction chunks generalizing s w with
  | nil => exact ⟨true, rfl⟩
  | cons data chunks ih =>
    rw [List.flatten_cons, scan_append] at h
    rw [feedAll_cons]
    dsimp only
    have hfeed : ∀ e, ((s.feed ord data).exec o w).1.2 ≠ .raised e := by
      intro e he
      obtain ⟨_, before, bad, after, hsplit, _, hbad⟩ := feed_raises_iff.mp ⟨e, he⟩
      rw [pieces, hc.scan_append] at hsplit
      exact h bad (by simp [hsplit]) hbad
    split
    · rename_i hopen
      by_cases hlen : (s.rxBuffer ++ data).length ≤ kMaxRxBuffer
      · rw [feed_exec hlen, pieces, rest, hc.scan_append] at hopen ⊢
        generalize hp : (serveAll ord s (scan crlfcrlf s.rxBuffer data).1).exec o w = served
          at hopen ⊢
        obtain ⟨⟨s₁, result⟩, w₁⟩ := served
        cases result with
        | none => exact ih (clean_scan hc) fun raw hraw => h raw (List.mem_append_right _ hraw)
        | some ended => exact absurd hopen (serveAll_ends (congrArg (·.1.2) hp))
      · rw [feed_overflow hlen] at hopen
        cases hopen
    · cases hr : ((s.feed ord data).exec o w).1.2 with
      | returned open_ => exact ⟨open_, rfl⟩
      | raised e => exact absurd hr (hfeed e)

/-- A request that cannot be parsed is answered with 400 and leaves the session as it was. -/
theorem serve_unparsable (h : requestLine raw = none) : (s.serve ord raw).exec o w =
    ((s, none), w.afterAll o [.logRequest s.conn raw,
      .send s.conn (Response.error 0 400 (ascii "Bad Request"))]) := by
  rw [serve, Control.exec_bind, parseRequest_none.mpr h]
  rfl

/-- Feeding a session raises exactly where a request is reached whose request line is well
formed and whose sequence number `std::stoi` rejects; the parser itself raises on exactly
these requests, and every request that it refuses is answered with 400. -/
theorem feedAll_raises_on_bad_cseq (ord : HashOrder) (o : Oracle) (w : World) (clientIp : Bytes)
    (hub : Bool) (conn : ConnId) (chunks : List Bytes) :
    let s := create clientIp hub conn
    ((∃ e, ((feedAll ord s chunks).exec o w).1.2 = .raised e) ↔
      ∃ done data later, chunks = done ++ data :: later ∧
        let run := (feedAll ord s done).exec o w
        run.1.2 = .returned true ∧ ReachesBadCseq ord o run.1.1 run.2 data) ∧
    ((∀ raw ∈ pieces crlfcrlf chunks.flatten, ¬ BadCseq ord raw) →
      ∃ open_, ((feedAll ord s chunks).exec o w).1.2 = .returned open_) ∧
    (∀ raw, (∃ parsed, parseRequest ord raw = .ok parsed) ↔ ¬ BadCseq ord raw) ∧
    ∀ (s : Session) (w : World) raw, parseRequest ord raw = .ok none → (s.serve ord raw).exec o w =
      ((s, none), w.afterAll o [.logRequest s.conn raw,
        .send s.conn (Response.error 0 400 (ascii "Bad Request"))]) := by
  intro s
  have hclean : Clean crlfcrlf s.rxBuffer := clean_nil
  refine ⟨feedAll_raises_iff, feedAll_returns hclean, fun raw => ?_, ?_⟩
  · rw [← parseRequest_raises]
    cases hp : parseRequest ord raw <;> simp
  · intro s w raw h
    exact serve_unparsable (parseRequest_none.mp h)

/-- One request whose sequence number is not a number. -/
theorem feed_raises_on_word :
    ((feed default (create (ascii "10.0.0.2") true 5)
      (ascii "OPTIONS rtsp://h/s RTSP/1.0\r\nCSeq: abc\r\n\r\n")).exec default default).1.2 =
      .raised .invalidArgument := by
  decide +kernel

end Veda.Rtsp.Session
