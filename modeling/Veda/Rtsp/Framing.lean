import Veda.Rtsp.Environment

/-!
`feed` against an abstract model of the connection: the byte stream is cut into requests,
and each request is served in turn, with no buffer in sight.
-/
namespace Veda.Rtsp

open Effects Cpp Delimited

namespace Session

variable {ord : HashOrder} {o : Oracle} {w : World} {s : Session} {req : Request}
  {b raw data : Bytes} {raws raws' chunks : List Bytes}

def withRx (b : Bytes) (s : Session) : Session := { s with rxBuffer := b }

/-- Serves requests in turn until one of them ends the session; then the requests that
remain unserved are returned with the outcome. -/
def serveAll (ord : HashOrder) :
    Session → List Bytes → Control (Session × Option (FeedResult × List Bytes))
  | s, [] => pure (s, none)
  | s, raw :: raws => do
    let (s, result) ← s.serve ord raw
    match result with
    | none => serveAll ord s raws
    | some r => pure (s, some (r, raws))

/-- What `feed` returns when the requests in its buffer are served; `tail` is the unfinished
request at the end of the buffer. -/
def settle (tail : Bytes) : Session × Option (FeedResult × List Bytes) → Session × FeedResult
  | (s, none) => (s.withRx tail, .returned true)
  | (s, some (r, unserved)) => (s.withRx (unserved.flatten ++ tail), r)

/-! No handler reads or writes the receive buffer. -/

theorem handleDescribe_withRx : (s.withRx b).handleDescribe req =
    Prod.map (withRx b) id <$> s.handleDescribe req := by
  obtain ⟨ip, hub, conn, rx, state, id, p, q, x⟩ := s
  cases hub <;> rfl

theorem handleSetup_withRx : (s.withRx b).handleSetup req =
    Prod.map (withRx b) id <$> s.handleSetup req := by
  obtain ⟨ip, hub, conn, rx, state, id, p, q, x⟩ := s
  unfold handleSetup withRx
  dsimp only
  split
  · rfl
  · split
    · split <;> rfl
    · rfl

theorem handlePlay_withRx : (s.withRx b).handlePlay req =
    Prod.map (withRx b) id <$> s.handlePlay req := by
  obtain ⟨ip, hub, conn, rx, state, id, p, q, x⟩ := s
  unfold handlePlay withRx
  dsimp only
  change (if sessionHeaderMatches ⟨ip, hub, conn, rx, state, id, p, q, x⟩ req then _ else _) = _
  split
  · refine congrArg (Program.call _) (funext fun y => ?_)
    refine congrArg (Program.call _) (funext fun c => ?_)
    cases c
    · rfl
    · refine congrArg (Program.call _) (funext fun _ => ?_)
      cases hub
      · rfl
      · refine congrArg (Program.call _) (funext fun subscribed => ?_)
        cases subscribed <;> rfl
  · rfl

theorem handlePause_withRx : (s.withRx b).handlePause req =
    Prod.map (withRx b) id <$> s.handlePause req := by
  obtain ⟨ip, hub, conn, rx, state, id, p, q, x⟩ := s
  unfold handlePause withRx
  change (if sessionHeaderMatches ⟨ip, hub, conn, rx, state, id, p, q, x⟩ req then _ else _) = _
  split
  · cases x <;> cases hub <;> rfl
  · rfl

theorem handleTeardown_withRx : (s.withRx b).handleTeardown req =
    Prod.map (withRx b) id <$> s.handleTeardown req := by
  obtain ⟨ip, hub, conn, rx, state, id, p, q, x⟩ := s
  unfold handleTeardown withRx
  change (if sessionHeaderMatches ⟨ip, hub, conn, rx, state, id, p, q, x⟩ req then _ else _) = _
  split
  · cases x <;> cases hub <;> rfl
  · rfl

theorem handle_withRx : (s.withRx b).handle req =
    Prod.map (withRx b) id <$> s.handle req := by
  unfold handle
  split
  · rfl
  · change (if s.methodAllowed req.method then _ else _) = _
    split
    · cases req.method with
      | options => rfl
      | describe => exact handleDescribe_withRx
      | setup => exact handleSetup_withRx
      | play => exact handlePlay_withRx
      | pause => exact handlePause_withRx
      | teardown => exact handleTeardown_withRx
      | getParameter => rfl
      | unknown => rfl
    · rfl

theorem respond_withRx : (s.withRx b).respond req = withRx b <$> s.respond req := by
  unfold respond
  rw [handle_withRx, bind_map_left, map_bind]
  refine congrArg _ (funext fun ⟨s', response⟩ => ?_)
  simp only [Prod.map_apply, id_eq]
  split <;> rfl

theorem serve_withRx : (s.withRx b).serve ord raw =
    Prod.map (withRx b) id <$> s.serve ord raw := by
  unfold serve
  refine congrArg (Program.call _) (funext fun _ => ?_)
  cases parseRequest ord raw with
  | error e => rfl
  | ok r =>
    cases r with
    | none => rfl
    | some req =>
      change ((s.withRx b).respond req >>= _) = _ <$> (s.respond req >>= _)
      rw [respond_withRx, bind_map_left, map_bind]
      refine congrArg _ (funext fun s' => ?_)
      change (if s'.state = .closed then _ else _) = _
      split <;> rfl

theorem serveAll_cons : serveAll ord s (raw :: raws) = (s.serve ord raw >>= fun served =>
    match served.2 with
    | none => serveAll ord served.1 raws
    | some r => pure (served.1, some (r, raws))) := rfl

theorem serveAll_withRx : serveAll ord (s.withRx b) raws =
    Prod.map (withRx b) id <$> serveAll ord s raws := by
  induction raws generalizing s with
  | nil => rfl
  | cons raw raws ih =>
    rw [serveAll_cons, serveAll_cons, serve_withRx, bind_map_left, map_bind]
    refine congrArg _ (funext fun ⟨s', result⟩ => ?_)
    cases result with
    | none => exact ih
    | some r => rfl

/-- Requests can be served in two batches. -/
theorem serveAll_append : serveAll ord s (raws ++ raws') = (serveAll ord s raws >>= fun served =>
    match served.2 with
    | none => serveAll ord served.1 raws'
    | some (r, unserved) => pure (served.1, some (r, unserved ++ raws'))) := by
  induction raws generalizing s with
  | nil => rfl
  | cons raw raws ih =>
    rw [List.cons_append, serveAll_cons, serveAll_cons, Program.bind_assoc]
    refine congrArg _ (funext fun ⟨s', result⟩ => ?_)
    cases result with
    | none => exact ih
    | some r => rfl

theorem settle_withRx (tail : Bytes) (served : Session × Option (FeedResult × List Bytes)) :
    settle tail (Prod.map (withRx b) id served) = settle tail served := by
  obtain ⟨s', _ | ⟨r, unserved⟩⟩ := served <;> rfl

/-- The loop of `feed` serves the complete requests of the buffer and keeps the rest. -/
theorem feedLoop_eq {fuel : Nat} (h : s.rxBuffer.length < fuel) : feedLoop ord fuel s =
    settle (rest crlfcrlf s.rxBuffer) <$> serveAll ord s (pieces crlfcrlf s.rxBuffer) := by
  have hne : crlfcrlf ≠ [] := by decide
  induction fuel generalizing s with
  | zero => omega
  | succ fuel ih =>
    rw [feedLoop]
    split
    · rename_i hf
      rw [pieces_of_find_none hne hf, rest_of_find_none hne hf]
      rfl
    · rename_i n hf
      have hlen : n + 4 ≤ s.rxBuffer.length := (find_length hf).resolve_right hne
      rw [pieces_of_find hne hf, rest_of_find hne hf, serveAll_cons, map_bind]
      change ((s.withRx (s.rxBuffer.drop (n + 4))).serve ord (s.rxBuffer.take (n + 4)) >>= _) = _
      rw [serve_withRx, bind_map_left]
      refine congrArg _ (funext fun ⟨s', result⟩ => ?_)
      cases result with
      | none =>
        change feedLoop ord fuel (s'.withRx (s.rxBuffer.drop (n + 4))) = _
        rw [ih (by simp only [withRx, List.length_drop]; omega), serveAll_withRx,
          Functor.map_map]
        exact congrArg (· <$> _) (funext fun served => settle_withRx _ served)
      | some r =>
        change pure (s'.withRx _, r) = pure (s'.withRx _, r)
        rw [rest, pieces, scan_flatten]
        rfl

/-- `feed` below the size guard. -/
theorem feed_eq {data : Bytes} (h : (s.rxBuffer ++ data).length ≤ kMaxRxBuffer) :
    s.feed ord data = settle (rest crlfcrlf (s.rxBuffer ++ data)) <$>
      serveAll ord s (pieces crlfcrlf (s.rxBuffer ++ data)) := by
  rw [feed]
  dsimp only
  rw [if_neg (by omega), feedLoop_eq (by simp)]
  change settle _ <$> serveAll ord (s.withRx (s.rxBuffer ++ data)) _ = _
  rw [serveAll_withRx, Functor.map_map]
  exact congrArg (· <$> _) (funext fun served => settle_withRx _ served)

theorem feed_exec (h : (s.rxBuffer ++ data).length ≤ kMaxRxBuffer) :
    (s.feed ord data).exec o w =
      let served := (serveAll ord s (pieces crlfcrlf (s.rxBuffer ++ data))).exec o w
      (settle (rest crlfcrlf (s.rxBuffer ++ data)) served.1, served.2) := by
  rw [feed_eq h, Control.exec_map]

theorem feed_overflow (h : ¬ (s.rxBuffer ++ data).length ≤ kMaxRxBuffer) :
    (s.feed ord data).exec o w = ((s.withRx (s.rxBuffer ++ data), .returned false), w) := by
  rw [feed]
  dsimp only
  rw [if_pos (by omega)]
  rfl

/-- A request that ends the loop of `feed` never makes it return `true`. -/
theorem serve_ends : ((s.serve ord raw).exec o w).1.2 ≠ some (.returned true) := by
  unfold serve
  simp only [Control.exec_bind]
  split
  · simp
  · simp
  · simp only [Control.exec_bind]
    split <;> simp

theorem serveAll_ends {r : FeedResult} {unserved : List Bytes}
    (h : ((serveAll ord s raws).exec o w).1.2 = some (r, unserved)) : r ≠ .returned true := by
  induction raws generalizing s w with
  | nil => simp [serveAll] at h
  | cons raw raws ih =>
    rw [serveAll_cons, Control.exec_bind] at h
    split at h
    · exact ih h
    · rename_i r' hr
      simp only [Program.pure_eq, Control.exec_ret, Option.some.injEq, Prod.mk.injEq] at h
      rintro rfl
      exact serve_ends (hr.trans (congrArg some h.1))

/-- In the run over `chunks` no `feed` call sees more bytes than the buffer may hold. -/
def WithinGuard (ord : HashOrder) (o : Oracle) : Session → World → List Bytes → Prop
  | _, _, [] => True
  | s, w, data :: chunks =>
    (s.rxBuffer ++ data).length ≤ kMaxRxBuffer ∧
    let fed := (s.feed ord data).exec o w
    (fed.1.2 = .returned true → WithinGuard ord o fed.1.1 fed.2 chunks)

def outcome : Option (FeedResult × List Bytes) → FeedResult
  | none => .returned true
  | some (r, _) => r

/-- A run of `feed` calls serves the requests of the stream, however the stream is cut. -/
theorem feedAll_exec (hc : Clean crlfcrlf s.rxBuffer) (hg : WithinGuard ord o s w chunks) :
    let stream := scan crlfcrlf s.rxBuffer chunks.flatten
    let served := (serveAll ord s stream.1).exec o w
    ∃ b, (feedAll ord s chunks).exec o w = ((served.1.1.withRx b, outcome served.1.2), served.2) ∧
      (served.1.2 = none → b = stream.2) := by
  induction chunks generalizing s w with
  | nil => exact ⟨s.rxBuffer, rfl, fun _ => rfl⟩
  | cons data chunks ih =>
    obtain ⟨hlen, hg⟩ := hg
    rw [feed_exec hlen, pieces, rest, hc.scan_append] at hg
    simp only [List.flatten_cons, scan_append]
    rw [feedAll, Control.exec_bind, feed_exec hlen, pieces, rest, hc.scan_append, serveAll_append,
      Control.exec_bind]
    generalize hp : (serveAll ord s (scan crlfcrlf s.rxBuffer data).1).exec o w = served at hg ⊢
    obtain ⟨⟨s₁, result⟩, w₁⟩ := served
    cases result with
    | none =>
      have hc₁ : Clean crlfcrlf (scan crlfcrlf s.rxBuffer data).2 := clean_scan hc
      obtain ⟨b, hb, hrest⟩ := ih (s := s₁.withRx _) hc₁ (hg rfl)
      refine ⟨b, hb.trans ?_, fun h => hrest ?_⟩
      · rw [serveAll_withRx, Control.exec_map]
        rfl
      · rw [serveAll_withRx, Control.exec_map]
        exact h
    | some ended =>
      obtain ⟨r, unserved⟩ := ended
      have hr : r ≠ .returned true := serveAll_ends (congrArg (·.1.2) hp)
      refine ⟨unserved.flatten ++ (scan crlfcrlf s.rxBuffer data).2, ?_, fun h => by cases h⟩
      simp only [settle]
      rfl

theorem withinGuard_of_length (hc : Clean crlfcrlf s.rxBuffer)
    (h : s.rxBuffer.length + chunks.flatten.length ≤ kMaxRxBuffer) :
    WithinGuard ord o s w chunks := by
  induction chunks generalizing s w with
  | nil => trivial
  | cons data chunks ih =>
    simp only [List.flatten_cons, List.length_append] at h
    have hlen : (s.rxBuffer ++ data).length ≤ kMaxRxBuffer := by
      rw [List.length_append]; omega
    refine ⟨hlen, fun hopen => ?_⟩
    rw [feed_exec hlen, pieces, rest, hc.scan_append] at hopen ⊢
    generalize hp : (serveAll ord s (scan crlfcrlf s.rxBuffer data).1).exec o w = served at hopen ⊢
    obtain ⟨⟨s₁, result⟩, w₁⟩ := served
    cases result with
    | none =>
      have hcut : (scan crlfcrlf s.rxBuffer data).1.flatten.length +
          (scan crlfcrlf s.rxBuffer data).2.length = s.rxBuffer.length + data.length := by
        rw [← List.length_append, scan_flatten, List.length_append]
      exact ih (clean_scan hc) (by simp only [settle, withRx]; omega)
    | some ended => exact absurd hopen (serveAll_ends (congrArg (·.1.2) hp))

/-- Two runs that cannot be told apart by the client or by the rest of the server; the
leftover bytes are compared where the session stays open. -/
structure SameRun (r₁ r₂ : (Session × FeedResult) × World) : Prop where
  responses : r₁.2.responses = r₂.2.responses
  world : r₁.2 = r₂.2
  state : r₁.1.1.state = r₂.1.1.state
  sessionId : r₁.1.1.sessionId = r₂.1.1.sessionId
  clientRtpPort : r₁.1.1.clientRtpPort = r₂.1.1.clientRtpPort
  clientRtcpPort : r₁.1.1.clientRtcpPort = r₂.1.1.clientRtcpPort
  result : r₁.1.2 = r₂.1.2
  rxBuffer : r₁.1.2 = .returned true → r₁.1.1.rxBuffer = r₂.1.1.rxBuffer

/-- How TCP cuts the byte stream into reads changes nothing, below the size guard; a stream
that fits the buffer never reaches the guard. -/
theorem segmentation_invisible (ord : HashOrder) (o : Oracle) (w : World) (clientIp : Bytes)
    (hub : Bool) (conn : ConnId) (chunks₁ chunks₂ : List Bytes)
    (hs : chunks₁.flatten = chunks₂.flatten) :
    let s := create clientIp hub conn
    (chunks₁.flatten.length ≤ kMaxRxBuffer →
      WithinGuard ord o s w chunks₁ ∧ WithinGuard ord o s w chunks₂) ∧
    (WithinGuard ord o s w chunks₁ → WithinGuard ord o s w chunks₂ →
      SameRun ((feedAll ord s chunks₁).exec o w) ((feedAll ord s chunks₂).exec o w)) := by
  intro s
  have hc : Clean crlfcrlf s.rxBuffer := clean_nil
  refine ⟨fun hlen => ⟨withinGuard_of_length hc ?_, withinGuard_of_length hc ?_⟩, fun h₁ h₂ => ?_⟩
  · exact (Nat.zero_add _).trans_le hlen
  · exact (Nat.zero_add _).trans_le (hs ▸ hlen)
  · obtain ⟨b₁, hr₁, hb₁⟩ := feedAll_exec hc h₁
    obtain ⟨b₂, hr₂, hb₂⟩ := feedAll_exec hc h₂
    rw [← hs] at hr₂ hb₂
    rw [hr₁, hr₂]
    refine ⟨rfl, rfl, rfl, rfl, rfl, rfl, rfl, fun hopen => ?_⟩
    generalize hp : (serveAll ord s (scan crlfcrlf s.rxBuffer chunks₁.flatten).1).exec o w =
      served at *
    obtain ⟨⟨s₁, result⟩, w₁⟩ := served
    cases result with
    | none => exact (hb₁ rfl).trans (hb₂ rfl).symm
    | some ended => exact absurd hopen (serveAll_ends (congrArg (·.1.2) hp))

/-- A request cut inside its terminator, against the same request in one read. -/
theorem segmentation_invisible_cut_terminator :
    let s := create (ascii "10.0.0.2") true 5
    let cut := [ascii "OPTIONS * RTSP/1.0\r\nCSeq: 7\r\n\r", [], ascii "\n"]
    let whole := [ascii "OPTIONS * RTSP/1.0\r\nCSeq: 7\r\n\r\n"]
    SameRun ((feedAll default s cut).exec default default)
      ((feedAll default s whole).exec default default) := by
  intro s cut whole
  have hs : cut.flatten = whole.flatten := by decide +kernel
  have hlen : cut.flatten.length ≤ kMaxRxBuffer := by decide +kernel
  have h := segmentation_invisible default default default (ascii "10.0.0.2") true 5 cut whole hs
  exact h.2 (h.1 hlen).1 (h.1 hlen).2

end Session
end Veda.Rtsp
