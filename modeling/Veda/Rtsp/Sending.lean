import Veda.Lib.Framing
import Veda.Net.TcpSocket
import Veda.Rtsp.ResponseStream

/-!
A session over its connection, one system call after another: a response goes out in the loop of
`TcpConnection::write`, of which the kernel takes what it likes each time, and the client reads
what has arrived in pieces of any size. The connection ignores what `write` returns.
-/
namespace Veda.Net

/-- `write` before its first call. -/
def Writing.start (buf : Bytes) : Writing :=
  { ptr := 0, remaining := buf.length, accepted := [], result := none : Writing }.test buf

theorem Writing.start_inStep (buf : Bytes) : (Writing.start buf).InStep buf :=
  Writing.InStep.of_test (by simp) (by simp) rfl

theorem Writing.test_accepted (buf : Bytes) (w : Writing) :
    (w.test buf).accepted = w.accepted := by
  by_cases hpos : 0 < w.remaining
  · rw [Writing.test, if_pos hpos]
  · rw [Writing.test, if_neg hpos]

theorem Writing.start_accepted (buf : Bytes) : (Writing.start buf).accepted = [] :=
  Writing.test_accepted buf _

end Veda.Net

namespace Veda.Rtsp

open Cpp Effects Framing Net Transitions

/-- The code of a session with its connection. -/
structure Sending where
  rest : Control Session
  world : World
  /-- The response that `write` has not returned from. -/
  writing : Option (Bytes × Writing) := none
  /-- The responses that it has returned from, and what the kernel has taken of them. -/
  written : List Bytes := []
  earlier : Bytes := []

namespace Sending

/-- The responses handed to the connection. -/
def begun (s : Sending) : List Bytes :=
  match s.writing with
  | none => s.written
  | some (response, _) => s.written ++ [response]

/-- Everything that the kernel has taken. -/
def wire (s : Sending) : Bytes :=
  match s.writing with
  | none => s.earlier
  | some (_, w) => s.earlier ++ w.accepted

inductive Label
  | call (op : Op)
  | write (response : Bytes)
  | taken (n : Nat)
  | interrupted
  | failed
  | returned (result : Int)
  deriving DecidableEq

/-- What `::write` answers, as a label. -/
def answerLabel {requested : Nat} : WriteResult requested → Label
  | .count n _ _ => .taken n
  | .interrupted => .interrupted
  | .failed => .failed

inductive Step (o : Oracle) : Sending → Label → Sending → Prop
  | call {s : Sending} {op : Op} {k : op.Res → Control Session} : s.writing = none →
      op.sent = none → s.rest = .call op k →
      Step o s (.call op) { s with
        rest := k (s.world.answer o op).1
        world := s.world.after o op }
  | write {s : Sending} {conn : ConnId} {response : Bytes} {k : Unit → Control Session} :
      s.writing = none → s.rest = .call (.send conn response) k →
      Step o s (.write response) { s with writing := some (response, .start response) }
  | answered {s : Sending} {response : Bytes} {w : Writing} (a : WriteResult w.remaining) :
      s.writing = some (response, w) → w.result = none →
      Step o s (answerLabel a) { s with writing := some (response, w.answered response a) }
  | returned {s : Sending} {conn : ConnId} {response : Bytes} {k : Unit → Control Session}
      {w : Writing} (result : Int) : s.writing = some (response, w) → w.result = some result →
      s.rest = .call (.send conn response) k →
      Step o s (.returned result) {
        rest := k ()
        world := s.world.after o (.send conn response)
        written := s.written ++ [response]
        earlier := s.earlier ++ w.accepted }

/-- A connection that has failed takes nothing more. -/
def Breaks (ls : List Label) : Prop :=
  ∀ before after, ls = before ++ .failed :: after → ∀ n, .taken n ∉ after

/-- The session, the loop of `write` and the bytes on the wire, after these labels. -/
structure Sound (past : List Label) (s : Sending) : Prop where
  inStep : ∀ response w, s.writing = some (response, w) → w.InStep response
  sends : ∀ response w, s.writing = some (response, w) →
    ∃ conn k, s.rest = .call (.send conn response) k
  unfailed : .failed ∉ past → s.earlier = s.written.flatten ∧
    ∀ response w, s.writing = some (response, w) → w.result ≠ some (-1)
  stream : s.wire <+: s.begun.flatten

variable {o : Oracle} {s t : Sending} {l : Label} {ls past : List Label}

theorem Breaks.of_snoc (h : Breaks (past ++ [l])) : Breaks past := by
  intro before after hpast n hn
  refine h before (after ++ [l]) (by rw [hpast]; simp) n (List.mem_append_left _ hn)

theorem Breaks.not_failed {n : Nat} (h : Breaks (past ++ [.taken n])) : .failed ∉ past := by
  intro hfailed
  obtain ⟨before, after, rfl⟩ := List.append_of_mem hfailed
  exact h before (after ++ [.taken n]) (by simp) n (by simp)

theorem breaks_last (h : .failed ∉ ls) : Breaks (ls ++ [.failed]) := by
  intro before after hsplit n hn
  induction after using List.reverseRecOn with
  | nil => cases hn
  | append_singleton after l _ =>
    rw [← List.cons_append, ← List.append_assoc] at hsplit
    obtain rfl := (List.append_inj' hsplit rfl).1
    exact h (by simp)

theorem sound_snoc (hstep : Step o s l t) (hbreaks : Breaks (past ++ [l])) (hs : Sound past s) :
    Sound (past ++ [l]) t := by
  have hpast : .failed ∉ past ++ [l] → .failed ∉ past := by
    intro h hfailed
    exact h (List.mem_append_left _ hfailed)
  cases hstep with
  | call hw hop hrest =>
    have hstream := hs.stream
    simp only [wire, begun, hw] at hstream
    refine ⟨by simp [hw], by simp [hw], fun h => ⟨(hs.unfailed (hpast h)).1, by simp [hw]⟩, ?_⟩
    simpa only [wire, begun, hw] using hstream
  | @write conn response k hw hrest =>
    have hstream := hs.stream
    simp only [wire, begun, hw] at hstream
    refine ⟨?_, ?_, ?_, ?_⟩
    · rintro _ _ ⟨⟩
      exact Writing.start_inStep _
    · rintro _ _ ⟨⟩
      exact ⟨conn, k, hrest⟩
    · intro h
      refine ⟨(hs.unfailed (hpast h)).1, ?_⟩
      rintro _ _ ⟨⟩
      exact Writing.test_not_failed rfl
    · simp only [wire, begun, Writing.start_accepted, List.append_nil, List.flatten_append]
      exact hstream.trans (List.prefix_append _ _)
  | @answered response w a hw hresult =>
    have hstep := (hs.inStep response w hw).answered hresult a
    refine ⟨?_, ?_, ?_, ?_⟩
    · rintro _ _ ⟨⟩
      exact hstep
    · rintro _ _ ⟨⟩
      exact hs.sends _ _ hw
    · intro h
      refine ⟨(hs.unfailed (hpast h)).1, ?_⟩
      rintro _ _ ⟨⟩
      rw [ne_eq, Writing.answered_failed_iff hresult]
      rintro rfl
      simp [answerLabel] at h
    · have hstream := hs.stream
      simp only [wire, begun, hw] at hstream
      cases a with
      | count n pos le =>
        have hwhole := (hs.unfailed hbreaks.not_failed).1
        simp only [wire, begun, hwhole, List.flatten_append, List.flatten_singleton,
          List.prefix_append_right_inj]
        exact hstep.isPrefix
      | interrupted => simpa only [wire, begun, Writing.answered, Writing.test_accepted]
      | failed => simpa only [wire, begun, Writing.answered]
  | @returned conn response k w result hw hresult hrest =>
    have hstream := hs.stream
    simp only [wire, begun, hw] at hstream
    refine ⟨by simp, by simp, ?_, hstream⟩
    intro h
    obtain ⟨hwhole, hunfailed⟩ := hs.unfailed (hpast h)
    refine ⟨?_, by simp⟩
    have hstep := hs.inStep response w hw
    have haccepted : w.accepted = response := by
      rcases hstep.returned result hresult with ⟨rfl, -⟩ | ⟨rfl, -⟩
      · exact hstep.length_iff.mp hresult
      · exact absurd hresult (hunfailed response w hw)
    simp only [hwhole, haccepted, List.flatten_append, List.flatten_singleton]

theorem sound_run {s₀ : Sending} (hrun : Run (Step o) s₀ ls s) (hbreaks : Breaks ls)
    (hs : Sound [] s₀) : Sound ls s := by
  refine hrun.history (p := fun past u => Breaks past → Sound past u) ?_ (fun _ => hs) hbreaks
  intro past u l v hu hstep hbreaks
  exact sound_snoc hstep hbreaks (hu hbreaks.of_snoc)

/-- The code goes on as it would by itself. -/
theorem step_exec (hstep : Step o s l t) : t.rest.exec o t.world = s.rest.exec o s.world := by
  cases hstep with
  | call hw hop hrest => simp only [hrest, Control.exec_call, World.after]
  | write hw hrest => rfl
  | answered a hw hresult => rfl
  | returned result hw hresult hrest =>
    simp only [hrest, Control.exec_call, World.after, World.answer]

theorem run_exec (hrun : Run (Step o) s ls t) :
    t.rest.exec o t.world = s.rest.exec o s.world := by
  induction hrun with
  | refl => rfl
  | stepL hstep _ ih => exact ih.trans (step_exec hstep)

theorem step_responses {before : List Bytes} (hstep : Step o s l t)
    (hs : s.world.responses = before ++ s.written) :
    t.world.responses = before ++ t.written := by
  cases hstep with
  | call hw hop hrest => simp [World.after_responses, hop, hs]
  | write hw hrest => exact hs
  | answered a hw hresult => exact hs
  | returned result hw hresult hrest => simp [World.after_responses, Op.sent, hs]

/-- Code only adds to the responses. -/
theorem exec_responses {α : Type} (p : Control α) (w : World) :
    w.responses <+: (p.exec o w).2.responses := by
  induction p generalizing w with
  | ret a => exact List.prefix_rfl
  | call op k ih =>
    refine List.IsPrefix.trans ?_ (ih _ _)
    rw [show (w.answer o op).2 = w.after o op from rfl, World.after_responses]
    exact List.prefix_append _ _

/-- What the connection has been handed is what the code has sent and the response that it is
about to have sent. -/
theorem Sound.begun_sent {before : List Bytes} (hs : Sound past s)
    (hresponses : s.world.responses = before ++ s.written) :
    before ++ s.begun <+: (s.rest.exec o s.world).2.responses := by
  cases hw : s.writing with
  | none =>
    simp only [begun, hw, ← hresponses]
    exact exec_responses _ _
  | some p =>
    obtain ⟨conn, k, hrest⟩ := hs.sends p.1 p.2 hw
    have hafter : (s.world.after o (.send conn p.1)).responses = before ++ s.begun := by
      simp [World.after_responses, Op.sent, hresponses, begun, hw]
    rw [← hafter, hrest]
    exact exec_responses (k ()) _

/-- A session's code before its first call. -/
def start (p : Control Session) (w : World) : Sending := { rest := p, world := w }

theorem sound_start (p : Control Session) (w : World) : Sound [] (start p w) :=
  ⟨by simp [start], by simp [start], fun _ => ⟨rfl, by simp [start]⟩, List.prefix_rfl⟩

end Sending

namespace Client

/-- What the client makes of the bytes that it has read so far. -/
def receiveAll (pieces : List Bytes) : List Message × Bytes :=
  pieces.foldl (receive nextMessage) ([], [])

theorem nextMessage_some {stream rest : Bytes} {m : Message}
    (h : nextMessage stream = some (m, rest)) : ∃ pos n,
      Delimited.find crlfcrlf stream = some pos ∧
      contentLength (Delimited.splitOn crlf (stream.take pos)) = some n ∧
      n ≤ (stream.drop (pos + 4)).length ∧
      m = ⟨Delimited.splitOn crlf (stream.take pos), (stream.drop (pos + 4)).take n⟩ ∧
      rest = (stream.drop (pos + 4)).drop n := by
  unfold nextMessage at h
  split at h
  · cases h
  · rename_i pos hfind
    dsimp only at h
    split at h
    · cases h
    · rename_i n hlength
      split at h
      · rename_i hle
        cases h
        exact ⟨pos, n, hfind, hlength, hle, rfl, rfl⟩
      · cases h

/-- A message does not change when more of the stream arrives. -/
theorem nextMessage_steady : Steady nextMessage where
  append := by
    intro xs m rest ys h
    obtain ⟨pos, n, hfind, hcontent, hle, rfl, rfl⟩ := nextMessage_some h
    have hpos := (Delimited.find_length hfind).resolve_right (by decide)
    have hlength : crlfcrlf.length = 4 := rfl
    have htake : (xs ++ ys).take pos = xs.take pos := List.take_append_of_le_length (by omega)
    have hdrop : (xs ++ ys).drop (pos + 4) = xs.drop (pos + 4) ++ ys :=
      List.drop_append_of_le_length (by omega)
    rw [nextMessage, Delimited.find_append_of_some (by decide) hfind ys]
    dsimp only
    rw [htake, hdrop, hcontent]
    dsimp only
    rw [if_pos (by rw [List.length_append]; omega), List.take_append_of_le_length hle,
      List.drop_append_of_le_length hle]
  shorter := by
    intro xs m rest h
    obtain ⟨pos, n, hfind, -, -, -, rfl⟩ := nextMessage_some h
    have hpos := (Delimited.find_length hfind).resolve_right (by decide)
    have hlength : crlfcrlf.length = 4 := rfl
    simp only [List.length_drop]
    omega

end Client

namespace Sending

/-- Responses over a socket: whatever the session is fed, however the kernel cuts the writes and
the client its reads, and wherever the connection breaks, the client has read the first replies
of the session, each whole and once, and waits with a proper beginning of the next. Where no
write has failed and everything has arrived, it has read every reply handed over. -/
theorem client_reads (ord : HashOrder) (o : Oracle)
    (hdrawn : ∀ n, ∃ drawn, o.sessionId n = generateSessionId drawn) (w : World) (clientIp : Bytes)
    (hub : Bool) (conn : ConnId) (uses : List Use) {ls : List Label} {s : Sending}
    (hrun : Run (Step o) (start ((Session.create clientIp hub conn).useAll ord uses) w) ls s)
    (hbreaks : Breaks ls) (pieces : List Bytes) (harrived : pieces.flatten <+: s.wire) :
    s.world.responses = w.responses ++ s.written ∧ ∃ whole todo : List Reply, ∃ piece,
      s.begun = (whole ++ todo).map Reply.render ∧
      Broken Reply.render pieces.flatten whole todo piece ∧
      Client.receiveAll pieces = (whole.map Reply.message, piece) ∧
      (pieces.flatten = s.wire → .failed ∉ ls → s.writing = none → todo = []) := by
  have hsound := sound_run hrun hbreaks (sound_start _ w)
  have hresponses : s.world.responses = w.responses ++ s.written := by
    refine hrun.invariant (p := fun u => u.world.responses = w.responses ++ u.written) ?_
      (List.append_nil _).symm
    exact fun _ _ _ => step_responses
  -- the replies of the whole code, of which the connection has been handed the first
  obtain ⟨replies, hsent, hframed⟩ : ∃ replies : List Reply,
      (((Session.create clientIp hub conn).useAll ord uses).exec o w).2.responses =
        w.responses ++ replies.map Reply.render ∧ ∀ r ∈ replies, r.Framed := by
    obtain ⟨ms, hmoves⟩ : ∃ ms, Run (Moves ord o) (Session.create clientIp hub conn, w) ms
        (((Session.create clientIp hub conn).useAll ord uses).exec o w) :=
      Session.useAll_moves uses
    refine run_framed (sessionId_hex hdrawn) hmoves ?_
    intro b hb
    cases hb
  have hbegun := hsound.begun_sent (o := o) hresponses
  rw [run_exec hrun, start, hsent, List.prefix_append_right_inj] at hbegun
  obtain ⟨more, hmore⟩ := hbegun
  obtain ⟨handed, later, rfl, hhanded, -⟩ := List.map_eq_append_iff.mp hmore.symm
  have hframes : Frames Client.nextMessage Reply.render Reply.message handed := by
    intro r hr
    exact Client.nextMessage_render (hframed r (List.mem_append_left _ hr))
  obtain ⟨whole, todo, piece, rfl, hbroken, hread⟩ := Client.nextMessage_steady.read_arrived
    hframes (harrived.trans (hhanded ▸ hsound.stream))
  refine ⟨hresponses, whole, todo, piece, hhanded.symm, hbroken, ?_, ?_⟩
  · rw [Client.receiveAll, Client.nextMessage_steady.foldl_receive, hread]
  · intro hall hunfailed hw
    apply hbroken.complete
    rw [hall, hhanded, wire, begun, hw]
    exact (hsound.unfailed hunfailed).1

section Broken

def optionsRequest : Bytes := ascii "OPTIONS * RTSP/1.0\r\nCSeq: 1\r\n\r\n"
def keepAliveRequest : Bytes := ascii "GET_PARAMETER * RTSP/1.0\r\nCSeq: 2\r\n\r\n"

/-- The calls of a session that gets both requests in one `read`. -/
def twoCalls : List Call :=
  [⟨.logRequest 5 optionsRequest, ()⟩, ⟨.send 5 (Response.options 1), ()⟩,
   ⟨.logRequest 5 keepAliveRequest, ()⟩, ⟨.send 5 (Response.ok 2), ()⟩]

/-- The first response is taken in two pieces, and the second breaks off after five bytes, of
which the client has three. -/
theorem client_reads_broken : ∃ ls s,
    Run (Step default) (start ((Session.create [] true 5).useAll default
      [.feed (optionsRequest ++ keepAliveRequest)]) default) ls s ∧
    .failed ∈ ls ∧ s.begun = [Response.options 1, Response.ok 2] ∧
    ∃ whole : List Reply, whole.map Reply.render = [Response.options 1] ∧
      Client.receiveAll [(Response.options 1).take 30,
        (Response.options 1).drop 30 ++ (Response.ok 2).take 3] =
          (whole.map Reply.message, (Response.ok 2).take 3) := by
  have hdrawn : ascii "1A2B3C4D" = generateSessionId 0x1A2B3C4D := by decide +kernel
  have hcalls : (((Session.create [] true 5).useAll default
      [.feed (optionsRequest ++ keepAliveRequest)]).resume twoCalls).isSome = true := by
    decide +kernel
  obtain ⟨q, hq⟩ := Option.isSome_iff_exists.mp hcalls
  obtain ⟨_, h₁, hq⟩ := Program.resume_cons hq
  obtain ⟨_, h₂, hq⟩ := Program.resume_cons hq
  obtain ⟨_, h₃, hq⟩ := Program.resume_cons hq
  obtain ⟨_, h₄, hq⟩ := Program.resume_cons hq
  have r := Run.single (Step.call (o := default) (s := start _ default) rfl rfl h₁)
  have r := r.snoc (.write rfl h₂)
  have r := r.snoc (.answered (.count 30 (by decide) (by decide +kernel)) rfl (by decide +kernel))
  have r := r.snoc (.answered (.count 70 (by decide) (by decide +kernel)) rfl (by decide +kernel))
  have r := r.snoc (.returned 100 rfl (by decide +kernel) h₂)
  have r := r.snoc (.call rfl rfl h₃)
  have r := r.snoc (.write rfl h₄)
  have r := r.snoc (.answered .interrupted rfl (by decide +kernel))
  have r := r.snoc (.answered (.count 5 (by decide) (by decide +kernel)) rfl (by decide +kernel))
  have r := r.snoc (.answered .failed rfl (by decide +kernel))
  obtain ⟨-, whole, todo, piece, hbegun, hbroken, hread, -⟩ := client_reads default default
    (fun _ => ⟨_, hdrawn⟩) default [] true 5 [.feed (optionsRequest ++ keepAliveRequest)] r
    (breaks_last (by simp [answerLabel])) [(Response.options 1).take 30,
      (Response.options 1).drop 30 ++ (Response.ok 2).take 3] (by
        simp only [wire, start]
        decide +kernel)
  have hat : Broken Reply.render [(Response.options 1).take 30,
      (Response.options 1).drop 30 ++ (Response.ok 2).take 3].flatten [⟨1, .options⟩] [⟨2, .ok⟩]
      ((Response.ok 2).take 3) := by
    refine ⟨by decide +kernel, by simp, ?_⟩
    rintro _ ⟨⟩
    exact ⟨List.take_prefix _ _, by decide +kernel⟩
  have hboth : (whole ++ todo).map Reply.render =
      ([⟨1, .options⟩] ++ [⟨2, .ok⟩] : List Reply).map Reply.render := by
    rw [← hbegun]
    simp [begun, start, Reply.render]
  obtain ⟨hwhole, hpiece⟩ := hbroken.unique hat hboth
  exact ⟨_, _, r, by simp [answerLabel], rfl, whole, hwhole, by rw [hread, hpiece]⟩

end Broken
end Sending
end Veda.Rtsp
