import Veda.Rtsp.CallOrder

/-!
A session keeps the contract of `callOrder`, whatever it is fed and whatever its calls answer.
-/
namespace Veda.Rtsp

open Cpp Effects History

variable {ord : HashOrder} {h : History} {s : Session} {req : Request} {raw : Bytes}

namespace Session

/-- What a session and the history have to do with each other between two calls. -/
structure Tidy (h : History) (s : Session) : Prop where
  hub : s.hub = true
  idle : s.state ≠ .playing → s.streamer = none
  known : ∀ x, s.streamer = some x → ∃ conn, h.Created conn x
  settled : ∀ x, h.Created s.conn x → h.Finished x ∨ s.streamer = some x

/-- A call about another session's streamers, or about none. -/
theorem Tidy.snoc {conn : ConnId} {op : Op} {r : op.Res} (ht : s.Tidy h)
    (hp : h.Permits ord conn op) (hf : h.Fresh ⟨op, r⟩) (hop : op ≠ .makeStreamer s.conn) :
    s.Tidy (h ++ [⟨op, r⟩]) := by
  refine ⟨ht.hub, ht.idle, ?_, ?_⟩
  · intro x hx
    obtain ⟨c, hc⟩ := ht.known x hx
    exact ⟨c, by simp [hc]⟩
  · intro x hx
    have hc : h.Created s.conn x := by
      rcases created_snoc.mp hx with hx | hx
      · exact hx
      · exact absurd (congrArg Sigma.fst hx) hop
    rcases ht.settled x hc with hx | hx
    · exact .inl (hx.snoc hp hf)
    · exact .inr hx

/-- Only the streamer, the state and the connection matter. -/
theorem Tidy.congr {s' : Session} (ht : s.Tidy h) (hhub : s'.hub = s.hub)
    (hconn : s'.conn = s.conn) (hx : s'.streamer = s.streamer)
    (hstate : s'.state ≠ .playing → s'.streamer = none) : s'.Tidy h :=
  ⟨hhub ▸ ht.hub, hstate, hx ▸ ht.known, by rw [hconn, hx]; exact ht.settled⟩

/-- Once the streamer is given up, everything that the session made is finished. -/
theorem Tidy.finished (ht : s.Tidy h) (hx : s.streamer = none) {x : StreamerId}
    (hc : h.Created s.conn x) : h.Finished x := by
  rcases ht.settled x hc with hf | hf
  · exact hf
  · simp [hx] at hf

theorem stopStreaming_meets (ht : s.Tidy h) :
    s.stopStreaming.Meets (callOrder ord s.conn) (fun s' h' => s' = { s with streamer := none } ∧
      s'.Tidy h' ∧ h'.lastRequest = h.lastRequest) h := by
  cases hx : s.streamer with
  | none =>
    have he : s = { s with streamer := none } := by rw [← hx]
    rw [stopStreaming, hx]
    exact ⟨he, ht, rfl⟩
  | some x =>
    simp only [stopStreaming, hx, if_pos ht.hub, Program.perform_bind, Program.meets_call]
    refine ⟨ht.known x hx, ?_⟩
    rintro r h' ⟨hf, rfl⟩
    obtain ⟨c, hc⟩ := ht.known x hx
    have hafter : s.Tidy (h ++ [⟨.unsubscribe x, r⟩]) :=
      ht.snoc (show h.Permits ord s.conn (.unsubscribe x) from ⟨c, hc⟩) hf (by simp)
    refine ⟨rfl, ⟨ht.hub, fun _ => rfl, by simp, ?_⟩, by simp [nextRequest]⟩
    intro y hy
    rcases hafter.settled y hy with hy | hy
    · exact .inl hy
    · obtain rfl : x = y := by simpa [hx] using hy
      exact .inl ⟨⟨c, by simp [hc]⟩, by simp [nextPreparing], fun _ => by simp⟩

/-- The session as it will be when the PLAY that made `x` succeeds. -/
def started (s : Session) (x : StreamerId) : Session :=
  { s with streamer := some x, state := .playing }

theorem Tidy.made (ord : HashOrder) {x : StreamerId} (ht : s.Tidy h) (hx : s.streamer = none)
    (hf : h.Fresh ⟨.makeStreamer s.conn, x⟩) :
    (s.started x).Tidy (h ++ [⟨.makeStreamer s.conn, x⟩]) := by
  have hp : h.Permits ord s.conn (.makeStreamer s.conn) := rfl
  refine ⟨ht.hub, by simp [started], ?_, ?_⟩
  · rintro y hy
    obtain rfl : x = y := by simpa [started] using hy
    exact ⟨s.conn, by simp⟩
  · intro y hy
    rcases created_snoc.mp hy with hy | hy
    · exact .inl ((ht.finished hx hy).snoc hp hf)
    · cases hy
      exact .inr rfl

/-- A PLAY that fails leaves a finished streamer behind. -/
theorem Tidy.abandoned {x : StreamerId} (ht : (s.started x).Tidy h) (hx : s.streamer = none)
    (hc : h.Created s.conn x) (hp : h.preparing ≠ some x) (ha : ¬ h.Accepted x) : s.Tidy h := by
  refine ⟨ht.hub, fun _ => hx, by simp [hx], ?_⟩
  intro y hy
  rcases ht.settled y hy with hf | hf
  · exact .inl hf
  · obtain rfl : x = y := by simpa [started] using hf
    exact .inl ⟨⟨_, hc⟩, hp, fun h => absurd h ha⟩

theorem statusOf_refused (cseq : Int) (why : Refusal) :
    statusOf (Response.error cseq why.statusCode why.reason) ≠ .ok 200 := by
  have hstatus := (Reply.mk cseq (.refused why)).statusOf_render
  change statusOf (Response.error cseq why.statusCode why.reason) = .ok why.statusCode at hstatus
  rw [hstatus]
  intro he
  exact why.statusCode_ne_ok (Except.ok.inj he)

/-- What a handler leaves to the end of its request. -/
structure Answered (conn : ConnId) (raw : Bytes) (req : Request) (p : Session × Bytes)
    (h : History) : Prop where
  sameConn : p.1.conn = conn
  tidy : p.1.Tidy h
  request : h.lastRequest = some (conn, raw)
  stopped : req.method = .pause ∨ req.method = .teardown → statusOf p.2 = .ok 200 →
    p.1.streamer = none

/-- A handler of another method may return any text. -/
theorem Answered.other {s' : Session} {text : Bytes} {cs : List Call}
    (hlog : [⟨.logRequest s.conn raw, ()⟩] <:+ h)
    (hother : ¬ (req.method = .pause ∨ req.method = .teardown)) (hconn : s'.conn = s.conn)
    (hcs : cs.foldl History.nextRequest (some (s.conn, raw)) = some (s.conn, raw))
    (ht : s'.Tidy (h ++ cs)) : Answered s.conn raw req (s', text) (h ++ cs) := by
  have hlast := History.lastRequest_of_suffix hlog
  exact ⟨hconn, ht, by simpa [hlast] using hcs, fun hm => absurd hm hother⟩

section Handlers
variable (hlog : [⟨.logRequest s.conn raw, ()⟩] <:+ h) (ht : s.Tidy h)
include hlog ht

theorem handleDescribe_meets (hm : req.method = .describe) :
    (s.handleDescribe req).Meets (callOrder ord s.conn) (Answered s.conn raw req) h := by
  simp only [handleDescribe, if_pos ht.hub, Program.perform_bind, Program.meets_call]
  have hp : h.Permits ord s.conn .spropParameterSets := trivial
  refine ⟨hp, ?_⟩
  rintro r h' ⟨hf, rfl⟩
  exact .other hlog (by simp [hm]) rfl rfl (ht.snoc hp hf (by simp))

theorem handleSetup_meets (hm : req.method = .setup) (hs : s.state ≠ .playing) :
    (s.handleSetup req).Meets (callOrder ord s.conn) (Answered s.conn raw req) h := by
  have hother : ¬ (req.method = .pause ∨ req.method = .teardown) := by simp [hm]
  have hlast := History.lastRequest_of_suffix hlog
  have hx := ht.idle hs
  unfold handleSetup
  split
  · exact ⟨rfl, ht, hlast, fun hm => absurd hm hother⟩
  · dsimp only
    split
    · split
      · have hp : h.Permits ord s.conn .generateSessionId := trivial
        refine ⟨hp, ?_⟩
        rintro id h' ⟨hf, rfl⟩
        exact .other hlog hother rfl rfl ((ht.snoc hp hf (by simp)).congr rfl rfl rfl fun _ => hx)
      · exact ⟨rfl, ht.congr rfl rfl rfl fun _ => hx, hlast, fun hm => absurd hm hother⟩
    · exact ⟨rfl, ht.congr rfl rfl rfl fun _ => hx, hlast, fun hm => absurd hm hother⟩

theorem handlePlay_meets (hparse : parseRequest ord raw = .ok (some req))
    (hm : req.method = .play) (hs : s.state = .ready) :
    (s.handlePlay req).Meets (callOrder ord s.conn) (Answered s.conn raw req) h := by
  have hx : s.streamer = none := ht.idle (by simp [hs])
  have hlast := History.lastRequest_of_suffix hlog
  have hother : ¬ (req.method = .pause ∨ req.method = .teardown) := by simp [hm]
  unfold handlePlay
  split
  · simp only [if_pos ht.hub, Program.perform_bind, Program.meets_call]
    refine ⟨rfl, ?_⟩
    rintro x h₁ ⟨hf₁, rfl⟩
    have hnew : ¬ h.Accepted x := fun ha => hf₁ ha.known
    have ht₁ := ht.made ord hx hf₁
    have hp₁ : History.Permits ord s.conn (h ++ [⟨.makeStreamer s.conn, x⟩])
        (.connect x s.clientIp (toUint16 s.clientRtpPort)) := by
      simp [History.Permits, nextPreparing]
    refine ⟨hp₁, ?_⟩
    rintro connected h₂ ⟨hf₂, rfl⟩
    have ht₂ := ht₁.snoc hp₁ hf₂ (by simp)
    cases connected with
    | false =>
      refine ⟨rfl, ht₂.abandoned hx (by simp) ?_ ?_, by simp [nextRequest, hlast], fun hm => ?_⟩
      · simp [nextPreparing]
      · simpa using hnew
      · exact absurd hm hother
    | true =>
      have hp₂ : History.Permits ord s.conn (h ++ [⟨.makeStreamer s.conn, x⟩] ++
          [⟨.connect x s.clientIp (toUint16 s.clientRtpPort), true⟩])
          (.send s.conn (Response.play req.cseq s.sessionId)) := by
        refine ⟨rfl, fun hstops => ?_⟩
        have hlast₂ := hstops.method (by simpa [nextRequest] using hlast) hparse
        exact absurd hlast₂.1 hother
      refine ⟨hp₂, ?_⟩
      rintro r h₃ ⟨hf₃, rfl⟩
      have ht₃ := ht₂.snoc hp₂ hf₃ (by simp)
      have hp₃ : History.Permits ord s.conn (h ++ [⟨.makeStreamer s.conn, x⟩] ++
          [⟨.connect x s.clientIp (toUint16 s.clientRtpPort), true⟩] ++
          [⟨.send s.conn (Response.play req.cseq s.sessionId), r⟩]) (.subscribe x) := by
        refine ⟨by simp [nextPreparing], s.conn, raw, req, s.clientIp,
          toUint16 s.clientRtpPort, s.sessionId, hparse, hm, ?_⟩
        obtain ⟨h₀, rfl⟩ := hlog
        exact ⟨h₀, [], by simp⟩
      refine ⟨hp₃, ?_⟩
      rintro ok h₄ ⟨hf₄, rfl⟩
      have ht₄ := ht₃.snoc hp₃ hf₄ (by simp)
      cases ok with
      | true => exact ⟨rfl, ht₄, by simpa [nextRequest] using hlast, fun hm => absurd hm hother⟩
      | false =>
        refine ⟨rfl, ht₄.abandoned hx (by simp) ?_ ?_, by simpa [nextRequest] using hlast, ?_⟩
        · simp [nextPreparing]
        · simpa using hnew
        · exact fun hm => absurd hm hother
  · exact ⟨rfl, ht, hlast, fun hm => absurd hm hother⟩

theorem handlePause_meets :
    (s.handlePause req).Meets (callOrder ord s.conn) (Answered s.conn raw req) h := by
  have hlast := History.lastRequest_of_suffix hlog
  unfold handlePause
  split
  · rw [Program.meets_bind]
    apply (stopStreaming_meets ht).mono
    rintro s' h' ⟨rfl, ht', hlast'⟩
    exact ⟨rfl, ht'.congr rfl rfl rfl fun _ => rfl, hlast'.trans hlast, fun _ _ => rfl⟩
  · exact ⟨rfl, ht, hlast, fun _ hok => absurd hok (statusOf_refused _ .sessionNotFound)⟩

theorem handleTeardown_meets :
    (s.handleTeardown req).Meets (callOrder ord s.conn) (Answered s.conn raw req) h := by
  have hlast := History.lastRequest_of_suffix hlog
  unfold handleTeardown
  split
  · rw [Program.meets_bind]
    apply (stopStreaming_meets ht).mono
    rintro s' h' ⟨rfl, ht', hlast'⟩
    exact ⟨rfl, ht'.congr rfl rfl rfl fun _ => rfl, hlast'.trans hlast, fun _ _ => rfl⟩
  · exact ⟨rfl, ht, hlast, fun _ hok => absurd hok (statusOf_refused _ .sessionNotFound)⟩

theorem handle_meets (hparse : parseRequest ord raw = .ok (some req)) :
    (s.handle req).Meets (callOrder ord s.conn) (Answered s.conn raw req) h := by
  have hlast := History.lastRequest_of_suffix hlog
  have hpure : ∀ text, ¬ (req.method = .pause ∨ req.method = .teardown) →
      Answered s.conn raw req (s, text) h :=
    fun text hother => ⟨rfl, ht, hlast, fun hm => absurd hm hother⟩
  by_cases hu : req.method = .unknown
  · rw [handle, if_pos hu]
    exact hpure _ (by simp [hu])
  · cases ha : s.methodAllowed req.method with
    | false =>
      rw [handle, if_neg hu, ha]
      exact ⟨rfl, ht, hlast, fun _ hok => absurd hok (statusOf_refused _ .notValidInState)⟩
    | true =>
      rw [handle, if_neg hu, if_pos ha]
      cases hm : req.method with
      | options => exact hpure _ (by simp [hm])
      | getParameter => exact hpure _ (by simp [hm])
      | describe => exact handleDescribe_meets hlog ht hm
      | setup =>
        apply handleSetup_meets hlog ht hm
        intro hs
        simp [methodAllowed, hm, hs] at ha
      | play => exact handlePlay_meets hlog ht hparse hm (by simpa [methodAllowed, hm] using ha)
      | pause => exact handlePause_meets hlog ht
      | teardown => exact handleTeardown_meets hlog ht
      | unknown => exact absurd hm hu

/-- Handling a request keeps the session tidy. -/
theorem respond_meets (hparse : parseRequest ord raw = .ok (some req)) :
    (s.respond req).Meets (callOrder ord s.conn)
      (fun s' h' => s'.conn = s.conn ∧ s'.Tidy h') h := by
  rw [respond, Program.meets_bind]
  apply (handle_meets hlog ht hparse).mono
  rintro ⟨s', text⟩ h' ⟨hconn, ht', hlast, hstopped⟩
  dsimp only at *
  split
  · exact ⟨hconn, ht'⟩
  · have hp : h'.Permits ord s.conn (.send s'.conn text) := by
      refine ⟨hconn, ?_⟩
      intro hstops x hx
      obtain ⟨hm, hok⟩ := hstops.method hlast hparse
      exact ht'.finished (hstopped hm hok) hx
    refine ⟨hp, ?_⟩
    rintro r h'' ⟨hf, rfl⟩
    exact ⟨hconn, ht'.snoc hp hf (by simp)⟩

end Handlers

theorem serve_meets (ht : s.Tidy h) :
    (s.serve ord raw).Meets (callOrder ord s.conn)
      (fun p h' => p.1.conn = s.conn ∧ p.1.Tidy h') h := by
  have hp : h.Permits ord s.conn (.logRequest s.conn raw) := trivial
  rw [serve, Program.perform_bind]
  refine ⟨hp, ?_⟩
  rintro r h' ⟨hf, rfl⟩
  have hlog : [⟨.logRequest s.conn raw, ()⟩] <:+ h ++ [(⟨.logRequest s.conn raw, r⟩ : Call)] :=
    ⟨h, rfl⟩
  have ht' := ht.snoc hp hf (by simp)
  split
  · exact ⟨rfl, ht'⟩
  · rename_i hparse
    have hp' : History.Permits ord s.conn (h ++ [⟨.logRequest s.conn raw, r⟩])
        (.send s.conn (Response.error 0 400 (ascii "Bad Request"))) := by
      refine ⟨rfl, ?_⟩
      rintro ⟨raw', req', hlast, hparse', -⟩
      rw [History.lastRequest_of_suffix hlog] at hlast
      cases hlast
      rw [hparse] at hparse'
      cases hparse'
    refine ⟨hp', ?_⟩
    rintro r' h'' ⟨hf', rfl⟩
    exact ⟨rfl, ht'.snoc hp' hf' (by simp)⟩
  · rename_i req hparse
    rw [Program.meets_bind]
    apply (respond_meets hlog ht' hparse).mono
    rintro s' h'' ⟨hconn, ht''⟩
    split <;> exact ⟨hconn, ht''⟩

theorem feedLoop_meets (fuel : Nat) (ht : s.Tidy h) :
    (feedLoop ord fuel s).Meets (callOrder ord s.conn)
      (fun p h' => p.1.conn = s.conn ∧ p.1.Tidy h') h := by
  induction fuel generalizing s h with
  | zero => exact ⟨rfl, ht⟩
  | succ fuel ih =>
    unfold feedLoop
    split
    · exact ⟨rfl, ht⟩
    · rename_i endPos _
      have hcut : Tidy h { s with rxBuffer := s.rxBuffer.drop (endPos + 4) } :=
        ht.congr rfl rfl rfl ht.idle
      dsimp only
      rw [Program.meets_bind]
      apply (serve_meets hcut).mono
      rintro ⟨s', result⟩ h' ⟨hconn, ht'⟩
      cases result with
      | none =>
        have hrest := ih ht'
        rw [show s'.conn = s.conn from hconn] at hrest
        exact hrest
      | some r => exact ⟨hconn, ht'⟩

theorem feed_meets (data : Bytes) (ht : s.Tidy h) :
    (s.feed ord data).Meets (callOrder ord s.conn)
      (fun p h' => p.1.conn = s.conn ∧ p.1.Tidy h') h := by
  have ht' : Tidy h { s with rxBuffer := s.rxBuffer ++ data } := ht.congr rfl rfl rfl ht.idle
  unfold feed
  dsimp only
  split
  · exact ⟨rfl, ht'⟩
  · exact feedLoop_meets _ ht'

theorem onDisconnect_meets (ht : s.Tidy h) :
    s.onDisconnect.Meets (callOrder ord s.conn)
      (fun s' h' => s'.conn = s.conn ∧ s'.Tidy h' ∧ s'.streamer = none) h := by
  rw [onDisconnect, Program.meets_bind]
  apply (stopStreaming_meets ht).mono
  rintro s' h' ⟨rfl, ht', -⟩
  exact ⟨rfl, ht'.congr rfl rfl rfl fun _ => rfl, rfl⟩

/-- The destructor leaves nothing of the session in the Hub. -/
theorem destroy_meets (ht : s.Tidy h) :
    s.destroy.Meets (callOrder ord s.conn)
      (fun _ h' => ∀ x, h'.Created s.conn x → h'.Finished x) h := by
  rw [destroy, Program.meets_bind]
  apply (stopStreaming_meets ht).mono
  rintro s' h' ⟨rfl, ht', -⟩
  exact fun x hx => ht'.finished rfl hx

end Session
end Veda.Rtsp
