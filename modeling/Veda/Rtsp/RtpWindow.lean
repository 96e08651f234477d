import Veda.Lib.Transitions
import Veda.Media.Broadcast
import Veda.Rtsp.SessionOrder
import Veda.Rtsp.System

/-!
When RTP goes to a client: from the response to its PLAY on, and never again once the Hub has
returned from `unsubscribe`. The history of calls says what a session may still do, and the
Hub's subscriber list follows it.
-/
namespace Veda.Rtsp.System

open Cpp Effects Media Transitions History

variable {ord : HashOrder} {h : History} {s t : System} {l : Label} {conn : ConnId}
  {x : StreamerId}

/-- A session that is not being run, or the place of one that is gone. -/
def Rests (h : History) (conn : ConnId) : Option Session → Prop
  | some session => session.conn = conn ∧ session.Tidy h
  | none => ∀ x, h.Created conn x → h.Finished x

/-- What an action leaves behind. -/
structure Leaves (conn : ConnId) (a : Action) (result : Option Session) (h : History) : Prop where
  rests : Rests h conn result
  ended : a.ends = true → ∀ x, h.Created conn x → h.Finished x

/-- The invariant of a run with the calls `h`. -/
structure Lawful (ord : HashOrder) (h : History) (s : System) : Prop where
  sound : s.threads.Sound
  broadcasting : s.threads.Broadcasting
  regular : Regular ord h
  fresh : ∀ conn x, h.Created conn x → x < s.streamers
  listed : ∀ x ∈ s.threads.hub.subscribers, (h.Accepted x ∧ ¬ h.Released x) ∨
    s.threads.control = .subscribe (.leave true) x
  calling : ∀ pc x, s.threads.control = .subscribe pc x →
    ∃ conn a k, s.activity = some ⟨conn, a, .call (.subscribe x) k⟩
  active : ∀ act, s.activity = some act →
    act.rest.Meets (callOrder ord act.conn) (Leaves act.conn act.action) h
  resting : ∀ conn, (∀ act, s.activity = some act → act.conn ≠ conn) →
    Rests h conn (s.sessions conn)

theorem program_meets {session : Session} (a : Action) (hconn : session.conn = conn)
    (ht : session.Tidy h) :
    (a.program ord session).Meets (callOrder ord conn) (Leaves conn a) h := by
  subst hconn
  cases a with
  | feed data =>
    rw [Action.program, Program.meets_bind]
    apply (Session.feed_meets data ht).mono
    rintro ⟨s', result⟩ h' ⟨hconn, ht'⟩
    exact ⟨⟨hconn, ht'⟩, fun hends => by cases hends⟩
  | disconnect =>
    rw [Action.program, Program.meets_bind]
    apply (Session.onDisconnect_meets ht).mono
    rintro s' h' ⟨hconn, ht', hnone⟩
    exact ⟨⟨hconn, ht'⟩, fun _ x hx => ht'.finished hnone (hconn ▸ hx)⟩
  | destroy =>
    rw [Action.program, Program.meets_bind]
    apply (Session.destroy_meets ht).mono
    rintro r h' hfin
    exact ⟨hfin, fun _ => hfin⟩

theorem Rests.snoc {c : ConnId} {op : Op} {r : op.Res} {result : Option Session}
    (hr : Rests h conn result) (hp : h.Permits ord c op) (hf : h.Fresh ⟨op, r⟩)
    (hne : c ≠ conn) : Rests (h ++ [⟨op, r⟩]) conn result := by
  have hop : op ≠ .makeStreamer conn := by
    rintro rfl
    exact hne (Eq.symm hp)
  cases result with
  | some session => exact ⟨hr.1, hr.2.snoc hp hf (hr.1 ▸ hop)⟩
  | none =>
    intro x hx
    rcases created_snoc.mp hx with hx | hx
    · exact (hr x hx).snoc hp hf
    · exact absurd (congrArg Sigma.fst hx) hop

namespace Lawful

theorem called {a : Action} {op : Op} {k : op.Res → Control (Option Session)} {r : op.Res}
    (hl : Lawful ord h s) (hact : s.activity = some ⟨conn, a, .call op k⟩)
    (hf : h.Fresh ⟨op, r⟩) : h.Permits ord conn op ∧
      (k r).Meets (callOrder ord conn) (Leaves conn a) (h ++ [⟨op, r⟩]) := by
  obtain ⟨hp, hk⟩ := hl.active _ hact
  exact ⟨hp, hk r _ ⟨hf, rfl⟩⟩

theorem fresh_answer {op : Op} {r : op.Res} (hl : Lawful ord h s) (ha : s.Answers ⟨op, r⟩) :
    h.Fresh ⟨op, r⟩ := by
  cases op with
  | makeStreamer c =>
    intro hk
    obtain ⟨c', hc'⟩ := hl.regular.created _ hk
    have hlt := hl.fresh c' r hc'
    rw [show r = s.streamers from ha] at hlt
    exact absurd hlt (Nat.lt_irrefl _)
  | _ => trivial

theorem resting_snoc {a : Action} {op : Op} {r : op.Res} {k : op.Res → Control (Option Session)}
    (hl : Lawful ord h s) (hact : s.activity = some ⟨conn, a, .call op k⟩)
    (hp : h.Permits ord conn op) (hf : h.Fresh ⟨op, r⟩) (c : ConnId) (hc : conn ≠ c) :
    Rests (h ++ [⟨op, r⟩]) c (s.sessions c) := by
  refine (hl.resting c ?_).snoc hp hf hc
  intro act hact'
  rw [hact] at hact'
  cases hact'
  exact hc

/-- A step inside the Hub. -/
theorem threads {threads : Threads StreamerId} {l : Threads.Label StreamerId}
    (hl : Lawful ord h s) (hstep : s.threads.Step l threads)
    (hret : ∀ x ok, l ≠ .returnSubscribe (some x) ok)
    (hcall : ∀ x, l = .callSubscribe x →
      ∃ conn a k, s.activity = some ⟨conn, a, .call (.subscribe x) k⟩) :
    Lawful ord h { s with threads } := by
  refine ⟨Threads.sound_step _ _ _ hstep hl.sound,
    Threads.broadcasting_step hstep hl.sound hl.broadcasting, hl.regular, hl.fresh, ?_, ?_,
    hl.active, hl.resting⟩
  · intro x hx
    rcases Threads.subscribers_step hstep hx with hx | hx
    · rcases hl.listed x hx with hx | hx
      · exact .inl hx
      · rcases Threads.leaving_step hstep hx with hx | hx
        · exact .inr hx
        · exact absurd hx (hret x true)
    · exact .inr hx
  · intro pc x hx
    rcases Threads.subscribing_step hstep hx with ⟨pc', hx⟩ | hx
    · exact hl.calling pc' x hx
    · exact hcall x hx

/-- A call that is not about the Hub's list. -/
theorem call {a : Action} {op : Op} {k : op.Res → Control (Option Session)} {r : op.Res}
    (hl : Lawful ord h s) (hact : s.activity = some ⟨conn, a, .call op k⟩)
    (ha : s.Answers ⟨op, r⟩) : Lawful ord (h ++ [⟨op, r⟩])
      { s with activity := some ⟨conn, a, k r⟩, streamers := s.made op } := by
  have hf := hl.fresh_answer ha
  obtain ⟨hp, hk⟩ := hl.called hact hf
  refine ⟨hl.sound, hl.broadcasting, hl.regular.snoc hp hf, ?_, ?_, ?_, ?_, ?_⟩
  · intro c x hx
    rcases created_snoc.mp hx with hx | hx
    · have hlt := hl.fresh c x hx
      have hle : s.streamers ≤ s.made op := by
        unfold made
        split <;> omega
      exact Nat.lt_of_lt_of_le hlt hle
    · cases hx
      have hr : x = s.streamers := ha
      simp [made, hr]
  · intro x hx
    rcases hl.listed x hx with hx | hx
    · refine .inl ?_
      cases op <;> simp_all [Answers]
    · exact .inr hx
  · intro pc x hx
    obtain ⟨c, a', k', hact'⟩ := hl.calling pc x hx
    rw [hact] at hact'
    cases hact'
    exact ha.elim
  · rintro act hact'
    cases hact'
    exact hk
  · intro c hc
    exact hl.resting_snoc hact hp hf c (hc _ rfl)

theorem subscribed {a : Action} {ok : Bool} {k : Bool → Control (Option Session)}
    {threads : Threads StreamerId} (hl : Lawful ord h s)
    (hact : s.activity = some ⟨conn, a, .call (.subscribe x) k⟩)
    (hstep : s.threads.Step (.returnSubscribe (some x) ok) threads) :
    Lawful ord (h ++ [⟨.subscribe x, ok⟩])
      { s with threads, activity := some ⟨conn, a, k ok⟩ } := by
  have hf : h.Fresh ⟨.subscribe x, ok⟩ := trivial
  obtain ⟨hp, hk⟩ := hl.called hact hf
  obtain ⟨-, hnew, -⟩ := hl.regular.prepared x hp.1
  refine ⟨Threads.sound_step _ _ _ hstep hl.sound,
    Threads.broadcasting_step hstep hl.sound hl.broadcasting, hl.regular.snoc hp hf, ?_, ?_, ?_,
    ?_, ?_⟩
  · intro c y hy
    exact hl.fresh c y (by simpa using hy)
  · intro y hy
    cases hstep with
    | subscribeLeave hc =>
      rcases hl.listed y hy with hy | hy
      · exact .inl (by simpa [hy.1] using hy.2)
      · simp only [hc, ControlPc.subscribe.injEq, SubscribeAt.leave.injEq] at hy
        obtain ⟨rfl, rfl⟩ := hy
        exact .inl (by simpa using hnew)
  · intro pc y hy
    cases hstep with
    | subscribeLeave hc => cases hy
  · rintro act hact'
    cases hact'
    exact hk
  · intro c hc
    exact hl.resting_snoc hact hp hf c (hc _ rfl)

theorem unsubscribed {a : Action} {k : Unit → Control (Option Session)}
    {threads : Threads StreamerId} (hl : Lawful ord h s)
    (hact : s.activity = some ⟨conn, a, .call (.unsubscribe x) k⟩)
    (hstep : s.threads.Step (.returnUnsubscribe x) threads) :
    Lawful ord (h ++ [⟨.unsubscribe x, ()⟩])
      { s with threads, activity := some ⟨conn, a, k ()⟩ } := by
  have hf : h.Fresh ⟨.unsubscribe x, ()⟩ := trivial
  obtain ⟨hp, hk⟩ := hl.called hact hf
  have hidle : threads.control = .idle ∧ threads.hub = s.threads.hub ∧
      s.threads.control = .unsubscribe .join x := by
    cases hstep with
    | unsubscribeNoJoin hc => exact ⟨rfl, rfl, hc⟩
    | unsubscribeJoin hc => exact ⟨rfl, rfl, hc⟩
  obtain ⟨hcontrol, hhub, hjoin⟩ := hidle
  have herased := hl.broadcasting.erased .join x hjoin (by simp) (by simp)
  refine ⟨Threads.sound_step _ _ _ hstep hl.sound,
    Threads.broadcasting_step hstep hl.sound hl.broadcasting, hl.regular.snoc hp hf, ?_, ?_, ?_,
    ?_, ?_⟩
  · intro c y hy
    exact hl.fresh c y (by simpa using hy)
  · intro y hy
    rw [hhub] at hy
    have hne : y ≠ x := by
      rintro rfl
      exact herased hy
    rcases hl.listed y hy with hy | hy
    · exact .inl (by simpa [hne] using hy)
    · simp [hjoin] at hy
  · intro pc y hy
    simp [hcontrol] at hy
  · rintro act hact'
    cases hact'
    exact hk
  · intro c hc
    exact hl.resting_snoc hact hp hf c (hc _ rfl)

theorem opened (hl : Lawful ord h s) (ip : Bytes) (hidle : s.activity = none)
    (hnone : s.sessions conn = none) : Lawful ord h { s with
      sessions := Function.update s.sessions conn (some (Session.create ip true conn)) } := by
  refine ⟨hl.sound, hl.broadcasting, hl.regular, hl.fresh, hl.listed, hl.calling, hl.active, ?_⟩
  intro c _
  have hrest := hl.resting c (by simp [hidle])
  by_cases hc : c = conn
  · subst hc
    rw [hnone] at hrest
    simp only [Function.update_self]
    exact ⟨rfl, rfl, fun _ => rfl, by simp [Session.create], fun x hx => .inl (hrest x hx)⟩
  · simpa [Function.update_of_ne hc] using hrest

theorem begun {a : Action} {session : Session} (hl : Lawful ord h s) (hidle : s.activity = none)
    (hcontrol : s.threads.control = .idle) (hsome : s.sessions conn = some session) :
    Lawful ord h { s with activity := some ⟨conn, a, a.program ord session⟩ } := by
  have hrest := hl.resting conn (by simp [hidle])
  rw [hsome] at hrest
  refine ⟨hl.sound, hl.broadcasting, hl.regular, hl.fresh, hl.listed, ?_, ?_, ?_⟩
  · intro pc x hx
    simp [hcontrol] at hx
  · rintro act hact
    cases hact
    exact program_meets a hrest.1 hrest.2
  · intro c _
    exact hl.resting c (by simp [hidle])

theorem finished {a : Action} {result : Option Session} (hl : Lawful ord h s)
    (hact : s.activity = some ⟨conn, a, .ret result⟩) : Leaves conn a result h ∧
      Lawful ord h { s with
        activity := none, sessions := Function.update s.sessions conn result } := by
  have hleaves : Leaves conn a result h := hl.active _ hact
  refine ⟨hleaves, hl.sound, hl.broadcasting, hl.regular, hl.fresh, hl.listed, ?_, by simp, ?_⟩
  · intro pc x hx
    obtain ⟨c, a', k', hact'⟩ := hl.calling pc x hx
    rw [hact] at hact'
    cases hact'
  · intro c _
    by_cases hc : c = conn
    · subst hc
      simpa using hleaves.rests
    · have hrest := hl.resting c (by
        intro act hact'
        rw [hact] at hact'
        cases hact'
        exact Ne.symm hc)
      simpa [Function.update_of_ne hc] using hrest

end Lawful

theorem lawful_step (hstep : Step ord s l t) (hl : Lawful ord h s) :
    Lawful ord (h ++ l.calls) t := by
  cases hstep with
  | opened conn ip hidle _ hnone => simpa [Label.calls] using hl.opened ip hidle hnone
  | begun conn a hidle hcontrol hsome =>
    simpa [Label.calls] using hl.begun hidle hcontrol hsome
  | call r hact ha => exact hl.call hact ha
  | subscribes hact hth =>
    simpa [Label.calls] using hl.threads hth (by simp) (by
      rintro y ⟨⟩
      exact ⟨_, _, _, hact⟩)
  | subscribed hact hth => exact hl.subscribed hact hth
  | unsubscribes hact hth => simpa [Label.calls] using hl.threads hth (by simp) (by simp)
  | unsubscribed hact hth => exact hl.unsubscribed hact hth
  | control hth => simpa [Label.calls] using hl.threads hth (by simp) (by simp)
  | pump hth => simpa [Label.calls] using hl.threads hth (by simp) (by simp)
  | sendNal hth => simpa [Label.calls] using hl.threads hth (by simp) (by simp)
  | finished hact => simpa [Label.calls] using (hl.finished hact).2
  | shutdown _ _ hth => simpa [Label.calls] using hl.threads hth (by simp) (by simp)

theorem lawful_run {ls : List Label} (hr : Run (Step ord) s ls t) (hl : Lawful ord h s) :
    Lawful ord (h ++ callsOf ls) t := by
  induction hr generalizing h with
  | refl => simpa [callsOf] using hl
  | stepL hstep _ ih => simpa [callsOf, List.append_assoc] using ih (lawful_step hstep hl)

theorem lawful_initial (hi : Initial s) : Lawful ord [] s := by
  obtain ⟨hth, hs⟩ := hi
  have hcontrol : s.threads.control = .idle := by rw [hth.2]
  rw [hs]
  refine ⟨Threads.sound_initial hth, Threads.broadcasting_initial hth, regular_nil ord, ?_, ?_, ?_,
    by simp, ?_⟩
  · simp [Created]
  · simp [hth.1]
  · simp [hcontrol]
  · intro conn _ x hx
    simp [Created] at hx

/-- A broadcast serves streamers whose PLAY has got its response and that are not finished. -/
theorem Lawful.served {u : Nat} (hl : Lawful ord h s) (hstep : Step ord s (.sendNal u x) t) :
    h.Announced ord x ∧ ¬ h.Finished x := by
  have hmem : x ∈ s.threads.hub.subscribers := by
    cases hstep with
    | sendNal hth =>
      cases hth with
      | pumpSend hu => exact hl.broadcasting.todo u _ _ hu x (List.mem_cons_self ..)
  rcases hl.listed x hmem with ⟨hacc, hrel⟩ | hc
  · exact ⟨hl.regular.announced x true hacc, fun hf => hrel (hf.released hacc)⟩
  · obtain ⟨conn, a, k, hact⟩ := hl.calling _ x hc
    obtain ⟨hp, -⟩ := hl.active _ hact
    exact ⟨hp.2, fun hf => hf.prepared hp.1⟩

/-- Every call of a run is one that the contract permits. -/
theorem Lawful.permitted {op : Op} {r : op.Res} (hl : Lawful ord h s)
    (hstep : Step ord s (.call ⟨op, r⟩) t) :
    (∃ conn, h.Permits ord conn op) ∧ h.Fresh ⟨op, r⟩ := by
  cases hstep with
  | @call conn _ _ _ _ hact ha => exact ⟨⟨conn, (hl.active _ hact).1⟩, hl.fresh_answer ha⟩
  | @subscribed conn _ _ _ _ _ hact _ => exact ⟨⟨conn, (hl.active _ hact).1⟩, trivial⟩
  | @unsubscribed conn _ _ _ _ hact _ => exact ⟨⟨conn, (hl.active _ hact).1⟩, trivial⟩

theorem finished_step (hstep : Step ord s l t) (hl : Lawful ord h s) (hf : h.Finished x) :
    History.Finished (h ++ l.calls) x := by
  cases l with
  | call c =>
    obtain ⟨⟨conn, hp⟩, hfresh⟩ := hl.permitted hstep
    exact hf.snoc hp hfresh
  | _ => simpa [Label.calls] using hf

/-- No `send_nal` runs on this streamer. -/
def Silent (x : StreamerId) (ls : List Label) : Prop := ∀ u, .sendNal u x ∉ ls

/-- A finished streamer is never served again. -/
theorem finished_silent {ls : List Label} (hr : Run (Step ord) s ls t) (hl : Lawful ord h s)
    (hf : h.Finished x) : Silent x ls := by
  induction hr generalizing h with
  | refl => simp [Silent]
  | stepL hstep _ ih =>
    intro u hu
    rcases List.mem_cons.mp hu with rfl | hu
    · exact (hl.served hstep).2 hf
    · exact ih (lawful_step hstep hl) (finished_step hstep hl hf) u hu

/-- The streamer has left the Hub, if it was ever in it, and it is not served any more. -/
def Over (x : StreamerId) (before after : List Label) : Prop :=
  (History.Accepted (callsOf before) x → History.Released (callsOf before) x) ∧ Silent x after

/-- RTP goes to a client only between the response to its PLAY and the one to its PAUSE or
TEARDOWN, in every run: a streamer is served only after the PLAY that made it has been
answered; after `unsubscribe` has returned it is not served again; and the success response to
a PAUSE or TEARDOWN, or the end of `on_disconnect` or of the destructor, comes when this holds
of every streamer of the session. -/
theorem rtp_window {s₀ : System} {ls : List Label} (hi : Initial s₀)
    (hr : Run (Step ord) s₀ ls s) :
    (∀ before after u x, ls = before ++ .sendNal u x :: after →
      History.Announced ord (callsOf before) x) ∧
    (∀ before after x, ls = before ++ .call ⟨.unsubscribe x, ()⟩ :: after → Silent x after) ∧
    (∀ before after conn response,
      ls = before ++ .call ⟨.send conn response, ()⟩ :: after →
      History.Stops ord (callsOf before) conn response →
      ∀ x, History.Created (callsOf before) conn x → Over x before after) ∧
    (∀ before after conn a, ls = before ++ .finished conn a :: after → a.ends = true →
      ∀ x, History.Created (callsOf before) conn x → Over x before after) := by
  have hl₀ : Lawful ord [] s₀ := lawful_initial hi
  refine ⟨?_, ?_, ?_, ?_⟩
  · rintro before after u x rfl
    obtain ⟨v, w, h₁, hstep, -⟩ := hr.split_at
    exact ((lawful_run h₁ hl₀).served hstep).1
  · rintro before after x rfl
    obtain ⟨v, w, h₁, hstep, h₂⟩ := hr.split_at
    have hv : Lawful ord (callsOf before) v := lawful_run h₁ hl₀
    obtain ⟨⟨_, hc⟩, -⟩ := hv.permitted hstep
    obtain ⟨c, hc⟩ := hc
    refine finished_silent h₂ (lawful_step hstep hv) ⟨⟨c, by simp [hc]⟩, ?_, ?_⟩
    · simp [Label.calls, nextPreparing]
    · simp [Label.calls]
  · rintro before after conn response rfl hstops x hx
    obtain ⟨v, w, h₁, hstep, h₂⟩ := hr.split_at
    have hv : Lawful ord (callsOf before) v := lawful_run h₁ hl₀
    obtain ⟨⟨_, hp⟩, -⟩ := hv.permitted hstep
    have hf : History.Finished (callsOf before) x := hp.2 hstops x hx
    exact ⟨hf.released, finished_silent h₂ (lawful_step hstep hv) (finished_step hstep hv hf)⟩
  · rintro before after conn a rfl hends x hx
    obtain ⟨v, w, h₁, hstep, h₂⟩ := hr.split_at
    have hv : Lawful ord (callsOf before) v := lawful_run h₁ hl₀
    have hf : History.Finished (callsOf before) x := by
      cases hstep with
      | finished hact => exact (hv.finished hact).1.ended hends x hx
    exact ⟨hf.released, finished_silent h₂ (lawful_step hstep hv) (finished_step hstep hv hf)⟩

/-- A call as the code that is left makes it. -/
theorem Step.performs {a : Action} {p : Control (Option Session)} {op : Op}
    {k : op.Res → Control (Option Session)} (r : op.Res) (hp : p = .call op k)
    (hact : s.activity = some ⟨conn, a, p⟩) (ha : s.Answers ⟨op, r⟩) :
    Step ord s (.call ⟨op, r⟩) { s with
      activity := some ⟨conn, a, k r⟩, streamers := s.made op } := by
  subst hp
  exact .call r hact ha

section OneViewer

/-- The requests of a viewer who plays and leaves, in one `read`. -/
def setupRequest : Bytes :=
  ascii "SETUP rtsp://h/s RTSP/1.0\r\nCSeq: 1\r\nTransport: client_port=5000\r\n\r\n"
def playRequest : Bytes :=
  ascii "PLAY rtsp://h/s RTSP/1.0\r\nCSeq: 2\r\nSession: 1A2B3C4D\r\n\r\n"
def teardownRequest : Bytes :=
  ascii "TEARDOWN rtsp://h/s RTSP/1.0\r\nCSeq: 3\r\nSession: 1A2B3C4D\r\n\r\n"

def viewerId : Bytes := ascii "1A2B3C4D"

def viewerAction : Action := .feed (setupRequest ++ playRequest ++ teardownRequest)

/-- The calls of its session and their answers. -/
def viewerCalls : List Call :=
  [⟨.logRequest 5 setupRequest, ()⟩, ⟨.generateSessionId, viewerId⟩,
   ⟨.send 5 (Response.setup 1 viewerId 5000 5001 6970 6971), ()⟩,
   ⟨.logRequest 5 playRequest, ()⟩, ⟨.makeStreamer 5, (0 : Nat)⟩, ⟨.connect 0 [] 5000, true⟩,
   ⟨.send 5 (Response.play 2 viewerId), ()⟩, ⟨.subscribe 0, true⟩,
   ⟨.logRequest 5 teardownRequest, ()⟩, ⟨.unsubscribe 0, ()⟩,
   ⟨.send 5 (Response.teardown 3 viewerId), ()⟩]

/-- While the TEARDOWN waits, the pump serves the viewer once more. -/
theorem rtp_window_teardown : ∃ before after s,
    Run (Step default) { threads := { hub := Hub.create 30 } }
      (before ++ .sendNal 0 0 :: after) s ∧
    History.Announced default (callsOf before) 0 ∧ .call ⟨.unsubscribe 0, ()⟩ ∈ after := by
  have hcalls : ((viewerAction.program default (Session.create [] true 5)).resume
      viewerCalls).isSome = true := by
    decide +kernel
  obtain ⟨q, hq⟩ := Option.isSome_iff_exists.mp hcalls
  obtain ⟨_, h₁, hq⟩ := Program.resume_cons hq
  obtain ⟨_, h₂, hq⟩ := Program.resume_cons hq
  obtain ⟨_, h₃, hq⟩ := Program.resume_cons hq
  obtain ⟨_, h₄, hq⟩ := Program.resume_cons hq
  obtain ⟨_, h₅, hq⟩ := Program.resume_cons hq
  obtain ⟨_, h₆, hq⟩ := Program.resume_cons hq
  obtain ⟨_, h₇, hq⟩ := Program.resume_cons hq
  obtain ⟨k₈, h₈, hq⟩ := Program.resume_cons hq
  obtain ⟨_, h₉, hq⟩ := Program.resume_cons hq
  obtain ⟨_, h₁₀, hq⟩ := Program.resume_cons hq
  obtain ⟨_, h₁₁, hq⟩ := Program.resume_cons hq
  have hat : ∀ {p p' : Control (Option Session)}, p = p' →
      some (Activity.mk 5 viewerAction p) = some ⟨5, viewerAction, p'⟩ := fun hp => hp ▸ rfl
  have hi : Initial { threads := { hub := Hub.create 30 } } := ⟨⟨rfl, rfl⟩, rfl⟩
  have hopened : Step default { threads := { hub := Hub.create 30 } } (.opened 5 []) _ :=
    .opened 5 [] rfl rfl rfl
  have r := Run.single hopened
  have r := r.snoc (.begun 5 viewerAction rfl rfl rfl)
  have r := r.snoc (.performs () h₁ rfl trivial)
  have r := r.snoc (.performs viewerId h₂ rfl trivial)
  have r := r.snoc (.performs () h₃ rfl trivial)
  have r := r.snoc (.performs () h₄ rfl trivial)
  have r := r.snoc (.performs 0 h₅ rfl rfl)
  have r := r.snoc (.performs true h₆ rfl trivial)
  have r := r.snoc (.performs () h₇ rfl trivial)
  have r := r.snoc (.subscribes (hat h₈) (.callSubscribe 0 rfl))
  have r := r.snoc (.control (.subscribeLock rfl rfl))
  have r := r.snoc (.control (.subscribeStopped rfl rfl))
  have r := r.snoc (.control (.subscribeNoJoin rfl rfl))
  have r := r.snoc (.control (.subscribeMake rfl))
  have r := r.snoc (.control (.subscribeStart rfl))
  have r := r.snoc (.control (.subscribeRun rfl))
  have r := r.snoc (.control (.subscribeSpawn rfl))
  have r := r.snoc (.control (.subscribePush rfl))
  have r := r.snoc (.subscribed (hat h₈) (.subscribeLeave rfl))
  have r := r.snoc (.performs () h₉ rfl trivial)
  have r := r.snoc (.unsubscribes (hat h₁₀) (.callUnsubscribe 0 rfl))
  have r := r.snoc (.pump (.pumpTest (t := 0) rfl rfl))
  have r := r.snoc (.pump (.pumpNal (t := 0) [0x65] rfl (by simp)))
  have r := r.snoc (.pump (.pumpLock (t := 0) rfl rfl))
  have run := r.append (.stepL (.sendNal (.pumpSend (t := 0) rfl))
    (.stepL (.pump (.pumpUnlock (t := 0) rfl))
    (.stepL (.control (.unsubscribeLock rfl rfl))
    (.stepL (.control (.unsubscribeErase rfl))
    (.stepL (.control (.unsubscribeLast rfl rfl rfl))
    (.stepL (.control (.unsubscribeStop rfl))
    (.stepL (.control (.unsubscribeMove rfl))
    (.stepL (.control (.unsubscribeUnlock rfl))
    (.stepL (.pump (.pumpRead (t := 0) rfl))
    (.stepL (.pump (.pumpQuit (t := 0) rfl rfl))
    (.stepL (.pump (.pumpStop (t := 0) rfl))
    (.stepL (.pump (.pumpStore (t := 0) rfl))
    (.stepL (.unsubscribed (hat h₁₀) (.unsubscribeJoin rfl rfl rfl))
    (.single (.performs () h₁₁ rfl trivial)))))))))))))))
  exact ⟨_, _, _, run, (rtp_window hi run).1 _ _ 0 0 rfl, by simp⟩

end OneViewer

end Veda.Rtsp.System
