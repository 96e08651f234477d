import Veda.Rtsp.Serial

/-!
One client among many. What a connection's session does in a run of the whole program is what it
would do alone with its own actions and the answers to its own calls, and no other session touches
its connection or its streamers.
-/
namespace Veda.Rtsp

open Cpp Effects Media Transitions History

/-- The connection that an operation names. -/
def Op.conn? : Op → Option ConnId
  | .logRequest conn _ => some conn
  | .send conn _ => some conn
  | .makeStreamer conn => some conn
  | _ => none

/-- The streamers after these calls. -/
def Streamers.after (m : Streamers) (calls : List Call) : Streamers :=
  calls.foldl (fun m c => m.note c.1 c.2) m

/-- The actions on one session and nothing else; when it is gone there are no more. -/
def lone (ord : HashOrder) : Option Session → List Action → Control (Option Session)
  | some s, a :: actions => do
    let s ← a.program ord s
    lone ord s actions
  | s, _ => pure s

namespace System

/-- A connection since it was opened last: what was done to its session, and the calls that this
session and the others have made. -/
structure Record where
  /-- The address of its client. -/
  opened : Option Bytes := none
  running : Bool := false
  actions : List Action := []
  own : List Call := []
  foreign : List Call := []

def Record.next (conn : ConnId) (r : Record) : Label → Record
  | .opened c ip => if c = conn then { opened := some ip } else r
  | .begun c a =>
    if c = conn then { r with running := true, actions := r.actions ++ [a] } else r
  | .finished c _ => if c = conn then { r with running := false } else r
  | .call c =>
    if r.running then { r with own := r.own ++ [c] } else { r with foreign := r.foreign ++ [c] }
  | _ => r

def record (conn : ConnId) (ls : List Label) : Record := ls.foldl (Record.next conn) {}

/-- The code that is left of an action on this connection, or its session. -/
def remaining (s : System) (conn : ConnId) : Control (Option Session) :=
  match s.activity with
  | none => .ret (s.sessions conn)
  | some act => if act.conn = conn then act.rest else .ret (s.sessions conn)

/-- The session has come as far as it would have come alone. -/
structure Tracked (ord : HashOrder) (conn : ConnId) (r : Record) (s : System) : Prop where
  unopened : r.opened = none → s.sessions conn = none ∧ r.running = false
  running : r.running = true ↔ ∃ act, s.activity = some act ∧ act.conn = conn
  alone : ∀ ip, r.opened = some ip → (lone ord (some (Session.create ip true conn))
    r.actions).resume r.own = some (s.remaining conn)

variable {ord : HashOrder} {h : History} {s t : System} {l : Label} {r r' : Record}
  {ls past : List Label} {conn : ConnId} {ip : Bytes} {m : Streamers} {session : Session}

theorem lone_own (actions : List Action) (hs : session.Of conn ip m) :
    (lone ord (some session) actions).Meets (ownCalls conn ip) (fun _ _ => True) m := by
  induction actions generalizing session m with
  | nil => trivial
  | cons a actions ih =>
    rw [lone, Program.meets_bind]
    apply (program_own a hs).mono
    rintro (_ | s') m' hs'
    · cases actions <;> trivial
    · exact ih (hs' s' rfl)

@[simp] theorem lone_nil (ord : HashOrder) (s : Option Session) : lone ord s [] = .ret s := by
  cases s <;> rfl

theorem lone_append (ord : HashOrder) (s : Option Session) (actions more : List Action) :
    lone ord s (actions ++ more) = lone ord s actions >>= fun s => lone ord s more := by
  induction actions generalizing s with
  | nil => cases s <;> rfl
  | cons a actions ih =>
    cases s with
    | none => cases more <;> rfl
    | some s =>
      simp only [List.cons_append, lone, ih, Program.bind_assoc]

theorem path_after (calls : List Call) :
    (ownCalls conn ip).Path m calls (m.after calls) := by
  induction calls generalizing m with
  | nil => exact .nil
  | cons c calls ih => exact .cons rfl ih

/-- Every call that it has made is its own. -/
theorem Tracked.own (ht : Tracked ord conn r s) (hopened : r.opened = some ip) :
    ∀ before c after, r.own = before ++ c :: after →
      c.1.Own conn ip (Streamers.after {} before) := by
  have hresume := ht.alone ip hopened
  rintro before ⟨op, x⟩ after hsplit
  have hof : (Session.create ip true conn).Of conn ip {} := ⟨rfl, rfl, fun x hx => by cases hx⟩
  rw [hsplit] at hresume
  obtain ⟨p, hbefore, hrest⟩ := Program.resume_append hresume
  obtain ⟨k, rfl, -⟩ := Program.resume_cons hrest
  exact ((lone_own r.actions hof).resume hbefore (path_after before)).1

/-- A step that leaves the session and its own calls alone. -/
theorem Tracked.aside (ht : Tracked ord conn r s) (hopened : r'.opened = r.opened)
    (hrunning : r'.running = r.running) (hactions : r'.actions = r.actions)
    (hown : r'.own = r.own) (hsessions : t.sessions conn = s.sessions conn)
    (hremaining : t.remaining conn = s.remaining conn)
    (hactive : (∃ act, t.activity = some act ∧ act.conn = conn) ↔
      ∃ act, s.activity = some act ∧ act.conn = conn) : Tracked ord conn r' t := by
  refine ⟨?_, ?_, ?_⟩
  · rw [hopened, hrunning, hsessions]
    exact ht.unopened
  · rw [hrunning, hactive]
    exact ht.running
  · rw [hopened, hactions, hown, hremaining]
    exact ht.alone

/-- A step inside the Hub. -/
theorem Tracked.inside (ht : Tracked ord conn r s) (hsessions : t.sessions = s.sessions)
    (hactivity : t.activity = s.activity) : Tracked ord conn r t := by
  refine ht.aside rfl rfl rfl rfl (by rw [hsessions]) ?_ (by rw [hactivity])
  rw [remaining, remaining, hactivity, hsessions]

/-- A call of a session, perhaps another one. -/
theorem Tracked.call {c : ConnId} {a : Action} {op : Op} {x : op.Res}
    {k : op.Res → Control (Option Session)} (ht : Tracked ord conn r s)
    (hact : s.activity = some ⟨c, a, .call op k⟩) (hsessions : t.sessions = s.sessions)
    (hactivity : t.activity = some ⟨c, a, k x⟩) :
    Tracked ord conn (r.next conn (.call ⟨op, x⟩)) t := by
  by_cases hc : c = conn
  · have hrunning : r.running = true := ht.running.mpr ⟨_, hact, hc⟩
    rw [Record.next, if_pos hrunning]
    refine ⟨?_, ?_, ?_⟩
    · rw [hsessions]
      exact ht.unopened
    · simp [hrunning, hactivity, hc]
    · intro ip hopened
      have hresume := ht.alone ip hopened
      rw [remaining, hact, hc] at hresume
      simp only [if_true] at hresume
      rw [remaining, hactivity, hc]
      simp only [if_true]
      exact Program.resume_snoc x hresume
  · have hrunning : r.running = false := by
      rw [← Bool.not_eq_true, ht.running]
      rintro ⟨act, hact', hconn⟩
      rw [hact] at hact'
      cases hact'
      exact hc hconn
    rw [Record.next, hrunning]
    refine ht.aside rfl hrunning.symm rfl rfl (by rw [hsessions]) ?_ ?_
    · rw [remaining, remaining, hact, hactivity, hsessions]
      simp only [hc, if_false]
    · simp [hact, hactivity, hc]

theorem tracked_step (hstep : Step ord s l t) (ht : Tracked ord conn r s) :
    Tracked ord conn (r.next conn l) t := by
  cases hstep with
  | opened c ip hidle _ hnone =>
    by_cases hc : c = conn
    · subst hc
      rw [Record.next, if_pos rfl]
      refine ⟨by simp, by simp [hidle], ?_⟩
      rintro _ ⟨⟩
      simp [remaining, hidle, lone]
    · rw [Record.next, if_neg hc]
      refine ht.aside rfl rfl rfl rfl (Function.update_of_ne (Ne.symm hc) ..) ?_ Iff.rfl
      simp only [remaining, hidle, Function.update_of_ne (Ne.symm hc)]
  | @begun session c a hidle _ hsome =>
    by_cases hc : c = conn
    · subst hc
      have hopened : r.opened ≠ none := by
        intro h
        rw [(ht.unopened h).1] at hsome
        cases hsome
      rw [Record.next, if_pos rfl]
      refine ⟨by simp [hopened], by simp, fun ip hip => ?_⟩
      have hresume := ht.alone ip hip
      have hfirst : lone ord (some session) [a] = a.program ord session := by
        simp only [lone, lone_nil]
        exact Program.bind_ret _
      have hbound := Program.resume_bind (fun s => lone ord s [a]) hresume
      simp only [remaining, hidle, hsome, Program.ret_bind, hfirst] at hbound
      simp only [remaining, if_true, lone_append]
      exact hbound
    · rw [Record.next, if_neg hc]
      refine ht.aside rfl rfl rfl rfl rfl ?_ (by simp [hidle, hc])
      simp only [remaining, hidle, hc, if_false]
  | call x hact _ => exact ht.call hact rfl rfl
  | subscribes _ _ => exact ht.inside rfl rfl
  | subscribed hact _ => exact ht.call hact rfl rfl
  | unsubscribes _ _ => exact ht.inside rfl rfl
  | unsubscribed hact _ => exact ht.call hact rfl rfl
  | control _ => exact ht.inside rfl rfl
  | pump _ => exact ht.inside rfl rfl
  | sendNal _ => exact ht.inside rfl rfl
  | @finished c a result hact =>
    by_cases hc : c = conn
    · subst hc
      rw [Record.next, if_pos rfl]
      refine ⟨?_, by simp, ?_⟩
      · intro hopened
        have hrunning := ht.running.mpr ⟨_, hact, rfl⟩
        simp [(ht.unopened hopened).2] at hrunning
      · simpa [remaining, hact] using ht.alone
    · rw [Record.next, if_neg hc]
      refine ht.aside rfl rfl rfl rfl (Function.update_of_ne (Ne.symm hc) ..) ?_
        (by simp [hact, hc])
      simp only [remaining, hact, hc, if_false, Function.update_of_ne (Ne.symm hc)]
  | shutdown _ _ _ => exact ht.inside rfl rfl

/-- A call that has nothing to do with this connection or its streamers. -/
def Foreign (conn : ConnId) (h : History) (c : Call) : Prop :=
  c.1.conn? ≠ some conn ∧ ∀ x, streamerOf c = some x → ¬ h.Created conn x

/-- The sessions keep apart, after the calls `h`. -/
structure Isolated (ord : HashOrder) (h : History) (records : ConnId → Record) (s : System) :
    Prop where
  lawful : Lawful ord h s
  tracked : ∀ conn, Tracked ord conn (records conn) s
  maker : ∀ c c' x, h.Created c x → h.Created c' x → c = c'
  made : ∀ conn, ∀ x ∈ (Streamers.after {} (records conn).own).made, h.Created conn x
  foreign : ∀ conn, ∀ c ∈ (records conn).foreign, c ∈ h ∧ Foreign conn h c

variable {records : ConnId → Record}

theorem fresh_made {calls : List Call} {x : StreamerId}
    (hx : (Streamers.after m calls).fresh = some x) (hm : ∀ y, m.fresh = some y → y ∈ m.made) :
    x ∈ (Streamers.after m calls).made := by
  induction calls generalizing m with
  | nil => exact hm x hx
  | cons c calls ih =>
    refine ih hx ?_
    obtain ⟨op, r⟩ := c
    cases op with
    | makeStreamer conn =>
      rintro y ⟨⟩
      simp [Streamers.note]
    | connect y ip port => simp [Streamers.note]
    | _ => exact hm

/-- What a call of a session uses, this session has made. -/
theorem own_created {calls : List Call} {op : Op} {r : op.Res} {x : StreamerId}
    (hown : op.Own conn ip (Streamers.after {} calls))
    (hmade : ∀ x ∈ (Streamers.after {} calls).made, h.Created conn x)
    (hx : streamerOf ⟨op, r⟩ = some x) : Created (h ++ [⟨op, r⟩]) conn x := by
  rw [created_append]
  cases op with
  | makeStreamer c =>
    obtain rfl := Option.some.inj hx
    obtain rfl : c = conn := hown
    exact .inr (by simp)
  | connect y ip port =>
    obtain rfl := Option.some.inj hx
    exact .inl (hmade y (fresh_made hown.2 (by simp)))
  | subscribe y =>
    obtain rfl := Option.some.inj hx
    exact .inl (hmade y hown)
  | unsubscribe y =>
    obtain rfl := Option.some.inj hx
    exact .inl (hmade y hown)
  | _ => cases hx

theorem own_conn {op : Op} (hown : op.Own conn ip m) {c : ConnId} (hc : op.conn? = some c) :
    c = conn := by
  cases op with
  | logRequest c' raw => exact (Option.some.inj hc).symm.trans hown
  | send c' response => exact (Option.some.inj hc).symm.trans hown
  | makeStreamer c' => exact (Option.some.inj hc).symm.trans hown
  | _ => cases hc

/-- Each streamer has one maker. -/
theorem Isolated.maker_snoc {op : Op} {r : op.Res} (hs : Isolated ord h records s)
    (hfresh : h.Fresh ⟨op, r⟩) (c c' : ConnId) (x : StreamerId)
    (hc : Created (h ++ [⟨op, r⟩]) c x) (hc' : Created (h ++ [⟨op, r⟩]) c' x) : c = c' := by
  rw [created_snoc] at hc hc'
  rcases hc with hc | hc <;> rcases hc' with hc' | hc'
  · exact hs.maker c c' x hc hc'
  · cases hc'
    exact absurd hc.known hfresh
  · cases hc
    exact absurd hc'.known hfresh
  · have hop := congrArg Sigma.fst (hc.symm.trans hc')
    cases hop
    rfl

/-- A foreign call stays foreign. -/
theorem Foreign.snoc {op : Op} {r : op.Res} {c : Call} (hf : Foreign conn h c) (hc : c ∈ h)
    (hfresh : h.Fresh ⟨op, r⟩) : Foreign conn (h ++ [⟨op, r⟩]) c := by
  refine ⟨hf.1, ?_⟩
  intro x hx hcreated
  rcases created_snoc.mp hcreated with hcreated | hnew
  · exact hf.2 x hx hcreated
  · cases hnew
    exact hfresh ⟨c, hc, hx⟩

/-- A call of the session of `c₀`. -/
theorem Isolated.call {c₀ : ConnId} {a : Action} {op : Op} {r : op.Res}
    {k : op.Res → Control (Option Session)} (hs : Isolated ord h records s)
    (hlawful : Lawful ord (h ++ [⟨op, r⟩]) t)
    (htracked : ∀ conn, Tracked ord conn ((records conn).next conn (.call ⟨op, r⟩)) t)
    (hact : s.activity = some ⟨c₀, a, .call op k⟩) (hfresh : h.Fresh ⟨op, r⟩) :
    Isolated ord (h ++ [⟨op, r⟩])
      (fun conn => (records conn).next conn (.call ⟨op, r⟩)) t := by
  have hrunning : (records c₀).running = true := (hs.tracked c₀).running.mpr ⟨_, hact, rfl⟩
  have hother : ∀ conn, conn ≠ c₀ → (records conn).running = false := by
    intro conn hconn
    rw [← Bool.not_eq_true, (hs.tracked conn).running]
    rintro ⟨act, hact', rfl⟩
    rw [hact] at hact'
    cases hact'
    exact hconn rfl
  obtain ⟨ip, hopened⟩ : ∃ ip, (records c₀).opened = some ip := by
    rw [← Option.ne_none_iff_exists']
    intro hclosed
    rw [((hs.tracked c₀).unopened hclosed).2] at hrunning
    cases hrunning
  -- the session of `c₀` makes the call as its own
  have hown : op.Own c₀ ip (Streamers.after {} (records c₀).own) := by
    have hnext := htracked c₀
    rw [Record.next, if_pos hrunning] at hnext
    exact hnext.own hopened _ ⟨op, r⟩ [] rfl
  have hcreated : ∀ x, streamerOf ⟨op, r⟩ = some x → Created (h ++ [⟨op, r⟩]) c₀ x :=
    fun x => own_created hown (hs.made c₀)
  have hmaker := hs.maker_snoc hfresh
  refine ⟨hlawful, htracked, hmaker, ?_, ?_⟩
  · intro conn x hx
    by_cases hconn : conn = c₀
    · subst hconn
      rw [Record.next, if_pos hrunning] at hx
      simp only [Streamers.after, List.foldl_append, List.foldl_cons, List.foldl_nil] at hx
      have hold : x ∈ (Streamers.after {} (records conn).own).made →
          Created (h ++ [⟨op, r⟩]) conn x := by
        intro hx
        exact created_snoc.mpr (.inl (hs.made conn x hx))
      cases op with
      | makeStreamer c =>
        rcases List.mem_append.mp hx with hx | hx
        · exact hold hx
        · exact hcreated x (congrArg some (List.mem_singleton.mp hx).symm)
      | _ => exact hold hx
    · rw [Record.next, hother conn hconn] at hx
      exact created_snoc.mpr (.inl (hs.made conn x hx))
  · intro conn c hc
    have hold : c ∈ (records conn).foreign →
        c ∈ h ++ [⟨op, r⟩] ∧ Foreign conn (h ++ [⟨op, r⟩]) c := by
      intro hc
      obtain ⟨hmem, hforeign⟩ := hs.foreign conn c hc
      exact ⟨List.mem_append_left _ hmem, hforeign.snoc hmem hfresh⟩
    by_cases hconn : conn = c₀
    · subst hconn
      rw [Record.next, if_pos hrunning] at hc
      exact hold hc
    · rw [Record.next, hother conn hconn] at hc
      rcases List.mem_append.mp hc with hc | hc
      · exact hold hc
      · obtain rfl := List.mem_singleton.mp hc
        refine ⟨by simp, ?_, ?_⟩
        · intro hnamed
          exact hconn (own_conn hown hnamed)
        · intro x hx hother
          exact hconn (hmaker conn c₀ x hother (hcreated x hx))

/-- A step without a call. -/
theorem Isolated.quiet (hs : Isolated ord h records s) (hcalls : l.calls = [])
    (hlawful : Lawful ord (h ++ l.calls) t)
    (htracked : ∀ conn, Tracked ord conn ((records conn).next conn l) t) :
    Isolated ord (h ++ l.calls) (fun conn => (records conn).next conn l) t := by
  have hsame : ∀ conn,
      (((records conn).next conn l).own = (records conn).own ∧
        ((records conn).next conn l).foreign = (records conn).foreign) ∨
      (((records conn).next conn l).own = [] ∧ ((records conn).next conn l).foreign = []) := by
    intro conn
    cases l with
    | call c => cases hcalls
    | opened c ip => by_cases hc : c = conn <;> simp [Record.next, hc]
    | begun c a => by_cases hc : c = conn <;> simp [Record.next, hc]
    | finished c a => by_cases hc : c = conn <;> simp [Record.next, hc]
    | _ => exact .inl ⟨rfl, rfl⟩
  rw [hcalls, List.append_nil] at hlawful ⊢
  refine ⟨hlawful, htracked, hs.maker, ?_, ?_⟩
  · intro conn x hx
    rcases hsame conn with ⟨hown, -⟩ | ⟨hown, -⟩
    · rw [hown] at hx
      exact hs.made conn x hx
    · rw [hown] at hx
      cases hx
  · intro conn c hc
    rcases hsame conn with ⟨-, hforeign⟩ | ⟨-, hforeign⟩
    · rw [hforeign] at hc
      exact hs.foreign conn c hc
    · rw [hforeign] at hc
      cases hc

theorem isolated_step (hstep : Step ord s l t) (hs : Isolated ord h records s) :
    Isolated ord (h ++ l.calls) (fun conn => (records conn).next conn l) t := by
  have hlawful := lawful_step hstep hs.lawful
  have htracked := fun conn => tracked_step hstep (hs.tracked conn)
  cases hstep with
  | call r hact ha => exact hs.call hlawful htracked hact (hs.lawful.fresh_answer ha)
  | subscribed hact _ => exact hs.call hlawful htracked hact trivial
  | unsubscribed hact _ => exact hs.call hlawful htracked hact trivial
  | _ => exact hs.quiet rfl hlawful htracked

theorem isolated_run (hr : Run (Step ord) s ls t) (hs : Isolated ord h records s) :
    Isolated ord (h ++ callsOf ls)
      (fun conn => ls.foldl (Record.next conn) (records conn)) t := by
  induction hr generalizing h records with
  | refl => simpa [callsOf] using hs
  | stepL hstep _ ih =>
    simpa [callsOf, List.append_assoc] using ih (isolated_step hstep hs)

theorem isolated_initial (hi : Initial s) : Isolated ord [] (fun _ => {}) s := by
  refine ⟨lawful_initial hi, ?_, by simp [Created], ?_, by simp⟩
  · obtain ⟨-, hs⟩ := hi
    rw [hs]
    intro conn
    refine ⟨fun _ => ⟨rfl, rfl⟩, by simp, ?_⟩
    intro ip hopened
    cases hopened
  · intro conn x hx
    cases hx

/-- One client among many, in any interleaving: the session of a connection stands where it would
stand if it alone had been given its actions, with the answers that its own calls have got. It has
written to its own connection only, connected its streamers to its own client only, and handed
only its own streamers to the Hub; and no other session has written to its connection or touched
its streamers. -/
theorem sessions_isolated {s₀ : System} (hi : Initial s₀) (hr : Run (Step ord) s₀ ls s)
    (hopened : (record conn ls).opened = some ip) :
    (lone ord (some (Session.create ip true conn)) (record conn ls).actions).resume
      (record conn ls).own = some (s.remaining conn) ∧
    (∀ before c after, (record conn ls).own = before ++ c :: after →
      c.1.Own conn ip (Streamers.after {} before)) ∧
    ∀ c ∈ (record conn ls).foreign, c.1.conn? ≠ some conn ∧ ∀ x, streamerOf c = some x →
      x ∉ (Streamers.after {} (record conn ls).own).made := by
  have hs : Isolated ord (callsOf ls) (fun conn => record conn ls) s :=
    isolated_run hr (isolated_initial hi)
  refine ⟨(hs.tracked conn).alone ip hopened, (hs.tracked conn).own hopened, ?_⟩
  intro c hc
  obtain ⟨-, hconn, hstreamer⟩ := hs.foreign conn c hc
  exact ⟨hconn, fun x hx hmade => hstreamer x hx (hs.made conn x hmade)⟩

/-- The calls of a session that gets a SETUP. -/
def setupCalls : List Call :=
  [⟨.logRequest 6 setupRequest, ()⟩, ⟨.generateSessionId, viewerId⟩,
   ⟨.send 6 (Response.setup 1 viewerId 5000 5001 6970 6971), ()⟩]

/-- One client has gone, and another one is being served. -/
theorem sessions_isolated_two : ∃ ls s,
    Run (Step default) { threads := { hub := Hub.create 30 } } ls s ∧
    (record 5 ls).foreign = setupCalls ∧ (record 6 ls).own = setupCalls ∧
    (record 5 ls).opened = some (ascii "10.0.0.2") ∧
    (record 6 ls).opened = some (ascii "10.0.0.3") ∧
    (lone default (some (Session.create (ascii "10.0.0.2") true 5)) (record 5 ls).actions).resume
      (record 5 ls).own = some (s.remaining 5) ∧
    (lone default (some (Session.create (ascii "10.0.0.3") true 6)) (record 6 ls).actions).resume
      (record 6 ls).own = some (s.remaining 6) := by
  have hcalls : (((Action.feed setupRequest).program default
      (Session.create (ascii "10.0.0.3") true 6)).resume setupCalls).isSome = true := by
    decide +kernel
  obtain ⟨q, hq⟩ := Option.isSome_iff_exists.mp hcalls
  obtain ⟨_, h₁, hq⟩ := Program.resume_cons hq
  obtain ⟨_, h₂, hq⟩ := Program.resume_cons hq
  obtain ⟨_, h₃, hq⟩ := Program.resume_cons hq
  have hi : Initial { threads := { hub := Hub.create 30 } } := ⟨⟨rfl, rfl⟩, rfl⟩
  have hopened : Step default { threads := { hub := Hub.create 30 } }
      (.opened 5 (ascii "10.0.0.2")) _ := .opened 5 (ascii "10.0.0.2") rfl rfl rfl
  have r := Run.single hopened
  have r := r.snoc (.opened 6 (ascii "10.0.0.3") rfl rfl rfl)
  have r := r.snoc (.begun 5 .disconnect rfl rfl rfl)
  have r := r.snoc (.finished rfl)
  have r := r.snoc (.begun 6 (.feed setupRequest) rfl rfl rfl)
  have r := r.snoc (.performs () h₁ rfl trivial)
  have r := r.snoc (.performs viewerId h₂ rfl trivial)
  have r := r.snoc (.performs () h₃ rfl trivial)
  obtain ⟨h₅, -⟩ := sessions_isolated hi r
    (show (record 5 _).opened = some (ascii "10.0.0.2") from rfl)
  obtain ⟨h₆, -⟩ := sessions_isolated hi r
    (show (record 6 _).opened = some (ascii "10.0.0.3") from rfl)
  exact ⟨_, _, r, rfl, rfl, rfl, rfl, h₅, h₆⟩

end System
end Veda.Rtsp
