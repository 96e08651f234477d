import Veda.Media.FileHub
import Veda.Media.SharedHub
import Veda.Rtp.Receiver

/-!
What a viewer sees of the file: through the reader, the source, the threads of the Hub, the
packetizer and the receiver at the other end.
-/
namespace Veda.Media

open Rtp Transitions

section Windows
variable {σ : Type}

/-- The NALs that are broadcast. -/
def airedIn (ops : List (HubOp σ)) : List Bytes :=
  ops.filterMap fun
    | .onNal nal => some nal
    | _ => none

variable [DecidableEq σ] {r : HubRun σ} {s : σ} {active : Bool} {ops : List (HubOp σ)}

/-- Whether the subscription of `s` is on after these sections. -/
def activeAfter (s : σ) : Bool → List (HubOp σ) → Bool
  | active, [] => active
  | active, .subscribe x sourceUp :: ops => activeAfter s (active || (x = s && sourceUp)) ops
  | active, .unsubscribe x :: ops => activeAfter s (active && x ≠ s) ops
  | active, .onNal _ :: ops => activeAfter s active ops

theorem window_off (h : subscriptions s ops = 0) :
    window s false ops = [] ∧ activeAfter s false ops = false := by
  induction ops with
  | nil => exact ⟨rfl, rfl⟩
  | cons op ops ih =>
    cases op with
    | subscribe x up =>
      simp only [subscriptions, Nat.add_eq_zero_iff] at h
      have hx : (decide (x = s) && up) = false := by
        by_contra hx
        simp_all
      simpa [window, activeAfter, hx] using ih h.2
    | unsubscribe x => simpa [window, activeAfter] using ih h
    | onNal nal => simpa [window, activeAfter] using ih h

/-- A subscription that is on: it has had everything up to its end. -/
theorem window_on (h : subscriptions s ops = 0) (hne : ∀ nal ∈ airedIn ops, nal ≠ []) :
    window s true ops <+: airedIn ops ∧
      (activeAfter s true ops = true → window s true ops = airedIn ops) := by
  induction ops with
  | nil => exact ⟨List.prefix_rfl, fun _ => rfl⟩
  | cons op ops ih =>
    cases op with
    | subscribe x up =>
      simp only [subscriptions, Nat.add_eq_zero_iff] at h
      simpa [window, activeAfter, airedIn] using ih h.2 hne
    | unsubscribe x =>
      by_cases hx : x = s
      · obtain ⟨hwindow, hactive⟩ := @window_off _ _ s ops h
        simp [window, activeAfter, airedIn, hx, hwindow, hactive]
      · simpa [window, activeAfter, airedIn, hx] using ih h hne
    | onNal nal =>
      have hnal : nal ≠ [] := hne nal (by simp [airedIn])
      have hrest := ih h fun y hy => hne y (by simp_all [airedIn])
      simpa [window, activeAfter, airedIn, hnal] using hrest

/-- The window of a viewer is one piece of what is broadcast, and its end while it is on. -/
theorem window_piece (h : subscriptions s ops ≤ 1) (hne : ∀ nal ∈ airedIn ops, nal ≠ []) :
    window s false ops <:+: airedIn ops ∧
      (activeAfter s false ops = true → window s false ops <:+ airedIn ops) := by
  induction ops with
  | nil => exact ⟨List.infix_rfl, fun _ => List.suffix_rfl⟩
  | cons op ops ih =>
    cases op with
    | subscribe x up =>
      simp only [subscriptions] at h
      by_cases hx : x = s ∧ up = true
      · rw [if_pos hx] at h
        have hquiet : subscriptions s ops = 0 := by omega
        obtain ⟨hstart, hall⟩ := window_on hquiet hne
        simp only [window, activeAfter, hx.1, hx.2]
        exact ⟨hstart.isInfix, fun hactive => (hall hactive).symm ▸ List.suffix_rfl⟩
      · rw [if_neg hx] at h
        have hoff : (decide (x = s) && up) = false := by simpa using hx
        simpa [window, activeAfter, airedIn, hoff] using ih (by omega) hne
    | unsubscribe x => simpa [window, activeAfter, airedIn] using ih h hne
    | onNal nal =>
      obtain ⟨hpiece, hsuffix⟩ := ih h fun y hy => hne y (by simp_all [airedIn])
      have haired : airedIn (.onNal nal :: ops) = nal :: airedIn ops := rfl
      simp only [window, activeAfter, haired, Bool.false_and]
      exact ⟨hpiece.trans (List.suffix_cons nal _).isInfix,
        fun hactive => (hsuffix hactive).trans (List.suffix_cons nal _)⟩

theorem run_active (ha : Active s active r)
    (hs : subscriptions s ops ≤ if active then 0 else 1) :
    Active s (activeAfter s active ops) (r.run ops) := by
  induction ops generalizing r active with
  | nil => exact ha
  | cons op ops ih =>
    cases op with
    | subscribe x up =>
      simp only [subscriptions] at hs
      have hnew : active = true → ¬ (x = s ∧ up = true) := by
        rintro rfl ⟨rfl, rfl⟩
        simp at hs
      refine ih (active_subscribe ha hnew) ?_
      by_cases hx : x = s ∧ up = true
      · simp [hx] at hs ⊢
        split at hs <;> omega
      · have hoff : (decide (x = s) && up) = false := by simpa using hx
        simp only [if_neg hx] at hs
        simpa [hoff] using hs
    | unsubscribe x =>
      refine ih (active_unsubscribe ha) (le_trans hs ?_)
      cases active <;> cases decide (x ≠ s) <;> simp
    | onNal nal => exact ih (active_onNal ha) hs

end Windows

section Received
variable {tsIncrement : UInt32} {nal : Bytes} {nals : List Bytes} {st : Streamer}
  {hdr : Header} {outcome : Nat → Bool} {n : Nat} {frags : List Bytes} {chain : Option Chain}

theorem deliver_connected (hc : st.connected = true) :
    (Hub.deliver tsIncrement nal st).connected = true := by
  by_cases hn : nal = []
  · simp only [Hub.deliver, Streamer.sendNal, hn, or_true, if_true]
    split <;> exact hc
  · rw [deliver_eq hc hn]
    exact hc

/-- A streamer has sent more afterwards. -/
theorem attempts_deliver (hc : st.connected = true) : st.socket.attempts <+:
    (Hub.deliver tsIncrement nal st).socket.attempts := by
  by_cases hn : nal = []
  · simp only [Hub.deliver, Streamer.sendNal, hn, or_true, if_true]
    split <;> exact List.prefix_rfl
  · rw [deliver_attempts hc hn]
    exact List.prefix_append _ _

theorem attempts_iterate (hc : st.connected = true) (k : Nat) : st.socket.attempts <+:
    ((Hub.deliver tsIncrement nal)^[k] st).socket.attempts := by
  induction k generalizing st with
  | zero => exact List.prefix_rfl
  | succ k ih => exact (attempts_deliver hc).trans (ih (deliver_connected hc))

/-- Of the NALs handed to a streamer the receiver gets some in order, or all if no send fails. -/
theorem deliver_received (tsIncrement : UInt32) (hc : st.connected = true)
    (hn : ∀ nal ∈ nals, Sendable nal) (chain : Option Chain) : ∃ as chain' got,
      (nals.foldl (fun st nal => Hub.deliver tsIncrement nal st) st).socket.attempts =
        st.socket.attempts ++ as ∧
      receiveAll chain (sentOf as) = (chain', got) ∧ got.Sublist nals ∧
      ((∀ n, st.socket.outcome n = true) → got = nals) := by
  induction nals generalizing st chain with
  | nil => exact ⟨[], chain, [], by simp, rfl, List.Sublist.refl _, fun _ => rfl⟩
  | cons nal nals ih =>
    have hnal := hn nal (by simp)
    have hconnected : (Hub.deliver tsIncrement nal st).connected = true := deliver_connected hc
    obtain ⟨chain₁, h₁⟩ := receive_nal (st.nextHeader false) st.socket.outcome
      st.socket.attempts.length hnal chain
    obtain ⟨as, chain₂, got, has, h₂, hgot, hall⟩ :=
      ih hconnected (fun x hx => hn x (by simp [hx])) chain₁
    rw [deliver_attempts hc hnal.1] at has
    rw [deliver_outcome hc hnal.1] at hall
    refine ⟨st.attemptsFor nal ++ as, chain₂,
      (if (st.attemptsFor nal).all (·.sent) then [nal] else []) ++ got, ?_, ?_, ?_, ?_⟩
    · rw [List.foldl_cons, has, List.append_assoc]
    · rw [sentOf_append, receiveAll_append, Streamer.attemptsFor, h₁]
      dsimp only
      rw [h₂]
    · split
      · exact hgot.cons_cons nal
      · exact hgot.cons nal
    · intro hsent
      rw [Streamer.attemptsFor, attemptsOf_sent_iff.mpr fun i _ => hsent _, hall hsent]
      rfl

/-- The receiver of a streamer that has sent nothing before. -/
theorem deliver_received_new (tsIncrement : UInt32) (ssrc : UInt32) (sequence : UInt16)
    (outcome : Nat → Bool) (hn : ∀ nal ∈ nals, Sendable nal) :
    let st := nals.foldl (fun st nal => Hub.deliver tsIncrement nal st)
      (newStreamer ssrc sequence outcome)
    (receiveAll none st.sentPackets).2.Sublist nals ∧
      ((∀ n, outcome n = true) → (receiveAll none st.sentPackets).2 = nals) := by
  intro st
  have hconnected : (newStreamer ssrc sequence outcome).connected = true := rfl
  obtain ⟨as, chain, got, has, hgot, hsub, hall⟩ :=
    deliver_received tsIncrement hconnected hn none
  have hsent : st.sentPackets = sentOf as := by
    rw [Streamer.sentPackets, has]
    rfl
  rw [hsent, hgot]
  exact ⟨hsub, hall⟩

end Received

/-- The Hub over a file, with the streamers that it serves. -/
structure Viewing (σ : Type) where
  file : FileHub σ
  mem : σ → Streamer

namespace Viewing

variable {σ : Type}

def shared (s : Viewing σ) : SharedHub σ := { threads := s.file.threads, mem := s.mem }

inductive Step [DecidableEq σ] (content : Bytes) (fps : Int) :
    Viewing σ → Threads.Label σ → Viewing σ → Prop
  | step {s : Viewing σ} {l : Threads.Label σ} {file : FileHub σ} :
      s.file.Step content fps l file →
      Step content fps s l ⟨file, SharedHub.memAfter s.file.threads l s.mem⟩

/-- The Hub after its constructor, with the streamers as `handle_play` hands them over. -/
def Initial (content : Bytes) (fps : Int) (ssrc : σ → UInt32) (sequence : σ → UInt16)
    (outcome : σ → Nat → Bool) (s : Viewing σ) : Prop :=
  s.file.Initial content fps ∧ s.mem = fun x => newStreamer (ssrc x) (sequence x) (outcome x)

/-- The NALs that were broadcast, one pump thread after the other. -/
def aired (s : Viewing σ) : List Bytes :=
  (List.range s.file.threads.spawned).flatMap s.file.heard

/-- What the receiver of a viewer makes of the packets that went out to it. -/
def received (s : Viewing σ) (x : σ) : List Bytes := (receiveAll none (s.mem x).sentPackets).2

/-- How often the run subscribes a streamer. -/
def subscribes [DecidableEq σ] (x : σ) (ls : List (Threads.Label σ)) : Nat :=
  ls.countP fun
    | .callSubscribe y => y = x
    | _ => false

/-- The control thread is about to put a streamer into the list. -/
def subscribing [DecidableEq σ] (x : σ) : ControlPc σ → Nat
  | .subscribe (.leave _) _ => 0
  | .subscribe _ y => if y = x then 1 else 0
  | _ => 0

end Viewing

theorem flatMap_range_snoc {α : Type} {f : Nat → List α} {n u : Nat} (h : u + 1 = n) (a : α) :
    (List.range n).flatMap (Function.update f u (f u ++ [a])) =
      (List.range n).flatMap f ++ [a] := by
  subst h
  have hbelow : ∀ v ∈ List.range u, Function.update f u (f u ++ [a]) v = f v := by
    intro v hv
    exact Function.update_of_ne (Nat.ne_of_lt (List.mem_range.mp hv)) _ _
  rw [List.range_succ, List.flatMap_append, List.flatMap_append, List.flatMap_congr hbelow]
  simp

namespace Threads

variable {σ : Type} [DecidableEq σ] {s t : Threads σ} {l : Label σ}

/-- The live pump is the last one that was started. -/
theorem latest_step (h : Step s l t) (hs : Sound s)
    (hl : ∀ u, (s.pump u).live = true → u + 1 = s.spawned) :
    ∀ u, (t.pump u).live = true → u + 1 = t.spawned := by
  have hidle := hs.handles.idle
  cases h <;> first | exact hl | grind -ring -linarith [PumpPc.live, ControlPc.starting]

/-- A streamer is put into the list once for each `subscribe`. -/
theorem subscribing_count (h : Step s l t) (x : σ) :
    subscriptions x (SharedHub.point s l) + Viewing.subscribing x t.control ≤
      Viewing.subscribing x s.control + Viewing.subscribes x [l] := by
  cases h <;> simp [SharedHub.point, Viewing.subscribing, Viewing.subscribes, subscriptions, *]

end Threads

theorem subscriptions_append {σ : Type} [DecidableEq σ] (x : σ) (ops ops' : List (HubOp σ)) :
    subscriptions x (ops ++ ops') = subscriptions x ops + subscriptions x ops' := by
  induction ops with
  | nil => simp [subscriptions]
  | cons op ops ih => cases op <;> simp [subscriptions, ih, Nat.add_assoc]

theorem FileHub.heard_step {σ : Type} [DecidableEq σ] {content : Bytes} {fps : Int}
    {s t : FileHub σ} {l : Threads.Label σ} (h : Step content fps s l t) :
    (∃ u nal, s.threads.pump u = .wantLock nal ∧
      t.heard = Function.update s.heard u (s.heard u ++ [nal]) ∧
      t.threads.spawned = s.threads.spawned ∧
      airedIn (SharedHub.point s.threads l) = [nal]) ∨
    t.heard = s.heard ∧ airedIn (SharedHub.point s.threads l) = [] := by
  cases h with
  | @lock u nal hp hmutex =>
    exact .inl ⟨u, nal, hp, rfl, rfl, by simp [SharedHub.point, hp, airedIn]⟩
  | @other l threads hstep hquiet =>
    refine .inr ⟨rfl, ?_⟩
    cases l with
    | pump u =>
      cases hp : s.threads.pump u with
      | wantLock nal =>
        exact absurd (.inr (.inr (.inl ⟨nal, hp⟩))) hquiet
      | _ => simp [SharedHub.point, hp, airedIn]
    | control =>
      simp only [SharedHub.point]
      split <;> rfl
    | _ => rfl
  | _ => exact .inr ⟨rfl, by simp [SharedHub.point, airedIn, *]⟩

namespace Viewing

variable {σ : Type} [DecidableEq σ] {content : Bytes} {fps : Int} {s t : Viewing σ}
  {l : Threads.Label σ} {ls : List (Threads.Label σ)}

/-- Invariants of the Hub, of the file and of the streamers. -/
structure Sound (content : Bytes) (fps : Int) (s : Viewing σ) : Prop where
  shared : s.shared.Sound
  feeding : s.file.Feeding content fps
  latest : ∀ u, (s.file.threads.pump u).live = true → u + 1 = s.file.threads.spawned
  connected : ∀ x, (s.mem x).connected = true
  passes : ∀ u, ∃ k, s.file.heard u <+: (List.replicate k (nals (segments content))).flatten

/-- What has been broadcast, as sections under the mutex after a run with these labels. -/
structure Tracked (x : σ) (r : HubRun σ) (ls : List (Threads.Label σ)) (ops : List (HubOp σ))
    (s : Viewing σ) : Prop where
  ahead : SharedHub.Ahead (r.run ops) s.shared
  aired : airedIn ops = s.aired
  counted : subscriptions x ops + subscribing x s.file.threads.control ≤ subscribes x ls

theorem Step.shared (h : Step content fps s l t) :
    s.shared.Step (SharedHub.events s.file.threads l t.file.threads) t.shared := by
  obtain ⟨h⟩ := h
  exact .threads h.threads fun _ => rfl

theorem memAfter_connected {threads : Threads σ} {mem : σ → Streamer}
    (h : ∀ x, (mem x).connected = true) (x : σ) :
    (SharedHub.memAfter threads l mem x).connected = true := by
  cases l with
  | send u y =>
    simp only [SharedHub.memAfter]
    cases threads.pump u with
    | sending nal todo =>
      by_cases hx : x = y
      · subst hx
        simpa using deliver_connected (h x)
      · simpa [hx] using h x
    | _ => exact h x
  | _ => exact h x

theorem sound_step (h : Step content fps s l t) (hs : s.Sound content fps) :
    t.Sound content fps := by
  have hshared := SharedHub.sound_step h.shared hs.shared
  obtain ⟨h⟩ := h
  refine ⟨hshared, FileHub.feeding_step h hs.shared.threads hs.feeding,
    Threads.latest_step h.threads hs.shared.threads hs.latest, memAfter_connected hs.connected, ?_⟩
  rcases FileHub.heard_step h with ⟨u, nal, hp, hheard, -, -⟩ | ⟨hheard, -⟩
  · intro v
    by_cases hv : v = u
    · subst hv
      obtain ⟨r, left, -, -, -, hpasses⟩ := hs.feeding.pass hp rfl
      refine ⟨s.file.source.rewound + 1, (s.file.call v).1 ++ nals left, ?_⟩
      rw [hheard, Function.update_self, ← hpasses]
      simp [PumpPc.waiting]
    · rw [hheard, Function.update_of_ne hv]
      exact hs.passes v
  · rw [hheard]
    exact hs.passes

theorem tracked_step {x : σ} {r : HubRun σ} {ops : List (HubOp σ)}
    (h : Step content fps s l t) (hs : s.Sound content fps) (ht : Tracked x r ls ops s) :
    Tracked x r (ls ++ [l]) (ops ++ SharedHub.point s.file.threads l) t := by
  obtain ⟨h⟩ := h
  refine ⟨?_, ?_, ?_⟩
  · rw [HubRun.run, List.foldl_append]
    exact SharedHub.ahead_step h.threads hs.shared ht.ahead
  · have happend : airedIn (ops ++ SharedHub.point s.file.threads l) =
        airedIn ops ++ airedIn (SharedHub.point s.file.threads l) := List.filterMap_append
    rw [happend, ht.aired]
    rcases FileHub.heard_step h with ⟨u, nal, hp, hheard, hspawned, hpoint⟩ | ⟨hheard, hpoint⟩
    · have hlast := hs.latest u (by simp [hp, PumpPc.live])
      rw [hpoint, aired, aired, hheard, hspawned]
      exact (flatMap_range_snoc hlast nal).symm
    · rw [hpoint, List.append_nil, aired, aired, hheard]
      rcases Threads.spawned_step h.threads with hspawned | hspawned
      · rw [hspawned]
      · have hnone := (hs.feeding.idle _
          (hs.shared.threads.handles.absent _ (Nat.le_refl s.file.threads.spawned))).1
        rw [hspawned, List.range_succ, List.flatMap_append, List.flatMap_singleton, hnone,
          List.append_nil]
  · have hcount := Threads.subscribing_count h.threads x
    have hold := ht.counted
    have hls : subscribes x (ls ++ [l]) = subscribes x ls + subscribes x [l] := List.countP_append
    rw [subscriptions_append, hls]
    dsimp only at hcount ⊢
    omega

/-- The sections of a whole run. -/
theorem tracked_run {x : σ} {r : HubRun σ} (hr : Run (Step content fps) s ls t)
    (hs : s.Sound content fps) (ht : Tracked x r [] [] s) :
    t.Sound content fps ∧ ∃ ops, Tracked x r ls ops t := by
  refine hr.history (p := fun ls t => t.Sound content fps ∧ ∃ ops, Tracked x r ls ops t) ?_
    ⟨hs, [], ht⟩
  rintro past u l v ⟨hu, ops, hops⟩ hstep
  exact ⟨sound_step hstep hu, _, tracked_step hstep hu hops⟩

section Initial
variable {ssrc : σ → UInt32} {sequence : σ → UInt16} {outcome : σ → Nat → Bool}

omit [DecidableEq σ] in
theorem sound_initial (h : s.Initial content fps ssrc sequence outcome) :
    s.Sound content fps := by
  obtain ⟨hfile, hmem⟩ := h
  have hthreads := hfile.threads
  have hfeeding := FileHub.feeding_initial hfile
  have hpump : ∀ u, s.file.threads.pump u = .absent := by
    intro u
    rw [hthreads.2]
  refine ⟨⟨Threads.sound_initial hthreads, by simp [shared], by simp [shared, hpump]⟩, hfeeding,
    by simp [hpump, PumpPc.live], by simp [hmem, newStreamer, Streamer.connect], ?_⟩
  intro u
  exact ⟨0, by simp [(hfeeding.idle u (hpump u)).1]⟩

theorem tracked_initial (h : s.Initial content fps ssrc sequence outcome) (x : σ) :
    Tracked x ⟨s.file.threads.hub, s.mem⟩ [] [] s := by
  have hthreads := h.1.threads
  have hpump : ∀ u, s.file.threads.pump u = .absent := by
    intro u
    rw [hthreads.2]
  have hspawned : s.file.threads.spawned = 0 := by
    rw [hthreads.2]
  have hcontrol : s.file.threads.control = .idle := by
    rw [hthreads.2]
  refine ⟨⟨rfl, fun _ => rfl, by simp [shared, hpump]⟩, by simp [airedIn, aired, hspawned], ?_⟩
  simp [subscriptions, subscribing, hcontrol]

end Initial

/-- A viewer has sent what the sections so far give it, up to the broadcast in progress. -/
theorem attempts_ahead {r : HubRun σ} (ha : SharedHub.Ahead r s.shared)
    (hc : ∀ x, (s.mem x).connected = true) (x : σ) :
    (s.mem x).socket.attempts <+: (r.mem x).socket.attempts := by
  by_cases hsends : ∀ u, (s.file.threads.pump u).sends = false
  · rw [ha.settled hsends]
    exact List.prefix_rfl
  · push Not at hsends
    obtain ⟨u, hu⟩ := hsends
    cases hp : s.file.threads.pump u with
    | sending nal todo =>
      rw [ha.sending u nal todo hp, Hub.broadcast_apply]
      exact attempts_iterate (hc x) _
    | _ => simp [hp, PumpPc.sends] at hu

theorem received_of_prefix {st st' : Streamer}
    (h : st.socket.attempts <+: st'.socket.attempts) :
    (receiveAll none st.sentPackets).2 <+: (receiveAll none st'.sentPackets).2 := by
  obtain ⟨as, has⟩ := h
  have hsent : st'.sentPackets = st.sentPackets ++ sentOf as := by
    rw [Streamer.sentPackets, ← has]
    exact sentOf_append _ _
  rw [hsent, receiveAll_append]
  exact List.prefix_append _ _

omit [DecidableEq σ] in
theorem Sound.mem_aired (hs : s.Sound content fps) {nal : Bytes} (h : nal ∈ s.aired) :
    nal ∈ nals (segments content) := by
  obtain ⟨u, -, hu⟩ := List.mem_flatMap.mp h
  obtain ⟨k, hk⟩ := hs.passes u
  obtain ⟨pass, hpass, hin⟩ := List.mem_flatten.mp (hk.mem hu)
  rw [List.eq_of_mem_replicate hpass] at hin
  exact hin

/-- What a viewer sees of a file whose NALs have types 1 to 23. What each pump thread broadcasts is
the file from its beginning, played over and over; the viewer reassembles NALs of these broadcasts
only, each at most once and in their order. Where no send fails it is one piece of them without a
gap, and up to the last one while the viewer is subscribed. -/
theorem viewer_receives {ssrc : σ → UInt32} {sequence : σ → UInt16} {outcome : σ → Nat → Bool}
    (h₀ : s.Initial content fps ssrc sequence outcome) (hr : Run (Step content fps) s ls t)
    (hn : ∀ nal ∈ nals (segments content), Sendable nal) {x : σ} (hx : subscribes x ls ≤ 1) :
    (∀ u, ∃ k, t.file.heard u <+: (List.replicate k (nals (segments content))).flatten) ∧
    (t.received x).Sublist t.aired ∧
    ((∀ n, outcome x n = true) → t.received x <:+: t.aired ∧
      (x ∈ t.file.threads.hub.subscribers →
        (∀ u nal todo, t.file.threads.pump u = .sending nal todo → x ∉ todo) →
        t.received x <:+ t.aired)) := by
  obtain ⟨ht, ops, htracked⟩ := tracked_run hr (sound_initial h₀) (tracked_initial h₀ x)
  have honce : subscriptions x ops ≤ 1 := by
    have hcounted := htracked.counted
    omega
  have hnals : ∀ nal ∈ airedIn ops, Sendable nal := by
    intro nal hnal
    rw [htracked.aired] at hnal
    exact hn nal (ht.mem_aired hnal)
  obtain ⟨hpiece, hsuffix⟩ := window_piece honce fun nal hnal => (hnals nal hnal).1
  rw [htracked.aired] at hpiece hsuffix
  -- the streamer that has run through the whole window, and the real one behind it
  have hnone : Active x false (⟨s.file.threads.hub, s.mem⟩ : HubRun σ) := by
    simp [Active, h₀.1.threads.1]
  have hwindow : ∀ nal ∈ window x false ops, Sendable nal := by
    intro nal hnal
    exact hn nal (ht.mem_aired (hpiece.mem hnal))
  obtain ⟨hsub, hall⟩ := deliver_received_new s.file.threads.hub.tsIncrement (ssrc x) (sequence x)
    (outcome x) hwindow
  have hrun := run_mem hnone honce
  dsimp only at hrun
  rw [congrFun h₀.2 x] at hrun
  rw [← hrun] at hsub hall
  have hstart := received_of_prefix (attempts_ahead htracked.ahead ht.connected x)
  refine ⟨ht.passes, (hstart.sublist.trans hsub).trans hpiece.sublist, ?_⟩
  intro hsent
  rw [hall hsent] at hstart
  refine ⟨hstart.isInfix.trans hpiece, ?_⟩
  intro hmem hserved
  have hactive : activeAfter x false ops = true := by
    have hcount := run_active hnone honce
    rw [Active, htracked.ahead.hub] at hcount
    by_contra hoff
    rw [if_neg hoff] at hcount
    exact List.count_eq_zero.mp hcount hmem
  have hsame : (HubRun.run ⟨s.file.threads.hub, s.mem⟩ ops).mem x = t.mem x :=
    htracked.ahead.served hserved
  rw [received, ← hsame, hall hsent]
  exact hsuffix hactive

/-- A viewer of a file with an SPS and a key frame, after the first broadcast. -/
theorem viewer_receives_first : ∃ (s t : Viewing Unit) (ls : List (Threads.Label Unit)),
    Run (Step [0, 0, 1, 103, 66, 0, 0, 1, 101, 136] 30) s ls t ∧ t.aired = [[103, 66]] ∧
      t.received () = [[103, 66]] ∧ t.received () <:+ t.aired := by
  let content : Bytes := [0, 0, 1, 103, 66, 0, 0, 1, 101, 136]
  let recording : Recording := ⟨content, fun _ => [content], fun _ => rfl⟩
  let s : Viewing Unit :=
    { file := { threads := { hub := Hub.create 30 }, source := .create 30 true, scanned := [] }
      mem := fun _ => newStreamer 7 1 fun _ => true }
  have h₀ : s.Initial content 30 (fun _ => 7) (fun _ => 1) fun _ _ => true :=
    ⟨⟨none, .create 30 true, by simp, rfl⟩, rfl⟩
  have r : Run (Step content 30) s [] s := .refl
  have r := r.snoc (.step (.other (.callSubscribe () rfl) (by simp [Threads.Label.handlesSource])))
  have r := r.snoc (.step (.other (.subscribeLock rfl rfl)
    (by simp [Threads.Label.handlesSource])))
  have r := r.snoc (.step (.other (.subscribeStopped rfl rfl)
    (by simp [Threads.Label.handlesSource])))
  have r := r.snoc (.step (.other (.subscribeNoJoin rfl rfl)
    (by simp [Threads.Label.handlesSource])))
  have r := r.snoc (.step (.make rfl))
  have r := r.snoc (.step (.start recording 0 rfl rfl rfl))
  have r := r.snoc (.step (.other (.subscribeRun rfl) (by simp [Threads.Label.handlesSource])))
  have r := r.snoc (.step (.other (.subscribeSpawn rfl) (by simp [Threads.Label.handlesSource])))
  have r := r.snoc (.step (.other (.subscribePush rfl) (by simp [Threads.Label.handlesSource])))
  have r := r.snoc (.step (.other (.subscribeLeave rfl) (by simp [Threads.Label.handlesSource])))
  have r := r.snoc (.step (@FileHub.Step.call Unit _ content 30 _ 0 rfl rfl))
  have r := r.snoc (.step (@FileHub.Step.callback Unit _ content 30 _ 0 [103, 66] [] true rfl
    (by decide +kernel) (by decide)))
  have r := r.snoc (.step (@FileHub.Step.lock Unit _ content 30 _ 0 [103, 66] rfl rfl))
  have r := r.snoc (.step (.other (.pumpSend (t := 0) rfl)
    (by simp [Threads.Label.handlesSource])))
  have r := r.snoc (.step (.other (.pumpUnlock (t := 0) rfl)
    (by simp [Threads.Label.handlesSource])))
  have hreceived := (viewer_receives h₀ r (by decide +kernel) (x := ()) (by decide)).2.2
    (fun _ => rfl)
  refine ⟨s, _, _, r, ?_, ?_, hreceived.2 ?_ ?_⟩
  · decide +kernel
  · decide +kernel
  · exact List.mem_singleton.mpr rfl
  · intro u nal todo hu
    by_cases hu0 : u = 0
    · subst hu0
      cases hu
    · simp [hu0, s] at hu

end Viewing
end Veda.Media
