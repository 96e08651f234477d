import Veda.Media.Hub
import Veda.Rtp.Delivery

/-!
Runs of the Hub as its clients and the pump take turns, and what one subscriber sends in
such a run: a function of its own data and of what is broadcast while it is subscribed.
-/
namespace Veda.Media

open Rtp

variable {σ : Type} [DecidableEq σ]

/-- One section under `mu_`. -/
inductive HubOp (σ : Type)
  | subscribe (s : σ) (sourceUp : Bool)
  | unsubscribe (s : σ)
  | onNal (nal : Bytes)

/-- The Hub and the streamers. -/
structure HubRun (σ : Type) where
  hub : Hub σ
  mem : σ → Streamer

namespace HubRun

def step (r : HubRun σ) : HubOp σ → HubRun σ
  | .subscribe s sourceUp => { r with hub := (r.hub.subscribe sourceUp s).2 }
  | .unsubscribe s => { r with hub := r.hub.unsubscribe s }
  | .onNal nal => ⟨(r.hub.onNal r.mem nal).1, (r.hub.onNal r.mem nal).2⟩

def run (r : HubRun σ) (ops : List (HubOp σ)) : HubRun σ := ops.foldl step r

end HubRun

/-- Times that `s` is put into the list. -/
def subscriptions (s : σ) : List (HubOp σ) → Nat
  | [] => 0
  | .subscribe x sourceUp :: ops =>
    (if x = s ∧ sourceUp then 1 else 0) + subscriptions s ops
  | .unsubscribe _ :: ops => subscriptions s ops
  | .onNal _ :: ops => subscriptions s ops

/-- The non-empty NALs broadcast between the subscription of `s` and its end; `active` says
whether the subscription has begun. -/
def window (s : σ) : Bool → List (HubOp σ) → List Bytes
  | _, [] => []
  | active, .subscribe x sourceUp :: ops => window s (active || (x = s && sourceUp)) ops
  | active, .unsubscribe x :: ops => window s (active && x ≠ s) ops
  | active, .onNal nal :: ops =>
    if active && nal ≠ [] then nal :: window s active ops else window s active ops

/-- The fragments of one NAL that are tried when `n` sends have been made before: all of
them, or up to and including the first that fails. -/
def tried (outcome : Nat → Bool) : Nat → List Bytes → List Bytes
  | _, [] => []
  | n, f :: fs => if outcome n then f :: tried outcome (n + 1) fs else [f]

/-- Packets of a subscriber for the NALs of its window, after `n` attempts and `vcl` NALs of
type 1 or 5: consecutive sequence numbers per attempt, one timestamp per NAL. -/
def expectedPackets (ssrc : UInt32) (sequence : UInt16) (inc : Nat) (outcome : Nat → Bool) :
    Nat → Nat → List Bytes → List Bytes
  | _, _, [] => []
  | n, vcl, nal :: nals =>
    let frags := fragmentNalDefault nal
    let sent := tried outcome n frags
    (sent.mapIdx fun j f => buildPacket
      { payloadType := 96
        sequence := sequence + UInt16.ofNat (n + j)
        timestamp := UInt32.ofNat (inc * vcl)
        ssrc
        marker := j + 1 == frags.length } f) ++
    expectedPackets ssrc sequence inc outcome (n + sent.length)
      (vcl + if isVcl nal then 1 else 0) nals

/-- A streamer as `handle_play` hands it to the Hub: newly constructed and connected. -/
def newStreamer (ssrc : UInt32) (sequence : UInt16) (outcome : Nat → Bool) : Streamer :=
  ((Streamer.create ssrc sequence outcome).connect true).2

section Window
variable {r : HubRun σ} {s : σ} {ops : List (HubOp σ)} {active : Bool}

/-- The list holds `s` once if its subscription is active, and not otherwise. -/
def Active (s : σ) (active : Bool) (r : HubRun σ) : Prop :=
  r.hub.subscribers.count s = if active then 1 else 0

theorem step_tsIncrement (op : HubOp σ) :
    (r.step op).hub.tsIncrement = r.hub.tsIncrement := by
  cases op with
  | subscribe x up => simp only [HubRun.step, Hub.subscribe]; split <;> rfl
  | unsubscribe x => rfl
  | onNal nal => simp only [HubRun.step, Hub.onNal]; split <;> simp

theorem active_subscribe {x : σ} {up : Bool} (ha : Active s active r)
    (hs : active = true → ¬ (x = s ∧ up = true)) :
    Active s (active || (x = s && up)) (r.step (.subscribe x up)) := by
  simp only [Active, HubRun.step, Hub.subscribe] at ha ⊢
  cases up with
  | false => simpa using ha
  | true =>
    by_cases hx : x = s
    · cases active <;> simp_all
    · simp [hx, ha]

theorem active_unsubscribe {x : σ} (ha : Active s active r) :
    Active s (active && x ≠ s) (r.step (.unsubscribe x)) := by
  simp only [Active, HubRun.step, Hub.unsubscribe] at ha ⊢
  by_cases hx : x = s
  · subst hx
    simp [List.count_eq_zero]
  · rw [List.count_filter (by simpa using Ne.symm hx)]
    simpa [hx] using ha

theorem active_onNal {nal : Bytes} (ha : Active s active r) :
    Active s active (r.step (.onNal nal)) := by
  simp only [Active, HubRun.step, Hub.onNal] at ha ⊢
  split <;> simpa using ha

/-- What a broadcast does to `s`. -/
theorem mem_onNal {nal : Bytes} (ha : Active s active r) : (r.step (.onNal nal)).mem s =
    if active && nal ≠ [] then Hub.deliver r.hub.tsIncrement nal (r.mem s) else r.mem s := by
  simp only [Active, HubRun.step, Hub.onNal] at ha ⊢
  by_cases hn : nal = []
  · simp [hn]
  · cases active <;> simp_all [Hub.broadcast_apply]

/-- In a run a subscriber is given exactly the NALs of its window, in order. -/
theorem run_mem (ha : Active s active r)
    (hs : subscriptions s ops ≤ if active then 0 else 1) : (r.run ops).mem s =
      (window s active ops).foldl (fun st nal => Hub.deliver r.hub.tsIncrement nal st)
        (r.mem s) := by
  induction ops generalizing r active with
  | nil => rfl
  | cons op ops ih =>
    have hinc := step_tsIncrement op (r := r)
    cases op with
    | subscribe x up =>
      simp only [subscriptions] at hs
      have hnew : active = true → ¬ (x = s ∧ up = true) := by
        rintro rfl ⟨rfl, rfl⟩
        simp at hs
      have hrest : subscriptions s ops ≤ if active || (x = s && up) then 0 else 1 := by
        by_cases hx : x = s ∧ up = true
        · simp [hx] at hs ⊢
          split at hs <;> omega
        · have : (decide (x = s) && up) = false := by simpa using hx
          simp only [if_neg hx] at hs
          simpa [this] using hs
      exact (ih (active_subscribe ha hnew) hrest).trans (by rw [hinc]; rfl)
    | unsubscribe x =>
      simp only [subscriptions] at hs
      have hrest : subscriptions s ops ≤ if active && x ≠ s then 0 else 1 := by
        cases active with
        | false => simpa using hs
        | true => exact le_trans hs (Nat.zero_le _)
      exact (ih (active_unsubscribe ha) hrest).trans (by rw [hinc]; rfl)
    | onNal nal =>
      have hact : Active s active (r.step (.onNal nal)) := active_onNal ha
      have hrun := ih hact hs
      rw [mem_onNal ha, hinc] at hrun
      apply hrun.trans
      rw [window]
      split <;> rfl

end Window

section Packets
variable {hdr : Header} {outcome : Nat → Bool} {n : Nat} {frags : List Bytes}

/-- The attempts for one NAL in closed form. -/
theorem attemptsOf_packets : (attemptsOf hdr outcome n frags).map (·.packet) =
    (tried outcome n frags).mapIdx fun j f =>
      buildPacket { hdr with
        sequence := hdr.sequence + UInt16.ofNat j
        marker := j + 1 == frags.length } f := by
  induction frags generalizing hdr n with
  | nil => rfl
  | cons f fs ih =>
    have hmarker : (0 + 1 == (f :: fs).length) = fs.isEmpty := by cases fs <;> rfl
    rw [attemptsOf, tried]
    split
    · simp only [List.map_cons, List.mapIdx_cons, ih, hmarker]
      congr 1
      · simp
      · congr 1
        funext j g
        have hseq : hdr.sequence + 1 + UInt16.ofNat j = hdr.sequence + UInt16.ofNat (j + 1) := by
          rw [UInt16.add_assoc, UInt16.add_comm 1, UInt16.ofNat_add]
          rfl
        simp [hseq]
    · simp only [List.map_cons, List.map_nil, List.mapIdx_cons, List.mapIdx_nil, hmarker]
      simp

theorem attemptsOf_length :
    (attemptsOf hdr outcome n frags).length = (tried outcome n frags).length := by
  rw [← List.length_map (·.packet), attemptsOf_packets, List.length_mapIdx]

/-- A connected streamer whose counters are those after its attempts and `vcl` frames. -/
structure Tracks (st : Streamer) (sequence : UInt16) (inc vcl : Nat) : Prop where
  connected : st.connected = true
  payloadType : st.payloadType = 96
  sequence : st.sequence = sequence + UInt16.ofNat st.socket.attempts.length
  timestamp : st.timestamp = UInt32.ofNat (inc * vcl)

variable {st : Streamer} {sequence : UInt16} {inc vcl : Nat} {nal : Bytes} {nals : List Bytes}

theorem deliver_eq (hc : st.connected = true) (hn : nal ≠ []) {tsIncrement : UInt32} :
    Hub.deliver tsIncrement nal st = { st.after (st.attemptsFor nal) with
      timestamp := if isVcl nal then st.timestamp + tsIncrement else st.timestamp } := by
  simp only [Hub.deliver, sendNal_eq hc hn, Streamer.advanceTimestamp]
  split <;> rfl

theorem deliver_attempts (hc : st.connected = true) (hn : nal ≠ []) {tsIncrement : UInt32} :
    (Hub.deliver tsIncrement nal st).socket.attempts =
      st.socket.attempts ++ st.attemptsFor nal := by
  rw [deliver_eq hc hn]
  rfl

theorem deliver_outcome (hc : st.connected = true) (hn : nal ≠ []) {tsIncrement : UInt32} :
    (Hub.deliver tsIncrement nal st).socket.outcome = st.socket.outcome := by
  rw [deliver_eq hc hn]
  rfl

theorem tracks_deliver (h : Tracks st sequence inc vcl) (hn : nal ≠ []) :
    Tracks (Hub.deliver (UInt32.ofNat inc) nal st) sequence inc
      (vcl + if isVcl nal then 1 else 0) := by
  rw [deliver_eq h.connected hn]
  refine ⟨h.connected, h.payloadType, ?_, ?_⟩
  · simp [Streamer.after, h.sequence, UInt16.add_assoc]
  · cases isVcl nal <;> simp [h.timestamp, Nat.mul_add, UInt32.ofNat_add]

theorem attemptsFor_packets (h : Tracks st sequence inc vcl) :
    (st.attemptsFor nal).map (·.packet) =
      (tried st.socket.outcome st.socket.attempts.length (fragmentNalDefault nal)).mapIdx
        fun j f => buildPacket
          { payloadType := 96
            sequence := sequence + UInt16.ofNat (st.socket.attempts.length + j)
            timestamp := UInt32.ofNat (inc * vcl)
            ssrc := st.ssrc
            marker := j + 1 == (fragmentNalDefault nal).length } f := by
  rw [Streamer.attemptsFor, attemptsOf_packets]
  simp only [Streamer.nextHeader, h.payloadType, h.sequence, h.timestamp, UInt16.add_assoc,
    UInt16.ofNat_add]

/-- What a subscriber has handed to its socket after the NALs of its window. -/
theorem foldl_deliver_packets (h : Tracks st sequence inc vcl) (hn : ∀ nal ∈ nals, nal ≠ []) :
    (nals.foldl (fun st nal => Hub.deliver (UInt32.ofNat inc) nal st) st).socket.attempts.map
        (·.packet) =
      st.socket.attempts.map (·.packet) ++ expectedPackets st.ssrc sequence inc st.socket.outcome
        st.socket.attempts.length vcl nals := by
  induction nals generalizing st vcl with
  | nil => simp [expectedPackets]
  | cons nal nals ih =>
    have hnal : nal ≠ [] := hn nal (by simp)
    have hlen : (st.attemptsFor nal).length =
        (tried st.socket.outcome st.socket.attempts.length (fragmentNalDefault nal)).length :=
      attemptsOf_length
    rw [List.foldl_cons, ih (tracks_deliver h hnal) fun x hx => hn x (by simp [hx]),
      expectedPackets, deliver_eq h.connected hnal]
    simp only [Streamer.after, List.map_append, attemptsFor_packets h, List.length_append, hlen,
      List.append_assoc]

theorem window_ne_nil {σ : Type} [DecidableEq σ] {s : σ} {active : Bool} {ops : List (HubOp σ)} :
    ∀ nal ∈ window s active ops, nal ≠ [] := by
  induction ops generalizing active with
  | nil => simp [window]
  | cons op ops ih =>
    cases op with
    | subscribe x up => exact ih
    | unsubscribe x => exact ih
    | onNal nal =>
      rw [window]
      split
      · rename_i hc
        simp only [Bool.and_eq_true, decide_eq_true_eq] at hc
        intro y hy
        rcases List.mem_cons.mp hy with rfl | hy
        · exact hc.2
        · exact ih y hy
      · exact ih

end Packets

/-- The Hub before its first subscriber; each streamer has its own SSRC, first sequence number
and socket. -/
def HubRun.initial {σ : Type} (fps : Int) (ssrc : σ → UInt32) (sequence : σ → UInt16)
    (outcome : σ → Nat → Bool) : HubRun σ :=
  ⟨Hub.create fps, fun s => newStreamer (ssrc s) (sequence s) (outcome s)⟩

/-- The packets that `s` has handed to its socket. -/
def HubRun.packets {σ : Type} (r : HubRun σ) (s : σ) : List Bytes :=
  (r.mem s).socket.attempts.map (·.packet)

theorem run_packets {σ : Type} [DecidableEq σ] {fps : Int} (hfps : 0 < fps)
    (ssrc : σ → UInt32) (sequence : σ → UInt16) (outcome : σ → Nat → Bool)
    {ops : List (HubOp σ)} {s : σ} (hs : subscriptions s ops ≤ 1) :
    ((HubRun.initial fps ssrc sequence outcome).run ops).packets s =
      expectedPackets (ssrc s) (sequence s) (90000 / fps).toNat (outcome s) 0 0
        (window s false ops) := by
  have hinc : tsIncrementOf fps = UInt32.ofNat (90000 / fps).toNat := by
    simp [tsIncrementOf, hfps]
  have htracks : Tracks (newStreamer (ssrc s) (sequence s) (outcome s)) (sequence s)
      (90000 / fps).toNat 0 := by
    refine ⟨rfl, rfl, ?_, ?_⟩ <;> simp [newStreamer, Streamer.create, Streamer.connect]
  have hact : Active s false (HubRun.initial fps ssrc sequence outcome) := by
    simp [Active, HubRun.initial, Hub.create]
  have hne : ∀ nal ∈ window s false ops, nal ≠ [] := window_ne_nil
  rw [HubRun.packets, run_mem hact hs]
  have h := foldl_deliver_packets htracks hne
  simpa [HubRun.initial, Hub.create, hinc, newStreamer, Streamer.create, Streamer.connect] using h

/-- Fan-out: the packets of a subscriber are the fragments of the NALs of its window with its
own SSRC, clock and sequence numbers, and two runs that agree on its own data give it the same
packets, whatever the other subscribers do. -/
theorem fanOut_packets {σ : Type} [DecidableEq σ] {fps : Int} (hfps : 0 < fps) (s : σ)
    (ssrc : σ → UInt32) (sequence : σ → UInt16) (outcome : σ → Nat → Bool)
    (ops : List (HubOp σ)) (hs : subscriptions s ops ≤ 1) :
    ((HubRun.initial fps ssrc sequence outcome).run ops).packets s =
      expectedPackets (ssrc s) (sequence s) (90000 / fps).toNat (outcome s) 0 0
        (window s false ops) ∧
    ∀ (ssrc' : σ → UInt32) (sequence' : σ → UInt16) (outcome' : σ → Nat → Bool)
      (ops' : List (HubOp σ)), subscriptions s ops' ≤ 1 → ssrc' s = ssrc s →
      sequence' s = sequence s → outcome' s = outcome s →
      window s false ops' = window s false ops →
      ((HubRun.initial fps ssrc' sequence' outcome').run ops').packets s =
        ((HubRun.initial fps ssrc sequence outcome).run ops).packets s := by
  refine ⟨run_packets hfps ssrc sequence outcome hs, ?_⟩
  intro ssrc' sequence' outcome' ops' hs' h₁ h₂ h₃ h₄
  rw [run_packets hfps ssrc' sequence' outcome' hs', run_packets hfps ssrc sequence outcome hs,
    h₁, h₂, h₃, h₄]

/-- Two viewers at 30 fps, one of whom leaves between a key frame and the next frame. -/
theorem fanOut_packets_two_viewers :
    ((HubRun.initial 30 (fun _ => 7) (fun _ => 65535) (fun s _ => s)).run
      [.subscribe true true, .subscribe false true, .onNal [101, 1], .unsubscribe false,
        .onNal [], .onNal [65, 2]]).packets true =
      [ buildPacket { sequence := 65535, timestamp := 0, ssrc := 7, marker := true } [101, 1],
        buildPacket { sequence := 0, timestamp := 3000, ssrc := 7, marker := true } [65, 2] ] :=
  (fanOut_packets (by decide) true (fun _ => 7) (fun _ => 65535) (fun s _ => s)
    [.subscribe true true, .subscribe false true, .onNal [101, 1], .unsubscribe false,
      .onNal [], .onNal [65, 2]] (by decide)).1.trans (by decide +kernel)

end Veda.Media
