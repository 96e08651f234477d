import Veda.Media.HubLifecycle

/-!
Whom a broadcast serves: the streamers still to be served are subscribers, and a streamer whose
`unsubscribe` has passed its erase is none.
-/
namespace Veda.Media.Threads

variable {σ : Type} [DecidableEq σ] {s t : Threads σ} {l : Label σ}

structure Broadcasting (s : Threads σ) : Prop where
  todo : ∀ u nal todo, s.pump u = .sending nal todo → ∀ x ∈ todo, x ∈ s.hub.subscribers
  erased : ∀ pc x, s.control = .unsubscribe pc x → pc ≠ .lock → pc ≠ .erase →
    x ∉ s.hub.subscribers

theorem broadcasting_step (h : Step s l t) (hs : Sound s) (hb : Broadcasting s) :
    Broadcasting t := by
  obtain ⟨howner, hsender⟩ := hs.locking
  obtain ⟨htodo, herased⟩ := hb
  -- while the control thread holds the mutex nobody sends
  have hquiet : s.control.holds = true → ∀ u nal todo, s.pump u ≠ .sending nal todo := by
    intro hc u nal todo hu
    have hm := (hsender u).mpr (by simp [hu, PumpPc.sends])
    simp [howner.mpr hc] at hm
  constructor
  · cases h <;> grind -ring -linarith [ControlPc.holds, Hub.subscribe,
      Hub.cacheParameterSets_subscribers]
  · cases h <;> grind -ring -linarith [Hub.unsubscribe, Hub.cacheParameterSets_subscribers]

/-- The list grows by the streamer of the `subscribe` in progress only. -/
theorem subscribers_step (h : Step s l t) {x : σ} (hx : x ∈ t.hub.subscribers) :
    x ∈ s.hub.subscribers ∨ t.control = .subscribe (.leave true) x := by
  cases h <;> grind -ring -linarith [Hub.subscribe, Hub.unsubscribe,
    Hub.cacheParameterSets_subscribers]

/-- A `subscribe` in progress was called. -/
theorem subscribing_step (h : Step s l t) {pc : SubscribeAt} {x : σ}
    (hc : t.control = .subscribe pc x) :
    (∃ pc', s.control = .subscribe pc' x) ∨ l = .callSubscribe x := by
  cases h <;> simp_all

/-- The end of a `subscribe` is its return. -/
theorem leaving_step (h : Step s l t) {x : σ} {ok : Bool}
    (hc : s.control = .subscribe (.leave ok) x) :
    t.control = .subscribe (.leave ok) x ∨ l = .returnSubscribe (some x) ok := by
  cases h <;> simp_all

omit [DecidableEq σ] in
theorem broadcasting_initial (h : Initial s) : Broadcasting s := by
  rw [h.2]
  constructor <;> simp

end Veda.Media.Threads
