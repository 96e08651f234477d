import Mathlib.Logic.Function.Basic
import Veda.Rtp.Streamer
import Veda.Util.Base64

/-!
The media hub, with each section that holds `mu_` as one function. `σ` stands for the
`Streamer` objects, whose states live in a memory of their own.
-/
namespace Veda.Media

open Rtp

variable {σ : Type}

def kNalSlice : UInt8 := 1
def kNalIdr : UInt8 := 5
def kNalSps : UInt8 := 7
def kNalPps : UInt8 := 8

def nalTypeOf (nal : Bytes) : UInt8 := nal.headD 0 &&& 0x1F

/-- A NAL after which `on_nal` advances the clock. -/
def isVcl (nal : Bytes) : Bool := nalTypeOf nal == kNalSlice || nalTypeOf nal == kNalIdr

structure Hub (σ : Type) where
  tsIncrement : UInt32
  subscribers : List σ := []
  sps : Bytes := []
  pps : Bytes := []

/-- `static_cast<uint32_t>(90000 / (fps > 0 ? fps : 30))` -/
def tsIncrementOf (fps : Int) : UInt32 :=
  UInt32.ofNat (90000 / if fps > 0 then fps else 30).toNat

namespace Hub

def create (fps : Int) : Hub σ := { tsIncrement := tsIncrementOf fps }

/-- The end of `subscribe`. `sourceUp` says that the source was running already or could be
started. -/
def subscribe (hub : Hub σ) (sourceUp : Bool) (s : σ) : Bool × Hub σ :=
  if sourceUp then (true, { hub with subscribers := hub.subscribers ++ [s] }) else (false, hub)

/-- The part of `unsubscribe` that changes the list: erase what `std::remove` has moved. -/
def unsubscribe [DecidableEq σ] (hub : Hub σ) (s : σ) : Hub σ :=
  { hub with subscribers := hub.subscribers.filter (· ≠ s) }

def cacheParameterSets (hub : Hub σ) (nal : Bytes) : Hub σ :=
  if nalTypeOf nal = kNalSps ∧ hub.sps = [] then { hub with sps := nal }
  else if nalTypeOf nal = kNalPps ∧ hub.pps = [] then { hub with pps := nal }
  else hub

/-- What one round of the loop in `on_nal` does to its streamer. -/
def deliver (tsIncrement : UInt32) (nal : Bytes) (st : Streamer) : Streamer :=
  let st := (st.sendNal nal).2
  if isVcl nal then st.advanceTimestamp tsIncrement else st

/-- The loop of `on_nal` over the subscribers. -/
def broadcast [DecidableEq σ] (tsIncrement : UInt32) (nal : Bytes) :
    List σ → (σ → Streamer) → (σ → Streamer)
  | [], mem => mem
  | s :: ss, mem =>
    broadcast tsIncrement nal ss (Function.update mem s (deliver tsIncrement nal (mem s)))

def onNal [DecidableEq σ] (hub : Hub σ) (mem : σ → Streamer) (nal : Bytes) :
    Hub σ × (σ → Streamer) :=
  if nal = [] then (hub, mem)
  else
    let hub := hub.cacheParameterSets nal
    (hub, broadcast hub.tsIncrement nal hub.subscribers mem)

def spropParameterSets (hub : Hub σ) : Bytes :=
  if hub.sps = [] ∨ hub.pps = [] then []
  else Util.base64Encode hub.sps ++ ascii "," ++ Util.base64Encode hub.pps

@[simp] theorem cacheParameterSets_subscribers (hub : Hub σ) (nal : Bytes) :
    (hub.cacheParameterSets nal).subscribers = hub.subscribers := by
  unfold cacheParameterSets
  split <;> [rfl; split <;> rfl]

@[simp] theorem cacheParameterSets_tsIncrement (hub : Hub σ) (nal : Bytes) :
    (hub.cacheParameterSets nal).tsIncrement = hub.tsIncrement := by
  unfold cacheParameterSets
  split <;> [rfl; split <;> rfl]

/-- A broadcast runs a streamer once for each time it stands in the list. -/
theorem broadcast_apply [DecidableEq σ] (tsIncrement : UInt32) (nal : Bytes)
    (ss : List σ) (mem : σ → Streamer) (s : σ) : broadcast tsIncrement nal ss mem s =
      (deliver tsIncrement nal)^[ss.count s] (mem s) := by
  induction ss generalizing mem with
  | nil => rfl
  | cons x ss ih =>
    rw [broadcast, ih]
    by_cases hx : x = s
    · subst hx
      rw [Function.update_self, List.count_cons_self, Function.iterate_succ_apply]
    · rw [Function.update_of_ne (Ne.symm hx), List.count_cons_of_ne hx]

end Hub
end Veda.Media
