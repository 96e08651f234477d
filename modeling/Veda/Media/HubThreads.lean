import Veda.Media.Hub

/-!
The Hub under its two threads. One step is one access to shared state: the mutex, `running_`,
the thread handle, the source pointer, or the list that the mutex protects. The control thread
calls the Hub, the pump threads run `pump`, and they interleave in any order.
-/
namespace Veda.Media

variable {σ : Type}

/-- Who holds `mu_`. -/
inductive Owner
  | control
  | pump (t : Nat)
  deriving DecidableEq

/-- What `source_` points to. -/
inductive SourceState
  | made | started | stopped
  deriving DecidableEq

/-- Where a pump thread is. `eof` records that its last `read_nal` returned `false`. -/
inductive PumpPc (σ : Type)
  | absent
  /-- Before `while (running_)`. -/
  | test
  /-- Inside `source_->read_nal`, which may call back. -/
  | reading
  /-- In `on_nal`, before the lock. -/
  | wantLock (nal : Bytes)
  /-- In the loop of `on_nal`, with `mu_`, before the streamers still to be served. -/
  | sending (nal : Bytes) (todo : List σ)
  /-- `read_nal` has returned `false`. -/
  | ended
  /-- Out of the loop, before `source_->stop()`. -/
  | left (eof : Bool)
  /-- Before the last `running_ = false`. -/
  | stopped (eof : Bool)
  | done (eof : Bool)

namespace PumpPc

/-- The thread has started and has not ended. -/
def live : PumpPc σ → Bool
  | absent => false
  | done _ => false
  | _ => true

def finished : PumpPc σ → Bool
  | done _ => true
  | _ => false

def sends : PumpPc σ → Bool
  | sending _ _ => true
  | _ => false

/-- The thread will still use `source_`. -/
def usesSource : PumpPc σ → Bool
  | absent => false
  | stopped _ => false
  | done _ => false
  | _ => true

/-- The thread may still take `mu_`. -/
def needsLock : PumpPc σ → Bool
  | test => true
  | reading => true
  | wantLock _ => true
  | sending _ _ => true
  | _ => false

/-- Since the thread started, `read_nal` has returned `false`. -/
def sawEof : PumpPc σ → Bool
  | ended => true
  | left eof => eof
  | stopped eof => eof
  | done eof => eof
  | _ => false

/-- The loop was left because of `running_`. -/
def quits : PumpPc σ → Bool
  | left eof => !eof
  | stopped eof => !eof
  | _ => false

end PumpPc

/-- Where the control thread is in `subscribe`. -/
inductive SubscribeAt
  | lock
  /-- `if (!running_)` -/
  | test
  | join
  /-- `source_ = make_source()` -/
  | make
  | start
  /-- `source_.reset()` after a failed start. -/
  | reset
  /-- `running_ = true` -/
  | run
  | spawn
  | push
  | leave (ok : Bool)
  deriving DecidableEq

/-- Where the control thread is in `unsubscribe`. -/
inductive UnsubscribeAt
  | lock
  | erase
  /-- `if (subscribers_.empty() && running_)` -/
  | test
  /-- `running_ = false` -/
  | stop
  /-- `to_join = std::move(pump_thread_)` -/
  | move
  | unlock
  | join
  deriving DecidableEq

inductive ControlPc (σ : Type)
  | idle
  | subscribe (pc : SubscribeAt) (s : σ)
  | unsubscribe (pc : UnsubscribeAt) (s : σ)
  /-- `~Hub`: before `running_ = false`, before the join, and before the members go. -/
  | destroyStop
  | destroyJoin
  | destroyMembers
  | dead

namespace ControlPc

/-- The control thread holds `mu_`. -/
def holds : ControlPc σ → Bool
  | subscribe .lock _ => false
  | subscribe _ _ => true
  | unsubscribe .lock _ => false
  | unsubscribe .join _ => false
  | unsubscribe _ _ => true
  | _ => false

/-- In `subscribe`, after the old pump thread is joined and before the new one is started. -/
def starting : ControlPc σ → Bool
  | subscribe .make _ => true
  | subscribe .start _ => true
  | subscribe .reset _ => true
  | subscribe .run _ => true
  | subscribe .spawn _ => true
  | _ => false

/-- The next step assigns or destroys `source_`. -/
def setsSource : ControlPc σ → Bool
  | subscribe .make _ => true
  | subscribe .reset _ => true
  | destroyMembers => true
  | _ => false

end ControlPc

structure Threads (σ : Type) where
  hub : Hub σ
  mutex : Option Owner := none
  running : Bool := false
  /-- The thread that `pump_thread_` holds; `none` where it is not joinable. -/
  pumpThread : Option Nat := none
  /-- The local variable `to_join` of `unsubscribe`. -/
  toJoin : Option Nat := none
  source : Option SourceState := none
  control : ControlPc σ := .idle
  pump : Nat → PumpPc σ := fun _ => .absent
  spawned : Nat := 0

namespace Threads

/-- What a step does to the rest of the program. -/
inductive Label (σ : Type)
  | callSubscribe (s : σ)
  | returnSubscribe (s : Option σ) (ok : Bool)
  | callUnsubscribe (s : σ)
  | returnUnsubscribe (s : σ)
  | callDestroy
  /-- A step inside a call. -/
  | control
  | pump (t : Nat)
  /-- The pump thread runs `send_nal` on a streamer. -/
  | send (t : Nat) (s : σ)

def setPump (s : Threads σ) (t : Nat) (pc : PumpPc σ) : Threads σ :=
  { s with pump := Function.update s.pump t pc }

section SetPump
variable (s : Threads σ) (t : Nat) (pc : PumpPc σ)

@[simp, grind =] theorem setPump_pump (u : Nat) :
    (s.setPump t pc).pump u = if u = t then pc else s.pump u :=
  Function.update_apply ..
@[simp, grind =] theorem setPump_hub : (s.setPump t pc).hub = s.hub := rfl
@[simp, grind =] theorem setPump_mutex : (s.setPump t pc).mutex = s.mutex := rfl
@[simp, grind =] theorem setPump_running : (s.setPump t pc).running = s.running := rfl
@[simp, grind =] theorem setPump_pumpThread :
    (s.setPump t pc).pumpThread = s.pumpThread := rfl
@[simp, grind =] theorem setPump_toJoin : (s.setPump t pc).toJoin = s.toJoin := rfl
@[simp, grind =] theorem setPump_source : (s.setPump t pc).source = s.source := rfl
@[simp, grind =] theorem setPump_control : (s.setPump t pc).control = s.control := rfl
@[simp, grind =] theorem setPump_spawned : (s.setPump t pc).spawned = s.spawned := rfl

end SetPump

inductive Step [DecidableEq σ] : Threads σ → Label σ → Threads σ → Prop
  | subscribeNull {s : Threads σ} : s.control = .idle → Step s (.returnSubscribe none false) s
  | callSubscribe {s : Threads σ} (x : σ) : s.control = .idle →
      Step s (.callSubscribe x) { s with control := .subscribe .lock x }
  | subscribeLock {s : Threads σ} {x : σ} : s.control = .subscribe .lock x → s.mutex = none →
      Step s .control { s with mutex := some .control, control := .subscribe .test x }
  | subscribeRunning {s : Threads σ} {x : σ} : s.control = .subscribe .test x →
      s.running = true → Step s .control { s with control := .subscribe .push x }
  | subscribeStopped {s : Threads σ} {x : σ} : s.control = .subscribe .test x →
      s.running = false → Step s .control { s with control := .subscribe .join x }
  | subscribeNoJoin {s : Threads σ} {x : σ} : s.control = .subscribe .join x →
      s.pumpThread = none → Step s .control { s with control := .subscribe .make x }
  | subscribeJoin {s : Threads σ} {x : σ} {t : Nat} : s.control = .subscribe .join x →
      s.pumpThread = some t → (s.pump t).finished = true →
      Step s .control { s with pumpThread := none, control := .subscribe .make x }
  | subscribeMake {s : Threads σ} {x : σ} : s.control = .subscribe .make x →
      Step s .control { s with source := some .made, control := .subscribe .start x }
  | subscribeStart {s : Threads σ} {x : σ} : s.control = .subscribe .start x →
      Step s .control { s with source := some .started, control := .subscribe .run x }
  | subscribeStartFails {s : Threads σ} {x : σ} : s.control = .subscribe .start x →
      Step s .control { s with control := .subscribe .reset x }
  | subscribeReset {s : Threads σ} {x : σ} : s.control = .subscribe .reset x →
      Step s .control { s with source := none, control := .subscribe (.leave false) x }
  | subscribeRun {s : Threads σ} {x : σ} : s.control = .subscribe .run x →
      Step s .control { s with running := true, control := .subscribe .spawn x }
  | subscribeSpawn {s : Threads σ} {x : σ} : s.control = .subscribe .spawn x →
      Step s .control { s.setPump s.spawned .test with
        pumpThread := some s.spawned, spawned := s.spawned + 1, control := .subscribe .push x }
  | subscribePush {s : Threads σ} {x : σ} : s.control = .subscribe .push x →
      Step s .control { s with hub := (s.hub.subscribe true x).2,
                               control := .subscribe (.leave true) x }
  | subscribeLeave {s : Threads σ} {x : σ} {ok : Bool} :
      s.control = .subscribe (.leave ok) x →
      Step s (.returnSubscribe (some x) ok) { s with mutex := none, control := .idle }
  | callUnsubscribe {s : Threads σ} (x : σ) : s.control = .idle →
      Step s (.callUnsubscribe x) { s with control := .unsubscribe .lock x }
  | unsubscribeLock {s : Threads σ} {x : σ} : s.control = .unsubscribe .lock x →
      s.mutex = none →
      Step s .control { s with mutex := some .control, control := .unsubscribe .erase x }
  | unsubscribeErase {s : Threads σ} {x : σ} : s.control = .unsubscribe .erase x →
      Step s .control { s with hub := s.hub.unsubscribe x, control := .unsubscribe .test x }
  | unsubscribeLast {s : Threads σ} {x : σ} : s.control = .unsubscribe .test x →
      s.hub.subscribers = [] → s.running = true →
      Step s .control { s with control := .unsubscribe .stop x }
  | unsubscribeKeep {s : Threads σ} {x : σ} : s.control = .unsubscribe .test x →
      ¬ (s.hub.subscribers = [] ∧ s.running = true) →
      Step s .control { s with control := .unsubscribe .unlock x }
  | unsubscribeStop {s : Threads σ} {x : σ} : s.control = .unsubscribe .stop x →
      Step s .control { s with running := false, control := .unsubscribe .move x }
  | unsubscribeMove {s : Threads σ} {x : σ} : s.control = .unsubscribe .move x →
      Step s .control { s with toJoin := s.pumpThread, pumpThread := none,
                               control := .unsubscribe .unlock x }
  | unsubscribeUnlock {s : Threads σ} {x : σ} : s.control = .unsubscribe .unlock x →
      Step s .control { s with mutex := none, control := .unsubscribe .join x }
  | unsubscribeNoJoin {s : Threads σ} {x : σ} : s.control = .unsubscribe .join x →
      s.toJoin = none → Step s (.returnUnsubscribe x) { s with control := .idle }
  | unsubscribeJoin {s : Threads σ} {x : σ} {t : Nat} : s.control = .unsubscribe .join x →
      s.toJoin = some t → (s.pump t).finished = true →
      Step s (.returnUnsubscribe x) { s with toJoin := none, control := .idle }
  | callDestroy {s : Threads σ} : s.control = .idle →
      Step s .callDestroy { s with control := .destroyStop }
  | destroyStop {s : Threads σ} : s.control = .destroyStop →
      Step s .control { s with running := false, control := .destroyJoin }
  | destroyNoJoin {s : Threads σ} : s.control = .destroyJoin → s.pumpThread = none →
      Step s .control { s with control := .destroyMembers }
  | destroyJoin {s : Threads σ} {t : Nat} : s.control = .destroyJoin → s.pumpThread = some t →
      (s.pump t).finished = true →
      Step s .control { s with pumpThread := none, control := .destroyMembers }
  | destroyMembers {s : Threads σ} : s.control = .destroyMembers →
      Step s .control { s with source := none, control := .dead }
  | pumpTest {s : Threads σ} {t : Nat} : s.pump t = .test → s.running = true →
      Step s (.pump t) (s.setPump t .reading)
  | pumpQuit {s : Threads σ} {t : Nat} : s.pump t = .test → s.running = false →
      Step s (.pump t) (s.setPump t (.left false))
  /-- The callback returns at once on an empty NAL. -/
  | pumpEmptyNal {s : Threads σ} {t : Nat} : s.pump t = .reading → Step s (.pump t) s
  | pumpNal {s : Threads σ} {t : Nat} (nal : Bytes) : s.pump t = .reading → nal ≠ [] →
      Step s (.pump t) (s.setPump t (.wantLock nal))
  | pumpLock {s : Threads σ} {t : Nat} {nal : Bytes} : s.pump t = .wantLock nal →
      s.mutex = none →
      Step s (.pump t) { s.setPump t (.sending nal s.hub.subscribers) with
        mutex := some (.pump t), hub := s.hub.cacheParameterSets nal }
  | pumpSend {s : Threads σ} {t : Nat} {nal : Bytes} {x : σ} {todo : List σ} :
      s.pump t = .sending nal (x :: todo) →
      Step s (.send t x) (s.setPump t (.sending nal todo))
  | pumpUnlock {s : Threads σ} {t : Nat} {nal : Bytes} : s.pump t = .sending nal [] →
      Step s (.pump t) { s.setPump t .reading with mutex := none }
  | pumpRead {s : Threads σ} {t : Nat} : s.pump t = .reading →
      Step s (.pump t) (s.setPump t .test)
  | pumpEof {s : Threads σ} {t : Nat} : s.pump t = .reading →
      Step s (.pump t) (s.setPump t .ended)
  | pumpBreak {s : Threads σ} {t : Nat} : s.pump t = .ended →
      Step s (.pump t) (s.setPump t (.left true))
  | pumpStop {s : Threads σ} {t : Nat} {eof : Bool} : s.pump t = .left eof →
      Step s (.pump t) { s.setPump t (.stopped eof) with source := s.source.map fun _ => .stopped }
  | pumpStore {s : Threads σ} {t : Nat} {eof : Bool} : s.pump t = .stopped eof →
      Step s (.pump t) { s.setPump t (.done eof) with running := false }

/-- The Hub after its constructor. -/
def Initial (s : Threads σ) : Prop :=
  s.hub.subscribers = [] ∧ s = { hub := s.hub }

end Threads
end Veda.Media
