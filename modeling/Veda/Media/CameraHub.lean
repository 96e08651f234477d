import Veda.Camera.Source
import Veda.Media.FileHub

/-!
The Hub over the camera. The threads of the Hub run with the `Camera::Source` that `source_`
points to, and every process that it starts writes a byte stream of its own.
-/
namespace Veda.Media

open Transitions Camera

structure SourceConfig where
  source : Bytes := ascii "camera"
  width : Int := 640
  height : Int := 480
  fps : Int := 30

/-- The two implementations of `NalSource`. -/
inductive NalSource
  | camera (s : Camera.Source)
  | file (s : FileSource)

def SourceConfig.makeSource (cfg : SourceConfig) : NalSource :=
  if cfg.source = ascii "camera" then .camera (.create cfg.width cfg.height cfg.fps)
  else .file (.create cfg.fps true)

structure CameraHub (σ : Type) where
  threads : Threads σ
  /-- The object that `source_` points to, if there is one. -/
  source : Source
  shell : Shell := []
  /-- What the `read_nal` of each pump thread has still to call back with, and its result. -/
  call : Nat → List Bytes × Bool := fun _ => ([], true)
  /-- The NALs that each pump thread has brought to the subscribers, in order. -/
  heard : Nat → List Bytes := fun _ => []

variable {σ : Type}

/-- The step makes, uses, stops or destroys a source, or brings a NAL to the subscribers. -/
def Threads.Label.touchesSource (s : Threads σ) (l : Threads.Label σ) : Prop :=
  l.handlesSource s ∨ l = .control ∧ s.control.setsSource = true

namespace CameraHub

open Threads (Label)

/-- What becomes of the processes when `source_` lets go of its object. -/
def dropSource (s : CameraHub σ) : Shell :=
  match s.threads.source with
  | none => s.shell
  | some _ => s.source.destroy s.shell

inductive Step [DecidableEq σ] (cfg : SourceConfig) :
    CameraHub σ → Label σ → CameraHub σ → Prop
  /-- `source_ = make_source()`: the old object goes. -/
  | make {s : CameraHub σ} {x : σ} {source : Source} : s.threads.control = .subscribe .make x →
      cfg.makeSource = .camera source →
      Step cfg s .control { s with
        threads := { s.threads with source := some .made, control := .subscribe .start x }
        shell := s.dropSource
        source }
  | start {s : CameraHub σ} {x : σ} (output : Option Reads) :
      s.threads.control = .subscribe .start x → (s.source.start s.shell output).1 = true →
      Step cfg s .control { s with
        threads := { s.threads with source := some .started, control := .subscribe .run x }
        source := (s.source.start s.shell output).2.1
        shell := (s.source.start s.shell output).2.2 }
  | startFails {s : CameraHub σ} {x : σ} (output : Option Reads) :
      s.threads.control = .subscribe .start x → (s.source.start s.shell output).1 = false →
      Step cfg s .control { s with
        threads := { s.threads with control := .subscribe .reset x }
        source := (s.source.start s.shell output).2.1
        shell := (s.source.start s.shell output).2.2 }
  /-- `source_.reset()` -/
  | reset {s : CameraHub σ} {x : σ} : s.threads.control = .subscribe .reset x →
      Step cfg s .control { s with
        threads := { s.threads with source := none, control := .subscribe (.leave false) x }
        shell := s.dropSource }
  | destroyMembers {s : CameraHub σ} : s.threads.control = .destroyMembers →
      Step cfg s .control { s with
        threads := { s.threads with source := none, control := .dead }
        shell := s.dropSource }
  /-- The pump calls `read_nal`. -/
  | call {s : CameraHub σ} {u : Nat} : s.threads.pump u = .test → s.threads.running = true →
      Step cfg s (.pump u) { s with
        threads := s.threads.setPump u .reading
        source := (s.source.readNal s.shell).source
        shell := (s.source.readNal s.shell).shell
        call := Function.update s.call u
          ((s.source.readNal s.shell).callbacks, (s.source.readNal s.shell).result) }
  | callback {s : CameraHub σ} {u : Nat} {nal : Bytes} {rest : List Bytes} {ok : Bool} :
      s.threads.pump u = .reading → s.call u = (nal :: rest, ok) → nal ≠ [] →
      Step cfg s (.pump u) { s with
        threads := s.threads.setPump u (.wantLock nal)
        call := Function.update s.call u (rest, ok) }
  /-- `on_nal` returns at once on an empty NAL. -/
  | callbackEmpty {s : CameraHub σ} {u : Nat} {rest : List Bytes} {ok : Bool} :
      s.threads.pump u = .reading → s.call u = ([] :: rest, ok) →
      Step cfg s (.pump u) { s with call := Function.update s.call u (rest, ok) }
  /-- `on_nal` takes the mutex and looks at the slots and at the list. -/
  | lock {s : CameraHub σ} {u : Nat} {nal : Bytes} : s.threads.pump u = .wantLock nal →
      s.threads.mutex = none →
      Step cfg s (.pump u) { s with
        threads := { s.threads.setPump u (.sending nal s.threads.hub.subscribers) with
          mutex := some (.pump u), hub := s.threads.hub.cacheParameterSets nal }
        heard := Function.update s.heard u (s.heard u ++ [nal]) }
  | returnTrue {s : CameraHub σ} {u : Nat} : s.threads.pump u = .reading →
      s.call u = ([], true) →
      Step cfg s (.pump u) { s with threads := s.threads.setPump u .test }
  | returnFalse {s : CameraHub σ} {u : Nat} : s.threads.pump u = .reading →
      s.call u = ([], false) →
      Step cfg s (.pump u) { s with threads := s.threads.setPump u .ended }
  /-- `source_->stop()` -/
  | stop {s : CameraHub σ} {u : Nat} {eof : Bool} : s.threads.pump u = .left eof →
      Step cfg s (.pump u) { s with
        threads := { s.threads.setPump u (.stopped eof) with
          source := s.threads.source.map fun _ => .stopped }
        source := (s.source.stop s.shell).1
        shell := (s.source.stop s.shell).2 }
  | other {s : CameraHub σ} {l : Label σ} {t : Threads σ} : Threads.Step s.threads l t →
      ¬ l.touchesSource s.threads → Step cfg s l { s with threads := t }

/-- The Hub after its constructor, which scans no file in this mode. -/
def Initial (cfg : SourceConfig) (s : CameraHub σ) : Prop :=
  ∃ source : Source, source.pipe = none ∧ s = { threads := { hub := .create cfg.fps }, source }

variable [DecidableEq σ] {cfg : SourceConfig} {s t : CameraHub σ} {l : Label σ}

/-- The threads run as they do with any source. -/
theorem Step.threads (h : Step cfg s l t) : Threads.Step s.threads l t.threads := by
  cases h with
  | make hc hcfg => exact .subscribeMake hc
  | start output hc hok => exact .subscribeStart hc
  | startFails output hc hok => exact .subscribeStartFails hc
  | reset hc => exact .subscribeReset hc
  | destroyMembers hc => exact .destroyMembers hc
  | call hp hrun => exact .pumpTest hp hrun
  | callback hp hcall hnal => exact .pumpNal _ hp hnal
  | callbackEmpty hp hcall => exact .pumpEmptyNal hp
  | lock hp hm => exact .pumpLock hp hm
  | returnTrue hp hcall => exact .pumpRead hp
  | returnFalse hp hcall => exact .pumpEof hp
  | stop hp => exact .pumpStop hp
  | other h hquiet => exact h

omit [DecidableEq σ] in
theorem Initial.threads (h : Initial cfg s) : s.threads.Initial := by
  obtain ⟨source, -, rfl⟩ := h
  exact ⟨rfl, rfl⟩

end CameraHub

namespace ControlPc

/-- The source is started and its thread is not. -/
def spawning : ControlPc σ → Bool
  | subscribe .run _ => true
  | subscribe .spawn _ => true
  | _ => false

theorem spawning_of {pc : ControlPc σ} {x : σ}
    (h : pc = .subscribe .run x ∨ pc = .subscribe .spawn x) : pc.spawning = true := by
  rcases h with rfl | rfl <;> rfl

end ControlPc

namespace Threads

variable {s t : Threads σ} {l : Label σ}

/-- Sources that were started: each has its thread, or is about to get it. -/
def startedSources (s : Threads σ) : Nat := s.spawned + s.control.spawning.toNat

/-- What a step that does not touch the source does besides. -/
structure Aside (s t : Threads σ) : Prop where
  source : t.source = s.source
  startedSources : t.startedSources = s.startedSources
  eof : ∀ u, (t.pump u).sawEof = true → (s.pump u).sawEof = true
  newest : ∀ u, (t.pump u).usesSource = true →
    (s.pump u).usesSource = true ∧ t.spawned = s.spawned ∨
    s.pump u = .absent ∧ u = s.spawned ∧ t.spawned = s.spawned + 1

/-- Without viewers nothing is on. -/
structure Off (s : Threads σ) : Prop where
  idle : s.control = .idle → s.hub.subscribers = [] → s.source ≠ some .started
  failed : ∀ x, s.control = .subscribe (.leave false) x → s.source = none
  joined : ∀ x, s.control = .subscribe (.leave true) x → s.hub.subscribers ≠ []
  dead : s.control = .dead → s.source = none

theorem off_initial (h : Initial s) : Off s := by
  obtain ⟨-, hs⟩ := h
  rw [hs]
  constructor <;> simp

variable [DecidableEq σ]

theorem aside_step (h : Step s l t) (hs : Handles s) (hl : ¬ l.touchesSource s) : Aside s t := by
  have hidle := hs.idle
  have habsent := hs.absent
  constructor
  · cases h <;> grind -ring -linarith [Label.touchesSource, Label.handlesSource,
      ControlPc.setsSource]
  · cases h <;> grind -ring -linarith [Label.touchesSource, Label.handlesSource,
      ControlPc.spawning, Threads.startedSources]
  · cases h <;> grind -ring -linarith [Label.touchesSource, Label.handlesSource, PumpPc.sawEof]
  · cases h <;> grind -ring -linarith [Label.touchesSource, Label.handlesSource,
      PumpPc.usesSource, PumpPc.live_of_usesSource, ControlPc.starting]

theorem off_step (h : Step s l t) (hs : Sound s) (hoff : Off s) : Off t := by
  obtain ⟨hidle, hfailed, hjoined, hdead⟩ := hoff
  have hlast : ∀ x, l = .returnUnsubscribe x → t.hub.subscribers = [] →
      t.source ≠ some .started := by
    rintro x rfl hempty
    rcases (hs.last_returns h hempty).2 with hsource | hsource <;> simp [hsource]
  constructor
  · cases h with
    | @subscribeLeave x ok hc =>
      intro _ hempty
      cases ok with
      | false => simp [hfailed x hc]
      | true => exact absurd hempty (hjoined x hc)
    | unsubscribeNoJoin hc hj => exact fun _ => hlast _ rfl
    | unsubscribeJoin hc hj hfin => exact fun _ => hlast _ rfl
    | pumpStop hp =>
      intro _ _
      cases s.source <;> simp
    | _ => grind -ring -linarith [Hub.cacheParameterSets_subscribers]
  · cases h <;> grind -ring -linarith
  · cases h with
    | subscribePush hc => simp [Hub.subscribe]
    | _ => grind -ring -linarith [Hub.cacheParameterSets_subscribers]
  · cases h <;> grind -ring -linarith

end Threads

namespace CameraHub

open Threads (Label)

/-- The processes, and the one that the source holds. -/
structure Owned (cfg : SourceConfig) (s : CameraHub σ) : Prop where
  counted : s.shell.length = s.threads.startedSources
  commands : ∀ p ∈ s.shell, p.command = (Source.create cfg.width cfg.height cfg.fps).command
  held : s.threads.source = some .started →
    ∃ n, s.shell.length = n + 1 ∧ s.source.pipe = some n
  free : s.threads.source ≠ some .started → s.source.pipe = none
  closes : ∀ k p, s.shell[k]? = some p → p.closes = if s.source.pipe = some k then 0 else 1
  made : ∀ x, s.threads.control = .subscribe .start x →
    s.source = .create cfg.width cfg.height cfg.fps

variable {cfg : SourceConfig} {s t : CameraHub σ} {l : Label σ} {u : Nat}

/-- A source that holds no process has none to close. -/
theorem Owned.dropSource (h : Owned cfg s) (hsource : s.threads.source ≠ some .started) :
    s.dropSource = s.shell := by
  rw [CameraHub.dropSource]
  cases s.threads.source with
  | none => rfl
  | some src => simp [Source.destroy, Source.stop, h.free hsource]

/-- A step that starts and closes nothing. -/
theorem Owned.same (h : Owned cfg s) (hshell : t.shell = s.shell)
    (hpipe : t.source.pipe = s.source.pipe)
    (hsource : t.threads.source = some .started ↔ s.threads.source = some .started)
    (hcount : t.threads.startedSources = s.threads.startedSources)
    (hmade : ∀ x, t.threads.control = .subscribe .start x →
      t.source = .create cfg.width cfg.height cfg.fps) : Owned cfg t := by
  refine ⟨?_, ?_, ?_, ?_, ?_, hmade⟩
  · rw [hshell, hcount]
    exact h.counted
  · rw [hshell]
    exact h.commands
  · rw [hshell, hsource, hpipe]
    exact h.held
  · rw [Ne, hsource, hpipe]
    exact h.free
  · rw [hshell, hpipe]
    exact h.closes

/-- `popen` has started a process. -/
theorem Owned.opened (h : Owned cfg s) (hpipe : s.source.pipe = none) {reads : Reads}
    (hshell : t.shell = s.shell ++ [{
      command := (Source.create cfg.width cfg.height cfg.fps).command
      output := reads.flatten
      reads }])
    (hpipe' : t.source.pipe = some s.shell.length)
    (hsource : t.threads.source = some .started)
    (hcount : t.threads.startedSources = s.threads.startedSources + 1)
    (hmade : ∀ x, t.threads.control ≠ .subscribe .start x) : Owned cfg t := by
  refine ⟨?_, ?_, ?_, ?_, ?_, fun x hx => absurd hx (hmade x)⟩
  · rw [hshell, hcount, ← h.counted, List.length_append, List.length_singleton]
  · intro p hp
    rw [hshell] at hp
    rcases List.mem_append.mp hp with hp | hp
    · exact h.commands p hp
    · rw [List.mem_singleton.mp hp]
  · intro _
    exact ⟨s.shell.length, by simp [hshell], hpipe'⟩
  · intro hne
    exact absurd hsource hne
  · intro k p hp
    rw [hshell, List.getElem?_append] at hp
    rw [hpipe']
    split at hp
    · have hold := h.closes k p hp
      rw [hpipe] at hold
      rw [hold, if_neg (by simp), if_neg (by simp; omega)]
    · rw [List.getElem?_singleton] at hp
      split at hp
      · cases hp
        rw [if_pos (by simp; omega)]
      · cases hp

/-- `fread` changes nothing about the pipe itself. -/
theorem Owned.consumed (h : Owned cfg s) {pipe : Nat} {reads : Reads}
    (hshell : t.shell = s.shell.consume pipe reads) (hpipe : t.source.pipe = s.source.pipe)
    (hsource : t.threads.source = s.threads.source)
    (hcount : t.threads.startedSources = s.threads.startedSources)
    (hmade : ∀ x, t.threads.control ≠ .subscribe .start x) : Owned cfg t := by
  have hget : ∀ (k : Nat) (p : Process), t.shell[k]? = some p →
      ∃ q : Process, s.shell[k]? = some q ∧ p.command = q.command ∧ p.closes = q.closes := by
    intro k p hp
    rw [hshell, Shell.consume_get] at hp
    split at hp
    · obtain ⟨q, hq, rfl⟩ := Option.map_eq_some_iff.mp hp
      exact ⟨q, hq, rfl, rfl⟩
    · exact ⟨p, hp, rfl, rfl⟩
  have hlength : t.shell.length = s.shell.length := by
    rw [hshell, Shell.consume_length]
  refine ⟨?_, ?_, ?_, ?_, ?_, fun x hx => absurd hx (hmade x)⟩
  · rw [hlength, hcount]
    exact h.counted
  · intro p hp
    obtain ⟨k, hk⟩ := List.mem_iff_getElem?.mp hp
    obtain ⟨q, hq, hcommand, -⟩ := hget k p hk
    rw [hcommand]
    exact h.commands q (List.mem_of_getElem? hq)
  · rw [hlength, hsource, hpipe]
    exact h.held
  · rw [hsource, hpipe]
    exact h.free
  · intro k p hp
    obtain ⟨q, hq, -, hcloses⟩ := hget k p hp
    rw [hcloses, hpipe]
    exact h.closes k q hq

/-- `pclose` on the pipe that is held. -/
theorem Owned.closed (h : Owned cfg s) {pipe : Nat} (hheld : s.source.pipe = some pipe)
    (hshell : t.shell = s.shell.pclose pipe) (hpipe : t.source.pipe = none)
    (hsource : t.threads.source ≠ some .started)
    (hcount : t.threads.startedSources = s.threads.startedSources)
    (hmade : ∀ x, t.threads.control ≠ .subscribe .start x) : Owned cfg t := by
  refine ⟨?_, ?_, fun hstarted => absurd hstarted hsource, fun _ => hpipe, ?_,
    fun x hx => absurd hx (hmade x)⟩
  · rw [hshell, Shell.pclose_length, hcount]
    exact h.counted
  · intro p hp
    obtain ⟨k, hk⟩ := List.mem_iff_getElem?.mp hp
    rw [hshell, Shell.pclose_get] at hk
    split at hk
    · obtain ⟨q, hq, rfl⟩ := Option.map_eq_some_iff.mp hk
      exact h.commands q (List.mem_of_getElem? hq)
    · exact h.commands p (List.mem_of_getElem? hk)
  · intro k p hp
    rw [hpipe, if_neg (by simp)]
    rw [hshell, Shell.pclose_get] at hp
    split at hp
    · rename_i hk
      obtain ⟨q, hq, rfl⟩ := Option.map_eq_some_iff.mp hp
      have hold := h.closes k q hq
      rw [hheld, if_pos (by rw [hk])] at hold
      rw [hold]
    · rename_i hk
      have hold := h.closes k p hp
      rwa [hheld, if_neg (by simpa using hk)] at hold

theorem makeSource_camera {source : Source} (h : cfg.makeSource = .camera source) :
    source = .create cfg.width cfg.height cfg.fps := by
  unfold SourceConfig.makeSource at h
  split at h
  · cases h
    rfl
  · cases h

/-- A pump that still uses the source reads the process that was started last. -/
theorem Owned.reads (h : Owned cfg s) (hs : Threads.Sound s.threads)
    (huses : (s.threads.pump u).usesSource = true) :
    s.source.pipe = some (s.threads.spawned - 1) ∧ s.shell.length = s.threads.spawned ∧
      ∀ x, s.threads.control ≠ .subscribe .start x := by
  obtain ⟨n, hn, hpipe⟩ := h.held (hs.sourcing.used u huses)
  have hlive := Threads.PumpPc.live_of_usesSource huses
  have hbusy : s.threads.control.starting = false := by
    by_contra hstarting
    have hdead := hs.handles.idle (Or.inl (by simpa using hstarting)) u
    simp [hlive] at hdead
  have hcount : s.threads.startedSources = s.threads.spawned := by
    rw [Threads.startedSources]
    cases hc : s.threads.control with
    | subscribe pc x => cases pc <;> simp_all [ControlPc.starting, ControlPc.spawning]
    | _ => simp [ControlPc.spawning]
  have hlength := h.counted.trans hcount
  refine ⟨?_, hlength, ?_⟩
  · rw [hpipe, ← hlength, hn]
    rfl
  · intro x hx
    simp [hx, ControlPc.starting] at hbusy

variable [DecidableEq σ]

theorem owned_step (h : Step cfg s l t) (hs : Threads.Sound s.threads) (ho : Owned cfg s) :
    Owned cfg t := by
  cases h with
  | make hc hcfg =>
    have hunused := (hs.source_unused (by simp [hc, ControlPc.setsSource])).1
    have hsource := makeSource_camera hcfg
    refine ho.same (ho.dropSource hunused) ?_ (by simp [hunused]) ?_ (fun _ _ => hsource)
    · rw [hsource, ho.free hunused]
      rfl
    · simp [Threads.startedSources, hc, ControlPc.spawning]
  | @start x output hc hok =>
    have hmade := ho.made x hc
    rw [hmade] at hok ⊢
    cases output with
    | none => cases hok
    | some reads =>
      have hunused : s.threads.source ≠ some .started := by
        simp [hs.sourcing.made x (Or.inl hc)]
      refine ho.opened (ho.free hunused) rfl rfl rfl ?_ (by simp)
      simp [Threads.startedSources, hc, ControlPc.spawning]
  | @startFails x output hc hok =>
    have hmade := ho.made x hc
    rw [hmade] at hok ⊢
    cases output with
    | some reads => cases hok
    | none =>
      refine ho.same rfl ?_ Iff.rfl ?_ (by simp)
      · rw [hmade]
        rfl
      · simp [Threads.startedSources, hc, ControlPc.spawning]
  | reset hc =>
    have hunused := (hs.source_unused (by simp [hc, ControlPc.setsSource])).1
    refine ho.same (ho.dropSource hunused) rfl (by simp [hunused]) ?_ (by simp)
    simp [Threads.startedSources, hc, ControlPc.spawning]
  | destroyMembers hc =>
    have hunused := (hs.source_unused (by simp [hc, ControlPc.setsSource])).1
    refine ho.same (ho.dropSource hunused) rfl (by simp [hunused]) ?_ (by simp)
    simp [Threads.startedSources, hc, ControlPc.spawning]
  | @call u hp hrun =>
    obtain ⟨hpipe, -, hmade⟩ := ho.reads hs (u := u) (by simp [hp, PumpPc.usesSource])
    have hread := Source.readNal_open s.shell hpipe
    exact ho.consumed (congrArg SourceRead.shell hread) (congrArg (·.source.pipe) hread) rfl rfl
      hmade
  | callback hp hcall hnal => exact ho.same rfl rfl Iff.rfl rfl ho.made
  | callbackEmpty hp hcall => exact ho.same rfl rfl Iff.rfl rfl ho.made
  | lock hp hm => exact ho.same rfl rfl Iff.rfl rfl ho.made
  | returnTrue hp hcall => exact ho.same rfl rfl Iff.rfl rfl ho.made
  | returnFalse hp hcall => exact ho.same rfl rfl Iff.rfl rfl ho.made
  | @stop u eof hp =>
    obtain ⟨hpipe, -, hmade⟩ := ho.reads hs (u := u) (by simp [hp, PumpPc.usesSource])
    have hstop := Source.stop_open s.shell hpipe
    refine ho.closed hpipe (congrArg Prod.snd hstop) (congrArg (·.1.pipe) hstop) ?_ rfl hmade
    cases s.threads.source <;> simp
  | other h hquiet =>
    have haside := Threads.aside_step h hs.handles hquiet
    have hq := Threads.quiet_step h hs.handles fun hhandles => hquiet (Or.inl hhandles)
    refine ho.same rfl rfl ?_ haside.startedSources fun x hx => ho.made x (hq.made x hx)
    rw [haside.source]

end CameraHub
end Veda.Media
