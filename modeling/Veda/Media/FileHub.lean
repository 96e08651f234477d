import Veda.Media.HubLifecycle
import Veda.Media.Prescan

/-!
The Hub over a file. The threads of the Hub run with the `FileSource` that `source_` points to,
and every file that is opened under its path has the same content.
-/
namespace Veda.Media

open Transitions

variable {σ : Type}

/-- The NAL that `on_nal` was called with and has not locked the mutex for. -/
def PumpPc.waiting : PumpPc σ → List Bytes
  | wantLock nal => [nal]
  | _ => []

structure FileHub (σ : Type) where
  threads : Threads σ
  /-- The object that `source_` points to, if there is one. -/
  source : FileSource
  /-- What the `read_nal` of each pump thread has still to call back with, and its result. -/
  call : Nat → List Bytes × Bool := fun _ => ([], true)
  /-- The NALs that each pump thread has brought to the slots, in order. -/
  heard : Nat → List Bytes := fun _ => []
  /-- The NALs that the prescan has brought to them. -/
  scanned : List Bytes

/-- The step makes, uses or stops a source, or brings a NAL to the slots. -/
def Threads.Label.handlesSource (s : Threads σ) : Threads.Label σ → Prop
  | .control => ∃ x, s.control = .subscribe .make x ∨ s.control = .subscribe .start x
  | .pump u => s.pump u = .test ∧ s.running = true ∨ s.pump u = .reading ∨
      (∃ nal, s.pump u = .wantLock nal) ∨ ∃ eof, s.pump u = .left eof
  | _ => False

namespace FileHub

open Threads (Label)

inductive Step [DecidableEq σ] (content : Bytes) (fps : Int) :
    FileHub σ → Label σ → FileHub σ → Prop
  /-- `make_source` -/
  | make {s : FileHub σ} {x : σ} : s.threads.control = .subscribe .make x →
      Step content fps s .control { s with
        threads := { s.threads with source := some .made, control := .subscribe .start x }
        source := .create fps true }
  | start {s : FileHub σ} {x : σ} (r : Recording) (now : Int) : r.content = content →
      s.threads.control = .subscribe .start x → (s.source.start (some r) now).1 = true →
      Step content fps s .control { s with
        threads := { s.threads with source := some .started, control := .subscribe .run x }
        source := (s.source.start (some r) now).2 }
  | startFails {s : FileHub σ} {x : σ} (now : Int) :
      s.threads.control = .subscribe .start x → (s.source.start none now).1 = false →
      Step content fps s .control { s with
        threads := { s.threads with control := .subscribe .reset x }
        source := (s.source.start none now).2 }
  /-- The pump calls `read_nal`. -/
  | call {s : FileHub σ} {u : Nat} : s.threads.pump u = .test → s.threads.running = true →
      Step content fps s (.pump u) { s with
        threads := s.threads.setPump u .reading
        source := s.source.readNal.source
        call := Function.update s.call u (s.source.readNal.callbacks, s.source.readNal.result) }
  | callback {s : FileHub σ} {u : Nat} {nal : Bytes} {rest : List Bytes} {ok : Bool} :
      s.threads.pump u = .reading → s.call u = (nal :: rest, ok) → nal ≠ [] →
      Step content fps s (.pump u) { s with
        threads := s.threads.setPump u (.wantLock nal)
        call := Function.update s.call u (rest, ok) }
  /-- `on_nal` returns at once on an empty NAL. -/
  | callbackEmpty {s : FileHub σ} {u : Nat} {rest : List Bytes} {ok : Bool} :
      s.threads.pump u = .reading → s.call u = ([] :: rest, ok) →
      Step content fps s (.pump u) { s with call := Function.update s.call u (rest, ok) }
  /-- `on_nal` takes the mutex and looks at the slots. -/
  | lock {s : FileHub σ} {u : Nat} {nal : Bytes} : s.threads.pump u = .wantLock nal →
      s.threads.mutex = none →
      Step content fps s (.pump u) { s with
        threads := { s.threads.setPump u (.sending nal s.threads.hub.subscribers) with
          mutex := some (.pump u), hub := s.threads.hub.cacheParameterSets nal }
        heard := Function.update s.heard u (s.heard u ++ [nal]) }
  | returnTrue {s : FileHub σ} {u : Nat} : s.threads.pump u = .reading →
      s.call u = ([], true) →
      Step content fps s (.pump u) { s with threads := s.threads.setPump u .test }
  | returnFalse {s : FileHub σ} {u : Nat} : s.threads.pump u = .reading →
      s.call u = ([], false) →
      Step content fps s (.pump u) { s with threads := s.threads.setPump u .ended }
  /-- `source_->stop()` -/
  | stop {s : FileHub σ} {u : Nat} {eof : Bool} : s.threads.pump u = .left eof →
      Step content fps s (.pump u) { s with
        threads := { s.threads.setPump u (.stopped eof) with
          source := s.threads.source.map fun _ => .stopped }
        source := s.source.stop }
  | other {s : FileHub σ} {l : Label σ} {t : Threads σ} : Threads.Step s.threads l t →
      ¬ l.handlesSource s.threads → Step content fps s l { s with threads := t }

/-- The Hub after its constructor. -/
def Initial (content : Bytes) (fps : Int) (s : FileHub σ) : Prop :=
  ∃ (disk : Option Reads) (source : FileSource), (∀ reads ∈ disk, reads.flatten = content) ∧
    s = { threads := { hub := ((Hub.create fps).prescanParameterSets disk).1 }
          source
          scanned := ((Hub.create fps : Hub σ).prescanParameterSets disk).2 }

variable [DecidableEq σ] {content : Bytes} {fps : Int} {s t : FileHub σ} {l : Label σ}

/-- The threads run as they do with any source. -/
theorem Step.threads (h : Step content fps s l t) : Threads.Step s.threads l t.threads := by
  cases h with
  | make hc => exact .subscribeMake hc
  | start r now hr hc hok => exact .subscribeStart hc
  | startFails now hc hok => exact .subscribeStartFails hc
  | call hp hrun => exact .pumpTest hp hrun
  | callback hp hcall hnal => exact .pumpNal _ hp hnal
  | callbackEmpty hp hcall => exact .pumpEmptyNal hp
  | lock hp hm => exact .pumpLock hp hm
  | returnTrue hp hcall => exact .pumpRead hp
  | returnFalse hp hcall => exact .pumpEof hp
  | stop hp => exact .pumpStop hp
  | other h hquiet => exact h

omit [DecidableEq σ] in
theorem Initial.threads (h : Initial content fps s) : s.threads.Initial := by
  obtain ⟨disk, source, -, rfl⟩ := h
  refine ⟨?_, rfl⟩
  cases disk with
  | none => rfl
  | some reads => exact (prescanLoop_fields 64 (Hub.create fps) [] reads).1

end FileHub

namespace Threads

variable [DecidableEq σ] {s t : Threads σ} {l : Label σ}

/-- What a step that leaves the source alone leaves alone besides. -/
structure Quiet (s t : Threads σ) : Prop where
  sps : t.hub.sps = s.hub.sps
  pps : t.hub.pps = s.hub.pps
  pump : ∀ u, (t.pump u).usesSource = true →
    (s.pump u).usesSource = true ∧ (t.pump u).waiting = (s.pump u).waiting ∨
    s.pump u = .absent ∧ t.pump u = .test ∧ ∃ x, s.control = .subscribe .spawn x
  test : ∀ u, t.pump u = .test → s.pump u = .test ∨ s.pump u = .absent
  absent : ∀ u, t.pump u = .absent → s.pump u = .absent
  made : ∀ x, t.control = .subscribe .start x → s.control = .subscribe .start x
  fresh : ∀ x, t.control = .subscribe .run x ∨ t.control = .subscribe .spawn x →
    s.control = .subscribe .run x ∨ s.control = .subscribe .spawn x

theorem quiet_step (h : Step s l t) (hs : Handles s) (hl : ¬ l.handlesSource s) : Quiet s t := by
  have habsent := hs.absent
  constructor
  · cases h <;> grind -ring -linarith [Label.handlesSource, Hub.subscribe, Hub.unsubscribe]
  · cases h <;> grind -ring -linarith [Label.handlesSource, Hub.subscribe, Hub.unsubscribe]
  · cases h <;> grind -ring -linarith [Label.handlesSource, PumpPc.usesSource, PumpPc.waiting]
  · cases h <;> grind -ring -linarith [Label.handlesSource]
  · cases h <;> grind -ring -linarith [Label.handlesSource]
  · cases h <;> grind -ring -linarith [Label.handlesSource]
  · cases h <;> grind -ring -linarith [Label.handlesSource]

end Threads

/-- How often the open file was rewound. -/
def FileSource.rewound (s : FileSource) : Nat :=
  match s.file with
  | some file => file.rewound
  | none => 0

/-- A source rewinds its file in the call that meets the end of a pass. -/
theorem FileSource.readNal_rewound {r : Recording} {left : List Bytes} {s : FileSource}
    (h : Playing r left s) :
    s.readNal.source.rewound = s.rewound + if 2 ≤ left.length then 0 else 1 := by
  obtain ⟨file, hfile, -, hleft⟩ := h.opened
  obtain ⟨-, hresult, -⟩ := readNal_left s.buffer file.reads hleft
  have hpace : ∀ (s : FileSource) callbacks, (s.pace callbacks).source.rewound = s.rewound := by
    intro s callbacks
    unfold pace
    cases callbacks.any isFrame <;> rfl
  have hrewound : s.rewound = file.rewound := by
    rw [rewound, hfile]
  rw [readNal, hfile, hrewound]
  dsimp only
  rw [hresult]
  by_cases htwo : 2 ≤ left.length
  · rw [if_pos htwo, if_pos (decide_eq_true htwo), hpace]
    rfl
  · rw [if_neg htwo, if_neg (by simpa using htwo), if_neg (by simp [h.loop])]
    split
    · rfl
    · rw [hpace]
      rfl

/-- A thread inside a pass: what it has heard, what it still has in hand and what is left of
the pass are the passes so far. -/
def InPass (content : Bytes) (source : FileSource) (heard inHand : List Bytes) : Prop :=
  ∃ r left, r.content = content ∧ Playing r left source ∧
    (nals left).length ≤ (nals (segments content)).length ∧
    heard ++ (inHand ++ nals left) =
      (List.replicate (source.rewound + 1) (nals (segments content))).flatten

section InPass
variable {content : Bytes} {source : FileSource} {heard inHand : List Bytes}

theorem inPass_started {r : Recording} (hr : r.content = content) (fps now : Int) :
    InPass content (.started r fps true now) [] [] := by
  subst hr
  have hrewound : (FileSource.started r fps true now).rewound = 0 := rfl
  refine ⟨r, _, rfl, FileSource.started_playing r fps now, Nat.le_refl _, ?_⟩
  rw [hrewound]
  simp

/-- A call of the source takes NALs in hand, from the next pass too if it meets the end. -/
theorem InPass.readNal (h : InPass content source heard []) :
    InPass content source.readNal.source heard source.readNal.callbacks := by
  obtain ⟨r, left, rfl, hplaying, hlength, hpasses⟩ := h
  obtain ⟨hcallbacks, -, hnext⟩ := FileSource.readNal_play hplaying
  have hrewound := FileSource.readNal_rewound hplaying
  have hparts : ∀ ss : List Bytes,
      (nals (ss.take 1)).length + (nals ss.tail).length = (nals ss).length := by
    intro ss
    rw [← List.length_append, nals_take_tail]
  rw [List.nil_append] at hpasses
  refine ⟨r, _, rfl, hnext, ?_⟩
  rw [hcallbacks, hrewound]
  by_cases htwo : 2 ≤ left.length
  · have hleft := hparts left
    rw [play, if_pos htwo, if_pos htwo]
    dsimp only
    refine ⟨by omega, ?_⟩
    rw [nals_take_tail]
    exact hpasses
  · have hall := hparts (segments r.content)
    rw [play_wrap (by omega), if_neg htwo]
    dsimp only
    refine ⟨by omega, ?_⟩
    rw [List.append_assoc, nals_take_tail, ← List.append_assoc, hpasses,
      List.replicate_succ' (n := source.rewound + 1), List.flatten_append, List.flatten_singleton]

/-- The NAL that is brought to the slots leaves the hand. -/
theorem InPass.hear {nal : Bytes} (h : InPass content source heard (nal :: inHand)) :
    InPass content source (heard ++ [nal]) inHand := by
  obtain ⟨r, left, hr, hplaying, hlength, hpasses⟩ := h
  refine ⟨r, left, hr, hplaying, hlength, ?_⟩
  rw [← hpasses, List.append_assoc]
  rfl

/-- The source hands over nothing empty. -/
theorem InPass.ne_nil (h : InPass content source heard inHand) : ∀ nal ∈ inHand, nal ≠ [] := by
  obtain ⟨r, left, -, -, -, hpasses⟩ := h
  intro nal hnal
  have hmem : nal ∈ (List.replicate (source.rewound + 1) (nals (segments content))).flatten := by
    rw [← hpasses]
    simp [hnal]
  obtain ⟨pass, hpass, hin⟩ := List.mem_flatten.mp hmem
  rw [List.eq_of_mem_replicate hpass] at hin
  exact nals_ne_nil nal hin

/-- The file has been rewound and nothing is in hand: the first pass is complete. -/
theorem InPass.complete (h : InPass content source heard []) (hrewound : 0 < source.rewound) :
    nals (segments content) <+: heard := by
  obtain ⟨r, left, -, -, hlength, hpasses⟩ := h
  obtain ⟨k, hk⟩ := Nat.exists_eq_succ_of_ne_zero (Nat.pos_iff_ne_zero.mp hrewound)
  rw [hk, List.nil_append] at hpasses
  have htotal := congrArg List.length hpasses
  rw [List.length_append, List.replicate_succ, List.replicate_succ, List.flatten_cons,
    List.flatten_cons, List.length_append, List.length_append] at htotal
  rw [List.replicate_succ, List.flatten_cons] at hpasses
  have hfile : nals (segments content) <+: heard ++ nals left := by
    rw [hpasses]
    exact List.prefix_append _ _
  exact List.prefix_of_prefix_length_le hfile (List.prefix_append _ _) (by omega)

end InPass

namespace FileHub

variable {content : Bytes} {fps : Int} {s t : FileHub σ} {l : Threads.Label σ} {u : Nat}

/-- The slots against the NALs that were brought to them. -/
structure SlotsSound (content : Bytes) (s : FileHub σ) : Prop where
  cached : Cached (nals (segments content)) s.threads.hub
  scanned : Unheard s.threads.hub s.scanned
  heard : ∀ u, Unheard s.threads.hub (s.heard u)

/-- What each thread reads from the source is the file, from its beginning. -/
structure Feeding (content : Bytes) (fps : Int) (s : FileHub σ) : Prop where
  slots : SlotsSound content s
  idle : ∀ u, s.threads.pump u = .absent → s.heard u = [] ∧ (s.call u).1 = []
  between : ∀ u, s.threads.pump u = .test → (s.call u).1 = []
  made : ∀ x, s.threads.control = .subscribe .start x → s.source = .create fps true
  fresh : ∀ x, s.threads.control = .subscribe .run x ∨ s.threads.control = .subscribe .spawn x →
    InPass content s.source [] []
  reading : ∀ u, (s.threads.pump u).usesSource = true →
    InPass content s.source (s.heard u) ((s.threads.pump u).waiting ++ (s.call u).1)

/-- Slots that did not change, and nothing new was brought to them. -/
theorem SlotsSound.same (h : SlotsSound content s) (hsps : t.threads.hub.sps = s.threads.hub.sps)
    (hpps : t.threads.hub.pps = s.threads.hub.pps) (hheard : t.heard = s.heard)
    (hscanned : t.scanned = s.scanned) : SlotsSound content t := by
  have hslot : ∀ type, t.threads.hub.parameterSet type = s.threads.hub.parameterSet type := by
    intro type
    rw [Hub.parameterSet, Hub.parameterSet, hsps, hpps]
  refine ⟨?_, ?_, ?_⟩
  · intro type htype
    rw [hslot]
    exact h.cached type htype
  · intro type htype
    rw [hslot, hscanned]
    exact h.scanned type htype
  · intro u type htype
    rw [hslot, hheard]
    exact h.heard u type htype

/-- A pump that reads is in the pass it has heard the beginning of. -/
theorem Feeding.pass (hf : Feeding content fps s) {pc : PumpPc σ} (hp : s.threads.pump u = pc)
    (huses : pc.usesSource = true) :
    InPass content s.source (s.heard u) (pc.waiting ++ (s.call u).1) := by
  subst hp
  exact hf.reading u huses

/-- While a pump is live no source is made, and no other pump uses the source. -/
theorem Feeding.of_pump {pc pc' : PumpPc σ} (hf : Feeding content fps s)
    (hs : Threads.Sound s.threads) (hp : s.threads.pump u = pc) (hlive : pc.live = true)
    (hpump : t.threads.pump = (s.threads.setPump u pc').pump) (hpc : pc' ≠ .absent)
    (hcontrol : t.threads.control = s.threads.control)
    (hother : ∀ v, v ≠ u → t.call v = s.call v ∧ t.heard v = s.heard v)
    (hslots : SlotsSound content t) (htest : pc' = .test → (t.call u).1 = [])
    (hpass : pc'.usesSource = true →
      InPass content t.source (t.heard u) (pc'.waiting ++ (t.call u).1)) :
    Feeding content fps t := by
  have hlive' : (s.threads.pump u).live = true := hp ▸ hlive
  have hbusy : t.threads.control.starting = false := by
    by_contra hstarting
    rw [hcontrol, Bool.not_eq_false] at hstarting
    have hdead := hs.handles.idle (Or.inl hstarting) u
    simp [hlive'] at hdead
  have hown : t.threads.pump u = pc' := by
    rw [hpump, Threads.setPump_pump, if_pos rfl]
  have hkeep : ∀ v, v ≠ u → t.threads.pump v = s.threads.pump v := by
    intro v hne
    rw [hpump, Threads.setPump_pump, if_neg hne]
  refine ⟨hslots, ?_, ?_, ?_, ?_, ?_⟩
  · intro v hv
    have hne : v ≠ u := by
      rintro rfl
      exact hpc (hown.symm.trans hv)
    obtain ⟨hcall, hheard⟩ := hother v hne
    rw [hcall, hheard]
    exact hf.idle v (hkeep v hne ▸ hv)
  · intro v hv
    by_cases hne : v = u
    · subst hne
      exact htest (hown.symm.trans hv)
    · rw [(hother v hne).1]
      exact hf.between v (hkeep v hne ▸ hv)
  · intro x hx
    simp [hx, ControlPc.starting] at hbusy
  · rintro x (hx | hx) <;> simp [hx, ControlPc.starting] at hbusy
  · intro v hv
    by_cases hne : v = u
    · subst hne
      rw [hown] at hv ⊢
      exact hpass hv
    · have huses : (s.threads.pump v).usesSource = true := hkeep v hne ▸ hv
      exact absurd (hs.handles.same (Threads.PumpPc.live_of_usesSource huses) hlive') hne

/-- A step of the control thread between the last pump and the next. -/
theorem Feeding.of_start (hf : Feeding content fps s) (hs : Threads.Sound s.threads)
    (hstarting : s.threads.control.starting = true)
    (hpump : t.threads.pump = s.threads.pump) (hcall : t.call = s.call)
    (hheard : t.heard = s.heard) (hslots : SlotsSound content t)
    (hmade : ∀ x, t.threads.control = .subscribe .start x → t.source = .create fps true)
    (hfresh : ∀ x, t.threads.control = .subscribe .run x ∨
      t.threads.control = .subscribe .spawn x → InPass content t.source [] []) :
    Feeding content fps t := by
  refine ⟨hslots, ?_, ?_, hmade, hfresh, ?_⟩
  · rw [hpump, hcall, hheard]
    exact hf.idle
  · rw [hpump, hcall]
    exact hf.between
  · intro u hu
    rw [hpump] at hu
    have hdead := hs.handles.idle (Or.inl hstarting) u
    simp [Threads.PumpPc.live_of_usesSource hu] at hdead

/-- A step that leaves the source alone goes on in the pass, or starts a thread on a fresh
source. -/
theorem Feeding.of_quiet {threads : Threads σ} (hf : Feeding content fps s)
    (hq : Threads.Quiet s.threads threads) :
    Feeding content fps { s with threads := threads } := by
  refine ⟨hf.slots.same hq.sps hq.pps rfl rfl, ?_, ?_, ?_, ?_, ?_⟩
  · intro u hu
    exact hf.idle u (hq.absent u hu)
  · intro u hu
    rcases hq.test u hu with htest | habsent
    · exact hf.between u htest
    · exact (hf.idle u habsent).2
  · intro x hx
    exact hf.made x (hq.made x hx)
  · intro x hx
    exact hf.fresh x (hq.fresh x hx)
  · intro u hu
    rcases hq.pump u hu with ⟨huses, hwaiting⟩ | ⟨habsent, htest, x, hx⟩
    · have hpass := hf.reading u huses
      rw [← hwaiting] at hpass
      exact hpass
    · obtain ⟨hheard, hcall⟩ := hf.idle u habsent
      have hpass := hf.fresh x (Or.inr hx)
      simp only [htest, hheard, hcall, PumpPc.waiting]
      exact hpass

theorem SlotsSound.lock {source : FileSource} {nal : Bytes} {rest : List Bytes}
    (h : SlotsSound content s) (hpass : InPass content source (s.heard u) (nal :: rest)) :
    Cached (nals (segments content)) (s.threads.hub.cacheParameterSets nal) ∧
    Unheard (s.threads.hub.cacheParameterSets nal) s.scanned ∧
    ∀ v, Unheard (s.threads.hub.cacheParameterSets nal)
      (Function.update s.heard u (s.heard u ++ [nal]) v) := by
  have hnal : nal ≠ [] := hpass.ne_nil nal (by simp)
  obtain ⟨r, left, -, -, -, hpasses⟩ := hpass
  have hfile : firstNal (s.heard u ++ nal :: (rest ++ nals left)) =
      firstNal (nals (segments content)) := by
    rw [← firstNal_passes (nals (segments content)) source.rewound, ← hpasses]
    rfl
  refine ⟨h.cached.cache (h.heard u) hfile, h.scanned.cache nal, ?_⟩
  intro v
  by_cases hv : v = u
  · subst hv
    rw [Function.update_self]
    exact (h.heard v).cache_snoc hnal
  · rw [Function.update_of_ne hv]
    exact (h.heard v).cache nal

variable [DecidableEq σ]

theorem feeding_step (h : Step content fps s l t) (hs : Threads.Sound s.threads)
    (hf : Feeding content fps s) : Feeding content fps t := by
  cases h with
  | make hc =>
    exact hf.of_start hs (by simp [hc, ControlPc.starting]) rfl rfl rfl
      (hf.slots.same rfl rfl rfl rfl) (fun _ _ => rfl) (by simp)
  | start r now hr hc hok =>
    have hmade := hf.made _ hc
    refine hf.of_start hs (by simp [hc, ControlPc.starting]) rfl rfl rfl
      (hf.slots.same rfl rfl rfl rfl) (by simp) ?_
    intro x _
    dsimp only
    rw [hmade]
    exact inPass_started hr fps now
  | startFails now hc hok =>
    exact hf.of_start hs (by simp [hc, ControlPc.starting]) rfl rfl rfl
      (hf.slots.same rfl rfl rfl rfl) (by simp) (by simp)
  | @call u hp hrun =>
    have hpass := hf.pass hp rfl
    rw [hf.between u hp] at hpass
    refine hf.of_pump hs hp rfl rfl (by simp) rfl ?_ (hf.slots.same rfl rfl rfl rfl) (by simp) ?_
    · intro v hv
      exact ⟨Function.update_of_ne hv _ _, rfl⟩
    · intro _
      simp only [Function.update_self]
      exact hpass.readNal
  | @callback u nal rest ok hp hcall hnal =>
    have hpass := hf.pass hp rfl
    rw [hcall] at hpass
    refine hf.of_pump hs hp rfl rfl (by simp) rfl ?_ (hf.slots.same rfl rfl rfl rfl) (by simp) ?_
    · intro v hv
      exact ⟨Function.update_of_ne hv _ _, rfl⟩
    · intro _
      simp only [Function.update_self]
      exact hpass
  | @callbackEmpty u rest ok hp hcall =>
    have hpass := hf.pass hp rfl
    rw [hcall] at hpass
    exact absurd rfl (hpass.ne_nil [] (by simp))
  | @lock u nal hp hm =>
    have hpass := hf.pass hp rfl
    obtain ⟨hcached, hscanned, hheard⟩ := hf.slots.lock hpass
    refine hf.of_pump hs hp rfl rfl (by simp) rfl ?_ ⟨hcached, hscanned, hheard⟩ (by simp) ?_
    · intro v hv
      exact ⟨rfl, Function.update_of_ne hv _ _⟩
    · intro _
      simp only [Function.update_self]
      exact hpass.hear
  | @returnTrue u hp hcall =>
    have hpass := hf.pass hp rfl
    exact hf.of_pump hs hp rfl rfl (by simp) rfl (fun _ _ => ⟨rfl, rfl⟩)
      (hf.slots.same rfl rfl rfl rfl) (by simp [hcall]) (fun _ => hpass)
  | @returnFalse u hp hcall =>
    have hpass := hf.pass hp rfl
    exact hf.of_pump hs hp rfl rfl (by simp) rfl (fun _ _ => ⟨rfl, rfl⟩)
      (hf.slots.same rfl rfl rfl rfl) (by simp) (fun _ => hpass)
  | @stop u eof hp =>
    exact hf.of_pump hs hp rfl rfl (by simp) rfl (fun _ _ => ⟨rfl, rfl⟩)
      (hf.slots.same rfl rfl rfl rfl) (by simp) (by simp [PumpPc.usesSource])
  | @other l threads h hquiet =>
    exact hf.of_quiet (Threads.quiet_step h hs.handles hquiet)

omit [DecidableEq σ] in
theorem feeding_initial (h : Initial content fps s) : Feeding content fps s := by
  obtain ⟨disk, source, hdisk, rfl⟩ := h
  obtain ⟨hcached, hscanned⟩ := prescan_cached (σ := σ) fps hdisk
  refine ⟨⟨hcached, hscanned, ?_⟩, by simp, by simp, by simp, by simp, ?_⟩
  · intro u type _ _ nal hnal
    simp at hnal
  · simp [PumpPc.usesSource]

theorem feeding_reachable (h : Reachable (Initial content fps) (Step content fps) s) :
    Threads.Sound s.threads ∧ Feeding content fps s := by
  refine h.invariant (p := fun s => Threads.Sound s.threads ∧ Feeding content fps s) ?_ ?_
  · rintro s l t hst ⟨hs, hf⟩
    exact ⟨Threads.sound_step _ _ _ hst.threads hs, feeding_step hst hs hf⟩
  · intro s hi
    exact ⟨Threads.sound_initial hi.threads, feeding_initial hi⟩

/-- A slot that is not empty does not change. -/
theorem parameterSet_step (h : Threads.Step s.threads l t.threads) {type : UInt8}
    (htype : Cacheable type) (hslot : s.threads.hub.parameterSet type ≠ []) :
    t.threads.hub.parameterSet type = s.threads.hub.parameterSet type := by
  generalize t.threads = t' at h
  cases h with
  | pumpLock hp hm => exact parameterSet_cache_of_ne htype hslot
  | _ => rfl

theorem parameterSet_run {ls : List (Threads.Label σ)} (h : Run (Step content fps) s ls t)
    {type : UInt8} (htype : Cacheable type) (hslot : s.threads.hub.parameterSet type ≠ []) :
    t.threads.hub.parameterSet type = s.threads.hub.parameterSet type := by
  induction h with
  | refl => rfl
  | stepL h _ ih =>
    have hstep := parameterSet_step h.threads htype hslot
    rw [ih (by rwa [hstep]), hstep]

/-- A thread or the prescan has brought every NAL of the file to the slots. -/
def PassComplete (content : Bytes) (s : FileHub σ) : Prop :=
  nals (segments content) <+: s.scanned ∨ ∃ u, nals (segments content) <+: s.heard u

omit [DecidableEq σ] in
theorem Feeding.passComplete (hf : Feeding content fps s)
    (huses : (s.threads.pump u).usesSource = true)
    (hwaiting : (s.threads.pump u).waiting = []) (hcall : (s.call u).1 = [])
    (hrewound : 0 < s.source.rewound) : PassComplete content s := by
  have hpass := hf.reading u huses
  rw [hwaiting, hcall] at hpass
  exact Or.inr ⟨u, hpass.complete hrewound⟩

omit [DecidableEq σ] in
theorem SlotsSound.complete (h : SlotsSound content s) (hpass : PassComplete content s)
    {type : UInt8} (htype : Cacheable type) :
    s.threads.hub.parameterSet type ≠ [] ↔
      ∃ nal ∈ nals (segments content), nalTypeOf nal = type := by
  rcases hpass with hscanned | ⟨u, hheard⟩
  · exact h.cached.complete h.scanned hscanned htype
  · exact h.cached.complete (h.heard u) hheard htype

theorem sprop_run {ls : List (Threads.Label σ)} (h : Run (Step content fps) s ls t)
    (hsprop : s.threads.hub.spropParameterSets ≠ []) :
    t.threads.hub.spropParameterSets = s.threads.hub.spropParameterSets := by
  have hboth : ¬ (s.threads.hub.sps = [] ∨ s.threads.hub.pps = []) := by
    intro hempty
    exact hsprop (if_pos hempty)
  obtain ⟨hsps, hpps⟩ := not_or.mp hboth
  have hsps' : t.threads.hub.sps = s.threads.hub.sps := parameterSet_run h (.inl rfl) hsps
  have hpps' : t.threads.hub.pps = s.threads.hub.pps := parameterSet_run h (.inr rfl) hpps
  rw [Hub.spropParameterSets, Hub.spropParameterSets, hsps', hpps']

/-- The prescan and the broadcasts agree: after each round of the one, and in every state that the
others reach, a slot is empty or holds the first NAL of its type in the file. It keeps that, and
when a pass is complete it is empty only if the file has no such NAL. -/
theorem parameterSets_agree (h : Reachable (Initial content fps) (Step content fps) s) :
    (∀ rounds reads, reads.flatten = content → Cached (nals (segments content))
      ((Hub.create fps : Hub σ).prescanLoop rounds [] reads).1) ∧
    (∀ type, Cacheable type →
      (s.threads.hub.parameterSet type = [] ∨
        firstNal (nals (segments content)) type = some (s.threads.hub.parameterSet type)) ∧
      (∀ ls t, Run (Step content fps) s ls t → s.threads.hub.parameterSet type ≠ [] →
        t.threads.hub.parameterSet type = s.threads.hub.parameterSet type) ∧
      (PassComplete content s → (s.threads.hub.parameterSet type ≠ [] ↔
        ∃ nal ∈ nals (segments content), nalTypeOf nal = type))) ∧
    (∀ u, (s.threads.pump u).usesSource = true → (s.threads.pump u).waiting = [] →
      (s.call u).1 = [] → 0 < s.source.rewound → PassComplete content s) ∧
    (s.threads.hub.spropParameterSets ≠ [] →
      (∃ sps pps, firstNal (nals (segments content)) kNalSps = some sps ∧
        firstNal (nals (segments content)) kNalPps = some pps ∧
        s.threads.hub.spropParameterSets =
          Util.base64Encode sps ++ ascii "," ++ Util.base64Encode pps) ∧
      ∀ ls t, Run (Step content fps) s ls t →
        t.threads.hub.spropParameterSets = s.threads.hub.spropParameterSets) := by
  obtain ⟨-, hf⟩ := feeding_reachable h
  refine ⟨?_, ?_, fun u => hf.passComplete, ?_⟩
  · intro rounds reads hreads
    obtain ⟨hcached, hunheard⟩ := cached_create (σ := σ) (nals (segments content)) fps
    exact (prescanLoop_cached rounds (by rw [List.nil_append, hreads]) hcached hunheard rfl).1
  · intro type htype
    refine ⟨hf.slots.cached type htype, ?_, fun hpass => hf.slots.complete hpass htype⟩
    intro ls t hrun hslot
    exact parameterSet_run hrun htype hslot
  · intro hsprop
    refine ⟨hf.slots.cached.sprop hsprop, ?_⟩
    intro ls t hrun
    exact sprop_run hrun hsprop

/-- The prescan fills both slots, reading the file in two pieces, and the first broadcast brings
the same SPS again. -/
theorem parameterSets_agree_prescan :
    let content : Bytes := [0, 0, 1, 103, 66, 0, 0, 1, 104, 206, 0, 0, 1, 101, 136]
    ∃ s : FileHub Unit, Reachable (Initial content 30) (Step content 30) s ∧
      s.scanned = [[103, 66], [104, 206]] ∧ s.heard 0 = [[103, 66]] ∧
      s.threads.hub.parameterSet kNalSps = [103, 66] ∧
      firstNal (nals (segments content)) kNalSps = some (s.threads.hub.parameterSet kNalSps) ∧
      ∃ sps pps, firstNal (nals (segments content)) kNalSps = some sps ∧
        firstNal (nals (segments content)) kNalPps = some pps ∧
        s.threads.hub.spropParameterSets =
          Util.base64Encode sps ++ ascii "," ++ Util.base64Encode pps := by
  intro content
  let r : Recording := ⟨content, fun _ => [content], fun _ => rfl⟩
  let disk : Reads := [[0, 0, 1, 103, 66, 0, 0], [1, 104, 206, 0, 0, 1, 101, 136]]
  let scan := (Hub.create 30 : Hub Unit).prescanParameterSets (some disk)
  let s₀ : FileHub Unit :=
    { threads := { hub := scan.1 }, source := .create 30 true, scanned := scan.2 }
  have h₀ : Reachable (Initial content 30) (Step content 30) s₀ :=
    Reachable.initial ⟨some disk, .create 30 true, by simp [disk, content], rfl⟩
  have h₁ := h₀.step (.other (.callSubscribe () rfl) (by simp [Threads.Label.handlesSource]))
  have h₂ := h₁.step (.other (.subscribeLock rfl rfl) (by simp [Threads.Label.handlesSource]))
  have h₃ := h₂.step (.other (.subscribeStopped rfl rfl) (by simp [Threads.Label.handlesSource]))
  have h₄ := h₃.step (.other (.subscribeNoJoin rfl rfl) (by simp [Threads.Label.handlesSource]))
  have h₅ := h₄.step (.make rfl)
  have h₆ := h₅.step (.start r 0 rfl rfl rfl)
  have h₇ := h₆.step (.other (.subscribeRun rfl) (by simp [Threads.Label.handlesSource]))
  have h₈ := h₇.step (.other (.subscribeSpawn rfl) (by simp [Threads.Label.handlesSource]))
  have h₉ := h₈.step (.other (.subscribePush rfl) (by simp [Threads.Label.handlesSource]))
  have h₁₀ := h₉.step (.other (.subscribeLeave rfl) (by simp [Threads.Label.handlesSource]))
  have h₁₁ := h₁₀.step (@Step.call Unit _ content 30 _ 0 rfl rfl)
  have h₁₂ := h₁₁.step
    (@Step.callback Unit _ content 30 _ 0 [103, 66] [] true rfl (by decide +kernel) (by decide))
  have h₁₃ := h₁₂.step (@Step.lock Unit _ content 30 _ 0 [103, 66] rfl rfl)
  obtain ⟨-, hslots, -, hsprop⟩ := parameterSets_agree h₁₃
  have hsps := ((hslots kNalSps (Or.inl rfl)).1).resolve_left (by decide +kernel)
  refine ⟨_, h₁₃, by decide +kernel, by decide +kernel, by decide +kernel, hsps, ?_⟩
  exact (hsprop (by decide +kernel)).1

end FileHub
end Veda.Media
