import Veda.Media.CameraHub

/-!
What the threads of the Hub hear from the camera. Each has a process of its own and hears its
output from the beginning, and the slots keep what was heard first.
-/
namespace Veda.Media

open Transitions Camera

variable {σ : Type}

/-- What a thread has heard of a process, has in hand and can still get is all that the process
writes. -/
structure InStream (p : Process) (buffer : Bytes) (heard inHand : List Bytes) (goesOn : Bool) :
    Prop where
  whole : heard ++ (inHand ++ nals (segments (buffer ++ p.reads.flatten))) =
    nals (segments p.output)
  ends : goesOn = false → nals (segments (buffer ++ p.reads.flatten)) = []

section InStream
variable {p : Process} {buffer : Bytes} {heard inHand : List Bytes} {goesOn : Bool}

theorem inStream_started (command : Bytes) (reads : Reads) :
    InStream { command, output := reads.flatten, reads } [] [] [] true :=
  ⟨rfl, fun h => by cases h⟩

theorem InStream.readNal (h : InStream p buffer heard [] goesOn) :
    let call := Media.readNal buffer p.reads
    InStream { p with reads := call.reads } call.buffer heard call.callback.toList call.result := by
  obtain ⟨hcallback, hresult, hrest⟩ := readNal_left buffer p.reads rfl
  constructor
  · rw [hcallback, hrest, nals_take_tail]
    exact h.whole
  · intro hend
    rw [hresult, decide_eq_false_iff_not] at hend
    have hlast : (segments (buffer ++ p.reads.flatten)).tail = [] := by
      apply List.eq_nil_of_length_eq_zero
      rw [List.length_tail]
      omega
    rw [hrest, hlast]
    rfl

/-- The NAL that is brought to the subscribers leaves the hand. -/
theorem InStream.hear {nal : Bytes} (h : InStream p buffer heard (nal :: inHand) goesOn) :
    InStream p buffer (heard ++ [nal]) inHand goesOn := by
  refine ⟨?_, h.ends⟩
  rw [← h.whole, List.append_assoc]
  rfl

theorem InStream.ne_nil (h : InStream p buffer heard inHand goesOn) : ∀ nal ∈ inHand, nal ≠ [] := by
  intro nal hnal
  have hmem : nal ∈ nals (segments p.output) := by
    rw [← h.whole]
    simp [hnal]
  exact nals_ne_nil nal hmem

theorem InStream.isPrefix (h : InStream p buffer heard inHand goesOn) :
    heard <+: nals (segments p.output) := by
  rw [← h.whole]
  exact List.prefix_append ..

/-- Behind the end of the stream nothing is missing. -/
theorem InStream.complete (h : InStream p buffer heard [] false) :
    heard = nals (segments p.output) := by
  rw [← h.whole, h.ends rfl]
  simp

end InStream

namespace CameraHub

open Threads (Label)

/-- What each thread reads is the output of its own process, from its beginning. -/
structure Streams (s : CameraHub σ) : Prop where
  fresh : ∀ x, s.threads.control = .subscribe .run x ∨ s.threads.control = .subscribe .spawn x →
    ∃ p, s.shell[s.threads.spawned]? = some p ∧ InStream p s.source.buffer [] [] true
  idle : ∀ u, s.threads.pump u = .absent → s.heard u = [] ∧ s.call u = ([], true)
  between : ∀ u, s.threads.pump u = .test → (s.call u).1 = []
  reading : ∀ u, (s.threads.pump u).usesSource = true → u + 1 = s.threads.spawned ∧
    ∃ p, s.shell[u]? = some p ∧ InStream p s.source.buffer (s.heard u)
      ((s.threads.pump u).waiting ++ (s.call u).1) (s.call u).2
  past : ∀ u p, s.shell[u]? = some p → s.heard u <+: nals (segments p.output)
  complete : ∀ u, (s.threads.pump u).sawEof = true → ∀ p, s.shell[u]? = some p →
    s.heard u = nals (segments p.output)

variable {cfg : SourceConfig} {s t : CameraHub σ} {l : Label σ} {u : Nat}

/-- A pump in its stream. -/
theorem Streams.stream (h : Streams s) {pc : PumpPc σ} (hp : s.threads.pump u = pc)
    (huses : pc.usesSource = true) : u + 1 = s.threads.spawned ∧
      ∃ p, s.shell[u]? = some p ∧
        InStream p s.source.buffer (s.heard u) (pc.waiting ++ (s.call u).1) (s.call u).2 := by
  subst hp
  exact h.reading u huses

/-- While a pump is live no source is made, and no other pump reads. -/
theorem Streams.of_pump {pc pc' : PumpPc σ} (h : Streams s) (hs : Threads.Sound s.threads)
    (hp : s.threads.pump u = pc) (huses : pc.usesSource = true)
    (hpump : t.threads.pump = (s.threads.setPump u pc').pump) (hpc : pc' ≠ .absent)
    (hcontrol : t.threads.control = s.threads.control)
    (hspawned : t.threads.spawned = s.threads.spawned)
    (hshell : ∀ (v : Nat) (p : Process), t.shell[v]? = some p →
      ∃ q : Process, s.shell[v]? = some q ∧ p.output = q.output)
    (hother : ∀ v, v ≠ u → t.call v = s.call v ∧ t.heard v = s.heard v)
    (htest : pc' = .test → (t.call u).1 = [])
    (hstream : pc'.usesSource = true → ∃ p, t.shell[u]? = some p ∧
      InStream p t.source.buffer (t.heard u) (pc'.waiting ++ (t.call u).1) (t.call u).2)
    (hpast : ∀ p, t.shell[u]? = some p → t.heard u <+: nals (segments p.output))
    (hcomplete : pc'.sawEof = true → ∀ p, t.shell[u]? = some p →
      t.heard u = nals (segments p.output)) : Streams t := by
  have hlive : (s.threads.pump u).live = true :=
    Threads.PumpPc.live_of_usesSource (hp ▸ huses)
  have hbusy : t.threads.control.starting = false := by
    by_contra hstarting
    rw [hcontrol, Bool.not_eq_false] at hstarting
    have hdead := hs.handles.idle (Or.inl hstarting) u
    simp [hlive] at hdead
  have hown : t.threads.pump u = pc' := by
    rw [hpump, Threads.setPump_pump, if_pos rfl]
  have hkeep : ∀ v, v ≠ u → t.threads.pump v = s.threads.pump v := by
    intro v hne
    rw [hpump, Threads.setPump_pump, if_neg hne]
  refine ⟨?_, ?_, ?_, ?_, ?_, ?_⟩
  · rintro x (hx | hx) <;> simp [hx, ControlPc.starting] at hbusy
  · intro v hv
    have hne : v ≠ u := by
      rintro rfl
      exact hpc (hown.symm.trans hv)
    obtain ⟨hcall, hheard⟩ := hother v hne
    rw [hcall, hheard]
    exact h.idle v (hkeep v hne ▸ hv)
  · intro v hv
    by_cases hne : v = u
    · subst hne
      exact htest (hown.symm.trans hv)
    · rw [(hother v hne).1]
      exact h.between v (hkeep v hne ▸ hv)
  · intro v hv
    by_cases hne : v = u
    · subst hne
      rw [hown] at hv ⊢
      rw [hspawned]
      exact ⟨(h.stream hp huses).1, hstream hv⟩
    · have huses : (s.threads.pump v).usesSource = true := hkeep v hne ▸ hv
      exact absurd (hs.handles.same (Threads.PumpPc.live_of_usesSource huses) hlive) hne
  · intro v p hv
    by_cases hne : v = u
    · subst hne
      exact hpast p hv
    · obtain ⟨q, hq, houtput⟩ := hshell v p hv
      rw [(hother v hne).2, houtput]
      exact h.past v q hq
  · intro v heof p hv
    by_cases hne : v = u
    · subst hne
      exact hcomplete (hown ▸ heof) p hv
    · obtain ⟨q, hq, houtput⟩ := hshell v p hv
      rw [(hother v hne).2, houtput]
      exact h.complete v (hkeep v hne ▸ heof) q hq

/-- A step of the control thread between the last pump and the next, which may start a
process. -/
theorem Streams.of_start (h : Streams s)
    (hdead : ∀ u, (s.threads.pump u).live = false)
    (habsent : ∀ u, s.threads.spawned ≤ u → s.threads.pump u = .absent)
    (hpump : t.threads.pump = s.threads.pump) (hcall : t.call = s.call)
    (hheard : t.heard = s.heard)
    (hshell : ∀ (v : Nat) (p : Process), t.shell[v]? = some p →
      s.shell[v]? = some p ∨ s.threads.spawned ≤ v)
    (hfresh : ∀ x, t.threads.control = .subscribe .run x ∨
      t.threads.control = .subscribe .spawn x →
        ∃ p, t.shell[t.threads.spawned]? = some p ∧ InStream p t.source.buffer [] [] true) :
    Streams t := by
  refine ⟨hfresh, ?_, ?_, ?_, ?_, ?_⟩
  · rw [hpump, hcall, hheard]
    exact h.idle
  · rw [hpump, hcall]
    exact h.between
  · intro u hu
    rw [hpump] at hu
    have hlive := Threads.PumpPc.live_of_usesSource hu
    rw [hdead u] at hlive
    cases hlive
  · intro u p hu
    rw [hheard]
    rcases hshell u p hu with hold | hnew
    · exact h.past u p hold
    · rw [(h.idle u (habsent u hnew)).1]
      exact List.nil_prefix
  · intro u heof p hu
    rw [hpump] at heof
    rw [hheard]
    rcases hshell u p hu with hold | hnew
    · exact h.complete u heof p hold
    · rw [habsent u hnew] at heof
      cases heof

/-- A step that does not touch the source goes on in the stream, or starts a thread for a fresh
process. -/
theorem Streams.of_aside {threads : Threads σ} (h : Streams s)
    (hq : Threads.Quiet s.threads threads) (ha : Threads.Aside s.threads threads) :
    Streams { s with threads := threads } := by
  have hcount := ha.startedSources
  refine ⟨?_, ?_, ?_, ?_, h.past, ?_⟩
  · intro x hx
    have hbefore := hq.fresh x hx
    have hspawned : threads.spawned = s.threads.spawned := by
      rw [Threads.startedSources, Threads.startedSources, ControlPc.spawning_of hx,
        ControlPc.spawning_of hbefore] at hcount
      exact Nat.add_right_cancel hcount
    dsimp only
    rw [hspawned]
    exact h.fresh x hbefore
  · intro u hu
    exact h.idle u (hq.absent u hu)
  · intro u hu
    rcases hq.test u hu with htest | habsent
    · exact h.between u htest
    · dsimp only
      rw [(h.idle u habsent).2]
  · intro u hu
    rcases hq.pump u hu with ⟨huses, hwaiting⟩ | ⟨habsent, htest, x, hx⟩
    · obtain ⟨hlast, hstream⟩ := h.reading u huses
      rcases ha.newest u hu with ⟨-, hspawned⟩ | ⟨habsent, -⟩
      · dsimp only
        rw [hspawned, hwaiting]
        exact ⟨hlast, hstream⟩
      · rw [habsent] at huses
        cases huses
    · rcases ha.newest u hu with ⟨huses, -⟩ | ⟨-, rfl, hspawned⟩
      · rw [habsent] at huses
        cases huses
      · obtain ⟨hheard, hcall⟩ := h.idle _ habsent
        dsimp only
        rw [htest, hheard, hcall]
        exact ⟨hspawned.symm, h.fresh x (Or.inr hx)⟩
  · intro u heof
    exact h.complete u (ha.eof u heof)

variable [DecidableEq σ]

theorem streams_step (h : Step cfg s l t) (hs : Threads.Sound s.threads) (ho : Owned cfg s)
    (hst : Streams s) : Streams t := by
  have hsame : ∀ (v : Nat) (p : Process), s.shell[v]? = some p →
      ∃ q : Process, s.shell[v]? = some q ∧ p.output = q.output :=
    fun v p hp => ⟨p, hp, rfl⟩
  have hunused := fun hsets => (hs.source_unused hsets).1
  have habsent := hs.handles.absent
  cases h with
  | make hc hcfg =>
    refine hst.of_start (hs.handles.idle (Or.inl (by simp [hc, ControlPc.starting]))) habsent rfl
      rfl rfl ?_ (by simp)
    intro v p hp
    rw [ho.dropSource (hunused (by simp [hc, ControlPc.setsSource]))] at hp
    exact Or.inl hp
  | @start x output hc hok =>
    have hmade := ho.made x hc
    have hlength := ho.counted
    simp only [Threads.startedSources, hc, ControlPc.spawning, Bool.toNat_false,
      Nat.add_zero] at hlength
    rw [hmade] at hok ⊢
    cases output with
    | none => cases hok
    | some reads =>
      refine hst.of_start (hs.handles.idle (Or.inl (by simp [hc, ControlPc.starting]))) habsent rfl
        rfl rfl ?_ ?_
      · intro v p hp
        by_cases hlt : v < s.shell.length
        · left
          rwa [← List.getElem?_append_left hlt]
        · exact Or.inr (by omega)
      · intro _ _
        dsimp only
        rw [← hlength]
        exact ⟨_, List.getElem?_concat_length, inStream_started _ reads⟩
  | @startFails x output hc hok =>
    have hmade := ho.made x hc
    rw [hmade] at hok ⊢
    cases output with
    | some reads => cases hok
    | none =>
      refine hst.of_start (hs.handles.idle (Or.inl (by simp [hc, ControlPc.starting]))) habsent rfl
        rfl rfl ?_ (by simp)
      intro v p hp
      exact Or.inl hp
  | reset hc =>
    refine hst.of_start (hs.handles.idle (Or.inl (by simp [hc, ControlPc.starting]))) habsent rfl
      rfl rfl ?_ (by simp)
    intro v p hp
    rw [ho.dropSource (hunused (by simp [hc, ControlPc.setsSource]))] at hp
    exact Or.inl hp
  | destroyMembers hc =>
    refine hst.of_start (hs.handles.idle (Or.inr hc)) habsent rfl rfl rfl ?_ (by simp)
    intro v p hp
    rw [ho.dropSource (hunused (by simp [hc, ControlPc.setsSource]))] at hp
    exact Or.inl hp
  | @call u hp hrun =>
    obtain ⟨hpipe, -⟩ := ho.reads hs (u := u) (by simp [hp, PumpPc.usesSource])
    obtain ⟨hlast, p, hget, hstream⟩ := hst.stream hp rfl
    rw [hst.between u hp] at hstream
    have hown : s.threads.spawned - 1 = u := by omega
    rw [hown] at hpipe
    have hreads : s.shell.readsOf u = p.reads := by
      rw [Shell.readsOf, hget]
      rfl
    have hnext := hstream.readNal
    rw [Source.readNal_open s.shell hpipe]
    dsimp only at hnext ⊢
    rw [hreads]
    generalize Media.readNal s.source.buffer p.reads = call at hnext ⊢
    have hget' : (s.shell.consume u call.reads)[u]? = some { p with reads := call.reads } := by
      rw [Shell.consume_get, if_pos rfl, hget]
      rfl
    refine hst.of_pump hs hp rfl rfl (by simp) rfl rfl ?_ ?_ (by simp) ?_ ?_
      (by simp [PumpPc.sawEof])
    · intro v q hq
      rw [Shell.consume_get] at hq
      split at hq
      · obtain ⟨q', hq', rfl⟩ := Option.map_eq_some_iff.mp hq
        exact ⟨q', hq', rfl⟩
      · exact ⟨q, hq, rfl⟩
    · intro v hv
      exact ⟨Function.update_of_ne hv _ _, rfl⟩
    · intro _
      refine ⟨_, hget', ?_⟩
      simp only [Function.update_self]
      exact hnext
    · intro q hq
      rw [hget'] at hq
      cases hq
      exact hnext.isPrefix
  | @callback u nal rest ok hp hcall hnal =>
    obtain ⟨hlast, p, hget, hstream⟩ := hst.stream hp rfl
    rw [hcall] at hstream
    refine hst.of_pump hs hp rfl rfl (by simp) rfl rfl hsame ?_ (by simp) ?_ (hst.past u)
      (by simp [PumpPc.sawEof])
    · intro v hv
      exact ⟨Function.update_of_ne hv _ _, rfl⟩
    · intro _
      refine ⟨p, hget, ?_⟩
      simp only [Function.update_self]
      exact hstream
  | @callbackEmpty u rest ok hp hcall =>
    obtain ⟨hlast, p, hget, hstream⟩ := hst.stream hp rfl
    rw [hcall] at hstream
    exact absurd rfl (hstream.ne_nil [] (by simp))
  | @lock u nal hp hm =>
    obtain ⟨hlast, p, hget, hstream⟩ := hst.stream hp rfl
    have hheard := hstream.hear
    refine hst.of_pump hs hp rfl rfl (by simp) rfl rfl hsame ?_ (by simp) ?_ ?_
      (by simp [PumpPc.sawEof])
    · intro v hv
      exact ⟨rfl, Function.update_of_ne hv _ _⟩
    · intro _
      refine ⟨p, hget, ?_⟩
      simp only [Function.update_self]
      exact hheard
    · intro q hq
      simp only [Function.update_self]
      rw [hget] at hq
      cases hq
      exact hheard.isPrefix
  | @returnTrue u hp hcall =>
    obtain ⟨hlast, hstream⟩ := hst.stream hp rfl
    exact hst.of_pump hs hp rfl rfl (by simp) rfl rfl hsame (fun _ _ => ⟨rfl, rfl⟩)
      (by simp [hcall]) (fun _ => hstream) (hst.past u) (by simp [PumpPc.sawEof])
  | @returnFalse u hp hcall =>
    obtain ⟨hlast, p, hget, hstream⟩ := hst.stream hp rfl
    refine hst.of_pump hs hp rfl rfl (by simp) rfl rfl hsame (fun _ _ => ⟨rfl, rfl⟩) (by simp)
      (fun _ => ⟨p, hget, hstream⟩) (hst.past u) ?_
    intro _ q hq
    rw [hget] at hq
    cases hq
    rw [hcall] at hstream
    exact hstream.complete
  | @stop u eof hp =>
    obtain ⟨hpipe, -⟩ := ho.reads hs (u := u) (by simp [hp, PumpPc.usesSource])
    rw [Source.stop_open s.shell hpipe]
    have hget : ∀ (v : Nat) (p : Process), (s.shell.pclose (s.threads.spawned - 1))[v]? = some p →
        ∃ q : Process, s.shell[v]? = some q ∧ p.output = q.output := by
      intro v q hq
      rw [Shell.pclose_get] at hq
      split at hq
      · obtain ⟨q', hq', rfl⟩ := Option.map_eq_some_iff.mp hq
        exact ⟨q', hq', rfl⟩
      · exact ⟨q, hq, rfl⟩
    refine hst.of_pump hs hp rfl rfl (by simp) rfl rfl hget (fun _ _ => ⟨rfl, rfl⟩) (by simp)
      (by simp [PumpPc.usesSource]) ?_ ?_
    · intro p hp
      obtain ⟨q, hq, houtput⟩ := hget u p hp
      rw [houtput]
      exact hst.past u q hq
    · intro heof p hp'
      obtain ⟨q, hq, houtput⟩ := hget u p hp'
      rw [houtput]
      refine hst.complete u ?_ q hq
      rw [hp]
      exact heof
  | other h hquiet =>
    exact hst.of_aside (Threads.quiet_step h hs.handles fun hhandles => hquiet (Or.inl hhandles))
      (Threads.aside_step h hs.handles hquiet)

/-- What holds in every reachable state. -/
structure Tended (cfg : SourceConfig) (s : CameraHub σ) : Prop where
  threads : Threads.Sound s.threads
  off : Threads.Off s.threads
  owned : Owned cfg s
  streams : Streams s

omit [DecidableEq σ] in
theorem tended_initial (h : Initial cfg s) : Tended cfg s := by
  refine ⟨Threads.sound_initial h.threads, Threads.off_initial h.threads, ?_, ?_⟩
  · obtain ⟨source, hpipe, rfl⟩ := h
    exact ⟨rfl, by simp, by simp, fun _ => hpipe, by simp, by simp⟩
  · obtain ⟨source, hpipe, rfl⟩ := h
    exact ⟨by simp, by simp, by simp, by simp [PumpPc.usesSource], by simp, by simp [PumpPc.sawEof]⟩

theorem tended_step (hst : Step cfg s l t) (hs : Tended cfg s) : Tended cfg t :=
  ⟨Threads.sound_step _ _ _ hst.threads hs.threads,
    Threads.off_step hst.threads hs.threads hs.off, owned_step hst hs.threads hs.owned,
    streams_step hst hs.threads hs.owned hs.streams⟩

theorem tended_reachable (h : Reachable (Initial cfg) (Step cfg) s) : Tended cfg s :=
  h.invariant (fun _ _ _ => tended_step) fun _ => tended_initial

omit [DecidableEq σ] in
theorem Owned.pipe_of_open (h : Owned cfg s) {k : Nat} :
    s.shell.Open k → s.source.pipe = some k := by
  rintro ⟨p, hp, hopen⟩
  by_contra hpipe
  have hcloses := h.closes k p hp
  rw [if_neg hpipe, hopen] at hcloses
  cases hcloses

/-- In no state are two processes open. A thread reads the one that was started for it, and has
heard it from the beginning, and without viewers every process has been closed, once. -/
theorem one_camera (h : Reachable (Initial cfg) (Step cfg) s) :
    (∀ j k, s.shell.Open j → s.shell.Open k → j = k) ∧
    (∀ p ∈ s.shell, p.command = (Source.create cfg.width cfg.height cfg.fps).command ∧
      p.closes ≤ 1) ∧
    (∀ u, (s.threads.pump u).usesSource = true → s.source.pipe = some u ∧ s.shell.Open u) ∧
    (∀ u p, s.shell[u]? = some p → s.heard u <+: nals (segments p.output) ∧
      ((s.threads.pump u).sawEof = true → s.heard u = nals (segments p.output))) ∧
    (s.threads.control = .dead ∨ s.threads.control = .idle ∧ s.threads.hub.subscribers = [] →
      ∀ p ∈ s.shell, p.closes = 1) := by
  obtain ⟨hs, hoff, ho, hst⟩ := tended_reachable h
  refine ⟨?_, ?_, ?_, ?_, ?_⟩
  · intro j k hj hk
    have hsame := (ho.pipe_of_open hj).symm.trans (ho.pipe_of_open hk)
    exact Option.some.inj hsame
  · intro p hp
    obtain ⟨k, hk⟩ := List.mem_iff_getElem?.mp hp
    refine ⟨ho.commands p hp, ?_⟩
    rw [ho.closes k p hk]
    split <;> omega
  · intro u huses
    obtain ⟨hlast, p, hget, -⟩ := hst.reading u huses
    have hpipe := (ho.reads hs huses).1
    have hown : s.threads.spawned - 1 = u := by omega
    rw [hown] at hpipe
    refine ⟨hpipe, p, hget, ?_⟩
    rw [ho.closes u p hget, if_pos hpipe]
  · intro u p hp
    exact ⟨hst.past u p hp, fun heof => hst.complete u heof p hp⟩
  · intro hquiet p hp
    have hsource : s.threads.source ≠ some .started := by
      rcases hquiet with hdead | ⟨hidle, hempty⟩
      · simp [hoff.dead hdead]
      · exact hoff.idle hidle hempty
    obtain ⟨k, hk⟩ := List.mem_iff_getElem?.mp hp
    rw [ho.closes k p hk, ho.free hsource, if_neg (by simp)]

/-- A step that leaves the source alone. -/
theorem untouched {threads : Threads σ} (hr : Reachable (Initial cfg) (Step cfg) s)
    (h : Threads.Step s.threads l threads) (hh : ¬ l.handlesSource s.threads)
    (hc : l = .control → s.threads.control.setsSource = false) :
    Reachable (Initial cfg) (Step cfg) { s with threads := threads } := by
  refine hr.step (.other h ?_)
  rintro (h | ⟨hl, hsets⟩)
  · exact hh h
  · rw [hc hl] at hsets
    cases hsets

/-- Two viewers in turn: the camera is started again for the second. -/
theorem one_camera_twice : ∃ s : CameraHub Unit, Reachable (Initial {}) (Step {}) s ∧
    s.shell.map Process.closes = [1, 0] ∧
    (∀ j k, s.shell.Open j → s.shell.Open k → j = k) ∧
    [[103, 66]] <+: nals (segments [0, 0, 1, 103, 66, 0, 0, 1, 101, 136]) := by
  have r : Reachable (Initial {}) (Step {})
      ({ threads := { hub := .create 30 }, source := .create 0 0 0 } : CameraHub Unit) :=
    .initial ⟨_, rfl, rfl⟩
  have r := untouched r (.callSubscribe () rfl) (by simp [Label.handlesSource]) (by simp)
  have r := untouched r (.subscribeLock rfl rfl) (by simp [Label.handlesSource]) fun _ => rfl
  have r := untouched r (.subscribeStopped rfl rfl) (by simp [Label.handlesSource]) fun _ => rfl
  have r := untouched r (.subscribeNoJoin rfl rfl) (by simp [Label.handlesSource]) fun _ => rfl
  have r := r.step (.make rfl (if_pos rfl))
  have r := r.step (.start (some [[0, 0, 1, 103, 66, 0, 0, 1, 101, 136]]) rfl rfl)
  have r := untouched r (.subscribeRun rfl) (by simp [Label.handlesSource]) fun _ => rfl
  have r := untouched r (.subscribeSpawn rfl) (by simp [Label.handlesSource]) fun _ => rfl
  have r := untouched r (.subscribePush rfl) (by simp [Label.handlesSource]) fun _ => rfl
  have r := untouched r (.subscribeLeave rfl) (by simp [Label.handlesSource]) (by simp)
  have r := r.step (.call (u := 0) rfl rfl)
  have r := r.step
    (@Step.callback Unit _ {} _ 0 [103, 66] [] true rfl (by decide +kernel) (by simp))
  have r := r.step (.lock (u := 0) rfl rfl)
  have r := untouched r (.pumpSend (t := 0) rfl) (by simp [Label.handlesSource]) (by simp)
  have r := untouched r (.pumpUnlock (t := 0) rfl) (by simp [Label.handlesSource]) (by simp)
  have r := untouched r (.callUnsubscribe () rfl) (by simp [Label.handlesSource]) (by simp)
  have r := untouched r (.unsubscribeLock rfl rfl) (by simp [Label.handlesSource]) fun _ => rfl
  have r := untouched r (.unsubscribeErase rfl) (by simp [Label.handlesSource]) fun _ => rfl
  have r := untouched r (.unsubscribeLast rfl rfl rfl)
    (by simp [Label.handlesSource]) fun _ => rfl
  have r := untouched r (.unsubscribeStop rfl) (by simp [Label.handlesSource]) fun _ => rfl
  have r := untouched r (.unsubscribeMove rfl) (by simp [Label.handlesSource]) fun _ => rfl
  have r := untouched r (.unsubscribeUnlock rfl) (by simp [Label.handlesSource]) fun _ => rfl
  have r := r.step (.returnTrue (u := 0) rfl (by decide +kernel))
  have r := untouched r (.pumpQuit (t := 0) rfl rfl) (by simp [Label.handlesSource]) (by simp)
  have r := r.step (.stop (u := 0) rfl)
  have r := untouched r (.pumpStore (t := 0) rfl) (by simp [Label.handlesSource]) (by simp)
  have r := untouched r (.unsubscribeJoin rfl rfl rfl) (by simp [Label.handlesSource]) (by simp)
  have r := untouched r (.callSubscribe () rfl) (by simp [Label.handlesSource]) (by simp)
  have r := untouched r (.subscribeLock rfl rfl) (by simp [Label.handlesSource]) fun _ => rfl
  have r := untouched r (.subscribeStopped rfl rfl) (by simp [Label.handlesSource]) fun _ => rfl
  have r := untouched r (.subscribeNoJoin rfl rfl) (by simp [Label.handlesSource]) fun _ => rfl
  have r := r.step (.make rfl (if_pos rfl))
  have r := r.step (.start (some [[0, 0, 1, 104]]) rfl rfl)
  obtain ⟨hone, -, -, hheard, -⟩ := one_camera r
  exact ⟨_, r, rfl, hone, (hheard 0 _ rfl).1⟩

/-- The NALs that all threads so far have brought to the subscribers, in order. -/
def heardSoFar (s : CameraHub σ) : List Bytes := (List.range s.threads.spawned).flatMap s.heard

/-- The slots against them. -/
structure Slots (s : CameraHub σ) : Prop where
  cached : Cached s.heardSoFar s.threads.hub
  unheard : Unheard s.threads.hub s.heardSoFar

/-- Threads that have not been started have heard nothing. -/
theorem heard_range {heard : Nat → List Bytes} {m n : Nat} (hnone : ∀ u, n ≤ u → heard u = [])
    (hle : n ≤ m) : (List.range m).flatMap heard = (List.range n).flatMap heard := by
  induction m, hle using Nat.le_induction with
  | base => rfl
  | succ m hle ih => rw [List.range_succ, List.flatMap_append, ih, List.flatMap_singleton,
      hnone m hle, List.append_nil]

omit [DecidableEq σ] in
theorem Slots.same (h : Slots s) (hsps : t.threads.hub.sps = s.threads.hub.sps)
    (hpps : t.threads.hub.pps = s.threads.hub.pps) (hheard : t.heardSoFar = s.heardSoFar) :
    Slots t := by
  have hslot : ∀ type, t.threads.hub.parameterSet type = s.threads.hub.parameterSet type := by
    intro type
    rw [Hub.parameterSet, Hub.parameterSet, hsps, hpps]
  constructor
  · intro type htype
    rw [hslot, hheard]
    exact h.cached type htype
  · intro type htype
    rw [hslot, hheard]
    exact h.unheard type htype

omit [DecidableEq σ] in
/-- One more NAL. -/
theorem Slots.lock {nal : Bytes} (h : Slots s) (hnal : nal ≠ [])
    (hhub : t.threads.hub = s.threads.hub.cacheParameterSets nal)
    (hheard : t.heardSoFar = s.heardSoFar ++ [nal]) : Slots t := by
  have hcached : Cached (s.heardSoFar ++ [nal]) s.threads.hub := by
    intro type htype
    rcases h.cached type htype with hempty | hfirst
    · exact Or.inl hempty
    · refine Or.inr ?_
      rw [firstNal] at hfirst ⊢
      rw [List.find?_append, hfirst]
      rfl
  constructor
  · rw [hhub, hheard]
    exact hcached.cache h.unheard rfl
  · rw [hhub, hheard]
    exact h.unheard.cache_snoc hnal

theorem slots_step (h : Step cfg s l t) (hs : Tended cfg s) (hsl : Slots s) : Slots t := by
  have hnone : ∀ u, s.threads.spawned ≤ u → s.heard u = [] :=
    fun u hu => (hs.streams.idle u (hs.threads.handles.absent u hu)).1
  cases h with
  | @lock u nal hp hm =>
    obtain ⟨hlast, p, -, hstream⟩ := hs.streams.stream hp rfl
    refine hsl.lock (hstream.ne_nil nal (by simp [PumpPc.waiting])) rfl ?_
    have hbefore : ∀ v ∈ List.range u,
        Function.update s.heard u (s.heard u ++ [nal]) v = s.heard v := by
      intro v hv
      exact Function.update_of_ne (Nat.ne_of_lt (List.mem_range.mp hv)) _ _
    simp only [heardSoFar, Threads.setPump_spawned, ← hlast]
    rw [List.range_succ, List.flatMap_append, List.flatMap_append, List.flatMap_congr hbefore,
      List.flatMap_singleton, List.flatMap_singleton, Function.update_self, List.append_assoc]
  | other h hquiet =>
    have hq := Threads.quiet_step h hs.threads.handles fun hhandles => hquiet (Or.inl hhandles)
    refine hsl.same hq.sps hq.pps (heard_range hnone ?_)
    dsimp only
    rcases Threads.spawned_step h with hspawned | hspawned <;> omega
  | _ => exact hsl.same rfl rfl rfl

theorem slots_reachable (h : Reachable (Initial cfg) (Step cfg) s) : Slots s := by
  refine (h.invariant (p := fun s => Tended cfg s ∧ Slots s) ?_ ?_).2
  · rintro s l t hst ⟨hs, hsl⟩
    exact ⟨tended_step hst hs, slots_step hst hs hsl⟩
  · intro s hi
    refine ⟨tended_initial hi, ?_⟩
    obtain ⟨source, -, rfl⟩ := hi
    obtain ⟨hcached, hunheard⟩ := cached_create (σ := σ) [] cfg.fps
    exact ⟨hcached, hunheard⟩

/-- Without a file to scan, the parameter sets are the first that any thread has brought, however
often the camera was started since. -/
theorem camera_parameterSets (h : Reachable (Initial cfg) (Step cfg) s) :
    (∀ type, Cacheable type →
      s.threads.hub.parameterSet type = (firstNal s.heardSoFar type).getD []) ∧
    s.threads.hub.spropParameterSets =
      match firstNal s.heardSoFar kNalSps, firstNal s.heardSoFar kNalPps with
      | some sps, some pps => Util.base64Encode sps ++ ascii "," ++ Util.base64Encode pps
      | _, _ => [] := by
  obtain ⟨hcached, hunheard⟩ := slots_reachable h
  have hslot : ∀ type, Cacheable type →
      firstNal s.heardSoFar type = if s.threads.hub.parameterSet type = [] then none
        else some (s.threads.hub.parameterSet type) := by
    intro type htype
    by_cases hempty : s.threads.hub.parameterSet type = []
    · rw [if_pos hempty, firstNal, List.find?_eq_none]
      intro nal hnal
      simpa using hunheard type htype hempty nal hnal
    · rw [if_neg hempty]
      exact (hcached type htype).resolve_left hempty
  constructor
  · intro type htype
    rw [hslot type htype]
    split
    · assumption
    · rfl
  · rw [hslot kNalSps (Or.inl rfl), hslot kNalPps (Or.inr rfl), Hub.spropParameterSets]
    change (if s.threads.hub.parameterSet kNalSps = [] ∨ s.threads.hub.parameterSet kNalPps = []
      then _ else Util.base64Encode (s.threads.hub.parameterSet kNalSps) ++ ascii "," ++
        Util.base64Encode (s.threads.hub.parameterSet kNalPps)) = _
    by_cases hsps : s.threads.hub.parameterSet kNalSps = []
    · simp [hsps]
    · by_cases hpps : s.threads.hub.parameterSet kNalPps = []
      · simp [hpps]
      · simp [hsps, hpps]

/-- The first NAL of a camera is an SPS. -/
theorem camera_parameterSets_first : ∃ s : CameraHub Unit, Reachable (Initial {}) (Step {}) s ∧
    s.threads.hub.parameterSet kNalSps = [103, 66] ∧ s.threads.hub.spropParameterSets = [] := by
  have r : Reachable (Initial {}) (Step {})
      ({ threads := { hub := .create 30 }, source := .create 0 0 0 } : CameraHub Unit) :=
    .initial ⟨_, rfl, rfl⟩
  have r := untouched r (.callSubscribe () rfl) (by simp [Label.handlesSource]) (by simp)
  have r := untouched r (.subscribeLock rfl rfl) (by simp [Label.handlesSource]) fun _ => rfl
  have r := untouched r (.subscribeStopped rfl rfl) (by simp [Label.handlesSource]) fun _ => rfl
  have r := untouched r (.subscribeNoJoin rfl rfl) (by simp [Label.handlesSource]) fun _ => rfl
  have r := r.step (.make rfl (if_pos rfl))
  have r := r.step (.start (some [[0, 0, 1, 103, 66, 0, 0, 1, 101, 136]]) rfl rfl)
  have r := untouched r (.subscribeRun rfl) (by simp [Label.handlesSource]) fun _ => rfl
  have r := untouched r (.subscribeSpawn rfl) (by simp [Label.handlesSource]) fun _ => rfl
  have r := untouched r (.subscribePush rfl) (by simp [Label.handlesSource]) fun _ => rfl
  have r := untouched r (.subscribeLeave rfl) (by simp [Label.handlesSource]) (by simp)
  have r := r.step (.call (u := 0) rfl rfl)
  have r := r.step
    (@Step.callback Unit _ {} _ 0 [103, 66] [] true rfl (by decide +kernel) (by simp))
  have r := r.step (.lock (u := 0) rfl rfl)
  obtain ⟨hslots, hsprop⟩ := camera_parameterSets r
  exact ⟨_, r, hslots kNalSps (Or.inl rfl), hsprop⟩

end CameraHub
end Veda.Media
