import Mathlib.Data.List.GetD
import Veda.Rtsp.CallOrder

/-!
Which answers one outside world can give. `Consistent` says of a history of calls that its
answers fit together; then an oracle exists that gives all of them again.
-/
namespace Veda.Rtsp

open Cpp Effects

namespace History

def sessionIds (h : History) : List Bytes :=
  h.filterMap fun
    | ⟨.generateSessionId, id⟩ => some id
    | _ => none

def streamers (h : History) : List StreamerId :=
  h.filterMap fun
    | ⟨.makeStreamer _, x⟩ => some x
    | _ => none

/-- The answers of `sprop_parameter_sets`. -/
def lookups (h : History) : List Bytes :=
  h.filterMap fun
    | ⟨.spropParameterSets, sprop⟩ => some sprop
    | _ => none

/-- A `connect` of this streamer has succeeded. -/
def connects (h : History) (x : StreamerId) : Bool :=
  h.any fun
    | ⟨.connect y _ _, ok⟩ => y == x && ok
    | _ => false

/-- A `subscribe` of this streamer has succeeded. -/
def accepts (h : History) (x : StreamerId) : Bool :=
  h.any fun
    | ⟨.subscribe y, ok⟩ => y == x && ok
    | _ => false

/-- What the Hub makes of an SPS and a PPS. -/
def spropOf (p : Bytes × Bytes) : Bytes :=
  ({ tsIncrement := 0, sps := p.1, pps := p.2 } : Media.Hub StreamerId).spropParameterSets

/-- The answers fit together: streamers are numbered, each is connected and subscribed with one
result, and the encoded parameter sets are those of some SPS and PPS. -/
structure Consistent (h : History) : Prop where
  numbering : h.streamers = List.range h.streamers.length
  connecting : ∀ x ip port ok, (⟨.connect x ip port, ok⟩ : Call) ∈ h → h.connects x = ok
  subscribing : ∀ x ok, (⟨.subscribe x, ok⟩ : Call) ∈ h → h.accepts x = ok
  encoding : ∃ sets : List (Bytes × Bytes), h.lookups = sets.map spropOf

/-- What keeps the answers together when this call comes next. -/
def Fits (h : History) : Call → Prop
  | ⟨.makeStreamer _, x⟩ => x = h.streamers.length
  | ⟨.connect x _ _, _⟩ => ∀ ip port ok, (⟨.connect x ip port, ok⟩ : Call) ∉ h
  | ⟨.subscribe x, _⟩ => ∀ ok, (⟨.subscribe x, ok⟩ : Call) ∉ h
  | ⟨.spropParameterSets, sprop⟩ => ∃ p, sprop = spropOf p
  | _ => True

variable {h h₁ h₂ : History} {sets : List (Bytes × Bytes)} {op : Op} {r : op.Res}
  {x : StreamerId} {w : World}

@[simp] theorem sessionIds_append : sessionIds (h₁ ++ h₂) = h₁.sessionIds ++ sessionIds h₂ :=
  List.filterMap_append
@[simp] theorem streamers_append : streamers (h₁ ++ h₂) = h₁.streamers ++ streamers h₂ :=
  List.filterMap_append
@[simp] theorem lookups_append : lookups (h₁ ++ h₂) = h₁.lookups ++ lookups h₂ :=
  List.filterMap_append
@[simp] theorem connects_append : connects (h₁ ++ h₂) x = (h₁.connects x || connects h₂ x) :=
  List.any_append
@[simp] theorem accepts_append : accepts (h₁ ++ h₂) x = (h₁.accepts x || accepts h₂ x) :=
  List.any_append

theorem connects_connect (y : StreamerId) (ip : Bytes) (port : UInt16) (ok : Bool) :
    connects [⟨.connect y ip port, ok⟩] x = (y == x && ok) := by
  simp [connects]

theorem accepts_subscribe (y : StreamerId) (ok : Bool) :
    accepts [⟨.subscribe y, ok⟩] x = (y == x && ok) := by
  simp [accepts]

theorem connects_false (hx : ∀ ip port ok, (⟨.connect x ip port, ok⟩ : Call) ∉ h) :
    h.connects x = false := by
  rw [connects, List.any_eq_false]
  rintro ⟨op, r⟩ hc
  cases op with
  | connect y ip port =>
    have hy : y ≠ x := by
      rintro rfl
      exact hx ip port r hc
    simp [hy]
  | _ => simp

theorem accepts_false (hx : ∀ ok, (⟨.subscribe x, ok⟩ : Call) ∉ h) : h.accepts x = false := by
  rw [accepts, List.any_eq_false]
  rintro ⟨op, r⟩ hc
  cases op with
  | subscribe y =>
    have hy : y ≠ x := by
      rintro rfl
      exact hx r hc
    simp [hy]
  | _ => simp

theorem Consistent.nil : Consistent [] := ⟨rfl, by simp, by simp, [], rfl⟩

theorem Consistent.snoc (hc : Consistent h) (hf : h.Fits ⟨op, r⟩) :
    Consistent (h ++ [⟨op, r⟩]) := by
  obtain ⟨hnumbering, hconnecting, hsubscribing, sets, hsets⟩ := hc
  refine ⟨?_, ?_, ?_, ?_⟩
  · cases op with
    | makeStreamer conn =>
      have hnew : streamers [⟨.makeStreamer conn, r⟩] = [h.streamers.length] :=
        congrArg (fun x => [x]) (show r = h.streamers.length from hf)
      rw [streamers_append, hnew, List.length_append, List.length_singleton, List.range_succ,
        ← hnumbering]
    | _ =>
      rw [streamers_append, show streamers [⟨_, r⟩] = [] from rfl, List.append_nil]
      exact hnumbering
  · intro x ip port ok hx
    rcases List.mem_append.mp hx with hold | hnew
    · have hold' := hconnecting x ip port ok hold
      cases op with
      | connect y ip' port' =>
        have hne : (y == x) = false := by
          rw [beq_eq_false_iff_ne]
          rintro rfl
          exact hf _ _ _ hold
        simpa [connects_connect, hne] using hold'
      | _ =>
        rw [connects_append, show connects [⟨_, r⟩] x = false from rfl, Bool.or_false]
        exact hold'
    · obtain ⟨rfl, hr⟩ := Sigma.mk.inj (List.mem_singleton.mp hnew)
      obtain rfl := eq_of_heq hr
      simp [connects_connect, connects_false hf]
  · intro x ok hx
    rcases List.mem_append.mp hx with hold | hnew
    · have hold' := hsubscribing x ok hold
      cases op with
      | subscribe y =>
        have hne : (y == x) = false := by
          rw [beq_eq_false_iff_ne]
          rintro rfl
          exact hf _ hold
        simpa [accepts_subscribe, hne] using hold'
      | _ =>
        rw [accepts_append, show accepts [⟨_, r⟩] x = false from rfl, Bool.or_false]
        exact hold'
    · obtain ⟨rfl, hr⟩ := Sigma.mk.inj (List.mem_singleton.mp hnew)
      obtain rfl := eq_of_heq hr
      simp [accepts_subscribe, accepts_false hf]
  · cases op with
    | spropParameterSets =>
      obtain ⟨p, rfl⟩ := hf
      exact ⟨sets ++ [p], by rw [lookups_append, hsets, List.map_append]; rfl⟩
    | _ =>
      refine ⟨sets, ?_⟩
      rw [lookups_append, show lookups [⟨_, r⟩] = [] from rfl, List.append_nil]
      exact hsets

end History

/-- The outside world that has given these answers. -/
def Oracle.of (h : History) (sets : List (Bytes × Bytes)) : Oracle where
  sessionId n := h.sessionIds.getD n []
  connects := h.connects
  sourceUp := h.accepts
  parameterSets n := sets.getD n ([], [])

open History

/-- The world has answered as many requests as the history has. -/
structure World.Counts (w : World) (h : History) : Prop where
  sessionIds : w.sessionIds = h.sessionIds.length
  streamers : w.streamers = h.streamers.length
  lookups : w.lookups = h.lookups.length

variable {o : Oracle} {w : World} {h h' : History} {sets : List (Bytes × Bytes)}

theorem World.Counts.snoc (hw : w.Counts h) (c : Call) :
    ((w.answer o c.1).2).Counts (h ++ [c]) := by
  obtain ⟨op, r⟩ := c
  refine ⟨?_, ?_, ?_⟩
  · rw [sessionIds_append, List.length_append, ← hw.sessionIds]
    cases op <;> rfl
  · rw [streamers_append, List.length_append, ← hw.streamers]
    cases op <;> rfl
  · rw [lookups_append, List.length_append, ← hw.lookups]
    cases op <;> rfl

theorem World.Counts.handled (hw : w.Counts h) (cs : List Call) :
    (Program.handled (World.answer o) w cs).Counts (h ++ cs) := by
  induction cs generalizing w h with
  | nil => simpa using hw
  | cons c cs ih =>
    rw [List.append_cons]
    exact ih (hw.snoc c)

/-- A world that answers so has logged it. -/
theorem log_handled {cs : List Call} (ha : Program.Answers (World.answer o) w cs) :
    (Program.handled (World.answer o) w cs).log = w.log ++ cs := by
  induction cs generalizing w with
  | nil => simp
  | cons c cs ih =>
    have hlog : (w.answer o c.1).2.log = w.log ++ [c] :=
      (World.after_log c.1).trans (by rw [ha.1])
    exact (ih ha.2).trans (by rw [hlog, List.append_assoc, List.singleton_append])

/-- The Hub's list after a call. -/
def nextSubscribers (listed : List StreamerId) : Call → List StreamerId
  | ⟨.subscribe x, ok⟩ => bif ok then listed ++ [x] else listed
  | ⟨.unsubscribe x, _⟩ => listed.filter (· ≠ x)
  | _ => listed

theorem subscribers_handled {cs : List Call} (ha : Program.Answers (World.answer o) w cs) :
    (Program.handled (World.answer o) w cs).hub.subscribers =
      cs.foldl nextSubscribers w.hub.subscribers := by
  induction cs generalizing w with
  | nil => rfl
  | cons c cs ih =>
    have hnext : (w.answer o c.1).2.hub.subscribers = nextSubscribers w.hub.subscribers c := by
      obtain ⟨hanswer, -⟩ := ha
      obtain ⟨op, r⟩ := c
      cases op with
      | subscribe x =>
        rw [← show o.sourceUp x = r from (World.answer_subscribe x).symm.trans hanswer]
        simp only [World.answer, Media.Hub.subscribe, nextSubscribers]
        cases o.sourceUp x <;> rfl
      | _ => rfl
    exact (ih ha.2).trans (by rw [hnext]; rfl)

/-- The element behind a list. -/
theorem getD_behind {α : Type} {l before after : List α} {a d : α}
    (h : l = before ++ a :: after) : l.getD before.length d = a := by
  simp [h]

/-- That outside world gives the next answer again. -/
theorem answer_again (hc : Consistent h) (hsets : h.lookups = sets.map spropOf) {c : Call}
    {h₁ h₂ : History} (hsplit : h = h₁ ++ c :: h₂) (hw : w.Counts h₁) :
    (w.answer (Oracle.of h sets) c.1).1 = c.2 := by
  have hmem : c ∈ h := by simp [hsplit]
  have hcons : ∀ c : Call, c :: h₂ = [c] ++ h₂ := fun _ => rfl
  obtain ⟨op, r⟩ := c
  cases op with
  | generateSessionId =>
    have hids : h.sessionIds = h₁.sessionIds ++ r :: History.sessionIds h₂ := by
      rw [hsplit, sessionIds_append, hcons, sessionIds_append]
      rfl
    simp only [World.answer, Oracle.of, hw.sessionIds]
    exact getD_behind hids
  | makeStreamer conn =>
    have hstreamers : h.streamers = h₁.streamers ++ r :: History.streamers h₂ := by
      rw [hsplit, streamers_append, hcons, streamers_append]
      rfl
    have hlt : h₁.streamers.length < h.streamers.length := by simp [hstreamers]
    have hat := getD_behind (d := 0) hstreamers
    rw [hc.numbering, List.getD_eq_getElem?_getD, List.getElem?_range hlt] at hat
    exact hw.streamers.trans hat
  | connect x ip port => exact hc.connecting x ip port r hmem
  | subscribe x => exact (World.answer_subscribe x).trans (hc.subscribing x r hmem)
  | spropParameterSets =>
    have hlookups : h.lookups = h₁.lookups ++ r :: History.lookups h₂ := by
      rw [hsplit, lookups_append, hcons, lookups_append]
      rfl
    have hat := getD_behind (d := spropOf ([], [])) hlookups
    rw [hsets, List.getD_map, ← hw.lookups] at hat
    exact hat
  | _ => rfl

/-- All of them, one after another. -/
theorem answers_again (hc : Consistent h) (hsets : h.lookups = sets.map spropOf)
    {h₁ h₂ : History} (hsplit : h = h₁ ++ h₂) (hw : w.Counts h₁) :
    Program.Answers (World.answer (Oracle.of h sets)) w h₂ := by
  induction h₂ generalizing h₁ w with
  | nil => trivial
  | cons c h₂ ih =>
    have hanswer := answer_again hc hsets hsplit hw
    exact ⟨hanswer, ih (by simp [hsplit]) (hw.snoc c)⟩

end Veda.Rtsp
