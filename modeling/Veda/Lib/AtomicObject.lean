import Mathlib.Logic.Function.Basic
import Veda.Lib.Transitions

/-!
Forward simulations, and the atomic object of a sequential specification: each call takes
effect in one step between its invocation and its response. A system whose runs the atomic
object can follow is linearizable.
-/
namespace Transitions

variable {State State' Label Label' E : Type}
  {tr : State → Label → State → Prop} {tr' : State' → Label' → State' → Prop}
  {obs : Label → List E} {obs' : Label' → List E} {rel : State → State' → Prop}

/-- Each step of `tr` is matched by a run of `tr'` that shows the same. -/
def Simulation (tr : State → Label → State → Prop) (tr' : State' → Label' → State' → Prop)
    (obs : Label → List E) (obs' : Label' → List E) (rel : State → State' → Prop) : Prop :=
  ∀ s l t a, tr s l t → rel s a →
    ∃ ms b, Run tr' a ms b ∧ ms.flatMap obs' = obs l ∧ rel t b

theorem Simulation.run (h : Simulation tr tr' obs obs' rel) {s t : State} {a : State'}
    {ls : List Label} (hr : Run tr s ls t) (hrel : rel s a) :
    ∃ ms b, Run tr' a ms b ∧ ms.flatMap obs' = ls.flatMap obs ∧ rel t b := by
  induction hr generalizing a with
  | refl => exact ⟨[], a, .refl, rfl, hrel⟩
  | stepL hs _ ih =>
    obtain ⟨ms, b, hms, hobs, hb⟩ := h _ _ _ _ hs hrel
    obtain ⟨ns, c, hns, hobs', hc⟩ := ih hb
    refine ⟨ms ++ ns, c, hms.append hns, ?_, hc⟩
    rw [List.flatMap_append, List.flatMap_cons, hobs, hobs']

end Transitions

namespace AtomicObject

open Transitions

variable {Tid Op Q : Type} {Res : Op → Type}

/-- Where a thread is with its call. -/
inductive Phase (Op : Type) (Res : Op → Type)
  | idle
  | called (op : Op)
  | answered (op : Op) (r : Res op)

inductive Event (Tid Op : Type) (Res : Op → Type)
  | invoke (t : Tid) (op : Op)
  | perform (t : Tid) (op : Op) (r : Res op)
  | respond (t : Tid) (op : Op) (r : Res op)

namespace Event

def thread : Event Tid Op Res → Tid
  | invoke t _ => t
  | perform t _ _ => t
  | respond t _ _ => t

/-- The callers see when a call begins and ends, not when it takes effect. -/
def seen : Event Tid Op Res → List (Event Tid Op Res)
  | perform _ _ _ => []
  | e => [e]

end Event

structure Obj (Tid Q Op : Type) (Res : Op → Type) where
  object : Q
  phase : Tid → Phase Op Res

/-- A sequential specification, as steps labelled by a call and its result. -/
abbrev Sequential (Q Op : Type) (Res : Op → Type) := Q → ((op : Op) × Res op) → Q → Prop

inductive Step [DecidableEq Tid] (spec : Sequential Q Op Res) :
    Obj Tid Q Op Res → Event Tid Op Res → Obj Tid Q Op Res → Prop
  | invoke {s : Obj Tid Q Op Res} {t : Tid} {op : Op} : s.phase t = .idle →
      Step spec s (.invoke t op) { s with phase := Function.update s.phase t (.called op) }
  | perform {s : Obj Tid Q Op Res} {t : Tid} {op : Op} {r : Res op} {q : Q} :
      s.phase t = .called op → spec s.object ⟨op, r⟩ q →
      Step spec s (.perform t op r) ⟨q, Function.update s.phase t (.answered op r)⟩
  | respond {s : Obj Tid Q Op Res} {t : Tid} {op : Op} {r : Res op} :
      s.phase t = .answered op r →
      Step spec s (.respond t op r) { s with phase := Function.update s.phase t .idle }

/-- The calls that took effect, in order. -/
def performed (es : List (Event Tid Op Res)) : List ((op : Op) × Res op) :=
  es.filterMap fun
    | .perform _ op r => some ⟨op, r⟩
    | _ => none

/-- The events of one thread. -/
def own [DecidableEq Tid] (t : Tid) (es : List (Event Tid Op Res)) : List (Event Tid Op Res) :=
  es.filter (·.thread = t)

/-- A complete call of a thread. -/
def whole (t : Tid) (c : (op : Op) × Res op) : List (Event Tid Op Res) :=
  [.invoke t c.1, .perform t c.1 c.2, .respond t c.1 c.2]

/-- What has happened of the call that the thread is in. -/
def begun (t : Tid) : Phase Op Res → List (Event Tid Op Res)
  | .idle => []
  | .called op => [.invoke t op]
  | .answered op r => [.invoke t op, .perform t op r]

/-- A history with the points at which its calls take effect: each thread's calls do so once,
between their begin and their end, and in that order they run by the specification. -/
structure Linearizes [DecidableEq Tid] (spec : Sequential Q Op Res) (q : Q)
    (history : List (Event Tid Op Res)) (q' : Q) (es : List (Event Tid Op Res)) : Prop where
  seen : es.flatMap Event.seen = history
  legal : Run spec q (performed es) q'
  calls : ∀ t, ∃ (cs : List ((op : Op) × Res op)) (p : Phase Op Res),
    own t es = cs.flatMap (whole t) ++ begun t p

variable [DecidableEq Tid] {spec : Sequential Q Op Res} {s s' : Obj Tid Q Op Res}
  {e : Event Tid Op Res} {es : List (Event Tid Op Res)}

theorem run_legal (h : Run (Step spec) s es s') : Run spec s.object (performed es) s'.object := by
  induction h with
  | refl => exact .refl
  | stepL hs _ ih =>
    cases hs with
    | invoke hp => exact ih
    | perform hp hspec => exact .stepL hspec ih
    | respond hp => exact ih

/-- A thread may make a whole call at once. -/
theorem run_whole {t : Tid} {c : (op : Op) × Res op} {q : Q} (hidle : s.phase t = .idle)
    (hspec : spec s.object c q) : Run (Step spec) s (whole t c) ⟨q, s.phase⟩ := by
  have hinvoke := (Run.single (.invoke hidle) : Run (Step spec) s [.invoke t c.1] _)
  have hperform := hinvoke.snoc (.perform (Function.update_self ..) hspec)
  have hrespond := hperform.snoc (.respond (Function.update_self ..))
  rw [Function.update_idem, Function.update_idem, ← hidle, Function.update_eq_self] at hrespond
  exact hrespond

theorem own_snoc (t : Tid) :
    own t (es ++ [e]) = own t es ++ if e.thread = t then [e] else [] := by
  simp only [own, List.filter_append, List.filter_cons, List.filter_nil, decide_eq_true_eq]

/-- The calls of a thread, after a step. -/
theorem calls_step (h : Step spec s e s') {t : Tid} {cs : List ((op : Op) × Res op)}
    (hown : own t es = cs.flatMap (whole t) ++ begun t (s.phase t)) :
    ∃ cs' : List ((op : Op) × Res op),
      own t (es ++ [e]) = cs'.flatMap (whole t) ++ begun t (s'.phase t) := by
  rw [own_snoc, hown]
  cases h with
  | @invoke u op hp =>
    refine ⟨cs, ?_⟩
    by_cases ht : u = t
    · subst ht
      simp [Event.thread, hp, begun]
    · simp [Event.thread, ht, Function.update_of_ne (Ne.symm ht)]
  | @perform u op r q hp hspec =>
    refine ⟨cs, ?_⟩
    by_cases ht : u = t
    · subst ht
      simp [Event.thread, hp, begun]
    · simp [Event.thread, ht, Function.update_of_ne (Ne.symm ht)]
  | @respond u op r hp =>
    by_cases ht : u = t
    · subst ht
      exact ⟨cs ++ [⟨op, r⟩], by simp [Event.thread, hp, begun, whole]⟩
    · exact ⟨cs, by simp [Event.thread, ht, Function.update_of_ne (Ne.symm ht)]⟩

/-- Every run of the atomic object shows its own linearization. -/
theorem linearizes_run (h : Run (Step spec) s es s') (hidle : ∀ t, s.phase t = .idle) :
    Linearizes spec s.object (es.flatMap Event.seen) s'.object es := by
  refine ⟨rfl, run_legal h, ?_⟩
  intro t
  obtain ⟨cs, hcs⟩ := h.history
    (p := fun es s => ∃ cs : List ((op : Op) × Res op),
      own t es = cs.flatMap (whole t) ++ begun t (s.phase t))
    (fun _ _ _ _ ⟨_, hcs⟩ hs => calls_step hs hcs) ⟨[], by simp [own, hidle t, begun]⟩
  exact ⟨cs, _, hcs⟩

/-- What the atomic object can follow is linearizable. -/
theorem linearizes_of_simulation {State Label : Type} {tr : State → Label → State → Prop}
    {obs : Label → List (Event Tid Op Res)} {rel : State → Obj Tid Q Op Res → Prop}
    (h : Simulation tr (Step spec) obs Event.seen rel) {c c' : State} {ls : List Label}
    (hr : Run tr c ls c') (hrel : rel c s) (hidle : ∀ t, s.phase t = .idle) :
    ∃ es a, Linearizes spec s.object (ls.flatMap obs) a.object es ∧ rel c' a := by
  obtain ⟨es, a, hes, hobs, ha⟩ := h.run hr hrel
  refine ⟨es, a, ?_, ha⟩
  rw [← hobs]
  exact linearizes_run hes hidle

end AtomicObject
