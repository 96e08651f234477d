import Mathlib.Logic.Basic

/-!
Programs that call operations of an interface. A program is data, so one definition
has a sequential meaning (`run`) and can also be executed call by call. `Meets` is its
logic of pre- and postconditions over a ghost state.
-/
namespace Effects

/-- A program over operations `Op`; the answer to `op` has type `Res op`. -/
inductive Program (Op : Type) (Res : Op → Type) (α : Type) : Type
  | ret (a : α) : Program Op Res α
  | call (op : Op) (k : Res op → Program Op Res α) : Program Op Res α

namespace Program

variable {Op : Type} {Res : Op → Type} {α β γ σ : Type}

def bind : Program Op Res α → (α → Program Op Res β) → Program Op Res β
  | ret a, f => f a
  | call op k, f => call op fun r => (k r).bind f

/-- A single call. -/
def perform (op : Op) : Program Op Res (Res op) := call op ret

instance : Monad (Program Op Res) where
  pure := ret
  bind := bind

@[simp] theorem pure_eq (a : α) : (pure a : Program Op Res α) = ret a := rfl
@[simp] theorem ret_bind (a : α) (f : α → Program Op Res β) : (ret a >>= f) = f a := rfl
@[simp] theorem call_bind (op : Op) (k : Res op → Program Op Res α) (f : α → Program Op Res β) :
    (call op k >>= f) = call op fun r => k r >>= f := rfl
theorem perform_bind (op : Op) (f : Res op → Program Op Res β) :
    (perform op >>= f) = call op f := rfl

theorem bind_assoc (p : Program Op Res α) (f : α → Program Op Res β)
    (g : β → Program Op Res γ) : (p >>= f >>= g) = p >>= fun a => f a >>= g := by
  induction p with
  | ret a => rfl
  | call op k ih => exact congrArg (call op) (funext ih)

theorem bind_ret (p : Program Op Res α) : p.bind ret = p := by
  induction p with
  | ret a => rfl
  | call op k ih => exact congrArg (call op) (funext ih)

instance : LawfulMonad (Program Op Res) :=
  LawfulMonad.mk' _ (fun p => bind_ret p) (fun _ _ => rfl) (fun p f g => bind_assoc p f g)

/-- Sequential meaning: a handler answers each call and updates the state. -/
def run (h : (op : Op) → σ → Res op × σ) : Program Op Res α → σ → α × σ
  | ret a, s => (a, s)
  | call op k, s => (k (h op s).1).run h (h op s).2

section Run
variable {h : (op : Op) → σ → Res op × σ} {s : σ}

@[simp] theorem run_ret (a : α) : (ret a : Program Op Res α).run h s = (a, s) := rfl
@[simp] theorem run_call (op : Op) (k : Res op → Program Op Res α) :
    (call op k).run h s = (k (h op s).1).run h (h op s).2 := rfl
@[simp] theorem run_perform (op : Op) : (perform op : Program Op Res _).run h s = h op s := rfl

@[simp] theorem run_bind (p : Program Op Res α) (f : α → Program Op Res β) :
    (p >>= f).run h s = (f (p.run h s).1).run h (p.run h s).2 := by
  induction p generalizing s with
  | ret a => rfl
  | call op k ih => exact ih _

@[simp] theorem run_map (p : Program Op Res α) (f : α → β) :
    (f <$> p).run h s = (f (p.run h s).1, (p.run h s).2) := run_bind p _

end Run

section Interpret
variable {Op' : Type} {Res' : Op' → Type}

/-- The program over another interface, which implements each of its operations. -/
def interpret (f : (op : Op) → Program Op' Res' (Res op)) :
    Program Op Res α → Program Op' Res' α
  | ret a => ret a
  | call op k => f op >>= fun r => (k r).interpret f

variable {f : (op : Op) → Program Op' Res' (Res op)}

@[simp] theorem interpret_ret (a : α) : (ret a : Program Op Res α).interpret f = ret a := rfl
@[simp] theorem interpret_call (op : Op) (k : Res op → Program Op Res α) :
    (call op k).interpret f = f op >>= fun r => (k r).interpret f := rfl

end Interpret

/-- What is left of a program once these calls have returned; `none` where it makes others. -/
def resume [DecidableEq Op] : Program Op Res α → List ((op : Op) × Res op) →
    Option (Program Op Res α)
  | p, [] => some p
  | ret _, _ :: _ => none
  | call op k, c :: cs => if h : c.1 = op then (k (h ▸ c.2)).resume cs else none

theorem resume_cons [DecidableEq Op] {p q : Program Op Res α} {op : Op} {r : Res op}
    {cs : List ((op : Op) × Res op)} (h : p.resume (⟨op, r⟩ :: cs) = some q) :
    ∃ k, p = call op k ∧ (k r).resume cs = some q := by
  cases p with
  | ret a => cases h
  | call op' k =>
    by_cases he : op = op'
    · subst he
      exact ⟨k, rfl, by simpa [resume] using h⟩
    · simp [resume, he] at h

@[simp] theorem resume_nil [DecidableEq Op] (p : Program Op Res α) : p.resume [] = some p := by
  cases p <;> rfl

theorem resume_snoc [DecidableEq Op] {p : Program Op Res α} {op : Op}
    {k : Res op → Program Op Res α} {cs : List ((op : Op) × Res op)} (r : Res op)
    (h : p.resume cs = some (call op k)) : p.resume (cs ++ [⟨op, r⟩]) = some (k r) := by
  induction cs generalizing p with
  | nil =>
    obtain rfl := Option.some.inj ((resume_nil p).symm.trans h)
    simp [resume]
  | cons c cs ih =>
    obtain ⟨op', r'⟩ := c
    obtain ⟨k', rfl, hrest⟩ := resume_cons h
    simpa [resume] using ih hrest

theorem resume_append [DecidableEq Op] {p q : Program Op Res α}
    {cs ds : List ((op : Op) × Res op)} (h : p.resume (cs ++ ds) = some q) :
    ∃ p', p.resume cs = some p' ∧ p'.resume ds = some q := by
  induction cs generalizing p with
  | nil => exact ⟨p, resume_nil p, h⟩
  | cons c cs ih =>
    obtain ⟨op, r⟩ := c
    obtain ⟨k, rfl, hrest⟩ := resume_cons h
    obtain ⟨p', hp', hq⟩ := ih hrest
    exact ⟨p', by simpa [resume] using hp', hq⟩

theorem resume_bind [DecidableEq Op] {p q : Program Op Res α} {cs : List ((op : Op) × Res op)}
    (f : α → Program Op Res β) (h : p.resume cs = some q) :
    (p >>= f).resume cs = some (q >>= f) := by
  induction cs generalizing p with
  | nil =>
    obtain rfl := Option.some.inj ((resume_nil p).symm.trans h)
    exact resume_nil _
  | cons c cs ih =>
    obtain ⟨op, r⟩ := c
    obtain ⟨k, rfl, hrest⟩ := resume_cons h
    simpa [resume] using ih hrest

section Answers
variable {h : (op : Op) → σ → Res op × σ} {s : σ} {cs ds : List ((op : Op) × Res op)}

/-- The state after a handler has answered these calls. -/
def handled (h : (op : Op) → σ → Res op × σ) (s : σ) (cs : List ((op : Op) × Res op)) : σ :=
  cs.foldl (fun s c => (h c.1 s).2) s

/-- A handler gives these calls these answers, one after another. -/
def Answers (h : (op : Op) → σ → Res op × σ) : σ → List ((op : Op) × Res op) → Prop
  | _, [] => True
  | s, c :: cs => (h c.1 s).1 = c.2 ∧ Answers h (h c.1 s).2 cs

@[simp] theorem handled_nil : handled h s [] = s := rfl
@[simp] theorem handled_append : handled h s (cs ++ ds) = handled h (handled h s cs) ds :=
  List.foldl_append

theorem answers_append : Answers h s (cs ++ ds) ↔
    Answers h s cs ∧ Answers h (handled h s cs) ds := by
  induction cs generalizing s with
  | nil => simp [Answers]
  | cons c cs ih =>
    rw [List.cons_append, Answers, ih, Answers, and_assoc]
    rfl

/-- A program that gets these answers from its handler goes on from there. -/
theorem run_resume [DecidableEq Op] {p q : Program Op Res α} (hp : p.resume cs = some q)
    (ha : Answers h s cs) : p.run h s = q.run h (handled h s cs) := by
  induction cs generalizing p s with
  | nil =>
    obtain rfl := Option.some.inj ((resume_nil p).symm.trans hp)
    rfl
  | cons c cs ih =>
    obtain ⟨op, r⟩ := c
    obtain ⟨k, rfl, hrest⟩ := resume_cons hp
    rw [run_call, ha.1, ih hrest ha.2]
    rfl

end Answers

/-- Contract of an interface over a ghost state: when a call is allowed, and which
answers with which new ghost state it can have. -/
structure Spec (Op : Type) (Res : Op → Type) (σ : Type) where
  pre : σ → Op → Prop
  post : σ → (op : Op) → Res op → σ → Prop

/-- Every call is allowed where it is made, and every return satisfies `Q`, whatever
admissible answers the calls get. -/
def Meets (S : Spec Op Res σ) (Q : α → σ → Prop) : Program Op Res α → σ → Prop
  | ret a, s => Q a s
  | call op k, s => S.pre s op ∧ ∀ r s', S.post s op r s' → (k r).Meets S Q s'

section Meets
variable {S : Spec Op Res σ} {Q Q' : α → σ → Prop} {s : σ}

@[simp] theorem meets_ret (a : α) : (ret a : Program Op Res α).Meets S Q s ↔ Q a s := Iff.rfl
@[simp] theorem meets_call (op : Op) (k : Res op → Program Op Res α) :
    (call op k).Meets S Q s ↔
      S.pre s op ∧ ∀ r s', S.post s op r s' → (k r).Meets S Q s' := Iff.rfl
@[simp] theorem meets_perform (op : Op) {Q : Res op → σ → Prop} :
    (perform op : Program Op Res _).Meets S Q s ↔
      S.pre s op ∧ ∀ r s', S.post s op r s' → Q r s' := Iff.rfl

theorem Meets.mono {p : Program Op Res α} (h : p.Meets S Q s)
    (hq : ∀ a s, Q a s → Q' a s) : p.Meets S Q' s := by
  induction p generalizing s with
  | ret a => exact hq a s h
  | call op k ih => exact ⟨h.1, fun r s' hr => ih r (h.2 r s' hr)⟩

@[simp] theorem meets_bind {p : Program Op Res α} {f : α → Program Op Res β}
    {Q : β → σ → Prop} :
    (p >>= f).Meets S Q s ↔ p.Meets S (fun a s' => (f a).Meets S Q s') s := by
  induction p generalizing s with
  | ret a => rfl
  | call op k ih =>
    exact and_congr Iff.rfl (forall_congr' fun r => forall_congr' fun s' =>
      imp_congr Iff.rfl (ih r))

/-- The ghost states that these answers lead through. -/
inductive Spec.Path (S : Spec Op Res σ) : σ → List ((op : Op) × Res op) → σ → Prop
  | nil {s : σ} : Path S s [] s
  | cons {s s₁ s' : σ} {op : Op} {r : Res op} {cs : List ((op : Op) × Res op)} :
      S.post s op r s₁ → Path S s₁ cs s' → Path S s (⟨op, r⟩ :: cs) s'

/-- What is left of a program keeps its contract. -/
theorem Meets.resume [DecidableEq Op] {p q : Program Op Res α}
    {cs : List ((op : Op) × Res op)} {s' : σ} (h : p.Meets S Q s) (hp : p.resume cs = some q)
    (hpath : S.Path s cs s') : q.Meets S Q s' := by
  induction hpath generalizing p with
  | nil =>
    obtain rfl := Option.some.inj ((resume_nil p).symm.trans hp)
    exact h
  | cons hpost _ ih =>
    obtain ⟨k, rfl, hrest⟩ := resume_cons hp
    exact ih (h.2 _ _ hpost) hrest

/-- A handler as a contract: it has one answer to each call. -/
def Spec.ofHandler (h : (op : Op) → σ → Res op × σ) : Spec Op Res σ where
  pre _ _ := True
  post s op r s' := (r, s') = h op s

theorem meets_run (h : (op : Op) → σ → Res op × σ) (p : Program Op Res α) :
    p.Meets (.ofHandler h) (fun a s' => (a, s') = p.run h s) s := by
  induction p generalizing s with
  | ret a => rfl
  | call op k ih =>
    refine ⟨trivial, ?_⟩
    intro r s' hr
    have hrun : (call op k).run h s = (k r).run h s' := by
      rw [run_call, ← show (r, s') = h op s from hr]
    rw [hrun]
    exact ih r

/-- A program keeps its contract over any implementation of the contract's operations. -/
theorem Meets.interpret {Op' : Type} {Res' : Op' → Type} {τ : Type} {S' : Spec Op' Res' τ}
    {f : (op : Op) → Program Op' Res' (Res op)} {R : σ → τ → Prop} {p : Program Op Res α} {t : τ}
    (hf : ∀ op s t, R s t → S.pre s op →
      (f op).Meets S' (fun r t' => ∃ s', S.post s op r s' ∧ R s' t') t)
    (h : p.Meets S Q s) (hr : R s t) :
    (p.interpret f).Meets S' (fun a t' => ∃ s', Q a s' ∧ R s' t') t := by
  induction p generalizing s t with
  | ret a => exact ⟨s, h, hr⟩
  | call op k ih =>
    rw [interpret_call, meets_bind]
    apply (hf op s t hr h.1).mono
    rintro r t' ⟨s', hpost, hr'⟩
    exact ih r (h.2 r s' hpost) hr'

end Meets
end Program
end Effects
