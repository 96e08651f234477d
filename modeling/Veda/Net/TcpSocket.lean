import Veda.Cpp

/-! `TcpConnection::write` against a kernel that takes what it likes of each call. -/
namespace Veda.Net

/-- What `::write` on a blocking socket answers to a call for `requested` bytes. -/
inductive WriteResult (requested : Nat) where
  | count (n : Nat) (pos : 1 ≤ n) (le : n ≤ requested)
  | interrupted
  | failed

/-- The answer to each call in turn, whatever length the call asks for. -/
abbrev Kernel := Nat → (requested : Nat) → WriteResult requested

/-- `ptr` and `remaining` of the loop, the bytes the kernel has taken, and the return value. -/
structure Writing where
  ptr : Nat
  remaining : Nat
  accepted : Bytes
  result : Option Int

/-- `while (remaining > 0)`, and the `return` after the loop. -/
def Writing.test (buf : Bytes) (w : Writing) : Writing :=
  if 0 < w.remaining then w else { w with result := some buf.length }

/-- The body of the loop, once `::write` has answered. -/
def Writing.answered (buf : Bytes) (w : Writing) : WriteResult w.remaining → Writing
  | .interrupted => w.test buf
  | .failed => { w with result := some (-1) }
  | .count n _ _ =>
    { w with
      ptr := w.ptr + n
      remaining := w.remaining - n
      accepted := w.accepted ++ (buf.drop w.ptr).take n }.test buf

/-- `write(buf, len)` after `calls` answers of the kernel. -/
def write (kernel : Kernel) (buf : Bytes) : (calls : Nat) → Writing
  | 0 => { ptr := 0, remaining := buf.length, accepted := [], result := none : Writing }.test buf
  | calls + 1 =>
    let w := write kernel buf calls
    match w.result with
    | none => w.answered buf (kernel calls w.remaining)
    | some _ => w

/-- The answer to call `i`, if the loop gets that far. -/
def answer (kernel : Kernel) (buf : Bytes) (i : Nat) :
    Option (WriteResult (write kernel buf i).remaining) :=
  match (write kernel buf i).result with
  | none => some (kernel i (write kernel buf i).remaining)
  | some _ => none

/-- Pointer and count in step: what is taken stands before `ptr`, the rest is still asked for. -/
structure Writing.InStep (buf : Bytes) (w : Writing) : Prop where
  split : w.ptr + w.remaining = buf.length
  taken : w.accepted = buf.take w.ptr
  running : w.result = none → 0 < w.remaining
  returned : ∀ r, w.result = some r →
    r = (buf.length : Int) ∧ w.remaining = 0 ∨ r = -1 ∧ 0 < w.remaining

theorem Writing.InStep.of_test {buf : Bytes} {w : Writing}
    (hsplit : w.ptr + w.remaining = buf.length) (htaken : w.accepted = buf.take w.ptr)
    (hresult : w.result = none) : (w.test buf).InStep buf := by
  by_cases hpos : 0 < w.remaining
  · rw [Writing.test, if_pos hpos]
    exact ⟨hsplit, htaken, fun _ => hpos, by simp [hresult]⟩
  · rw [Writing.test, if_neg hpos]
    refine ⟨hsplit, htaken, by simp, ?_⟩
    intro r hr
    exact Or.inl ⟨(Option.some.inj hr).symm, by simp only; omega⟩

theorem Writing.InStep.answered {buf : Bytes} {w : Writing} (h : w.InStep buf)
    (hresult : w.result = none) (a : WriteResult w.remaining) :
    (w.answered buf a).InStep buf := by
  have hsplit := h.split
  cases a with
  | interrupted => exact Writing.InStep.of_test h.split h.taken hresult
  | failed =>
    refine ⟨h.split, h.taken, by simp [Writing.answered], ?_⟩
    intro r hr
    exact Or.inr ⟨(Option.some.inj hr).symm, h.running hresult⟩
  | count n _ hle =>
    refine Writing.InStep.of_test ?_ ?_ hresult
    · simp only
      omega
    · simp only [h.taken, List.take_add]

theorem write_succ {kernel : Kernel} {buf : Bytes} {n : Nat}
    (h : (write kernel buf n).result = none) : write kernel buf (n + 1) =
      (write kernel buf n).answered buf (kernel n (write kernel buf n).remaining) := by
  simp only [write, h]

theorem write_stays {kernel : Kernel} {buf : Bytes} {n : Nat} {r : Int}
    (h : (write kernel buf n).result = some r) : write kernel buf (n + 1) = write kernel buf n := by
  simp only [write, h]

theorem write_inStep (kernel : Kernel) (buf : Bytes) (n : Nat) :
    (write kernel buf n).InStep buf := by
  induction n with
  | zero => exact Writing.InStep.of_test (by simp) (by simp) rfl
  | succ n ih =>
    cases hresult : (write kernel buf n).result with
    | none =>
      rw [write_succ hresult]
      exact ih.answered hresult _
    | some r =>
      rw [write_stays hresult]
      exact ih

theorem answer_of_running {kernel : Kernel} {buf : Bytes} {n : Nat}
    (h : (write kernel buf n).result = none) :
    answer kernel buf n = some (kernel n (write kernel buf n).remaining) := by
  unfold answer
  split
  · rfl
  · simp_all

theorem answer_of_returned {kernel : Kernel} {buf : Bytes} {n : Nat} {r : Int}
    (h : (write kernel buf n).result = some r) : answer kernel buf n = none := by
  unfold answer
  split
  · simp_all
  · rfl

theorem Writing.InStep.isPrefix {buf : Bytes} {w : Writing} (h : w.InStep buf) :
    w.accepted <+: buf := by
  rw [h.taken]
  exact List.take_prefix w.ptr buf

theorem Writing.InStep.length_iff {buf : Bytes} {w : Writing} (h : w.InStep buf) :
    w.result = some (buf.length : Int) ↔ w.accepted = buf := by
  have hsplit := h.split
  constructor
  · intro hresult
    rcases h.returned _ hresult with ⟨_, hrest⟩ | ⟨hfailed, _⟩
    · rw [h.taken, List.take_of_length_le (by omega)]
    · omega
  · intro haccepted
    have hlength : w.ptr ≥ buf.length := by
      have := congrArg List.length (h.taken.symm.trans haccepted)
      rw [List.length_take] at this
      omega
    cases hresult : w.result with
    | none =>
      have hrunning := h.running hresult
      omega
    | some r =>
      rcases h.returned r hresult with ⟨hr, _⟩ | ⟨_, hpos⟩
      · rw [hr]
      · omega

theorem Writing.test_not_failed {buf : Bytes} {w : Writing} (h : w.result = none) :
    (w.test buf).result ≠ some (-1) := by
  by_cases hpos : 0 < w.remaining
  · rw [Writing.test, if_pos hpos, h]
    simp
  · rw [Writing.test, if_neg hpos]
    intro hlength
    have := Option.some.inj hlength
    omega

theorem Writing.answered_failed_iff {buf : Bytes} {w : Writing} (h : w.result = none)
    (a : WriteResult w.remaining) : (w.answered buf a).result = some (-1) ↔ a = .failed := by
  cases a with
  | interrupted => simpa [Writing.answered] using test_not_failed h
  | failed => simp [Writing.answered]
  | count n pos le => simpa [Writing.answered] using test_not_failed (by exact h)

theorem write_failed_iff (kernel : Kernel) (buf : Bytes) (n : Nat) :
    (write kernel buf n).result = some (-1) ↔ ∃ i < n, answer kernel buf i = some .failed := by
  induction n with
  | zero => simpa [write] using Writing.test_not_failed rfl
  | succ n ih =>
    have hsplit : (∃ i < n + 1, answer kernel buf i = some .failed) ↔
        (∃ i < n, answer kernel buf i = some .failed) ∨
          answer kernel buf n = some .failed := by
      constructor
      · rintro ⟨i, hi, hfailed⟩
        rcases Nat.lt_succ_iff_lt_or_eq.mp hi with hlt | rfl
        · exact Or.inl ⟨i, hlt, hfailed⟩
        · exact Or.inr hfailed
      · rintro (⟨i, hi, hfailed⟩ | hfailed)
        · exact ⟨i, by omega, hfailed⟩
        · exact ⟨n, by omega, hfailed⟩
    rw [hsplit, ← ih]
    cases hresult : (write kernel buf n).result with
    | none =>
      rw [write_succ hresult, Writing.answered_failed_iff hresult, answer_of_running hresult]
      simp
    | some r =>
      rw [write_stays hresult, answer_of_returned hresult, hresult]
      simp

theorem Writing.test_remaining (buf : Bytes) (w : Writing) :
    (w.test buf).remaining = w.remaining := by
  by_cases hpos : 0 < w.remaining
  · rw [Writing.test, if_pos hpos]
  · rw [Writing.test, if_neg hpos]

theorem Writing.answered_remaining (buf : Bytes) (w : Writing) (a : WriteResult w.remaining) :
    (w.answered buf a).remaining ≤ w.remaining := by
  cases a with
  | interrupted => simp only [Writing.answered, test_remaining, le_refl]
  | failed => simp only [Writing.answered, le_refl]
  | count n pos le =>
    simp only [Writing.answered, test_remaining]
    omega

theorem write_remaining (kernel : Kernel) (buf : Bytes) {m n : Nat} (h : m ≤ n) :
    (write kernel buf n).remaining ≤ (write kernel buf m).remaining := by
  induction n, h using Nat.le_induction with
  | base => exact le_refl _
  | succ n _ ih =>
    cases hresult : (write kernel buf n).result with
    | none =>
      rw [write_succ hresult]
      exact (Writing.answered_remaining buf _ _).trans ih
    | some r =>
      rw [write_stays hresult]
      exact ih

/-- Every count shortens the rest, so only interruptions can go on for ever. -/
theorem write_ends (kernel : Kernel) (buf : Bytes) (rest : Nat) :
    ∀ m, (write kernel buf m).remaining ≤ rest →
      (∃ n, (write kernel buf n).result ≠ none) ∨
        ∃ n, ∀ i ≥ n, answer kernel buf i = some .interrupted := by
  induction rest with
  | zero =>
    intro m hm
    refine Or.inl ⟨m, fun hresult => ?_⟩
    have hpos := (write_inStep kernel buf m).running hresult
    omega
  | succ rest ih =>
    intro m hm
    by_cases hall : ∀ i ≥ m, answer kernel buf i = some .interrupted
    · exact Or.inr ⟨m, hall⟩
    push Not at hall
    obtain ⟨i, hi, hanswer⟩ := hall
    have hle := write_remaining kernel buf hi
    cases hresult : (write kernel buf i).result with
    | some r => exact Or.inl ⟨i, by simp [hresult]⟩
    | none =>
      rw [answer_of_running hresult] at hanswer
      cases hkernel : kernel i (write kernel buf i).remaining with
      | interrupted => exact absurd (congrArg some hkernel) hanswer
      | failed =>
        refine Or.inl ⟨i + 1, ?_⟩
        rw [write_succ hresult, hkernel]
        simp [Writing.answered]
      | count n pos le =>
        refine ih (i + 1) ?_
        rw [write_succ hresult, hkernel]
        simp only [Writing.answered, Writing.test_remaining]
        omega

/-- Nothing is lost and nothing is sent twice, whatever the kernel answers. -/
theorem write_accepts (kernel : Kernel) (buf : Bytes) :
    (∀ n, (write kernel buf n).accepted <+: buf ∧
      ((write kernel buf n).result = some (buf.length : Int) ↔
        (write kernel buf n).accepted = buf) ∧
      ((write kernel buf n).result = some (-1) ↔
        ∃ i < n, answer kernel buf i = some .failed) ∧
      ∀ r, (write kernel buf n).result = some r → r = (buf.length : Int) ∨ r = -1) ∧
    ((∃ n, (write kernel buf n).result ≠ none) ∨
      ∃ n, ∀ i ≥ n, answer kernel buf i = some .interrupted) := by
  refine ⟨fun n => ?_, write_ends kernel buf _ 0 (le_refl _)⟩
  have hstep := write_inStep kernel buf n
  refine ⟨hstep.isPrefix, hstep.length_iff, write_failed_iff kernel buf n, ?_⟩
  intro r hr
  rcases hstep.returned r hr with ⟨hlength, _⟩ | ⟨hfailed, _⟩
  · exact Or.inl hlength
  · exact Or.inr hfailed

end Veda.Net
