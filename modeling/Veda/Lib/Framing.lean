import Mathlib.Data.List.Infix

/-!
A framer that takes one message after another off a stream. Where a message is read the same
whatever comes behind it, the stream can arrive in pieces of any size.
-/
namespace Framing

variable {α μ ρ : Type} {next : List α → Option (μ × List α)} {render : ρ → List α}
  {message : ρ → μ} {xs rest : List α} {m : μ} {rs : List ρ} {fuel : Nat}

/-- A message that is complete stays the same when the stream goes on, and takes something off
it. -/
structure Steady (next : List α → Option (μ × List α)) : Prop where
  append : ∀ {xs m rest} ys, next xs = some (m, rest) → next (xs ++ ys) = some (m, rest ++ ys)
  shorter : ∀ {xs m rest}, next xs = some (m, rest) → rest.length < xs.length

/-- The complete messages of a stream, and the piece behind them. -/
def readWithin (next : List α → Option (μ × List α)) : (fuel : Nat) → List α → List μ × List α
  | 0, xs => ([], xs)
  | fuel + 1, xs =>
    match next xs with
    | none => ([], xs)
    | some (m, rest) =>
      let (ms, piece) := readWithin next fuel rest
      (m :: ms, piece)

/-- No message is empty, so there are no more of them than elements. -/
def read (next : List α → Option (μ × List α)) (xs : List α) : List μ × List α :=
  readWithin next xs.length xs

/-- One more piece of the stream, behind what is left of the earlier ones. -/
def receive (next : List α → Option (μ × List α)) (p : List μ × List α) (piece : List α) :
    List μ × List α :=
  let (ms, left) := read next (p.2 ++ piece)
  (p.1 ++ ms, left)

/-- The framer reads each of these encodings as its message. -/
def Frames (next : List α → Option (μ × List α)) (render : ρ → List α) (message : ρ → μ)
    (rs : List ρ) : Prop :=
  ∀ r ∈ rs, ∀ tail, next (render r ++ tail) = some (message r, tail)

/-- A stream that breaks off: whole encodings, and a proper prefix of the next. -/
structure Broken (render : ρ → List α) (xs : List α) (whole todo : List ρ) (piece : List α) :
    Prop where
  split : xs = (whole.map render).flatten ++ piece
  ends : todo = [] → piece = []
  inside : ∀ r ∈ todo.head?, piece <+: render r ∧ piece ≠ render r

theorem readWithin_none (h : next xs = none) : readWithin next fuel xs = ([], xs) := by
  cases fuel with
  | zero => rfl
  | succ fuel => rw [readWithin, h]

/-- Where the whole stream has arrived, every encoding has. -/
theorem Broken.complete {whole todo : List ρ} {piece : List α}
    (h : Broken render xs whole todo piece) (hall : xs = ((whole ++ todo).map render).flatten) :
    todo = [] := by
  cases todo with
  | nil => rfl
  | cons r todo =>
    obtain ⟨hstarts, hproper⟩ := h.inside r rfl
    have hpiece : piece = render r ++ (todo.map render).flatten := by
      have := h.split.symm.trans hall
      rw [List.map_append, List.flatten_append, List.append_right_inj] at this
      rw [this, List.map_cons, List.flatten_cons]
    have hle := hstarts.length_le
    rw [hpiece, List.length_append] at hle
    have hnil := List.eq_nil_of_length_eq_zero (l := (todo.map render).flatten) (by omega)
    rw [hnil, List.append_nil] at hpiece
    exact absurd hpiece hproper

theorem Broken.starts {r : ρ} {whole todo : List ρ} {piece : List α}
    (h : Broken render xs (r :: whole) todo piece) : render r <+: xs := by
  rw [h.split, List.map_cons, List.flatten_cons, List.append_assoc]
  exact List.prefix_append _ _

/-- Before the first encoding is complete it does not stand in the stream. -/
theorem Broken.incomplete {todo : List ρ} {piece first : List α} {later : List (List α)}
    (h : Broken render xs [] todo piece) (hfirst : todo.map render = first :: later) :
    ¬ first <+: xs := by
  obtain ⟨r, todo, rfl, rfl, -⟩ := List.map_eq_cons_iff.mp hfirst
  obtain ⟨hstarts, hproper⟩ := h.inside r rfl
  have hpiece : xs = piece := h.split
  intro hle
  rw [hpiece] at hle
  exact hproper (hstarts.eq_of_length_le hle.length_le)

/-- Where a stream breaks off is determined by the stream. -/
theorem Broken.unique {whole whole' todo todo' : List ρ} {piece piece' : List α}
    (h : Broken render xs whole todo piece) (h' : Broken render xs whole' todo' piece')
    (hsame : (whole ++ todo).map render = (whole' ++ todo').map render) :
    whole.map render = whole'.map render ∧ piece = piece' := by
  induction whole generalizing xs whole' with
  | nil =>
    cases whole' with
    | nil => exact ⟨rfl, h.split.symm.trans h'.split⟩
    | cons r' whole' => exact absurd h'.starts (h.incomplete hsame)
  | cons r whole ih =>
    cases whole' with
    | nil => exact absurd h.starts (h'.incomplete hsame.symm)
    | cons r' whole' =>
      obtain ⟨hr, hrest⟩ := List.cons.inj hsame
      have hsplit := h.split
      have hsplit' := h'.split
      rw [List.map_cons, List.flatten_cons, List.append_assoc] at hsplit hsplit'
      rw [hsplit, hr, List.append_right_inj] at hsplit'
      obtain ⟨hwhole, hpiece⟩ := ih ⟨rfl, h.ends, h.inside⟩ ⟨hsplit', h'.ends, h'.inside⟩ hrest
      exact ⟨congrArg₂ List.cons hr hwhole, hpiece⟩

/-- The end of a stream. -/
theorem read_none (h : next xs = none) : read next xs = ([], xs) := readWithin_none h

namespace Steady

variable (hn : Steady next)
include hn

theorem nil : next [] = none := by
  cases h : next [] with
  | none => rfl
  | some p =>
    obtain ⟨m, rest⟩ := p
    exact absurd (hn.shorter h) (Nat.not_lt_zero _)

theorem readWithin_le {fuel' : Nat} (h : xs.length ≤ fuel) (h' : xs.length ≤ fuel') :
    readWithin next fuel xs = readWithin next fuel' xs := by
  induction fuel generalizing xs fuel' with
  | zero =>
    obtain rfl := List.eq_nil_of_length_eq_zero (Nat.le_zero.mp h)
    rw [readWithin_none hn.nil, readWithin_none hn.nil]
  | succ fuel ih =>
    cases hnext : next xs with
    | none => rw [readWithin_none hnext, readWithin_none hnext]
    | some p =>
      obtain ⟨m, rest⟩ := p
      have hshorter := hn.shorter hnext
      cases fuel' with
      | zero => omega
      | succ fuel' =>
        have hrest : readWithin next fuel rest = readWithin next fuel' rest :=
          ih (by omega) (by omega)
        simp only [readWithin, hnext, hrest]

theorem read_some (h : next xs = some (m, rest)) :
    read next xs = (m :: (read next rest).1, (read next rest).2) := by
  have hshorter := hn.shorter h
  obtain ⟨n, hlength⟩ := Nat.exists_eq_succ_of_ne_zero (Nat.ne_zero_of_lt hshorter)
  have hrest : readWithin next n rest = read next rest :=
    hn.readWithin_le (by omega) (Nat.le_refl _)
  rw [read, hlength, readWithin, h]
  simp only [hrest]

/-- A stream that goes on is read as if only the piece that is left were there. -/
theorem read_append (xs ys : List α) : read next (xs ++ ys) =
    ((read next xs).1 ++ (read next ((read next xs).2 ++ ys)).1,
      (read next ((read next xs).2 ++ ys)).2) := by
  induction hlength : xs.length using Nat.strongRecOn generalizing xs with
  | ind n ih =>
    cases h : next xs with
    | none => simp [read_none h]
    | some p =>
      obtain ⟨m, rest⟩ := p
      rw [hn.read_some h, hn.read_some (hn.append ys h),
        ih rest.length (hlength ▸ hn.shorter h) rest rfl]
      rfl

/-- How the stream is cut does not matter. -/
theorem foldl_receive (pieces : List (List α)) :
    pieces.foldl (receive next) ([], []) = read next pieces.flatten := by
  induction pieces using List.reverseRecOn with
  | nil => exact (read_none hn.nil).symm
  | append_singleton pieces piece ih =>
    rw [List.foldl_append, List.foldl_cons, List.foldl_nil, ih, List.flatten_append,
      List.flatten_singleton, hn.read_append]
    rfl

/-- An encoding that has not come to its end is no message yet. -/
theorem next_inside {r : ρ} (hr : next (render r) = some (message r, []))
    (hstarts : xs <+: render r) (hproper : xs ≠ render r) : next xs = none := by
  cases h : next xs with
  | none => rfl
  | some p =>
    obtain ⟨m, rest⟩ := p
    obtain ⟨tail, htail⟩ := hstarts
    have hwhole := hn.append tail h
    rw [htail, hr, Option.some.injEq, Prod.mk.injEq] at hwhole
    have hnil : tail = [] := (List.append_eq_nil_iff.mp hwhole.2.symm).2
    rw [hnil, List.append_nil] at htail
    exact absurd htail hproper

/-- What has arrived of a stream of encodings is read as the messages that are complete. -/
theorem read_arrived (hframes : Frames next render message rs)
    (h : xs <+: (rs.map render).flatten) : ∃ whole todo piece, rs = whole ++ todo ∧
      Broken render xs whole todo piece ∧ read next xs = (whole.map message, piece) := by
  induction rs generalizing xs with
  | nil =>
    obtain rfl : xs = [] := List.prefix_nil.mp h
    exact ⟨[], [], [], rfl, ⟨rfl, fun _ => rfl, by simp⟩, read_none hn.nil⟩
  | cons r rs ih =>
    have hr : next (render r) = some (message r, []) := by
      simpa using hframes r List.mem_cons_self []
    rw [List.map_cons, List.flatten_cons] at h
    by_cases hle : (render r).length ≤ xs.length
    · -- the first encoding has arrived
      obtain ⟨xs, rfl⟩ := List.prefix_of_prefix_length_le (List.prefix_append _ _) h hle
      obtain ⟨whole, todo, piece, hsplit, hbroken, hread⟩ :=
        ih (fun x hx => hframes x (List.mem_cons_of_mem r hx))
          ((List.prefix_append_right_inj _).mp h)
      refine ⟨r :: whole, todo, piece, by rw [hsplit, List.cons_append], ?_, ?_⟩
      · refine ⟨?_, hbroken.ends, hbroken.inside⟩
        rw [List.map_cons, List.flatten_cons, List.append_assoc, ← hbroken.split]
      · rw [hn.read_some (hframes r List.mem_cons_self xs), hread]
        rfl
    · have hstarts : xs <+: render r :=
        List.prefix_of_prefix_length_le h (List.prefix_append _ _) (by omega)
      have hproper : xs ≠ render r := by
        rintro rfl
        exact hle (Nat.le_refl _)
      have hnone := hn.next_inside hr hstarts hproper
      refine ⟨[], r :: rs, xs, rfl, ⟨rfl, by simp, ?_⟩, read_none hnone⟩
      rintro x hx
      obtain rfl := Option.some.inj hx
      exact ⟨hstarts, hproper⟩

end Steady
end Framing
