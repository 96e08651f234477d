import Veda.Media.FileSource
import Veda.Media.Segments

/-!
Endless playback of a file. The source is followed by a player over the segments of the file,
which begins the next pass in the call that meets the end of this one.
-/
namespace Veda.Media

/-- The non-empty segments. -/
def nals (ss : List Bytes) : List Bytes := ss.filter (· ≠ [])

/-- One call of a player that loops over the segments `ss` and has `left` to go in this pass:
what it delivers, what it returns, and what is left afterwards. The end of a pass shows in the
call for its last segment, which begins the next pass. -/
def play (ss left : List Bytes) : List Bytes × Bool × List Bytes :=
  if 2 ≤ left.length then (nals (left.take 1), true, left.tail)
  else (nals left ++ nals (ss.take 1), decide (2 ≤ ss.length), ss.tail)

/-- What the first `n` calls of the player deliver and return. -/
def plays (ss : List Bytes) : Nat → List Bytes → List (List Bytes × Bool)
  | 0, _ => []
  | n + 1, left =>
    let call := play ss left
    (call.1, call.2.1) :: plays ss n call.2.2

/-- The source is inside a pass over the file, with the segments `left` to go. -/
structure Playing (r : Recording) (left : List Bytes) (s : FileSource) : Prop where
  loop : s.loop = true
  opened : ∃ file, s.file = some file ∧ file.recording = r ∧
    segments (s.buffer ++ file.reads.flatten) = left

variable {r : Recording} {ss left : List Bytes} {s : FileSource} {fps now : Int}

theorem nals_cons (a : Bytes) (ss : List Bytes) : nals (a :: ss) = nals [a] ++ nals ss :=
  List.filter_append (p := fun s : Bytes => decide (s ≠ [])) [a] ss

theorem nals_take_tail (ss : List Bytes) : nals (ss.take 1) ++ nals ss.tail = nals ss := by
  cases ss with
  | nil => rfl
  | cons a ss => exact (nals_cons a ss).symm

theorem head_nals (ss : List Bytes) : (ss.head?.bind nonEmpty).toList = nals (ss.take 1) := by
  rcases ss with _ | ⟨_ | ⟨b, bs⟩, ss⟩
  · rfl
  · rfl
  · rfl

theorem play_next {a b : Bytes} : play ss (a :: b :: left) = (nals [a], true, b :: left) :=
  if_pos (by simp)

theorem play_wrap (h : left.length < 2) :
    play ss left = (nals left ++ nals (ss.take 1), decide (2 ≤ ss.length), ss.tail) :=
  if_neg (by omega)

/-- With two segments a player never stops. -/
theorem plays_result (hss : 2 ≤ ss.length) (n : Nat) (left : List Bytes) :
    ∀ call ∈ plays ss n left, call.2 = true := by
  induction n generalizing left with
  | zero => simp [plays]
  | succ n ih =>
    rw [plays, List.forall_mem_cons]
    refine ⟨?_, ih _⟩
    unfold play
    split
    · rfl
    · exact decide_eq_true hss

/-- With fewer it never goes on. -/
theorem plays_result_few (hss : ss.length < 2) {left : List Bytes} (hleft : left.length < 2)
    {n : Nat} : ∀ call ∈ plays ss n left, call.2 = false := by
  induction n generalizing left with
  | zero => simp [plays]
  | succ n ih =>
    rw [plays, List.forall_mem_cons, play_wrap hleft]
    refine ⟨decide_eq_false (by omega), ih ?_⟩
    rw [List.length_tail]
    omega

/-- What is delivered, followed by what is left of the pass, are whole passes. -/
theorem plays_passes (ss : List Bytes) (n : Nat) (left : List Bytes) : ∃ k last,
    ((plays ss n left).flatMap Prod.fst) ++ nals last =
      nals left ++ (List.replicate k (nals ss)).flatten := by
  induction n generalizing left with
  | zero => exact ⟨0, left, by simp [plays]⟩
  | succ n ih =>
    obtain ⟨k, last, hlast⟩ := ih (play ss left).2.2
    rw [plays, List.flatMap_cons]
    by_cases htwo : 2 ≤ left.length
    · refine ⟨k, last, ?_⟩
      rw [List.append_assoc, hlast, ← List.append_assoc, play, if_pos htwo, nals_take_tail]
    · refine ⟨k + 1, last, ?_⟩
      rw [List.append_assoc, hlast, play_wrap (by omega), List.replicate_succ, List.flatten_cons,
        ← nals_take_tail ss]
      simp only [List.append_assoc]

/-- The call for the last segment of a pass begins the next. -/
theorem plays_pass (hleft : left ≠ []) (n : Nat) :
    (plays ss (left.length + n) left).flatMap Prod.fst =
      nals left ++ nals (ss.take 1) ++ (plays ss n ss.tail).flatMap Prod.fst := by
  induction left with
  | nil => exact absurd rfl hleft
  | cons a left ih =>
    have hcount : (a :: left).length + n = left.length + n + 1 := by
      rw [List.length_cons]
      omega
    rw [hcount, plays, List.flatMap_cons]
    cases left with
    | nil =>
      rw [play_wrap (by simp), List.length_nil, Nat.zero_add]
    | cons b left =>
      rw [play_next, ih (by simp), nals_cons a (b :: left)]
      simp only [List.append_assoc]

/-- Each pass after the first takes one call less than there are segments. -/
theorem plays_rounds (hss : 2 ≤ ss.length) (k : Nat) (hleft : left ≠ []) :
    (plays ss (left.length + k * (ss.length - 1)) left).flatMap Prod.fst =
      nals left ++ (List.replicate k (nals ss)).flatten ++ nals (ss.take 1) := by
  induction k generalizing left with
  | zero =>
    rw [Nat.zero_mul, plays_pass hleft]
    simp [plays]
  | succ k ih =>
    have htail : ss.tail ≠ [] := by
      rw [← List.length_pos_iff, List.length_tail]
      omega
    have hcount : (k + 1) * (ss.length - 1) = ss.tail.length + k * (ss.length - 1) := by
      rw [List.length_tail, Nat.succ_mul, Nat.add_comm]
    rw [hcount, plays_pass hleft, ih htail, List.replicate_succ, List.flatten_cons,
      ← nals_take_tail ss]
    simp only [List.append_assoc]

/-- The last segment is empty, and no other is. -/
def OnlyLastEmpty (ss : List Bytes) : Prop :=
  (∀ s ∈ ss.dropLast, s ≠ []) ∧ ss.getLast? = some []

theorem onlyLastEmpty_singleton {a : Bytes} : OnlyLastEmpty [a] ↔ a = [] := by
  simp [OnlyLastEmpty]

theorem onlyLastEmpty_cons {a b : Bytes} :
    OnlyLastEmpty (a :: b :: ss) ↔ a ≠ [] ∧ OnlyLastEmpty (b :: ss) := by
  rw [OnlyLastEmpty, List.dropLast_cons_cons, List.forall_mem_cons, List.getLast?_cons_cons,
    and_assoc]
  rfl

theorem nals_length_one {a : Bytes} : (nals [a]).length = 1 ↔ a ≠ [] := by
  cases a <;> simp [nals]

/-- Every call that returns `true` delivers one NAL. -/
def OneEach (calls : List (List Bytes × Bool)) : Prop :=
  ∀ call ∈ calls, call.2 = true → call.1.length = 1

/-- A pass that delivers one NAL in each call goes on like that only if its last segment is
empty: the call for it delivers the first NAL of the next pass. -/
theorem plays_oneEach_left {a b : Bytes} {left : List Bytes}
    (hone : ∀ n, OneEach (plays (a :: b :: ss) n left)) (ha : a ≠ []) (hne : left ≠ []) :
    OnlyLastEmpty left := by
  induction left with
  | nil => exact absurd rfl hne
  | cons c left ih =>
    have hfirst := hone 1 _ List.mem_cons_self
    cases left with
    | nil =>
      rw [play_wrap (by simp)] at hfirst
      have hlength := hfirst (by simp)
      rw [List.length_append, List.take_one] at hlength
      have hnext := nals_length_one.mpr ha
      refine onlyLastEmpty_singleton.mpr ?_
      by_contra hc
      have hlast := nals_length_one.mpr hc
      simp only [List.head?_cons, Option.toList_some] at hlength
      omega
    | cons d left =>
      rw [play_next] at hfirst
      refine onlyLastEmpty_cons.mpr ⟨nals_length_one.mp (hfirst rfl), ?_⟩
      apply ih _ (by simp)
      intro n call hcall
      apply hone (n + 1) call
      rw [plays, play_next]
      exact List.mem_cons_of_mem _ hcall

theorem plays_oneEach_of_left {a b : Bytes} {left : List Bytes}
    (hss : OnlyLastEmpty (a :: b :: ss)) (hleft : OnlyLastEmpty left) (n : Nat) :
    OneEach (plays (a :: b :: ss) n left) := by
  induction n generalizing left with
  | zero => simp [OneEach, plays]
  | succ n ih =>
    rw [plays, OneEach, List.forall_mem_cons]
    rcases left with _ | ⟨c, _ | ⟨d, left⟩⟩
    · cases hleft.2
    · obtain rfl := onlyLastEmpty_singleton.mp hleft
      obtain ⟨ha, hrest⟩ := onlyLastEmpty_cons.mp hss
      rw [play_wrap (by simp)]
      exact ⟨fun _ => nals_length_one.mpr ha, ih hrest⟩
    · obtain ⟨hc, hrest⟩ := onlyLastEmpty_cons.mp hleft
      rw [play_next]
      exact ⟨fun _ => nals_length_one.mpr hc, ih hrest⟩

/-- One NAL in each call of a player that starts a pass. -/
theorem plays_oneEach_iff (hss : 2 ≤ ss.length) :
    (∀ n, OneEach (plays ss n ss)) ↔ OnlyLastEmpty ss := by
  rcases ss with _ | ⟨a, _ | ⟨b, ss⟩⟩
  · cases hss
  · exact absurd hss (by simp)
  · constructor
    · intro hone
      have hfirst := hone 1 _ List.mem_cons_self
      rw [play_next] at hfirst
      exact plays_oneEach_left hone (nals_length_one.mp (hfirst rfl)) (by simp)
    · intro hlast n
      exact plays_oneEach_of_left hlast hlast n

/-- A call of the reader in the middle of a file. -/
theorem readNal_left (buffer : Bytes) (reads : Reads)
    (h : segments (buffer ++ reads.flatten) = left) :
    let call := readNal buffer reads
    call.callback.toList = nals (left.take 1) ∧ call.result = decide (2 ≤ left.length) ∧
    segments (call.buffer ++ call.reads.flatten) = left.tail := by
  have hcall := readNal_eq buffer reads
  obtain ⟨hcallback, hresult, hrest⟩ := cutNal_segments (buffer ++ reads.flatten)
  rw [← hcall, h] at hcallback hresult hrest
  refine ⟨?_, hresult, hrest⟩
  rw [← head_nals, ← hcallback]

namespace FileSource

/-- The source after `n` calls. -/
def afterCalls : Nat → FileSource → FileSource
  | 0, s => s
  | n + 1, s => afterCalls n s.readNal.source

/-- Pacing does not touch the file. -/
theorem pace_playing (callbacks : List Bytes) (h : Playing r left s) :
    (s.pace callbacks).callbacks = callbacks ∧ (s.pace callbacks).result = true ∧
    Playing r left (s.pace callbacks).source := by
  refine ⟨rfl, rfl, ?_⟩
  unfold pace
  cases callbacks.any isFrame with
  | false => exact h
  | true => exact ⟨h.loop, h.opened⟩

/-- A call of the source is a call of the player. -/
theorem readNal_play (h : Playing r left s) :
    let call := play (segments r.content) left
    s.readNal.callbacks = call.1 ∧ s.readNal.result = call.2.1 ∧
    Playing r call.2.2 s.readNal.source := by
  obtain ⟨file, hfile, hrec, hleft⟩ := h.opened
  obtain ⟨hcallback, hresult, hrest⟩ := readNal_left s.buffer file.reads hleft
  rw [readNal, hfile]
  dsimp only
  rw [hcallback, hresult]
  by_cases htwo : 2 ≤ left.length
  · rw [play, if_pos htwo, if_pos (decide_eq_true htwo)]
    exact pace_playing _ ⟨h.loop, _, rfl, hrec, hrest⟩
  · -- the second reading starts from the beginning of the file
    have hagain : segments ([] ++ file.rewind.reads.flatten) = segments r.content := by
      rw [List.nil_append, ← hrec]
      exact congrArg segments (file.recording.delivers _)
    obtain ⟨hcallback', hresult', hrest'⟩ := readNal_left [] file.rewind.reads hagain
    have hlast : left.take 1 = left := List.take_of_length_le (by omega)
    rw [play, if_neg htwo, if_neg (by simpa using htwo), if_neg (by simp [h.loop]),
      hcallback', hresult', hlast]
    by_cases hmore : 2 ≤ (segments r.content).length
    · rw [decide_eq_true hmore]
      exact pace_playing _ ⟨h.loop, _, rfl, hrec, hrest'⟩
    · rw [decide_eq_false hmore]
      exact ⟨rfl, rfl, h.loop, _, rfl, hrec, hrest'⟩

theorem readCalls_plays (n : Nat) (h : Playing r left s) :
    (readCalls n s).map (fun call => (call.callbacks, call.result)) =
      plays (segments r.content) n left := by
  induction n generalizing left s with
  | zero => rfl
  | succ n ih =>
    obtain ⟨hcallbacks, hresult, hnext⟩ := readNal_play h
    rw [readCalls, List.map_cons, ih hnext, hcallbacks, hresult]
    rfl

theorem started_playing (r : Recording) (fps now : Int) :
    Playing r (segments r.content) (started r fps true now) := by
  refine ⟨rfl, _, rfl, rfl, ?_⟩
  exact congrArg segments (r.delivers 0)

/-- What the callback was called with in a run. -/
def delivered (calls : List SourceRead) : List Bytes := calls.flatMap (·.callbacks)

theorem delivered_cons (call : SourceRead) (calls : List SourceRead) :
    delivered (call :: calls) = call.callbacks ++ delivered calls :=
  List.flatMap_cons

/-- Endless playback: a looping source goes on for ever if and only if its file has a second
start code behind the first. -/
theorem readNal_endless_iff (r : Recording) (fps now : Int) :
    (∀ n, ∀ call ∈ readCalls n (started r fps true now), call.result = true) ↔
      2 ≤ (segments r.content).length := by
  have hplays := fun n => readCalls_plays n (started_playing r fps now)
  constructor
  · intro h
    by_contra hfew
    have hfirst := (readNal_play (started_playing r fps now)).2.1
    rw [h 1 _ List.mem_cons_self, play_wrap (by omega)] at hfirst
    exact hfew (of_decide_eq_true hfirst.symm)
  · intro htwo n call hcall
    refine plays_result htwo n (segments r.content) (call.callbacks, call.result) ?_
    rw [← hplays n]
    exact List.mem_map_of_mem hcall

/-- A file that holds a single NAL. -/
def singleNal : Recording where
  content := [0, 0, 1, 101, 136]
  passes := fun _ => [[0, 0, 1, 101, 136]]
  delivers := fun _ => rfl

/-- The only NAL of a file is its last: the first call delivers it twice and returns `false`. -/
theorem readNal_single_ends : ¬ ∀ (r : Recording) (fps now : Int),
    (∃ s ∈ segments r.content, s ≠ []) →
      ∀ n, ∀ call ∈ readCalls n (started r fps true now), call.result = true := by
  intro h
  have hfirst := h singleNal 30 0 ⟨[101, 136], by decide, by decide⟩ 1 _ List.mem_cons_self
  exact absurd hfirst (by decide)

/-- A file of two frames. -/
def twoFrames : Recording where
  content := [0, 0, 1, 101, 136, 0, 0, 1, 65, 154]
  passes := fun _ => [[0, 0, 1, 101, 136, 0, 0, 1, 65, 154]]
  delivers := fun _ => rfl

/-- Looping neither loses, repeats nor corrupts a NAL: what is delivered is the beginning of
the NALs of the file over and over. -/
theorem readNal_loops (r : Recording) (fps now : Int) (n : Nat) : ∃ k,
    delivered (readCalls n (started r fps true now)) <+:
      (List.replicate k (nals (segments r.content))).flatten := by
  obtain ⟨k, last, hpasses⟩ := plays_passes (segments r.content) n (segments r.content)
  rw [← readCalls_plays n (started_playing r fps now), List.flatMap_map] at hpasses
  refine ⟨k + 1, nals last, ?_⟩
  rw [List.replicate_succ, List.flatten_cons]
  exact hpasses

/-- Three calls over a file of two frames go round twice. -/
theorem readNal_loops_twice : ∃ k,
    [[101, 136], [65, 154], [101, 136], [65, 154], [101, 136]] <+:
      (List.replicate k (nals (segments twoFrames.content))).flatten := by
  have hthree : delivered (readCalls 3 (started twoFrames 30 true 0)) =
      [[101, 136], [65, 154], [101, 136], [65, 154], [101, 136]] := by
    decide
  rw [← hthree]
  exact readNal_loops twoFrames 30 0 3

/-- How much is delivered: with a second start code the first pass takes as many calls as there are
segments, each later one takes one less, and the call that ends a pass begins the next. -/
theorem readNal_rounds (r : Recording) (fps now : Int) (h : 2 ≤ (segments r.content).length)
    (k : Nat) :
    delivered (readCalls
      ((segments r.content).length + k * ((segments r.content).length - 1))
      (started r fps true now)) =
      (List.replicate (k + 1) (nals (segments r.content))).flatten ++
        nals ((segments r.content).take 1) := by
  have hne : segments r.content ≠ [] := by
    rw [← List.length_pos_iff]
    omega
  have hrounds := plays_rounds h k hne
  rw [← readCalls_plays _ (started_playing r fps now), List.flatMap_map] at hrounds
  rw [List.replicate_succ, List.flatten_cons]
  exact hrounds

/-- Every call that returns `true` moves the time of the next frame on if it delivered one. -/
theorem readNal_time (s : FileSource) (h : s.readNal.result = true) :
    s.readNal.source.fps = s.fps ∧ s.readNal.source.nextFrameTime =
      s.nextFrameTime + if s.readNal.callbacks.any isFrame then 1000000 / s.fps else 0 := by
  have hpace : ∀ (s : FileSource) callbacks, (s.pace callbacks).source.fps = s.fps ∧
      (s.pace callbacks).source.nextFrameTime =
        s.nextFrameTime + if callbacks.any isFrame then 1000000 / s.fps else 0 := by
    intro s callbacks
    unfold pace
    cases callbacks.any isFrame <;> simp
  revert h
  rw [readNal]
  split
  · simp
  · dsimp only
    split
    · intro _
      exact hpace _ _
    · split
      · simp
      · split
        · simp
        · intro _
          exact hpace _ _

/-- Every call that returns `true` calls the callback once. -/
def OnePerCall (n : Nat) (s : FileSource) : Prop :=
  ∀ call ∈ readCalls n s, call.result = true → call.callbacks.length = 1

/-- If all calls returned `true`, the next frame is due one period later for each frame. -/
def Paced (n : Nat) (s : FileSource) : Prop :=
  (∀ call ∈ readCalls n s, call.result = true) →
    (afterCalls n s).nextFrameTime =
      s.nextFrameTime + (delivered (readCalls n s)).countP isFrame * (1000000 / s.fps)

/-- With one NAL in each call no frame is released without its delay. -/
theorem paced_of_onePerCall {n : Nat} (hone : OnePerCall n s) : Paced n s := by
  induction n generalizing s with
  | zero =>
    intro _
    simp [afterCalls, delivered, readCalls]
  | succ n ih =>
    rw [OnePerCall, readCalls, List.forall_mem_cons] at hone
    intro htrue
    rw [readCalls, List.forall_mem_cons] at htrue
    obtain ⟨hfps, htime⟩ := readNal_time s htrue.1
    obtain ⟨nal, hnal⟩ := List.length_eq_one_iff.mp (hone.1 htrue.1)
    have hrest := ih hone.2 htrue.2
    have hcount : (delivered (readCalls (n + 1) s)).countP isFrame =
        (if isFrame nal then 1 else 0) +
          (delivered (readCalls n s.readNal.source)).countP isFrame := by
      rw [readCalls, delivered_cons, hnal, List.countP_append, List.countP_singleton]
    rw [afterCalls, hrest, hfps, htime, hcount, hnal, List.any_cons, List.any_nil, Bool.or_false,
      Int.natCast_add, Int.add_mul]
    cases isFrame nal with
    | false => simp
    | true =>
      simp only [if_true, Int.natCast_one, Int.one_mul]
      omega

/-- One NAL per call and one period per frame: a looping source keeps to it if and only if its
file has fewer than two start codes, so that no call returns `true`, or ends with a start code
and has a NAL behind each other one. -/
theorem readNal_paced_iff (r : Recording) (fps now : Int) :
    (∀ n, OnePerCall n (started r fps true now) ∧ Paced n (started r fps true now)) ↔
      (2 ≤ (segments r.content).length → OnlyLastEmpty (segments r.content)) := by
  have hone : ∀ n, OnePerCall n (started r fps true now) ↔
      OneEach (plays (segments r.content) n (segments r.content)) := by
    intro n
    rw [← readCalls_plays n (started_playing r fps now), OneEach, List.forall_mem_map]
    rfl
  constructor
  · intro h htwo
    exact (plays_oneEach_iff htwo).mp fun n => (hone n).mp (h n).1
  · intro hlast n
    suffices h : OnePerCall n (started r fps true now) from ⟨h, paced_of_onePerCall h⟩
    by_cases htwo : 2 ≤ (segments r.content).length
    · exact (hone n).mpr ((plays_oneEach_iff htwo).mpr (hlast htwo) n)
    · -- no call returns `true`
      rw [hone, OneEach]
      intro call hcall htrue
      rw [plays_result_few (by omega) (by omega) call hcall] at htrue
      cases htrue

/-- The second call delivers the last frame and the first one, and waits for one period. -/
theorem readNal_wrap_delivers_two : ¬ ∀ (r : Recording) (fps now : Int) (n : Nat),
    OnePerCall n (started r fps true now) ∧ Paced n (started r fps true now) := by
  intro h
  have hone := (h twoFrames 30 0 2).1 _ (List.mem_cons_of_mem _ List.mem_cons_self)
  exact absurd (hone (by decide)) (by decide)

end FileSource
end Veda.Media
