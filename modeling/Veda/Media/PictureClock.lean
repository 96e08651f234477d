import Veda.Media.FanOut
import Veda.Rtp.HeaderFields

/-!
The RTP clock against the pictures of the stream. The Hub advances the clock after each slice,
so the packets of a picture share a timestamp exactly where no picture has two slices.
-/
namespace Veda.Media

open Rtp

/-- A slice with `first_mb_in_slice = 0`: the top bit of the byte after the NAL header is set. -/
def beginsPicture (nal : Bytes) : Bool := isVcl nal && decide (nal.getD 1 0 &&& 0x80 ≠ 0)

/-- Number of the picture that NAL `i` belongs to: the pictures begun up to it. -/
def pictureNumber (nals : List Bytes) (i : Nat) : Nat := (nals.take (i + 1)).countP beginsPicture

/-- What each NAL makes a streamer hand to its socket. -/
def packetsPerNal (tsIncrement : UInt32) : Streamer → List Bytes → List (List Bytes)
  | _, [] => []
  | st, nal :: nals =>
    let st' := Hub.deliver tsIncrement nal st
    (st'.socket.attempts.drop st.socket.attempts.length).map (·.packet) ::
      packetsPerNal tsIncrement st' nals

/-- The packets of the slices of one picture have one timestamp, and that of the next picture
is `tsIncrement` later. -/
def OneTimestamp (tsIncrement : UInt32) (nals : List Bytes) (packets : List (List Bytes)) : Prop :=
  ∀ (i j : Nat) nal nal' ps qs, i ≤ j → nals[i]? = some nal → nals[j]? = some nal' →
    isVcl nal = true → isVcl nal' = true → packets[i]? = some ps → packets[j]? = some qs →
    ∀ p ∈ ps, ∀ q ∈ qs,
      (pictureNumber nals j = pictureNumber nals i → timestampOf q = timestampOf p) ∧
      (pictureNumber nals j = pictureNumber nals i + 1 →
        timestampOf q = timestampOf p + tsIncrement)

/-- Every slice but the first begins a picture. -/
def SingleSlice (nals : List Bytes) : Prop :=
  nals.Pairwise fun nal nal' => isVcl nal = true → isVcl nal' = true → beginsPicture nal' = true

instance (nals : List Bytes) : Decidable (SingleSlice nals) :=
  inferInstanceAs (Decidable (nals.Pairwise _))

variable {st : Streamer} {sequence : UInt16} {inc vcl i j : Nat} {nal nal' : Bytes}
  {nals : List Bytes} {tsIncrement : UInt32}

/-- The slices before NAL `i`. -/
def slicesBefore (nals : List Bytes) (i : Nat) : Nat := (nals.take i).countP isVcl

theorem slicesBefore_cons (i : Nat) : slicesBefore (nal :: nals) (i + 1) =
    slicesBefore nals i + if isVcl nal then 1 else 0 := by
  simp [slicesBefore, List.countP_cons]

theorem tried_ne_nil {outcome : Nat → Bool} {n : Nat} {frags : List Bytes} (h : frags ≠ []) :
    tried outcome n frags ≠ [] := by
  obtain ⟨f, fs, rfl⟩ := List.exists_cons_of_ne_nil h
  rw [tried]
  split <;> simp

/-- The packets of the first NAL are those of the attempts that it leads to. -/
theorem packetsPerNal_cons (h : Tracks st sequence inc vcl) (hnal : nal ≠ []) :
    packetsPerNal (UInt32.ofNat inc) st (nal :: nals) =
      (st.attemptsFor nal).map (·.packet) ::
        packetsPerNal (UInt32.ofNat inc) (Hub.deliver (UInt32.ofNat inc) nal st) nals := by
  rw [packetsPerNal, deliver_attempts h.connected hnal, List.drop_left]

/-- The packets of a NAL carry the clock of its turn, and there is at least one. -/
theorem packetsPerNal_get (h : Tracks st sequence inc vcl) (hn : ∀ nal ∈ nals, nal ≠ [])
    {ps : List Bytes} (hi : (packetsPerNal (UInt32.ofNat inc) st nals)[i]? = some ps) :
    ps ≠ [] ∧ ∀ p ∈ ps, timestampOf p = UInt32.ofNat (inc * (vcl + slicesBefore nals i)) := by
  induction nals generalizing st vcl i with
  | nil => simp [packetsPerNal] at hi
  | cons nal nals ih =>
    have hnal : nal ≠ [] := hn nal (by simp)
    rw [packetsPerNal_cons h hnal] at hi
    cases i with
    | zero =>
      rw [List.getElem?_cons_zero, Option.some.injEq, attemptsFor_packets h] at hi
      subst hi
      refine ⟨by simp [tried_ne_nil (fragmentNalDefault_ne_nil hnal)], ?_⟩
      intro p hp
      obtain ⟨j, hj, rfl⟩ := List.mem_mapIdx.mp hp
      rw [timestampOf_buildPacket]
      rfl
    | succ i =>
      rw [List.getElem?_cons_succ] at hi
      obtain ⟨hne, htime⟩ := ih (tracks_deliver h hnal) (fun x hx => hn x (by simp [hx])) hi
      refine ⟨hne, ?_⟩
      intro p hp
      rw [htime p hp, slicesBefore_cons]
      congr 2
      omega

theorem packetsPerNal_length : (packetsPerNal tsIncrement st nals).length = nals.length := by
  induction nals generalizing st with
  | nil => rfl
  | cons nal nals ih => simp [packetsPerNal, ih]

theorem slicesBefore_succ (k : Nat) : slicesBefore nals (k + 1) =
    slicesBefore nals k + nals[k]?.toList.countP isVcl := by
  rw [slicesBefore, List.take_add_one, List.countP_append]
  rfl

theorem pictureNumber_succ (k : Nat) : pictureNumber nals (k + 1) =
    pictureNumber nals k + nals[k + 1]?.toList.countP beginsPicture := by
  rw [pictureNumber, List.take_add_one, List.countP_append]
  rfl

theorem countP_slice (hi : nals[i]? = some nal) (hnal : isVcl nal = true) :
    nals[i]?.toList.countP isVcl = 1 := by
  simp [hi, hnal]

theorem SingleSlice.begins (h : SingleSlice nals) (hij : i < j) (hi : nals[i]? = some nal)
    (hj : nals[j]? = some nal') (hnal : isVcl nal = true) (hnal' : isVcl nal' = true) :
    beginsPicture nal' = true := by
  obtain ⟨hilt, rfl⟩ := List.getElem?_eq_some_iff.mp hi
  obtain ⟨hjlt, rfl⟩ := List.getElem?_eq_some_iff.mp hj
  exact List.pairwise_iff_getElem.mp h i j hilt hjlt hij hnal hnal'

theorem begins_isVcl (h : beginsPicture nal = true) : isVcl nal = true := by
  rw [beginsPicture, Bool.and_eq_true] at h
  exact h.1

/-- Between two slices, as many slices as pictures begin, if every slice but the first begins
one. -/
theorem slicesBefore_sub (h : SingleSlice nals) (hij : i ≤ j) (hi : nals[i]? = some nal)
    (hj : nals[j]? = some nal') (hnal : isVcl nal = true) (hnal' : isVcl nal' = true) :
    slicesBefore nals j + pictureNumber nals i = slicesBefore nals i + pictureNumber nals j := by
  have hcount : ∀ k, i ≤ k → slicesBefore nals (k + 1) + pictureNumber nals i =
      slicesBefore nals i + 1 + pictureNumber nals k := by
    intro k hk
    induction k, hk using Nat.le_induction with
    | base => rw [slicesBefore_succ, countP_slice hi hnal]
    | succ k hk ih =>
      have hsame : nals[k + 1]?.toList.countP isVcl =
          nals[k + 1]?.toList.countP beginsPicture := by
        cases hnext : nals[k + 1]? with
        | none => rfl
        | some next =>
          have hiff : isVcl next = beginsPicture next := by
            rw [Bool.eq_iff_iff]
            exact ⟨h.begins (by omega) hi hnext hnal, begins_isVcl⟩
          simp [hiff]
      rw [slicesBefore_succ, pictureNumber_succ, hsame]
      omega
  have hlast := hcount j hij
  rw [slicesBefore_succ, countP_slice hj hnal'] at hlast
  omega

theorem oneTimestamp_of_singleSlice (ht : Tracks st sequence inc vcl)
    (hn : ∀ nal ∈ nals, nal ≠ []) (h : UInt32.ofNat inc = 0 ∨ SingleSlice nals) :
    OneTimestamp (UInt32.ofNat inc) nals (packetsPerNal (UInt32.ofNat inc) st nals) := by
  intro i j nal nal' ps qs hij hi hj hnal hnal' hps hqs p hp q hq
  rw [(packetsPerNal_get ht hn hps).2 p hp, (packetsPerNal_get ht hn hqs).2 q hq]
  rcases h with hzero | hsingle
  · simp only [UInt32.ofNat_mul, hzero, UInt32.zero_mul, UInt32.add_zero, implies_true, and_self]
  · have hsub := slicesBefore_sub hsingle hij hi hj hnal hnal'
    constructor
    · intro hsame
      have hslices : slicesBefore nals j = slicesBefore nals i := by omega
      rw [hslices]
    · intro hnext
      have hslices : slicesBefore nals j = slicesBefore nals i + 1 := by omega
      rw [hslices, ← UInt32.ofNat_add, ← Nat.add_assoc, Nat.mul_succ]

/-- Before a slice that is not the first there is a last one. -/
theorem exists_last_slice (hij : i < j) (hi : nals[i]? = some nal) (hnal : isVcl nal = true) :
    ∃ k last, i ≤ k ∧ k < j ∧ nals[k]? = some last ∧ isVcl last = true ∧
      slicesBefore nals j = slicesBefore nals k + 1 ∧
      ∀ n, k < n → n < j → nals[n]?.toList.countP isVcl = 0 := by
  induction j, hij using Nat.le_induction with
  | base =>
    refine ⟨i, nal, le_rfl, by omega, hi, hnal, ?_, by omega⟩
    rw [slicesBefore_succ, countP_slice hi hnal]
  | succ j hij ih =>
    obtain ⟨k, last, hik, hkj, hk, hlast, hcount, hnone⟩ := ih
    by_cases hslice : nals[j]?.toList.countP isVcl = 0
    · refine ⟨k, last, hik, by omega, hk, hlast, ?_, ?_⟩
      · rw [slicesBefore_succ, hslice, hcount]
      · intro n hkn hnj
        rcases Nat.lt_succ_iff_lt_or_eq.mp hnj with hlt | rfl
        · exact hnone n hkn hlt
        · exact hslice
    · cases hj : nals[j]? with
      | none => simp [hj] at hslice
      | some next =>
        have hnext : isVcl next = true := by simpa [hj] using hslice
        refine ⟨j, next, by omega, by omega, hj, hnext, ?_, by omega⟩
        rw [slicesBefore_succ, countP_slice hj hnext]

/-- No picture begins where there are no slices. -/
theorem pictureNumber_eq (hij : i ≤ j)
    (hnone : ∀ n, i < n → n < j + 1 → nals[n]?.toList.countP beginsPicture = 0) :
    pictureNumber nals j = pictureNumber nals i := by
  induction j, hij using Nat.le_induction with
  | base => rfl
  | succ j hij ih =>
    rw [pictureNumber_succ, hnone (j + 1) (by omega) (by omega),
      ih fun n hin hnj => hnone n hin (by omega), Nat.add_zero]

theorem countP_beginsPicture (h : nals[i]?.toList.countP isVcl = 0) :
    nals[i]?.toList.countP beginsPicture = 0 :=
  Nat.le_zero.mp ((List.countP_mono_left fun _ _ => begins_isVcl).trans h.le)

theorem exists_packets (tsIncrement : UInt32) (st : Streamer) (hi : nals[i]? = some nal) :
    ∃ ps, (packetsPerNal tsIncrement st nals)[i]? = some ps := by
  have hlt : i < (packetsPerNal tsIncrement st nals).length := by
    rw [packetsPerNal_length]
    exact (List.getElem?_eq_some_iff.mp hi).1
  exact ⟨_, List.getElem?_eq_getElem hlt⟩

/-- Two slices of a picture in a row have timestamps `tsIncrement` apart. -/
theorem singleSlice_of_oneTimestamp (ht : Tracks st sequence inc vcl)
    (hn : ∀ nal ∈ nals, nal ≠ [])
    (h : OneTimestamp (UInt32.ofNat inc) nals (packetsPerNal (UInt32.ofNat inc) st nals)) :
    UInt32.ofNat inc = 0 ∨ SingleSlice nals := by
  by_contra hnot
  obtain ⟨hinc, hmany⟩ := not_or.mp hnot
  apply hmany
  rw [SingleSlice, List.pairwise_iff_getElem]
  intro i j hilt hjlt hij hnal hnal'
  have hi := List.getElem?_eq_getElem hilt
  have hj := List.getElem?_eq_getElem hjlt
  by_contra hbegins
  obtain ⟨k, last, hik, hkj, hk, hlast, hcount, hnone⟩ := exists_last_slice hij hi hnal
  have hpicture : pictureNumber nals j = pictureNumber nals k := by
    apply pictureNumber_eq (by omega)
    intro n hkn hnj
    rcases Nat.lt_succ_iff_lt_or_eq.mp hnj with hlt | rfl
    · exact countP_beginsPicture (hnone n hkn hlt)
    · simp [hj, hbegins]
  obtain ⟨ps, hps⟩ := exists_packets (UInt32.ofNat inc) st hk
  obtain ⟨qs, hqs⟩ := exists_packets (UInt32.ofNat inc) st hj
  obtain ⟨hps₀, hpsTime⟩ := packetsPerNal_get ht hn hps
  obtain ⟨hqs₀, hqsTime⟩ := packetsPerNal_get ht hn hqs
  obtain ⟨p, hp⟩ := List.exists_mem_of_ne_nil ps hps₀
  obtain ⟨q, hq⟩ := List.exists_mem_of_ne_nil qs hqs₀
  have hsame := (h k j last _ ps qs (by omega) hk hj hlast hnal' hps hqs p hp q hq).1 hpicture
  rw [hpsTime p hp, hqsTime q hq, hcount, ← Nat.add_assoc, Nat.mul_succ, UInt32.ofNat_add] at hsame
  exact hinc (UInt32.add_eq_left.mp hsame)

/-- What a streamer hands to its socket, NAL by NAL. -/
theorem foldl_packetsPerNal (ht : Tracks st sequence inc vcl) (hn : ∀ nal ∈ nals, nal ≠ []) :
    (nals.foldl (fun st nal => Hub.deliver (UInt32.ofNat inc) nal st) st).socket.attempts.map
        (·.packet) =
      st.socket.attempts.map (·.packet) ++
        (packetsPerNal (UInt32.ofNat inc) st nals).flatten := by
  induction nals generalizing st vcl with
  | nil => simp [packetsPerNal]
  | cons nal nals ih =>
    have hnal : nal ≠ [] := hn nal (by simp)
    rw [List.foldl_cons, ih (tracks_deliver ht hnal) fun x hx => hn x (by simp [hx]),
      packetsPerNal_cons ht hnal, List.flatten_cons, deliver_attempts ht.connected hnal,
      List.map_append, List.append_assoc]

section Run
variable {σ : Type} [DecidableEq σ] (fps : Int) (ssrc : σ → UInt32) (seq : σ → UInt16)
  (outcome : σ → Nat → Bool) {ops : List (HubOp σ)} {s : σ}

theorem tracks_newStreamer (ssrc : UInt32) (seq : UInt16) (outcome : Nat → Bool) :
    Tracks (newStreamer ssrc seq outcome) seq inc 0 := by
  refine ⟨rfl, rfl, ?_, ?_⟩ <;> simp [newStreamer, Streamer.create, Streamer.connect]

/-- The packets of a subscriber are those of the NALs of its window. -/
theorem run_packetsPerNal (hs : subscriptions s ops ≤ 1) :
    ((HubRun.initial fps ssrc seq outcome).run ops).packets s =
      (packetsPerNal (tsIncrementOf fps) (newStreamer (ssrc s) (seq s) (outcome s))
        (window s false ops)).flatten := by
  have hact : Active s false (HubRun.initial fps ssrc seq outcome) := by
    simp [Active, HubRun.initial, Hub.create]
  have hinc : tsIncrementOf fps = UInt32.ofNat (tsIncrementOf fps).toNat := by simp
  have htracks : Tracks (newStreamer (ssrc s) (seq s) (outcome s)) (seq s)
      (tsIncrementOf fps).toNat 0 := tracks_newStreamer (ssrc s) (seq s) (outcome s)
  have hnals : ∀ nal ∈ window s false ops, nal ≠ [] := window_ne_nil
  rw [HubRun.packets, run_mem hact hs]
  have h := foldl_packetsPerNal htracks hnals
  rw [← hinc] at h
  simpa [HubRun.initial, Hub.create, newStreamer, Streamer.create, Streamer.connect] using h

/-- A subscriber sees one timestamp for each picture exactly if the clock stands still or no
picture of its window has two slices. -/
theorem pictureClock_iff (hs : subscriptions s ops ≤ 1) :
    ((HubRun.initial fps ssrc seq outcome).run ops).packets s =
      (packetsPerNal (tsIncrementOf fps) (newStreamer (ssrc s) (seq s) (outcome s))
        (window s false ops)).flatten ∧
    (OneTimestamp (tsIncrementOf fps) (window s false ops)
        (packetsPerNal (tsIncrementOf fps) (newStreamer (ssrc s) (seq s) (outcome s))
          (window s false ops)) ↔
      tsIncrementOf fps = 0 ∨ SingleSlice (window s false ops)) := by
  have htracks : Tracks (newStreamer (ssrc s) (seq s) (outcome s)) (seq s)
      (tsIncrementOf fps).toNat 0 := tracks_newStreamer (ssrc s) (seq s) (outcome s)
  have hnals : ∀ nal ∈ window s false ops, nal ≠ [] := window_ne_nil
  have hone := oneTimestamp_of_singleSlice htracks hnals
  have hsingle := singleSlice_of_oneTimestamp htracks hnals
  rw [UInt32.ofNat_toNat] at hone hsingle
  exact ⟨run_packetsPerNal fps ssrc seq outcome hs, hsingle, hone⟩

end Run

/-- Two pictures of one slice each, with a parameter set in front. -/
theorem pictureClock_iff_two_pictures :
    OneTimestamp 3000 [[103, 66], [101, 0x88], [65, 0x9a]]
      [[buildPacket { sequence := 65535, timestamp := 0, ssrc := 7, marker := true } [103, 66]],
       [buildPacket { sequence := 0, timestamp := 0, ssrc := 7, marker := true } [101, 0x88]],
       [buildPacket { sequence := 1, timestamp := 3000, ssrc := 7, marker := true }
          [65, 0x9a]]] := by
  have hs : subscriptions ()
      [.subscribe () true, .onNal [103, 66], .onNal [101, 0x88], .onNal [65, 0x9a]] ≤ 1 := by
    decide
  exact (pictureClock_iff 30 (fun _ => 7) (fun _ => 65535) (fun _ _ => true) hs).2.mpr
    (Or.inr (by decide))

/-- One picture of two slices: the second has a later timestamp. -/
theorem two_slices_two_timestamps :
    ((HubRun.initial 30 (fun _ => 7) (fun _ => 65535) (fun _ _ => true)).run
      [.subscribe () true, .onNal [101, 0x88], .onNal [101, 0x08]]).packets () =
      [ buildPacket { sequence := 65535, timestamp := 0, ssrc := 7, marker := true } [101, 0x88],
        buildPacket { sequence := 0, timestamp := 3000, ssrc := 7, marker := true }
          [101, 0x08] ] ∧
    ¬ OneTimestamp (tsIncrementOf 30) [[101, 0x88], [101, 0x08]]
      (packetsPerNal (tsIncrementOf 30) (newStreamer 7 65535 fun _ => true)
        [[101, 0x88], [101, 0x08]]) := by
  refine ⟨by decide +kernel, ?_⟩
  intro h
  have hsame := (h 0 1 [101, 0x88] [101, 0x08] _ _ (by decide) rfl rfl rfl rfl rfl rfl
    _ (List.mem_singleton.mpr rfl) _ (List.mem_singleton.mpr rfl)).1 (by decide)
  exact absurd hsame (by decide +kernel)

end Veda.Media
