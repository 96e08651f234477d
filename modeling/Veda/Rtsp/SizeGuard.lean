import Veda.Rtsp.Framing
import Veda.Rtsp.Network
import Veda.Rtsp.RequestText

/-!
The size guard of `feed`. It is there for input without a blank line, but it looks at the buffer
before the requests are cut off, so a request near the limit is lost if too much of what follows
comes in with its last byte.
-/
namespace Veda.Rtsp

open Effects Delimited Network

namespace Session

variable {ord : HashOrder} {o : Oracle} {w w₁ : World} {s s₁ : Session} {b stream tail : Bytes}
  {raws raws' chunks chunks' : List Bytes} {n : Nat}

/-- In the run over `chunks` the guard ends the session only where the first 65536 bytes of the
buffer hold no blank line. -/
def GuardSound (ord : HashOrder) (o : Oracle) : Session → World → List Bytes → Prop
  | _, _, [] => True
  | s, w, data :: chunks =>
    (kMaxRxBuffer < (s.rxBuffer ++ data).length →
      find crlfcrlf ((s.rxBuffer ++ data).take kMaxRxBuffer) = none) ∧
    let fed := (s.feed ord data).exec o w
    (fed.1.2 = .returned true → GuardSound ord o fed.1.1 fed.2 chunks)

/-- The guard does what it is there for: where no request is too long, the requests are handled
as if there were no buffer, and if what follows the last one is not too long either, the stream
is not cut off. -/
structure GuardRight (ord : HashOrder) (o : Oracle) (s : Session) (w : World)
    (chunks : List Bytes) : Prop where
  unterminated : GuardSound ord o s w chunks
  handled : (∀ raw ∈ pieces crlfcrlf chunks.flatten, raw.length ≤ kMaxRxBuffer) →
    ((s.feedAll ord chunks).exec o w).2 =
      ((serveAll ord s (pieces crlfcrlf chunks.flatten)).exec o w).2
  accepted : (∀ raw ∈ pieces crlfcrlf chunks.flatten, raw.length ≤ kMaxRxBuffer) →
    (rest crlfcrlf chunks.flatten).length ≤ kMaxRxBuffer →
    ((s.feedAll ord chunks).exec o w).1.2 =
      outcome ((serveAll ord s (pieces crlfcrlf chunks.flatten)).exec o w).1.2

/-- Each request that the session comes to is longer than the buffer may be, or short enough
for a read to follow it, or the rest of the stream fits into the buffer with it. -/
def Uncrowded (ord : HashOrder) (o : Oracle) (tail : Bytes) : Session → World → List Bytes → Prop
  | _, _, [] => True
  | s, w, raw :: raws =>
    raw.length ≤ kMaxRxBuffer →
      (raw.length + bufferSize ≤ kMaxRxBuffer + 1 ∨
        ((raw :: raws).flatten ++ tail).length ≤ kMaxRxBuffer) ∧
      let served := (s.serve ord raw).exec o w
      (served.1.2 = none → Uncrowded ord o tail served.1.1 served.2 raws)

theorem serve_rxBuffer (ord : HashOrder) (o : Oracle) (s : Session) (w : World) (raw : Bytes) :
    ((s.serve ord raw).exec o w).1.1.rxBuffer = s.rxBuffer := by
  have hserve : s.serve ord raw = Prod.map (withRx s.rxBuffer) id <$> s.serve ord raw :=
    serve_withRx
  rw [hserve, Control.exec_map]
  rfl

theorem uncrowded_withRx : Uncrowded ord o tail (s.withRx b) w raws ↔
    Uncrowded ord o tail s w raws := by
  induction raws generalizing s w with
  | nil => rfl
  | cons raw raws ih =>
    rw [Uncrowded, Uncrowded, serve_withRx, Control.exec_map]
    exact imp_congr_right fun _ => and_congr_right fun _ => imp_congr_right fun _ => ih

theorem Uncrowded.append (h : Uncrowded ord o tail s w (raws ++ raws'))
    (hlen : ∀ raw ∈ raws, raw.length ≤ kMaxRxBuffer)
    (hserved : (serveAll ord s raws).exec o w = ((s₁, none), w₁)) :
    Uncrowded ord o tail s₁ w₁ raws' := by
  induction raws generalizing s w with
  | nil =>
    cases hserved
    exact h
  | cons raw raws ih =>
    rw [List.forall_mem_cons] at hlen
    have hnext := (h hlen.1).2
    rw [serveAll_cons, Control.exec_bind] at hserved
    generalize (s.serve ord raw).exec o w = served at hserved hnext
    obtain ⟨⟨s₂, result⟩, w₂⟩ := served
    cases result with
    | none => exact ih (hnext rfl) hlen.2 hserved
    | some r => cases hserved

theorem GuardSound.append (h : GuardSound ord o s w (chunks ++ chunks'))
    (hfed : (s.feedAll ord chunks).exec o w = ((s₁, .returned true), w₁)) :
    GuardSound ord o s₁ w₁ chunks' := by
  induction chunks generalizing s w with
  | nil =>
    cases hfed
    exact h
  | cons data chunks ih =>
    have hnext := h.2
    rw [feedAll, Control.exec_bind] at hfed
    generalize (s.feed ord data).exec o w = fed at hfed hnext
    obtain ⟨⟨s₂, result⟩, w₂⟩ := fed
    rcases result with ⟨_ | _⟩ | e
    · cases hfed
    · exact ih (hnext rfl) hfed
    · cases hfed

theorem piece_length {raw : Bytes} (h : raw ∈ pieces crlfcrlf stream) :
    raw.length ≤ stream.length := by
  have hall := congrArg List.length (pieces_flatten crlfcrlf stream)
  have hpart := (List.sublist_flatten_of_mem h).length_le
  rw [List.length_append] at hall
  omega

/-- A buffer without a blank line ends before the request that it begins. -/
theorem clean_length (hc : Clean crlfcrlf b) (h : find crlfcrlf (b ++ stream) = some n) :
    b.length < n + crlfcrlf.length := by
  have hne : crlfcrlf ≠ [] := by decide
  by_contra hlong
  have htake := find_take_of_le hne h (Nat.not_lt.mp hlong)
  rw [List.take_left, (find_eq_none_iff_clean hne).mpr hc] at htake
  cases htake

/-- A read that fills the buffer beyond the guard: a request within the first 65536 bytes would
be crowded. -/
theorem Uncrowded.find_none {data : Bytes} (hc : Clean crlfcrlf s.rxBuffer)
    (hdata : data.length ≤ bufferSize)
    (hu : Uncrowded ord o (rest crlfcrlf (s.rxBuffer ++ data ++ tail)) s w
      (pieces crlfcrlf (s.rxBuffer ++ data ++ tail)))
    (hover : kMaxRxBuffer < (s.rxBuffer ++ data).length) :
    find crlfcrlf ((s.rxBuffer ++ data).take kMaxRxBuffer) = none := by
  have hne : crlfcrlf ≠ [] := by decide
  cases hfind : find crlfcrlf ((s.rxBuffer ++ data).take kMaxRxBuffer) with
  | none => rfl
  | some n =>
    have hlen := (find_length hfind).resolve_right hne
    rw [List.length_take] at hlen
    have hstream : find crlfcrlf (s.rxBuffer ++ data ++ tail) = some n := by
      have happ := find_append_of_some hne hfind ((s.rxBuffer ++ data).drop kMaxRxBuffer ++ tail)
      rwa [← List.append_assoc, List.take_append_drop] at happ
    have hbuffer := hstream
    rw [List.append_assoc] at hbuffer
    have hshort := clean_length hc hbuffer
    have hall := congrArg List.length (pieces_flatten crlfcrlf (s.rxBuffer ++ data ++ tail))
    have hfirst : ((s.rxBuffer ++ data ++ tail).take (n + crlfcrlf.length)).length =
        n + crlfcrlf.length := by
      rw [List.length_take, List.length_append]
      omega
    rw [pieces_of_find hne hstream] at hu
    have hroom := (hu (by omega)).1
    rw [← pieces_of_find hne hstream, hfirst] at hroom
    simp only [List.length_append] at hover hroom hall
    omega

/-- Where no request is crowded the guard fires only without a blank line. -/
theorem guardSound_of_uncrowded (hc : Clean crlfcrlf s.rxBuffer)
    (hchunks : ∀ c ∈ chunks, c.length ≤ bufferSize)
    (hu : Uncrowded ord o (rest crlfcrlf (s.rxBuffer ++ chunks.flatten)) s w
      (pieces crlfcrlf (s.rxBuffer ++ chunks.flatten))) :
    GuardSound ord o s w chunks := by
  induction chunks generalizing s w with
  | nil => trivial
  | cons data chunks ih =>
    rw [List.forall_mem_cons] at hchunks
    rw [List.flatten_cons, ← List.append_assoc] at hu
    refine ⟨hu.find_none hc hchunks.1, ?_⟩
    dsimp only
    intro hopen
    by_cases hlen : (s.rxBuffer ++ data).length ≤ kMaxRxBuffer
    · rw [feed_exec hlen] at hopen ⊢
      generalize hp : (serveAll ord s (pieces crlfcrlf (s.rxBuffer ++ data))).exec o w = served
        at hopen ⊢
      obtain ⟨⟨s₁, result⟩, w₁⟩ := served
      cases result with
      | none =>
        have hclean : Clean crlfcrlf (rest crlfcrlf (s.rxBuffer ++ data)) := clean_scan clean_nil
        rw [pieces_append _ (s.rxBuffer ++ data), rest_append _ (s.rxBuffer ++ data)] at hu
        have hnext := hu.append (fun raw hraw => (piece_length hraw).trans hlen) hp
        exact ih hclean hchunks.2 (uncrowded_withRx.mpr hnext)
      | some ended => exact absurd hopen (serveAll_ends (congrArg (·.1.2) hp))
    · rw [feed_overflow hlen] at hopen
      cases hopen

/-- Where no request is too long, no blank line comes later than in the first 65536 bytes. -/
theorem find_none_of_short (hlen : ∀ raw ∈ pieces crlfcrlf (b ++ stream), raw.length ≤ kMaxRxBuffer)
    (hover : kMaxRxBuffer < b.length) (hnone : find crlfcrlf (b.take kMaxRxBuffer) = none) :
    find crlfcrlf (b ++ stream) = none := by
  have hne : crlfcrlf ≠ [] := by decide
  cases hfind : find crlfcrlf (b ++ stream) with
  | none => rfl
  | some n =>
    have hend := (find_length hfind).resolve_right hne
    rw [pieces_of_find hne hfind, List.forall_mem_cons, List.length_take] at hlen
    have htake := find_take_of_le (k := kMaxRxBuffer) hne hfind (by omega)
    rw [List.take_append_of_le_length (by omega), hnone] at htake
    cases htake

/-- Where the guard is sound and no request is too long, the run serves the requests of the
stream, and it ends as they say or with what follows the last one. -/
theorem GuardSound.feedAll_exec (hc : Clean crlfcrlf s.rxBuffer)
    (hg : GuardSound ord o s w chunks)
    (hlen : ∀ raw ∈ pieces crlfcrlf (s.rxBuffer ++ chunks.flatten), raw.length ≤ kMaxRxBuffer) :
    let served := (serveAll ord s (pieces crlfcrlf (s.rxBuffer ++ chunks.flatten))).exec o w
    let run := (feedAll ord s chunks).exec o w
    run.2 = served.2 ∧ (run.1.2 = outcome served.1.2 ∨
      kMaxRxBuffer < (rest crlfcrlf (s.rxBuffer ++ chunks.flatten)).length) := by
  have hne : crlfcrlf ≠ [] := by decide
  induction chunks generalizing s w with
  | nil =>
    have hnone := (find_eq_none_iff_clean hne).mpr hc
    rw [List.flatten_nil, List.append_nil, pieces_of_find_none hne hnone]
    exact ⟨rfl, Or.inl rfl⟩
  | cons data chunks ih =>
    rw [List.flatten_cons, ← List.append_assoc] at hlen ⊢
    rw [feedAll, Control.exec_bind]
    by_cases hfits : (s.rxBuffer ++ data).length ≤ kMaxRxBuffer
    · have hnext := hg.2
      rw [pieces_append _ (s.rxBuffer ++ data)] at hlen ⊢
      rw [rest_append _ (s.rxBuffer ++ data)]
      rw [feed_exec hfits] at hnext ⊢
      rw [serveAll_append, Control.exec_bind]
      generalize hp : (serveAll ord s (pieces crlfcrlf (s.rxBuffer ++ data))).exec o w = served
        at hnext ⊢
      obtain ⟨⟨s₁, result⟩, w₁⟩ := served
      cases result with
      | none =>
        have hclean : Clean crlfcrlf (rest crlfcrlf (s.rxBuffer ++ data)) := clean_scan clean_nil
        have hrun := ih (s := s₁.withRx _) hclean (hnext rfl) fun raw hraw =>
          hlen raw (List.mem_append_right _ hraw)
        rw [serveAll_withRx, Control.exec_map] at hrun
        exact hrun
      | some ended =>
        obtain ⟨r, unserved⟩ := ended
        have hr : r ≠ .returned true := serveAll_ends (congrArg (·.1.2) hp)
        rcases r with ⟨_ | _⟩ | e
        · exact ⟨rfl, Or.inl rfl⟩
        · exact absurd rfl hr
        · exact ⟨rfl, Or.inl rfl⟩
    · -- the guard: there is no request left
      have hover : kMaxRxBuffer < (s.rxBuffer ++ data).length := Nat.not_le.mp hfits
      have hnone := find_none_of_short hlen hover (hg.1 hover)
      rw [feed_overflow hfits, pieces_of_find_none hne hnone, rest_of_find_none hne hnone]
      refine ⟨rfl, Or.inr ?_⟩
      rw [List.length_append]
      omega

/-! A stream that is read byte by byte up to the last byte of a request. -/

def bytewise (bs : Bytes) : List Bytes := bs.map fun b => [b]

theorem bytewise_flatten (bs : Bytes) : (bytewise bs).flatten = bs := by
  induction bs with
  | nil => rfl
  | cons b bs ih => exact congrArg (b :: ·) ih

theorem bytewise_length : ∀ c ∈ bytewise b, c.length ≤ bufferSize := by
  intro c hc
  obtain ⟨b, -, rfl⟩ := List.mem_map.mp hc
  have hone : 1 ≤ bufferSize := by decide
  exact hone

/-- What fits into an empty buffer is read without the guard. -/
theorem feedAll_bytewise (ord : HashOrder) (o : Oracle) (w : World) (hs : s.rxBuffer = [])
    (hlen : b.length ≤ kMaxRxBuffer) :
    let served := (serveAll ord s (pieces crlfcrlf b)).exec o w
    ∃ b', (s.feedAll ord (bytewise b)).exec o w =
        ((served.1.1.withRx b', outcome served.1.2), served.2) ∧
      (served.1.2 = none → b' = rest crlfcrlf b) := by
  have hempty : Clean crlfcrlf s.rxBuffer := by
    rw [hs]
    exact clean_nil
  have hguard : WithinGuard ord o s w (bytewise b) := by
    apply withinGuard_of_length hempty
    rw [hs, bytewise_flatten, List.length_nil]
    omega
  have hrun := feedAll_exec hempty hguard
  rw [hs, bytewise_flatten] at hrun
  exact hrun

/-- Bytes within the guard that hold no blank line wait in the buffer. -/
theorem feedAll_waiting (ord : HashOrder) (o : Oracle) (w : World) (hs : s.rxBuffer = [])
    (hc : Clean crlfcrlf b) (hlen : b.length ≤ kMaxRxBuffer) :
    (s.feedAll ord (bytewise b)).exec o w = ((s.withRx b, .returned true), w) := by
  have hscan : scan crlfcrlf [] b = ([], b) := hc
  obtain ⟨b', hrun, hrest⟩ := feedAll_bytewise ord o w hs hlen
  rw [pieces, hscan] at hrun
  rw [pieces, rest, hscan] at hrest
  obtain rfl : b' = b := hrest rfl
  exact hrun

/-- A request within the guard is served. -/
theorem feedAll_request {raw : Bytes} (hs : s.rxBuffer = [])
    (hscan : scan crlfcrlf [] raw = ([raw], [])) (hlen : raw.length ≤ kMaxRxBuffer)
    (hserved : (s.serve ord raw).exec o w = ((s₁, none), w₁)) :
    (s.feedAll ord (bytewise raw)).exec o w = ((s₁, .returned true), w₁) := by
  have hall : (serveAll ord s [raw]).exec o w = ((s₁, none), w₁) := by
    rw [serveAll_cons, Control.exec_bind, hserved]
    rfl
  have hrx : s₁.withRx [] = s₁ := by
    have hkeep := serve_rxBuffer ord o s w raw
    rw [hserved, hs] at hkeep
    change s₁.rxBuffer = [] at hkeep
    rw [← hkeep]
    rfl
  obtain ⟨b', hrun, hrest⟩ := feedAll_bytewise ord o w hs hlen
  rw [pieces, hscan, hall] at hrun
  rw [pieces, rest, hscan, hall] at hrest
  obtain rfl : b' = [] := hrest rfl
  rw [hrun, hrx]
  rfl

/-- A crowded request: its last byte comes in with so much of what follows that the guard
ends the session. -/
theorem crowded_cut (ord : HashOrder) (o : Oracle) (w : World) (hs : s.rxBuffer = [])
    (hfind : find crlfcrlf stream = some n) (hlen : n + crlfcrlf.length ≤ kMaxRxBuffer)
    (hcrowded : kMaxRxBuffer + 1 < n + crlfcrlf.length + bufferSize)
    (hstream : kMaxRxBuffer < stream.length) :
    ∃ chunks : List Bytes, chunks.flatten = stream ∧ (∀ c ∈ chunks, c.length ≤ bufferSize) ∧
      ¬ GuardSound ord o s w chunks := by
  have hne : crlfcrlf ≠ [] := by decide
  have hfour : crlfcrlf.length = 4 := rfl
  let last := n + crlfcrlf.length - 1
  let data := (stream.drop last).take (kMaxRxBuffer + 1 - last)
  have hdata : stream.take last ++ data = stream.take (kMaxRxBuffer + 1) := by
    rw [← List.take_add]
    congr 1
    omega
  refine ⟨bytewise (stream.take last) ++ data :: bytewise (stream.drop (kMaxRxBuffer + 1)),
    ?_, ?_, ?_⟩
  · rw [List.flatten_append, List.flatten_cons, bytewise_flatten, bytewise_flatten,
      ← List.append_assoc, hdata, List.take_append_drop]
  · intro c hc
    rcases List.mem_append.mp hc with hc | hc
    · exact bytewise_length c hc
    · rcases List.mem_cons.mp hc with rfl | hc
      · have htake : data.length ≤ kMaxRxBuffer + 1 - last := List.length_take_le ..
        omega
      · exact bytewise_length c hc
  · intro hg
    have hshort : (stream.take last).length ≤ kMaxRxBuffer := by
      rw [List.length_take]
      omega
    have hwait := feedAll_waiting ord o w hs (find_clean hne hfind) hshort
    have hstep := (hg.append hwait).1
    change kMaxRxBuffer < (stream.take last ++ data).length →
      find crlfcrlf ((stream.take last ++ data).take kMaxRxBuffer) = none at hstep
    have hfirst := find_take_of_le hne hfind hlen
    rw [hdata, List.length_take, Nat.min_eq_left hstream, List.take_take,
      Nat.min_eq_left (Nat.le_succ _), hfirst] at hstep
    cases hstep (by omega)

/-- If the guard is sound however the stream is read, no request is crowded. -/
theorem uncrowded_of_guardSound (hs : s.rxBuffer = [])
    (hscan : scan crlfcrlf [] stream = (raws, tail))
    (hg : ∀ chunks : List Bytes, chunks.flatten = stream →
      (∀ c ∈ chunks, c.length ≤ bufferSize) → GuardSound ord o s w chunks) :
    Uncrowded ord o tail s w raws := by
  have hne : crlfcrlf ≠ [] := by decide
  induction raws generalizing s w stream with
  | nil => trivial
  | cons raw raws ih =>
    cases hfind : find crlfcrlf stream with
    | none =>
      have hnone := pieces_of_find_none hne hfind
      rw [pieces, hscan] at hnone
      cases hnone
    | some n =>
      have hend := (find_length hfind).resolve_right hne
      have hall := pieces_flatten crlfcrlf stream
      rw [pieces, rest, hscan] at hall
      rw [scan_of_find hne hfind] at hscan
      cases hscan
      have hraw : (stream.take (n + crlfcrlf.length)).length = n + crlfcrlf.length := by
        rw [List.length_take]
        omega
      intro hlen
      rw [hraw] at hlen
      refine ⟨?_, ?_⟩
      · rw [hall, hraw]
        by_contra hcrowded
        rw [not_or, Nat.not_le, Nat.not_le] at hcrowded
        obtain ⟨chunks, hflat, hsmall, hunsound⟩ :=
          crowded_cut ord o w hs hfind hlen hcrowded.1 hcrowded.2
        exact hunsound (hg chunks hflat hsmall)
      · intro served hopen
        have hone : scan crlfcrlf [] (stream.take (n + crlfcrlf.length)) =
            ([stream.take (n + crlfcrlf.length)], []) := by
          rw [scan_of_find hne (find_take_of_le hne hfind (Nat.le_refl _)), List.take_take,
            Nat.min_self, List.drop_eq_nil_of_le (by omega)]
          rfl
        have hserved : (s.serve ord (stream.take (n + crlfcrlf.length))).exec o w =
            ((served.1.1, none), served.2) := by
          rw [← hopen]
        have hfed := feedAll_request hs hone (by omega) hserved
        refine ih ((serve_rxBuffer ord o s w _).trans hs) rfl ?_
        intro chunks hflat hsmall
        refine (hg (bytewise (stream.take (n + crlfcrlf.length)) ++ chunks) ?_ ?_).append hfed
        · rw [List.flatten_append, bytewise_flatten, hflat, List.take_append_drop]
        · intro c hc
          rcases List.mem_append.mp hc with hc | hc
          · exact bytewise_length c hc
          · exact hsmall c hc

/-- The guard does what it is there for, however the stream is read, if and only if the session
comes to no crowded request. -/
theorem guardRight_iff (ord : HashOrder) (o : Oracle) (w : World) (clientIp : Bytes) (hub : Bool)
    (conn : ConnId) (stream : Bytes) :
    let s := create clientIp hub conn
    (∀ chunks : List Bytes, chunks.flatten = stream → (∀ c ∈ chunks, c.length ≤ bufferSize) →
      GuardRight ord o s w chunks) ↔
    Uncrowded ord o (rest crlfcrlf stream) s w (pieces crlfcrlf stream) := by
  intro s
  have hempty : s.rxBuffer = [] := rfl
  have hclean : Clean crlfcrlf s.rxBuffer := clean_nil
  constructor
  · intro h
    exact uncrowded_of_guardSound hempty rfl fun chunks hflat hsmall =>
      (h chunks hflat hsmall).unterminated
  · rintro hu chunks rfl hsmall
    have hg : GuardSound ord o s w chunks := guardSound_of_uncrowded hclean hsmall hu
    refine ⟨hg, ?_, ?_⟩
    · intro hlen
      exact (hg.feedAll_exec hclean hlen).1
    · intro hlen hrest
      rcases (hg.feedAll_exec hclean hlen).2 with hsame | hlong
      · exact hsame
      · exact absurd hrest (Nat.not_le.mpr hlong)

/-- An OPTIONS with `n` bytes in its URI. -/
def longOptions (n : Nat) : RequestText where
  method := ascii "OPTIONS"
  uri := List.replicate n 97
  headers := [(ascii "CSeq", ascii "1")]

theorem longOptions_wellFormed (hn : n ≠ 0) : (longOptions n).WellFormed := by
  have hone : (longOptions 1).WellFormed := by decide +kernel
  have hletter : Cpp.isspace 97 = false := by decide
  have huri : RequestText.Token (longOptions n).uri :=
    ⟨by simp [longOptions, hn], by simp [longOptions, hletter]⟩
  exact ⟨hone.method, huri, hone.version, hone.names, hone.values, hone.distinct⟩

theorem longOptions_length (n : Nat) : (longOptions n).text.length = n + 30 := by
  have hmethod : (ascii "OPTIONS").length = 7 := by decide +kernel
  have hrtsp : (ascii "RTSP/").length = 5 := by decide +kernel
  have hversion : (ascii "1.0").length = 3 := by decide +kernel
  have hname : (ascii "CSeq").length = 4 := by decide +kernel
  have hvalue : (ascii "1").length = 1 := by decide +kernel
  simp [RequestText.text, RequestText.lines, RequestText.requestLine, RequestText.headerLine,
    longOptions, crlf, hmethod, hrtsp, hversion, hname, hvalue]
  omega

/-- Two requests of exactly 65536 bytes: the guard cuts the first one off, complete as it is. -/
theorem long_request_cut_off : ¬ ∀ (ord : HashOrder) (o : Oracle) (w : World) (clientIp : Bytes)
    (hub : Bool) (conn : ConnId) (chunks : List Bytes), (∀ c ∈ chunks, c.length ≤ bufferSize) →
      GuardRight ord o (create clientIp hub conn) w chunks := by
  intro h
  let r := longOptions 65506
  have hlen : r.text.length = kMaxRxBuffer := longOptions_length 65506
  obtain ⟨n, hfind, hend⟩ := (longOptions_wellFormed (by omega)).find_text (r := r) r.text
  have hstream : kMaxRxBuffer < (r.text ++ r.text).length := by
    rw [List.length_append, hlen]
    decide
  have hcrowded : kMaxRxBuffer + 1 < n + crlfcrlf.length + bufferSize := by
    rw [hend, hlen]
    decide
  have hempty : (create (ascii "10.0.0.2") true 5).rxBuffer = [] := rfl
  obtain ⟨chunks, -, hsmall, hunsound⟩ :=
    crowded_cut default default default hempty hfind (by omega) hcrowded hstream
  exact hunsound (h default default default _ _ _ chunks hsmall).unterminated

end Session
end Veda.Rtsp
