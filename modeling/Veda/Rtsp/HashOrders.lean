import Veda.Rtsp.Alike
import Veda.Rtsp.Grammar

/-!
Two iteration orders of the hash map. Names that differ in letter case are different keys, but
a lookup takes the first of them, so the order does not matter exactly where such names have
the same value or no request comes out at all.
-/
namespace Veda.Rtsp

open Cpp Effects

/-- The same request for every lookup of a header. -/
structure Request.SameReading (req req' : Request) : Prop where
  method : req.method = req'.method
  uri : req.uri = req'.uri
  cseq : req.cseq = req'.cseq
  header : ∀ name, header req name = header req' name

/-- Two results of the parser with the same sequence number and header values, if any. -/
inductive SameParse :
    Except StdException (Option Request) → Except StdException (Option Request) → Prop
  | raised (e e' : StdException) : SameParse (.error e) (.error e')
  | malformed : SameParse (.ok none) (.ok none)
  | request {req req' : Request} :
      req.SameReading req' → SameParse (.ok (some req)) (.ok (some req'))

/-- Any two orders give the same sequence number, the same header values, and the same session
and world afterwards, responses included. -/
def OrderFree (raw : Bytes) : Prop :=
  ∀ ord ord' : HashOrder, SameParse (parseRequest ord raw) (parseRequest ord' raw) ∧
    ∀ (o : Oracle) (s : Session) (w : World),
      let run := (s.serve ord raw).exec o w
      let run' := (s.serve ord' raw).exec o w
      run.1.1 = run'.1.1 ∧ run.2 = run'.2

/-- Names that are the same but for their letter case have the same value. -/
def Unambiguous (h : Headers) : Prop :=
  ∀ e ∈ h, ∀ f ∈ h, iequals e.1 f.1 = true → e.2 = f.2

/-- The values that the parser may convert to the sequence number. -/
def cseqCandidates (h : Headers) : List Bytes :=
  match h.lookup cseqName with
  | some v => [v]
  | none => (cseqHeaders h).map Prod.snd

/-- Whichever value is converted, it is no number. -/
def NeverCseq (h : Headers) : Prop :=
  cseqCandidates h ≠ [] ∧ ∀ v ∈ cseqCandidates h, ∀ z, stoi v ≠ .ok z

instance (h : Headers) : Decidable (Unambiguous h) :=
  inferInstanceAs (Decidable (∀ e ∈ h, ∀ f ∈ h, iequals e.1 f.1 = true → e.2 = f.2))

variable {ord ord' : HashOrder} {raw v : Bytes} {h h' : Headers} {e : Bytes × Bytes}

/-- An order that visits this entry first. -/
def HashOrder.first (e : Bytes × Bytes) : HashOrder where
  order _ m := if e ∈ m then e :: m.erase e else m
  perm _ m := by
    split
    · rename_i he
      exact (List.perm_cons_erase he).symm
    · exact .refl m

theorem first_order (he : e ∈ h) : (HashOrder.first e).order raw h = e :: h.erase e :=
  if_pos he

theorem lookup_perm (hn : (h.map Prod.fst).Nodup) (hp : h'.Perm h) (k : Bytes) :
    h'.lookup k = h.lookup k := by
  have hn' : (h'.map Prod.fst).Nodup := (hp.map Prod.fst).nodup_iff.mpr hn
  apply Option.ext
  intro v
  rw [← mem_iff_lookup hn', ← mem_iff_lookup hn, hp.mem_iff]

/-- The parser converts one of the candidates. -/
theorem cseqValue_order (hn : (h.map Prod.fst).Nodup) (hp : h'.Perm h) :
    (cseqValue h' = none ∧ cseqCandidates h = []) ∨
      ∃ v ∈ cseqCandidates h, cseqValue h' = some v := by
  have hlookup := lookup_perm hn hp cseqName
  rw [cseqValue, cseqCandidates, hlookup]
  cases h.lookup cseqName with
  | some v => exact Or.inr ⟨v, List.mem_singleton_self v, rfl⟩
  | none =>
    dsimp only
    cases hfind : h'.find? fun e => iequals e.1 cseqName with
    | none =>
      have hnone : cseqHeaders h' = [] := List.filter_eq_nil_iff.mpr (List.find?_eq_none.mp hfind)
      have hperm : (cseqHeaders h').Perm (cseqHeaders h) := hp.filter _
      rw [hnone] at hperm
      rw [hperm.nil_eq.symm]
      exact Or.inl ⟨rfl, rfl⟩
    | some e =>
      obtain ⟨hmem, hname⟩ := found_some hfind
      have hcand : e ∈ cseqHeaders h := List.mem_filter.mpr ⟨hp.mem_iff.mp hmem, hname⟩
      exact Or.inr ⟨e.2, List.mem_map_of_mem hcand, rfl⟩

/-- Each candidate is converted in some order. -/
theorem cseqValue_first (raw : Bytes) (hn : (h.map Prod.fst).Nodup) (hv : v ∈ cseqCandidates h) :
    ∃ ord : HashOrder, cseqValue (ord.order raw h) = some v := by
  rw [cseqCandidates] at hv
  cases hlookup : h.lookup cseqName with
  | some u =>
    rw [hlookup, List.mem_singleton] at hv
    subst hv
    exact ⟨default, by rw [cseqValue, lookup_perm hn (HashOrder.perm default raw h), hlookup]⟩
  | none =>
    rw [hlookup] at hv
    obtain ⟨e, he, rfl⟩ := List.mem_map.mp hv
    obtain ⟨hmem, hname⟩ := List.mem_filter.mp he
    refine ⟨.first e, ?_⟩
    rw [cseqValue, lookup_perm hn ((HashOrder.first e).perm raw h), hlookup, first_order hmem,
      List.find?_cons_of_pos (by exact hname)]
    rfl

/-- The value under a name, in any order. -/
theorem Unambiguous.lookup_order (hu : Unambiguous h) (hp : h'.Perm h) (name : Bytes) :
    (h'.find? fun e => iequals e.1 name).map Prod.snd =
      (h.find? fun e => iequals e.1 name).map Prod.snd := by
  cases hfind' : h'.find? fun e => iequals e.1 name with
  | none =>
    have hnone : (h.find? fun e => iequals e.1 name) = none := by
      rw [List.find?_eq_none] at hfind' ⊢
      exact fun e he => hfind' e (hp.mem_iff.mpr he)
    rw [hnone]
  | some e =>
    obtain ⟨hmem, hname⟩ := found_some hfind'
    have hmem := hp.mem_iff.mp hmem
    cases hfind : h.find? fun e => iequals e.1 name with
    | none => exact absurd hname (List.find?_eq_none.mp hfind e hmem)
    | some f =>
      obtain ⟨hmem', hname'⟩ := found_some hfind
      exact congrArg some (hu e hmem f hmem' (iequals_trans hname (iequals_symm hname')))

theorem Unambiguous.cseqValue_order (hu : Unambiguous h) (hn : (h.map Prod.fst).Nodup)
    (hp : h'.Perm h) : cseqValue h' = cseqValue h := by
  rw [cseqValue, cseqValue, lookup_perm hn hp, hu.lookup_order hp]

theorem SameParse.serve (h : SameParse (parseRequest ord raw) (parseRequest ord' raw))
    (o : Oracle) (s : Session) (w : World) :
    let run := (s.serve ord raw).exec o w
    let run' := (s.serve ord' raw).exec o w
    run.1.1 = run'.1.1 ∧ run.2 = run'.2 := by
  rw [Session.serve, Session.serve]
  generalize parseRequest ord raw = parsed at h
  generalize parseRequest ord' raw = parsed' at h
  cases h with
  | raised e e' => exact ⟨rfl, rfl⟩
  | malformed => exact ⟨rfl, rfl⟩
  | request h =>
    have ha : Request.Alike _ _ := ⟨h.method, h.uri, h.cseq, h.header _, h.header _⟩
    dsimp only
    rw [ha.respond]
    exact ⟨rfl, rfl⟩

/-- Where no order makes a difference to the parser, none makes one to the session. -/
theorem orderFree_of_parse
    (hparse : ∀ ord ord', SameParse (parseRequest ord raw) (parseRequest ord' raw)) :
    OrderFree raw :=
  fun ord ord' => ⟨hparse ord ord', (hparse ord ord').serve⟩

theorem orderFree_of_unambiguous (hu : Unambiguous (requestHeaders raw)) : OrderFree raw := by
  apply orderFree_of_parse
  intro ord ord'
  have hn := requestHeaders_nodup raw
  have hp := ord.perm raw (requestHeaders raw)
  have hp' := ord'.perm raw (requestHeaders raw)
  have hcseq := (hu.cseqValue_order hn hp).trans (hu.cseqValue_order hn hp').symm
  have halike : ParsedAlike Request.SameReading (parseRequest ord raw) (parseRequest ord' raw) :=
    parsedAlike_of_reading rfl rfl rfl hcseq fun method uri cseq => ⟨rfl, rfl, rfl, fun name =>
      (hu.lookup_order hp name).trans (hu.lookup_order hp' name).symm⟩
  generalize parseRequest ord raw = parsed at halike ⊢
  generalize parseRequest ord' raw = parsed' at halike ⊢
  cases halike with
  | raised e => exact .raised e e
  | malformed => exact .malformed
  | request h => exact .request h

/-- The parser raises in every order if it never gets at a number. -/
theorem parseRequest_neverCseq (hc : NeverCseq (requestHeaders raw))
    (hline : requestLine raw ≠ none) (ord : HashOrder) :
    ∃ e, parseRequest ord raw = .error e := by
  refine parseRequest_raises.mpr ⟨hline, ?_⟩
  rcases cseqValue_order (requestHeaders_nodup raw) (ord.perm raw (requestHeaders raw)) with
    ⟨-, hnil⟩ | ⟨v, hv, hvalue⟩
  · exact absurd hnil hc.1
  · cases hstoi : stoi v with
    | error e => exact ⟨v, e, hvalue, hstoi⟩
    | ok z => exact absurd hstoi (hc.2 v hv z)

theorem orderFree_of_neverCseq (hc : NeverCseq (requestHeaders raw))
    (hline : requestLine raw ≠ none) : OrderFree raw := by
  apply orderFree_of_parse
  intro ord ord'
  obtain ⟨e, hp⟩ := parseRequest_neverCseq hc hline ord
  obtain ⟨e', hp'⟩ := parseRequest_neverCseq hc hline ord'
  rw [hp, hp']
  exact .raised e e'

theorem orderFree_of_malformed (hline : requestLine raw = none) : OrderFree raw := by
  apply orderFree_of_parse
  intro ord ord'
  rw [parseRequest_none.mpr hline, parseRequest_none.mpr hline]
  exact .malformed

/-- If the parser raises in one order, it raises in every order. -/
theorem neverCseq_of_raises {x : StdException} (ho : OrderFree raw)
    (hx : parseRequest ord raw = .error x) : NeverCseq (requestHeaders raw) := by
  have hn := requestHeaders_nodup raw
  obtain ⟨hline, v, e, hv, -⟩ := parseRequest_raises.mp ⟨x, hx⟩
  constructor
  · rcases cseqValue_order hn (ord.perm raw (requestHeaders raw)) with ⟨hnone, -⟩ | ⟨v, hv, -⟩
    · rw [hv] at hnone
      cases hnone
    · exact List.ne_nil_of_mem hv
  · intro v hv z hstoi
    obtain ⟨ord', hvalue⟩ := cseqValue_first raw hn hv
    obtain ⟨line, hsome⟩ := Option.ne_none_iff_exists'.mp hline
    have hsame := (ho ord ord').1
    rw [hx, parseRequest_eq, hvalue, hsome] at hsame
    dsimp only at hsame
    rw [hstoi] at hsame
    cases hsame

/-- Two entries of one name, each visited first in some order. -/
theorem unambiguous_of_orderFree (ho : OrderFree raw) (hline : requestLine raw ≠ none)
    (hc : ¬ NeverCseq (requestHeaders raw)) : Unambiguous (requestHeaders raw) := by
  have hfirst : ∀ e ∈ requestHeaders raw, ∃ req, parseRequest (.first e) raw = .ok (some req) ∧
      ∀ name, iequals e.1 name = true → header req name = some e.2 := by
    intro e he
    cases hparse : parseRequest (.first e) raw with
    | error x => exact absurd (neverCseq_of_raises ho hparse) hc
    | ok parsed =>
      cases parsed with
      | none => exact absurd (parseRequest_none.mp hparse) hline
      | some req =>
        have hheaders := (parseRequest_parsed hparse).2
        refine ⟨req, rfl, ?_⟩
        intro name hname
        rw [header, hheaders, first_order he, List.find?_cons_of_pos (by exact hname)]
        rfl
  intro e he f hf hname
  obtain ⟨req, hp, hreq⟩ := hfirst e he
  obtain ⟨req', hp', hreq'⟩ := hfirst f hf
  have halike := (ho (.first e) (.first f)).1
  rw [hp, hp'] at halike
  cases halike with
  | request h =>
    have hvalue := h.header f.1
    rw [hreq f.1 hname, hreq' f.1 (iequals_refl _)] at hvalue
    exact Option.some.inj hvalue

/-- The order in which the hash map is visited makes no difference exactly for a malformed
request line, for a sequence number that is never a number, and where names that differ in
letter case only have one value. -/
theorem orderFree_iff (raw : Bytes) : OrderFree raw ↔
    requestLine raw = none ∨ NeverCseq (requestHeaders raw) ∨
      Unambiguous (requestHeaders raw) := by
  constructor
  · intro ho
    by_cases hline : requestLine raw = none
    · exact Or.inl hline
    · by_cases hc : NeverCseq (requestHeaders raw)
      · exact Or.inr (Or.inl hc)
      · exact Or.inr (Or.inr (unambiguous_of_orderFree ho hline hc))
  · by_cases hline : requestLine raw = none
    · exact fun _ => orderFree_of_malformed hline
    · rintro (hnone | hc | hu)
      · exact absurd hnone hline
      · exact orderFree_of_neverCseq hc hline
      · exact orderFree_of_unambiguous hu

/-- A PLAY that names two sessions: whether it is answered 200 or 454 depends on the order. -/
theorem order_decides_play : ¬ ∀ raw, OrderFree raw := by
  intro h
  let setup := ascii "SETUP u RTSP/1.0\r\nCSeq: 1\r\nTransport: client_port=5000-5001\r\n\r\n"
  let play := ascii "PLAY u RTSP/1.0\r\nCSeq: 2\r\nSession: 1A2B3C4D\r\nsession: 0\r\n\r\n"
  let ready := ((Session.create (ascii "10.0.0.2") true 5).feed default setup).exec default default
  let ord := HashOrder.first (ascii "Session", ascii "1A2B3C4D")
  let ord' := HashOrder.first (ascii "session", ascii "0")
  have hsame := (h play ord ord').2 default ready.1.1 ready.2
  have hstate : ((ready.1.1.serve ord play).exec default ready.2).1.1.state ≠
      ((ready.1.1.serve ord' play).exec default ready.2).1.1.state := by
    decide +kernel
  exact hstate (congrArg Session.state hsame.1)

end Veda.Rtsp
