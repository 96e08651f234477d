import Mathlib.Logic.Relation
import Veda.Rtsp.Alike
import Veda.Rtsp.Lookup

/-!
Formatting of a request. The order of the header lines, the letter case of the method and of
header names, the white space around names and values and the lines that nobody looks up change
neither the response nor the session.
-/
namespace Veda.Rtsp

open Cpp Effects RequestText

/-- The part of a text that the parser reads. -/
structure Layout where
  first : Bytes
  lines : List Bytes
  deriving DecidableEq

def layout (raw : Bytes) : Layout := ⟨firstLine raw, headerLines raw⟩

/-- The same text with other spaces and tabs around it. -/
def Repadded (a a' : Bytes) : Prop :=
  ∃ p p' text q q', a = p ++ text ++ q ∧ a' = p' ++ text ++ q' ∧
    ∀ c ∈ p ++ p' ++ q ++ q', c = 32 ∨ c = 9

/-- The names that a session looks up. -/
def lookedUp : List Bytes := [cseqName, ascii "Session", ascii "Transport"]

/-- One change of the formatting. -/
inductive Reformat : Layout → Layout → Prop
  | permute {first : Bytes} {ls ls' : List Bytes} :
      ls.Perm ls' → Reformat ⟨first, ls⟩ ⟨first, ls'⟩
  | methodCase {m m' rest : Bytes} {ls : List Bytes} :
      32 ∉ m → iequals m m' = true → Reformat ⟨m ++ 32 :: rest, ls⟩ ⟨m' ++ 32 :: rest, ls⟩
  | nameCase {first a a' b : Bytes} {before after : List Bytes} :
      58 ∉ a → iequals a a' = true →
      Reformat ⟨first, before ++ (a ++ 58 :: b) :: after⟩
        ⟨first, before ++ (a' ++ 58 :: b) :: after⟩
  | pad {first a a' b b' : Bytes} {before after : List Bytes} :
      58 ∉ a → Repadded a a' → Repadded b b' →
      Reformat ⟨first, before ++ (a ++ 58 :: b) :: after⟩
        ⟨first, before ++ (a' ++ 58 :: b') :: after⟩
  | insertJunk {first line : Bytes} {before after : List Bytes} :
      line ≠ [] → 58 ∉ line → Reformat ⟨first, before ++ after⟩ ⟨first, before ++ line :: after⟩
  | insertHeader {first line k v : Bytes} {before after : List Bytes} :
      IsHeaderLine line k v → (∀ name ∈ lookedUp, iequals k name = false) →
      (∀ line' ∈ before ++ after, ∀ k' v', IsHeaderLine line' k' v' → iequals k k' = false) →
      Reformat ⟨first, before ++ after⟩ ⟨first, before ++ line :: after⟩

def Layout.fields (l : Layout) : Headers := l.lines.filterMap parseHeaderLine

/-- The value of the first entry of this name. -/
def valueOf (h : Headers) (name : Bytes) : Option Bytes :=
  (h.find? fun e => iequals e.1 name).map Prod.snd

/-- Nothing that a session reads is different. -/
structure Layout.Keeps (l l' : Layout) : Prop where
  line : parseRequestLine l'.first = parseRequestLine l.first
  distinct : Distinct l'.fields
  values : ∀ name ∈ lookedUp, valueOf l'.fields name = valueOf l.fields name

variable {ord ord' : HashOrder} {raw raw' m m' a a' b b' : Bytes} {h before after : Headers}
  {l l' : Layout} {e e' : Bytes × Bytes}

/-- Trimming does not look at the letter case. -/
theorem iequals_trim (h : iequals a b = true) : iequals (trim a) (trim b) = true := by
  have hspace : isspace ∘ tolower = isspace := funext isspace_tolower
  have hmap : ∀ a : Bytes, (trim a).map tolower = trim (a.map tolower) := by
    intro a
    simp only [trim, List.dropWhile_map, ← List.map_reverse, hspace]
  rw [iequals_iff, hmap, hmap, iequals_iff.mp h]

theorem trim_padded {p q : Bytes} (text : Bytes) (hp : ∀ c ∈ p, isspace c = true)
    (hq : ∀ c ∈ q, isspace c = true) : trim (p ++ text ++ q) = trim text := by
  have hqr : ∀ c ∈ q.reverse, isspace c = true := fun c hc => hq c (List.mem_reverse.mp hc)
  rw [trim, trim, List.append_assoc, List.dropWhile_append_of_pos hp, List.dropWhile_append]
  cases hdrop : text.dropWhile isspace with
  | nil => rw [List.isEmpty_nil, if_pos rfl, List.dropWhile_eq_nil_iff.mpr hq]
  | cons c text =>
    rw [List.isEmpty_cons, if_neg Bool.false_ne_true, List.reverse_append,
      List.dropWhile_append_of_pos hqr]

theorem Repadded.trim (h : Repadded a a') : trim a = trim a' := by
  obtain ⟨p, p', text, q, q', rfl, rfl, hblank⟩ := h
  have hspace : ∀ c ∈ p ++ p' ++ q ++ q', isspace c = true := by
    intro c hc
    rcases hblank c hc with rfl | rfl <;> decide
  rw [trim_padded text (fun c hc => hspace c (by simp [hc])) fun c hc => hspace c (by simp [hc]),
    trim_padded text (fun c hc => hspace c (by simp [hc])) fun c hc => hspace c (by simp [hc])]

theorem Repadded.not_mem (h : Repadded a a') (ha : 58 ∉ a) : 58 ∉ a' := by
  obtain ⟨p, p', text, q, q', rfl, rfl, hblank⟩ := h
  have hcolon : 58 ∉ p ++ p' ++ q ++ q' := by
    intro hmem
    rcases hblank 58 hmem with h | h <;> exact absurd h (by decide)
  simp only [List.mem_append, not_or] at ha hcolon ⊢
  exact ⟨⟨hcolon.1.1.2, ha.1.2⟩, hcolon.2⟩

/-! One entry is written in another way, or stands in front of others. -/

theorem distinct_replace (hd : Distinct (before ++ e :: after)) (hname : iequals e.1 e'.1 = true) :
    Distinct (before ++ e' :: after) := by
  have hsymm : ∀ f : Bytes × Bytes, iequals f.1 e.1 = false → iequals f.1 e'.1 = false := by
    intro f hf
    rw [Bool.eq_false_iff] at hf ⊢
    exact fun hsame => hf (iequals_trans hsame (iequals_symm hname))
  obtain ⟨hbefore, hrest, hcross⟩ := List.pairwise_append.mp hd
  obtain ⟨he, hafter⟩ := List.pairwise_cons.mp hrest
  refine List.pairwise_append.mpr ⟨hbefore, List.pairwise_cons.mpr ⟨?_, hafter⟩, ?_⟩
  · intro f hf
    rw [← iequals_congr hname]
    exact he f hf
  · intro f hf g hg
    rcases List.mem_cons.mp hg with rfl | hg
    · exact hsymm f (hcross f hf e List.mem_cons_self)
    · exact hcross f hf g (List.mem_cons_of_mem _ hg)

theorem valueOf_replace (hname : iequals e.1 e'.1 = true) (hvalue : e.2 = e'.2) (name : Bytes) :
    valueOf (before ++ e' :: after) name = valueOf (before ++ e :: after) name := by
  rw [valueOf, valueOf, List.find?_append, List.find?_append, List.find?_cons, List.find?_cons,
    iequals_congr hname]
  cases before.find? fun e => iequals e.1 name with
  | some f => rfl
  | none =>
    cases iequals e'.1 name with
    | true => simp [hvalue]
    | false => rfl

theorem valueOf_insert {name : Bytes} (hname : iequals e.1 name = false) :
    valueOf (before ++ e :: after) name = valueOf (before ++ after) name := by
  rw [valueOf, valueOf, List.find?_append, List.find?_append, List.find?_cons, hname]

theorem parseRequestLine_method {rest : Bytes} (hm : 32 ∉ m) (h : iequals m m' = true) :
    parseRequestLine (m' ++ 32 :: rest) = parseRequestLine (m ++ 32 :: rest) := by
  have hm' : 32 ∉ m' := mt (mem_of_iequals (iequals_symm h) (by decide)) hm
  have hfind : ∀ m : Bytes, 32 ∉ m → Cpp.find [32] (m ++ 32 :: rest) = some m.length :=
    fun m hm => Delimited.find_singleton_iff.mpr ⟨m, rest, rfl, hm, rfl⟩
  rw [parseRequestLine, parseRequestLine, if_neg (by simp), if_neg (by simp), hfind m hm,
    hfind m' hm']
  dsimp only
  rw [drop_cut, drop_cut, List.take_left, List.take_left, stringToMethod_congr h]

theorem fields_cons {first line : Bytes} {ls ls' : List Bytes}
    (hline : parseHeaderLine line = some e) :
    Layout.fields ⟨first, ls ++ line :: ls'⟩ =
      Layout.fields ⟨first, ls⟩ ++ e :: Layout.fields ⟨first, ls'⟩ := by
  rw [Layout.fields, List.filterMap_append, List.filterMap_cons_some hline]
  rfl

/-- A line that is written in another way. -/
theorem Layout.Keeps.replace {first line line' : Bytes} {ls ls' : List Bytes}
    (hline : parseHeaderLine line = some e) (hline' : parseHeaderLine line' = some e')
    (hname : iequals e.1 e'.1 = true) (hvalue : e.2 = e'.2)
    (hd : Distinct (Layout.fields ⟨first, ls ++ line :: ls'⟩)) :
    Layout.Keeps ⟨first, ls ++ line :: ls'⟩ ⟨first, ls ++ line' :: ls'⟩ := by
  rw [fields_cons hline] at hd
  refine ⟨rfl, ?_, ?_⟩
  · rw [fields_cons hline']
    exact distinct_replace hd hname
  · intro name _
    rw [fields_cons hline, fields_cons hline']
    exact valueOf_replace hname hvalue name

/-- No change of the formatting is seen. -/
theorem Reformat.keeps (h : Reformat l l') (hd : Distinct l.fields) : l.Keeps l' := by
  cases h with
  | permute hperm =>
    have hfields := hperm.filterMap parseHeaderLine
    refine ⟨rfl, hd.perm hfields, ?_⟩
    intro name _
    exact congrArg (Option.map Prod.snd) (find?_perm hfields (hd.one name))
  | methodCase hm hcase => exact ⟨parseRequestLine_method hm hcase, hd, fun _ _ => rfl⟩
  | nameCase ha hcase =>
    have ha' := mt (mem_of_iequals (iequals_symm hcase) (by decide)) ha
    exact .replace (parseHeaderLine_iff.mpr ⟨_, _, rfl, ha, rfl, rfl⟩)
      (parseHeaderLine_iff.mpr ⟨_, _, rfl, ha', rfl, rfl⟩) (iequals_trim hcase) rfl hd
  | pad ha hpad hpad' =>
    exact .replace (parseHeaderLine_iff.mpr ⟨_, _, rfl, ha, hpad.trim, hpad'.trim⟩)
      (parseHeaderLine_iff.mpr ⟨_, _, rfl, hpad.not_mem ha, rfl, rfl⟩) (iequals_refl _) rfl hd
  | @insertJunk first line before after hne hcolon =>
    have hfields : Layout.fields ⟨first, before ++ line :: after⟩ =
        Layout.fields ⟨first, before ++ after⟩ := by
      rw [Layout.fields, Layout.fields, List.filterMap_append, List.filterMap_append,
        List.filterMap_cons_none (parseHeaderLine_none.mpr hcolon)]
    refine ⟨rfl, ?_, ?_⟩
    · rw [hfields]
      exact hd
    · intro name _
      rw [hfields]
  | @insertHeader first line k v before after hline hlooked hnew =>
    have hparse := parseHeaderLine_iff.mpr hline
    have hold : Layout.fields ⟨first, before ++ after⟩ =
        Layout.fields ⟨first, before⟩ ++ Layout.fields ⟨first, after⟩ :=
      List.filterMap_append
    rw [hold] at hd
    refine ⟨rfl, ?_, ?_⟩
    · rw [fields_cons hparse]
      refine Distinct.perm (List.pairwise_cons.mpr ⟨?_, hd⟩) List.perm_middle.symm
      rintro ⟨k', v'⟩ hmem
      rw [← hold] at hmem
      obtain ⟨line', hline', hparse'⟩ := List.mem_filterMap.mp hmem
      exact hnew line' hline' k' v' (parseHeaderLine_iff.mp hparse')
    · intro name hname
      rw [fields_cons hparse, hold]
      exact valueOf_insert (hlooked name hname)

/-- Changes in any combination are not seen either. -/
theorem reformat_keeps (h : Relation.ReflTransGen Reformat l l') (hd : Distinct l.fields) :
    l.Keeps l' := by
  induction h with
  | refl => exact ⟨rfl, hd, fun _ _ => rfl⟩
  | tail _ hstep ih =>
    have hnext := hstep.keeps ih.distinct
    exact ⟨hnext.line.trans ih.line, hnext.distinct,
      fun name hname => (hnext.values name hname).trans (ih.values name hname)⟩

/-- Texts of layouts that keep what the session reads are parsed alike. -/
theorem Layout.Keeps.parsedAlike (h : (layout raw).Keeps (layout raw'))
    (hd : Distinct (Rtsp.fields raw)) (ord ord' : HashOrder) :
    ParsedAlike Request.Alike (parseRequest ord raw) (parseRequest ord' raw') := by
  have hd' : Distinct (Rtsp.fields raw') := h.distinct
  have hfound : ∀ name ∈ lookedUp, valueOf (ord.order raw (Rtsp.fields raw)) name =
      valueOf (ord'.order raw' (Rtsp.fields raw')) name := by
    intro name hname
    rw [valueOf, valueOf, hd.find?_order, hd'.find?_order]
    exact (h.values name hname).symm
  have hcseq : cseqValue (ord.order raw (Rtsp.fields raw)) =
      cseqValue (ord'.order raw' (Rtsp.fields raw')) := by
    rw [(hd.perm (ord.perm _ _).symm).cseqValue, (hd'.perm (ord'.perm _ _).symm).cseqValue]
    exact hfound cseqName (by simp [lookedUp])
  have hline : requestLine raw = requestLine raw' := by
    rw [requestLine_eq, requestLine_eq]
    exact h.line.symm
  refine parsedAlike_of_reading hline (congrArg _ hd.requestHeaders)
    (congrArg _ hd'.requestHeaders) hcseq fun method uri cseq => ⟨rfl, rfl, rfl, ?_, ?_⟩
  · exact hfound (ascii "Transport") (by simp [lookedUp])
  · exact hfound (ascii "Session") (by simp [lookedUp])

/-- Irrelevant formatting: two texts that changes of the formatting lead from one to the other
leave the same session, the same result and the same world but for the log output. -/
theorem reformat_invisible (ord ord' : HashOrder) (o : Oracle) (s : Session) (w : World)
    (raw raw' : Bytes) (hd : Distinct (fields raw))
    (h : Relation.ReflTransGen Reformat (layout raw) (layout raw')) :
    let run := (s.serve ord raw).exec o w
    let run' := (s.serve ord' raw').exec o w
    run.1 = run'.1 ∧ run.2.responses = run'.2.responses ∧ run.2.unlogged = run'.2.unlogged := by
  have halike := (reformat_keeps h hd).parsedAlike hd ord ord'
  obtain ⟨hsame, hworld⟩ := halike.serve_exec o s (w := w) rfl
  refine ⟨hsame, ?_, hworld⟩
  rw [← World.responses_unlogged, hworld, World.responses_unlogged]

/-- A SETUP with another method case, name case, padding, order of lines and a line more. -/
theorem reformat_invisible_setup :
    let raw := ascii "SETUP u RTSP/1.0\r\nCSeq: 1\r\nTransport: client_port=5\r\n\r\n"
    let raw' := ascii "setup u RTSP/1.0\r\njunk\r\nTRANSPORT :\tclient_port=5\r\nCSeq: 1\r\n\r\n"
    let s := Session.create (ascii "10.0.0.2") true 5
    ((s.serve default raw).exec default default).1 =
      ((s.serve default raw').exec default default).1 := by
  intro raw raw' s
  let rest := ascii "u RTSP/1.0"
  let port := ascii "client_port=5"
  let cseq := ascii "CSeq: 1"
  let line := (ascii "TRANSPORT" ++ [32]) ++ 58 :: ([9] ++ port)
  have hd : Distinct (fields raw) := by decide +kernel
  have hraw : layout raw = ⟨ascii "SETUP" ++ 32 :: rest,
      [cseq] ++ (ascii "Transport" ++ 58 :: ([32] ++ port)) :: []⟩ := by decide +kernel
  have hraw' : layout raw' = ⟨ascii "setup" ++ 32 :: rest, [] ++ ascii "junk" :: [line, cseq]⟩ := by
    decide +kernel
  have hmethod : 32 ∉ ascii "SETUP" ∧ iequals (ascii "SETUP") (ascii "setup") = true := by
    decide +kernel
  have htransport : 58 ∉ ascii "Transport" ∧
      iequals (ascii "Transport") (ascii "TRANSPORT") = true := by decide +kernel
  have hjunk : ascii "junk" ≠ [] ∧ 58 ∉ ascii "junk" := by decide +kernel
  have hname : Repadded (ascii "TRANSPORT") (ascii "TRANSPORT" ++ [32]) :=
    ⟨[], [], ascii "TRANSPORT", [], [32], by simp, by simp, by simp⟩
  have hvalue : Repadded ([32] ++ port) ([9] ++ port) :=
    ⟨[32], [9], port, [], [], by simp, by simp, by simp⟩
  refine (reformat_invisible default default default s default raw raw' hd ?_).1
  rw [hraw, hraw']
  refine .head (.methodCase hmethod.1 hmethod.2) ?_
  refine .head (.nameCase htransport.1 htransport.2) ?_
  refine .head (.pad (by decide +kernel) hname hvalue) ?_
  refine .head (.permute (List.Perm.swap line cseq [])) ?_
  exact .single (@Reformat.insertJunk _ (ascii "junk") [] [line, cseq] hjunk.1 hjunk.2)

end Veda.Rtsp
