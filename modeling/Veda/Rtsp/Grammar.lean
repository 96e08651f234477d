import Veda.Rtsp.Message

/-!
The grammar of a request: its first line, and the lines up to the first empty one. The parser
accepts what has a request line, and a header is what the last line of its name says.
-/
namespace Veda.Rtsp

open Cpp Delimited

variable {ord : HashOrder} {raw line m u k v : Bytes} {h h' fs : Headers}

/-- The lines of a text, which CRLFs separate. -/
def textLines (raw : Bytes) : List Bytes := splitOn crlf raw

def firstLine (raw : Bytes) : Bytes := (textLines raw).headD []

/-- The lines behind the first one, up to the first that is empty. -/
def headerLines (raw : Bytes) : List Bytes := (textLines raw).tail.takeWhile (· ≠ [])

/-- A method, a URI and a version, with one space behind each of the first two. -/
def IsRequestLine (line m u : Bytes) : Prop :=
  32 ∉ m ∧ 32 ∉ u ∧ ∃ w, line = m ++ 32 :: (u ++ 32 :: (ascii "RTSP/" ++ w))

/-- The line has a colon, and the first one stands between this name and this value. -/
def IsHeaderLine (line k v : Bytes) : Prop :=
  ∃ a b, line = a ++ 58 :: b ∧ 58 ∉ a ∧ trim a = k ∧ trim b = v

/-- The last line of this name has this value. -/
def HasHeader (raw k v : Bytes) : Prop :=
  ∃ before line after, headerLines raw = before ++ line :: after ∧ IsHeaderLine line k v ∧
    ∀ line' ∈ after, ∀ v', ¬ IsHeaderLine line' k v'

/-- The header lines with a colon. -/
def colonLines (raw : Bytes) : List Bytes := (headerLines raw).filter (58 ∈ ·)

/-- White space neither at the beginning nor at the end. -/
def Trimmed (b : Bytes) : Prop :=
  (∀ c ∈ b.head?, isspace c = false) ∧ ∀ c ∈ b.getLast?, isspace c = false

instance (b : Bytes) : Decidable (Trimmed b) := inferInstanceAs (Decidable (_ ∧ _))

theorem Trimmed.trim {b : Bytes} (h : Trimmed b) : trim b = b := by
  have hdrop : ∀ b : Bytes, (∀ c ∈ b.head?, isspace c = false) → b.dropWhile isspace = b := by
    intro b hb
    cases b with
    | nil => rfl
    | cons c b => exact List.dropWhile_cons_of_neg (by simp [hb c rfl])
  have hlast : ∀ c ∈ b.reverse.head?, isspace c = false := by
    rw [List.head?_reverse]
    exact h.2
  rw [Rtsp.trim, hdrop b h.1, hdrop b.reverse hlast, List.reverse_reverse]

theorem nextLine_fst (raw : Bytes) : (nextLine raw).1 = firstLine raw := by
  rw [nextLine, firstLine, textLines]
  cases h : Cpp.find crlf raw with
  | none =>
    rw [splitOn_of_find_none (by decide) h]
    rfl
  | some pos =>
    rw [splitOn_of_find (by decide) h]
    rfl

theorem firstLine_clean (raw : Bytes) : ¬ crlf <:+: firstLine raw := by
  obtain ⟨first, others, hcons⟩ := List.exists_cons_of_ne_nil (splitOn_ne_nil (d := crlf))
  have hclean : ∀ l ∈ textLines raw, ¬ crlf <:+: l := splitOn_clean (by decide)
  rw [firstLine]
  rw [textLines, hcons] at hclean ⊢
  exact hclean first List.mem_cons_self

/-- What follows the first line, cut into lines. -/
theorem nextLine_snd (raw : Bytes) :
    (textLines (nextLine raw).2).takeWhile (· ≠ []) = headerLines raw := by
  rw [nextLine, headerLines]
  cases h : Cpp.find crlf raw with
  | none =>
    have hlines : textLines raw = [raw] := splitOn_of_find_none (by decide) h
    rw [hlines]
    rfl
  | some pos =>
    have hlines : textLines raw = raw.take pos :: textLines (raw.drop (pos + 2)) :=
      splitOn_of_find (by decide) h
    rw [hlines]
    rfl

theorem nextLine_length (h : raw ≠ []) : (nextLine raw).2.length < raw.length := by
  have hpos := List.length_pos_iff.mpr h
  rw [nextLine]
  split
  · exact hpos
  · rw [List.length_drop]
    omega

/-- The header loop goes through the lines up to the first empty one. -/
theorem parseHeaderLoop_eq {fuel : Nat} (hfuel : raw.length ≤ fuel) :
    parseHeaderLoop fuel raw h =
      (((textLines raw).takeWhile (· ≠ [])).filterMap parseHeaderLine).foldl
        (fun h e => assign e.1 e.2 h) h := by
  induction fuel generalizing raw h with
  | zero =>
    obtain rfl := List.eq_nil_of_length_eq_zero (Nat.le_zero.mp hfuel)
    rfl
  | succ fuel ih =>
    rw [parseHeaderLoop]
    by_cases hraw : raw = []
    · subst hraw
      rfl
    · have hshort := nextLine_length hraw
      have hlines : textLines raw = firstLine raw :: (textLines raw).tail := by
        obtain ⟨first, others, hcons⟩ := List.exists_cons_of_ne_nil (splitOn_ne_nil (d := crlf))
        rw [firstLine, textLines, hcons]
        rfl
      rw [if_neg hraw, hlines]
      dsimp only
      rw [nextLine_fst]
      by_cases hfirst : firstLine raw = []
      · rw [if_pos hfirst, hfirst]
        rfl
      · have hrest : ∀ h, parseHeaderLoop fuel (nextLine raw).2 h =
            ((headerLines raw).filterMap parseHeaderLine).foldl
              (fun h e => assign e.1 e.2 h) h := by
          intro h
          rw [ih (by omega), nextLine_snd]
        rw [if_neg hfirst, List.takeWhile_cons_of_pos (by simpa using hfirst), ← headerLines]
        cases hline : parseHeaderLine (firstLine raw) with
        | none =>
          rw [List.filterMap_cons_none hline]
          exact hrest h
        | some e =>
          rw [List.filterMap_cons_some hline, List.foldl_cons]
          exact hrest _

/-- The fields in the order of their lines. -/
def fields (raw : Bytes) : Headers := (headerLines raw).filterMap parseHeaderLine

theorem requestHeaders_eq (raw : Bytes) :
    requestHeaders raw = (fields raw).foldl (fun h e => assign e.1 e.2 h) [] := by
  rw [requestHeaders, parseHeaders, parseHeaderLoop_eq (Nat.le_refl _), nextLine_snd]
  rfl

theorem drop_cut {α : Type} (a : List α) (x : α) (b : List α) :
    (a ++ x :: b).drop (a.length + 1) = b := by
  rw [List.append_cons, ← List.length_singleton (a := x), ← List.length_append, List.drop_left]

theorem parseRequestLine_iff {method : Method} :
    parseRequestLine line = some (method, u) ↔
      ∃ m, IsRequestLine line m u ∧ method = stringToMethod m := by
  have hversion : ∀ version : Bytes, version.take 5 = ascii "RTSP/" ↔
      ∃ w, version = ascii "RTSP/" ++ w := by
    intro version
    have hlen : (ascii "RTSP/").length = 5 := by decide +kernel
    rw [eq_comm, ← hlen, ← List.prefix_iff_eq_take]
    exact exists_congr fun w => eq_comm
  constructor
  · intro h
    unfold parseRequestLine at h
    split at h
    · cases h
    · split at h
      · cases h
      · rename_i space1 h1
        obtain ⟨m, rest, rfl, hm, rfl⟩ := find_singleton_iff.mp h1
        dsimp only at h
        rw [drop_cut, List.take_left] at h
        split at h
        · cases h
        · rename_i space2 h2
          obtain ⟨u, version, rfl, hu, rfl⟩ := find_singleton_iff.mp h2
          rw [drop_cut, List.take_left] at h
          split at h
          · rename_i hv
            obtain ⟨w, rfl⟩ := (hversion _).mp hv
            cases h
            exact ⟨m, ⟨hm, hu, w, rfl⟩, rfl⟩
          · cases h
  · rintro ⟨m, ⟨hm, hu, w, rfl⟩, rfl⟩
    have hne : m ++ 32 :: (u ++ 32 :: (ascii "RTSP/" ++ w)) ≠ [] := by simp
    have h1 : Cpp.find [32] (m ++ 32 :: (u ++ 32 :: (ascii "RTSP/" ++ w))) = some m.length :=
      find_singleton_iff.mpr ⟨m, _, rfl, hm, rfl⟩
    have h2 : Cpp.find [32] (u ++ 32 :: (ascii "RTSP/" ++ w)) = some u.length :=
      find_singleton_iff.mpr ⟨u, _, rfl, hu, rfl⟩
    rw [parseRequestLine, if_neg hne, h1]
    dsimp only
    rw [drop_cut, h2]
    dsimp only
    rw [drop_cut, if_pos ((hversion _).mpr ⟨w, rfl⟩), List.take_left, List.take_left]

theorem parseHeaderLine_iff : parseHeaderLine line = some (k, v) ↔ IsHeaderLine line k v := by
  rw [parseHeaderLine, Option.map_eq_some_iff]
  constructor
  · rintro ⟨colon, hcolon, he⟩
    obtain ⟨a, b, rfl, ha, rfl⟩ := find_singleton_iff.mp hcolon
    rw [drop_cut, List.take_left] at he
    cases he
    exact ⟨a, b, rfl, ha, rfl, rfl⟩
  · rintro ⟨a, b, rfl, ha, rfl, rfl⟩
    refine ⟨a.length, find_singleton_iff.mpr ⟨a, b, rfl, ha, rfl⟩, ?_⟩
    rw [drop_cut, List.take_left]

theorem parseHeaderLine_none : parseHeaderLine line = none ↔ 58 ∉ line := by
  rw [parseHeaderLine, Option.map_eq_none_iff]
  exact find_singleton_none

theorem requestLine_eq (raw : Bytes) : requestLine raw = parseRequestLine (firstLine raw) := by
  rw [requestLine, nextLine_fst]
  split
  · rename_i hraw
    subst hraw
    rfl
  · rfl

/-- The first line of a request makes it one. -/
theorem requestLine_iff {method : Method} : requestLine raw = some (method, u) ↔
    ∃ m, IsRequestLine (firstLine raw) m u ∧ method = stringToMethod m := by
  rw [requestLine_eq]
  exact parseRequestLine_iff

/-! A later line overwrites what an earlier one of the same name has stored. -/

theorem lookup_assign (key value : Bytes) (h : Headers) (k : Bytes) :
    (assign key value h).lookup k = if k == key then some value else h.lookup k := by
  induction h with
  | nil => rw [assign, List.lookup_singleton, List.lookup_nil]
  | cons e h ih =>
    obtain ⟨k', v'⟩ := e
    rw [assign]
    by_cases hkey : k' = key
    · subst hkey
      rw [if_pos rfl, List.lookup_cons, List.lookup_cons]
      cases k == k' <;> rfl
    · rw [if_neg hkey, List.lookup_cons, List.lookup_cons, ih]
      cases hk : k == k' with
      | false => rfl
      | true =>
        obtain rfl := eq_of_beq hk
        rw [beq_eq_false_iff_ne.mpr hkey]
        rfl

theorem lookup_foldl (fs h : Headers) (k : Bytes) :
    (fs.foldl (fun h e => assign e.1 e.2 h) h).lookup k =
      (fs.reverse.lookup k).or (h.lookup k) := by
  induction fs generalizing h with
  | nil => rfl
  | cons e fs ih =>
    rw [List.foldl_cons, ih, lookup_assign, List.reverse_cons, List.lookup_append,
      List.lookup_singleton, Option.or_assoc]
    cases k == e.1 <;> rfl

theorem mem_assign_key {key value : Bytes} {e : Bytes × Bytes} (he : e ∈ assign key value h) :
    e.1 = key ∨ e ∈ h := by
  induction h with
  | nil =>
    rw [assign, List.mem_singleton] at he
    exact Or.inl (congrArg Prod.fst he)
  | cons f h ih =>
    rw [assign] at he
    split at he
    · rename_i hkey
      rcases List.mem_cons.mp he with rfl | he
      · exact Or.inl hkey
      · exact Or.inr (List.mem_cons_of_mem _ he)
    · rcases List.mem_cons.mp he with rfl | he
      · exact Or.inr List.mem_cons_self
      · exact (ih he).imp_right (List.mem_cons_of_mem _)

/-- Assigning headers of different names stores each of them. -/
theorem assign_new {key value : Bytes} (hk : ∀ e ∈ h, e.1 ≠ key) :
    assign key value h = h ++ [(key, value)] := by
  induction h with
  | nil => rfl
  | cons e h ih =>
    have he : e.1 ≠ key := hk e (by simp)
    rw [assign, if_neg he, ih fun f hf => hk f (by simp [hf])]
    rfl

theorem nodup_assign {key value : Bytes} (hn : (h.map Prod.fst).Nodup) :
    ((assign key value h).map Prod.fst).Nodup := by
  induction h with
  | nil => simp [assign]
  | cons e h ih =>
    obtain ⟨hfresh, hn⟩ := List.nodup_cons.mp hn
    rw [assign]
    split
    · exact List.nodup_cons.mpr ⟨hfresh, hn⟩
    · rename_i hkey
      refine List.nodup_cons.mpr ⟨?_, ih hn⟩
      intro hmem
      obtain ⟨f, hf, hfk⟩ := List.mem_map.mp hmem
      rcases mem_assign_key hf with hsame | hold
      · exact hkey (hfk.symm.trans hsame)
      · exact hfresh (hfk ▸ List.mem_map_of_mem hold)

/-- A map has one entry for each key. -/
theorem mem_iff_lookup (hn : (h.map Prod.fst).Nodup) : (k, v) ∈ h ↔ h.lookup k = some v := by
  induction h with
  | nil => simp
  | cons e h ih =>
    obtain ⟨k', v'⟩ := e
    obtain ⟨hfresh, hrest⟩ := List.nodup_cons.mp hn
    rw [List.mem_cons, List.lookup_cons, ih hrest, Prod.mk.injEq]
    cases hk : k == k' with
    | true =>
      obtain rfl := eq_of_beq hk
      have hnone : h.lookup k ≠ some v := by
        intro hsome
        have hkey := List.mem_map_of_mem (f := Prod.fst) ((ih hrest).mpr hsome)
        exact hfresh hkey
      simp [hnone, eq_comm]
    | false => simp [beq_eq_false_iff_ne.mp hk]

theorem requestHeaders_nodup (raw : Bytes) : ((requestHeaders raw).map Prod.fst).Nodup := by
  rw [requestHeaders_eq]
  have hfold : ∀ (fs h : Headers), (h.map Prod.fst).Nodup →
      ((fs.foldl (fun h e => assign e.1 e.2 h) h).map Prod.fst).Nodup := by
    intro fs
    induction fs with
    | nil => exact fun _ hn => hn
    | cons e fs ih => exact fun h hn => ih _ (nodup_assign hn)
  exact hfold _ [] (by simp)

/-- The map holds the last line of each name. -/
theorem mem_requestHeaders : (k, v) ∈ requestHeaders raw ↔ HasHeader raw k v := by
  rw [mem_iff_lookup (requestHeaders_nodup raw), requestHeaders_eq, lookup_foldl, List.lookup_nil,
    Option.or_none, List.lookup_eq_some_iff, HasHeader, fields]
  constructor
  · rintro ⟨l₁, l₂, hsplit, hlast⟩
    have hrev := congrArg List.reverse hsplit
    rw [List.reverse_reverse, List.reverse_append, List.reverse_cons, List.append_assoc] at hrev
    obtain ⟨before, later, hlines, -, hlater⟩ := List.filterMap_eq_append_iff.mp hrev
    obtain ⟨skipped, line, after, hcons, hskip, hline, hafter⟩ :=
      List.filterMap_eq_cons_iff.mp hlater
    refine ⟨before ++ skipped, line, after, ?_, parseHeaderLine_iff.mp hline, ?_⟩
    · rw [hlines, hcons, List.append_assoc]
    · intro line' hline' v' hv'
      have hmem : (k, v') ∈ l₁ := by
        rw [← List.mem_reverse]
        change (k, v') ∈ [].append l₁.reverse
        rw [← hafter]
        exact List.mem_filterMap.mpr ⟨line', hline', parseHeaderLine_iff.mpr hv'⟩
      exact absurd (hlast _ hmem) (by simp)
  · rintro ⟨before, line, after, hlines, hline, hlast⟩
    refine ⟨(after.filterMap parseHeaderLine).reverse, (before.filterMap parseHeaderLine).reverse,
      ?_, ?_⟩
    · rw [hlines, List.filterMap_append, List.filterMap_cons_some (parseHeaderLine_iff.mpr hline)]
      simp
    · rintro ⟨k', v'⟩ he
      obtain ⟨line', hmem, hline'⟩ := List.mem_filterMap.mp (List.mem_reverse.mp he)
      rw [bne_iff_ne]
      rintro rfl
      exact hlast line' hmem v' (parseHeaderLine_iff.mp hline')

/-- A request of these lines: each has its CRLF, and an empty line ends them. -/
def linesText (first : Bytes) (ls : List Bytes) : Bytes :=
  (first :: ls).flatMap (· ++ crlf) ++ crlf

/-- A text that is written line by line is read line by line. -/
theorem textLines_linesText {first : Bytes} {ls : List Bytes} (hfirst : ¬ crlf <:+: first)
    (hls : ∀ l ∈ ls, ¬ crlf <:+: l) :
    textLines (linesText first ls) = first :: (ls ++ [[], []]) := by
  have htext : linesText first ls = crlf.intercalate ((first :: ls ++ [[]]) ++ [[]]) := by
    rw [intercalate_concat, List.flatMap_append, List.append_nil]
    rfl
  have hclean : ∀ l ∈ first :: ls ++ [[]] ++ [[]], ¬ crlf <:+: l := by
    have hnil : ¬ crlf <:+: [] := by decide
    intro l hl
    simp only [List.mem_append, List.mem_cons, List.not_mem_nil, or_false] at hl
    rcases hl with ((rfl | hl) | rfl) | rfl
    · exact hfirst
    · exact hls l hl
    · exact hnil
    · exact hnil
  rw [textLines, htext, crlf_unbordered.splitOn_intercalate (by decide) (by simp) hclean]
  simp

section LinesText
variable {first : Bytes} {ls : List Bytes} (hfirst : ¬ crlf <:+: first)
  (hls : ∀ l ∈ ls, l ≠ [] ∧ ¬ crlf <:+: l)
include hfirst hls

theorem firstLine_linesText : firstLine (linesText first ls) = first := by
  rw [firstLine, textLines_linesText hfirst fun l hl => (hls l hl).2]
  rfl

theorem headerLines_linesText : headerLines (linesText first ls) = ls := by
  have hne : ∀ l ∈ ls, decide (l ≠ []) = true := fun l hl => decide_eq_true (hls l hl).1
  rw [headerLines, textLines_linesText hfirst fun l hl => (hls l hl).2, List.tail_cons,
    List.takeWhile_append_of_pos hne]
  simp

theorem fields_linesText : fields (linesText first ls) = ls.filterMap parseHeaderLine := by
  rw [fields, headerLines_linesText hfirst hls]

/-- Such a request ends at the first blank line of a stream. -/
theorem find_linesText (hne : first ≠ []) (tail : Bytes) : ∃ n,
    Cpp.find crlfcrlf (linesText first ls ++ tail) = some n ∧
      n + crlfcrlf.length = (linesText first ls).length := by
  have hlines : ∀ l ∈ first :: ls, l ≠ [] ∧ ¬ crlf <:+: l :=
    List.forall_mem_cons.mpr ⟨⟨hne, hfirst⟩, hls⟩
  have htext : linesText first ls = crlf.intercalate (first :: ls) ++ crlf ++ crlf := by
    rw [linesText, flatMap_delimiter (List.cons_ne_nil _ _)]
  have hfind : Cpp.find (crlf ++ crlf)
      (crlf.intercalate (first :: ls) ++ (crlf ++ (crlf ++ tail))) =
        some (crlf.intercalate (first :: ls)).length := crlf_unbordered.find_blank hlines
  refine ⟨(crlf.intercalate (first :: ls)).length, ?_, ?_⟩
  · rw [htext, List.append_assoc, List.append_assoc]
    exact hfind
  · rw [htext, List.length_append, List.length_append]
    rfl

end LinesText

/-- Lines without a colon have no influence on the fields. -/
theorem fields_colonLines (raw : Bytes) :
    fields raw = (colonLines raw).filterMap parseHeaderLine := by
  rw [fields, colonLines, List.filterMap_filter]
  apply List.filterMap_congr
  intro line _
  split
  · rfl
  · rename_i hcolon
    exact parseHeaderLine_none.mpr (by simpa using hcolon)

/-- What the parser reads of a text: the first line and the header lines with a colon. The order
of the hash map may depend on what it holds, but on nothing else. -/
theorem parseRequest_congr {raw' : Bytes} {ord' : HashOrder}
    (hfirst : firstLine raw' = firstLine raw) (hcolon : colonLines raw' = colonLines raw)
    (hord : ord'.order raw' = ord.order raw) :
    parseRequest ord' raw' = parseRequest ord raw := by
  have hheaders : requestHeaders raw' = requestHeaders raw := by
    rw [requestHeaders_eq, requestHeaders_eq, fields_colonLines, fields_colonLines, hcolon]
  have hline : requestLine raw' = requestLine raw := by
    rw [requestLine_eq, requestLine_eq, hfirst]
  rw [parseRequest_eq, parseRequest_eq, hheaders, hline, hord]

/-- The parser accepts exactly the texts that begin with a request line, takes the URI from it,
and maps each name to what the last header line of that name says. Nothing else in the text has
an influence on the result. -/
theorem parseRequest_grammar (ord : HashOrder) (raw : Bytes)
    (hc : ∀ k v, HasHeader raw k v → iequals k cseqName = true → ∃ z, stoi v = .ok z) :
    (∃ parsed, parseRequest ord raw = .ok parsed ∧
      (parsed ≠ none ↔ ∃ m u, IsRequestLine (firstLine raw) m u) ∧
      ∀ req, parsed = some req →
        (∀ m u, IsRequestLine (firstLine raw) m u →
          req.method = stringToMethod m ∧ req.uri = u) ∧
        (req.headers.map Prod.fst).Nodup ∧
        ∀ k v, (k, v) ∈ req.headers ↔ HasHeader raw k v) ∧
    ∀ raw' ord', firstLine raw' = firstLine raw → colonLines raw' = colonLines raw →
      ord'.order raw' = ord.order raw → parseRequest ord' raw' = parseRequest ord raw := by
  refine ⟨?_, fun raw' ord' hfirst hcolon hord => parseRequest_congr hfirst hcolon hord⟩
  have hbad : ¬ BadCseq ord raw := by
    rintro ⟨-, v, e, hv, hstoi⟩
    obtain ⟨⟨k, v⟩, hmem, rfl⟩ := cseqValue_some hv
    obtain ⟨hmem, hname⟩ := List.mem_filter.mp (cseqHeaders_order.mem_iff.mp hmem)
    obtain ⟨z, hz⟩ := hc k v (mem_requestHeaders.mp hmem) hname
    rw [hz] at hstoi
    cases hstoi
  cases hparse : parseRequest ord raw with
  | error e => exact absurd (parseRequest_raises.mp ⟨e, hparse⟩) hbad
  | ok parsed =>
    refine ⟨parsed, rfl, ?_, ?_⟩
    · cases parsed with
      | none =>
        have hnone := parseRequest_none.mp hparse
        refine iff_of_false (by simp) ?_
        rintro ⟨m, u, hline⟩
        rw [requestLine_iff.mpr ⟨m, hline, rfl⟩] at hnone
        cases hnone
      | some req =>
        obtain ⟨m, hline, -⟩ := requestLine_iff.mp (parseRequest_parsed hparse).1
        exact iff_of_true (by simp) ⟨m, req.uri, hline⟩
    · rintro req rfl
      obtain ⟨hline, hheaders⟩ := parseRequest_parsed hparse
      have hperm := ord.perm raw (requestHeaders raw)
      rw [hheaders]
      refine ⟨?_, ?_, ?_⟩
      · intro m u hmu
        rw [requestLine_iff.mpr ⟨m, hmu, rfl⟩, Option.some.injEq, Prod.mk.injEq] at hline
        exact ⟨hline.1.symm, hline.2.symm⟩
      · exact (hperm.map Prod.fst).nodup_iff.mpr (requestHeaders_nodup raw)
      · intro k v
        rw [hperm.mem_iff, mem_requestHeaders]

/-- A request with a doubled header, a line without a colon and a line behind the empty one. -/
theorem parseRequest_grammar_doubled :
    let raw := ascii "PLAY u RTSP/1.0\r\nCSeq: 1\r\njunk\r\nCSeq :2\r\n\r\nCSeq: x"
    ∃ req, parseRequest default raw = .ok (some req) ∧ req.uri = ascii "u" ∧
      (ascii "CSeq", ascii "2") ∈ req.headers := by
  intro raw
  have hheaders : requestHeaders raw = [(ascii "CSeq", ascii "2")] := by decide +kernel
  have hline : IsRequestLine (firstLine raw) (ascii "PLAY") (ascii "u") :=
    ⟨by decide +kernel, by decide +kernel, ascii "1.0", by decide +kernel⟩
  have hc : ∀ k v, HasHeader raw k v → iequals k cseqName = true → ∃ z, stoi v = .ok z := by
    intro k v hkv _
    rw [← mem_requestHeaders, hheaders, List.mem_singleton] at hkv
    cases hkv
    exact ⟨2, by decide +kernel⟩
  obtain ⟨⟨parsed, hparse, hsome, hreq⟩, -⟩ := parseRequest_grammar default raw hc
  obtain ⟨req, rfl⟩ := Option.ne_none_iff_exists'.mp (hsome.mpr ⟨_, _, hline⟩)
  obtain ⟨huri, -, hmap⟩ := hreq req rfl
  refine ⟨req, hparse, (huri _ _ hline).2, ?_⟩
  rw [hmap, ← mem_requestHeaders, hheaders]
  exact List.mem_singleton_self _

end Veda.Rtsp
