import Veda.Media.Hub
import Veda.Media.Playback

/-!
The parameter sets of a file and what the Hub keeps of them. A slot that is still empty has not
met a NAL of its type, so the first that it takes is the first of the file, whoever reads it.
-/
namespace Veda.Media

variable {σ : Type}

namespace Hub

/-- The callback of the reader in `prescan_parameter_sets`. -/
def prescanNal (hub : Hub σ) (nal : Bytes) : Hub σ :=
  if nal.length = 0 then hub
  else if nalTypeOf nal = kNalSps ∧ hub.sps = [] then { hub with sps := nal }
  else if nalTypeOf nal = kNalPps ∧ hub.pps = [] then { hub with pps := nal }
  else hub

/-- The loop of `prescan_parameter_sets` with `rounds` NALs to go: the Hub, and the NALs that
its callback was called with. -/
def prescanLoop : (rounds : Nat) → Hub σ → Bytes → Reads → Hub σ × List Bytes
  | 0, hub, _, _ => (hub, [])
  | rounds + 1, hub, buffer, reads =>
    if hub.sps = [] ∨ hub.pps = [] then
      let call := Media.readNal buffer reads
      let hub := call.callback.toList.foldl prescanNal hub
      if !call.result then (hub, call.callback.toList)
      else
        let rest := prescanLoop rounds hub call.buffer call.reads
        (rest.1, call.callback.toList ++ rest.2)
    else (hub, [])

/-- `prescan_parameter_sets`, with what `fread` will deliver from the file if it can be opened. -/
def prescanParameterSets (hub : Hub σ) : Option Reads → Hub σ × List Bytes
  | none => (hub, [])
  | some reads => prescanLoop 64 hub [] reads

/-- `sps_` or `pps_`. -/
def parameterSet (hub : Hub σ) (type : UInt8) : Bytes :=
  if type = kNalSps then hub.sps else hub.pps

end Hub

/-- A type that the Hub has a slot for. -/
def Cacheable (type : UInt8) : Prop := type = kNalSps ∨ type = kNalPps

/-- The first NAL of a type in a file. -/
def firstNal (file : List Bytes) (type : UInt8) : Option Bytes :=
  file.find? fun nal => nalTypeOf nal = type

/-- Each slot is empty or holds the first NAL of its type. -/
def Cached (file : List Bytes) (hub : Hub σ) : Prop :=
  ∀ type, Cacheable type →
    hub.parameterSet type = [] ∨ firstNal file type = some (hub.parameterSet type)

/-- No NAL of the type of an empty slot is among those that were heard. -/
def Unheard (hub : Hub σ) (heard : List Bytes) : Prop :=
  ∀ type, Cacheable type → hub.parameterSet type = [] → ∀ nal ∈ heard, nalTypeOf nal ≠ type

variable {hub : Hub σ} {nal : Bytes} {file heard rest : List Bytes} {type : UInt8}

/-- The prescan and the broadcast have the same test. -/
theorem prescanNal_eq (hnal : nal ≠ []) : hub.prescanNal nal = hub.cacheParameterSets nal := by
  have hlength : ¬ nal.length = 0 := by simpa using hnal
  rw [Hub.prescanNal, if_neg hlength]
  rfl

/-- A slot keeps what it has, and otherwise takes a NAL of its type. -/
theorem parameterSet_cache (htype : Cacheable type) :
    (hub.cacheParameterSets nal).parameterSet type =
      if nalTypeOf nal = type ∧ hub.parameterSet type = [] then nal
      else hub.parameterSet type := by
  have hdiffer : kNalPps ≠ kNalSps := by decide
  rw [Hub.cacheParameterSets]
  rcases htype with rfl | rfl
  · by_cases hsps : nalTypeOf nal = kNalSps ∧ hub.sps = []
    · simp [Hub.parameterSet, hsps]
    · rw [if_neg hsps]
      have hkeep : (if nalTypeOf nal = kNalPps ∧ hub.pps = [] then { hub with pps := nal }
          else hub).sps = hub.sps := by
        split <;> rfl
      simpa [Hub.parameterSet, hsps] using hkeep
  · by_cases hsps : nalTypeOf nal = kNalSps ∧ hub.sps = []
    · simp [Hub.parameterSet, hsps, hdiffer, hdiffer.symm]
    · by_cases hpps : nalTypeOf nal = kNalPps ∧ hub.pps = [] <;>
        simp [Hub.parameterSet, hsps, hpps, hdiffer]

theorem parameterSet_cache_of_ne (htype : Cacheable type) (h : hub.parameterSet type ≠ []) :
    (hub.cacheParameterSets nal).parameterSet type = hub.parameterSet type := by
  rw [parameterSet_cache htype, if_neg fun hboth => h hboth.2]

/-- Whatever is cached, a slot that is still empty was empty before. -/
theorem Unheard.cache (h : Unheard hub heard) (nal : Bytes) :
    Unheard (hub.cacheParameterSets nal) heard := by
  intro type htype hempty
  by_cases hbefore : hub.parameterSet type = []
  · exact h type htype hbefore
  · rw [parameterSet_cache_of_ne htype hbefore] at hempty
    exact absurd hempty hbefore

/-- The NAL that is cached has been heard. -/
theorem Unheard.cache_snoc (h : Unheard hub heard) (hnal : nal ≠ []) :
    Unheard (hub.cacheParameterSets nal) (heard ++ [nal]) := by
  intro type htype hempty other hother
  rcases List.mem_append.mp hother with hother | hother
  · exact h.cache nal type htype hempty other hother
  · obtain rfl := List.mem_singleton.mp hother
    intro hsame
    rw [parameterSet_cache htype] at hempty
    by_cases hbefore : hub.parameterSet type = []
    · rw [if_pos ⟨hsame, hbefore⟩] at hempty
      exact hnal hempty
    · rw [if_neg fun hboth => hbefore hboth.2] at hempty
      exact hbefore hempty

/-- The first NAL of a type behind what was heard is the first of all. -/
theorem Cached.cache (h : Cached file hub) (hheard : Unheard hub heard)
    (hfile : firstNal (heard ++ nal :: rest) = firstNal file) :
    Cached file (hub.cacheParameterSets nal) := by
  intro type htype
  by_cases htake : nalTypeOf nal = type ∧ hub.parameterSet type = []
  · refine Or.inr ?_
    have hnone : heard.find? (fun nal => nalTypeOf nal = type) = none := by
      rw [List.find?_eq_none]
      intro other hother
      simpa using hheard type htype htake.2 other hother
    rw [parameterSet_cache htype, if_pos htake, ← hfile, firstNal, List.find?_append, hnone,
      List.find?_cons_of_pos (by simpa using htake.1)]
    rfl
  · rw [parameterSet_cache htype, if_neg htake]
    exact h type htype

/-- Behind a complete pass an empty slot means that the file has no NAL for it. -/
theorem Cached.complete (h : Cached file hub) (hheard : Unheard hub heard)
    (hpass : file <+: heard) (htype : Cacheable type) :
    hub.parameterSet type ≠ [] ↔ ∃ nal ∈ file, nalTypeOf nal = type := by
  constructor
  · intro hslot
    rcases h type htype with hempty | hfirst
    · exact absurd hempty hslot
    · exact ⟨_, List.mem_of_find?_eq_some hfirst, by simpa using List.find?_some hfirst⟩
  · rintro ⟨nal, hnal, hsame⟩ hempty
    exact hheard type htype hempty nal (hpass.subset hnal) hsame

/-- Passes over a file have the first NALs of the file. -/
theorem firstNal_passes (file : List Bytes) (k : Nat) :
    firstNal (List.replicate (k + 1) file).flatten = firstNal file := by
  induction k with
  | zero => simp
  | succ k ih =>
    funext type
    have hrest := congrFun ih type
    rw [firstNal] at hrest ⊢
    rw [List.replicate_succ, List.flatten_cons, List.find?_append, hrest, firstNal]
    cases file.find? fun nal => nalTypeOf nal = type <;> rfl

theorem foldl_prescanNal {new : List Bytes} (hnew : ∀ nal ∈ new, nal ≠ [])
    (hc : Cached file hub) (hu : Unheard hub heard)
    (hfile : firstNal (heard ++ (new ++ rest)) = firstNal file) :
    Cached file (new.foldl Hub.prescanNal hub) ∧
    Unheard (new.foldl Hub.prescanNal hub) (heard ++ new) := by
  induction new generalizing hub heard with
  | nil => exact ⟨hc, by rwa [List.append_nil]⟩
  | cons nal new ih =>
    have hnal : nal ≠ [] := hnew nal (by simp)
    have hrest := ih (fun x hx => hnew x (by simp [hx])) (hc.cache hu hfile)
      (hu.cache_snoc hnal) (by simpa using hfile)
    rw [List.foldl_cons, prescanNal_eq hnal]
    simpa using hrest

theorem nals_ne_nil {ss : List Bytes} : ∀ nal ∈ nals ss, nal ≠ [] := by
  intro nal hnal
  simpa using (List.mem_filter.mp hnal).2

/-- The prescan stops where it likes: what it has cached are first NALs of the file, and it has
passed over none. -/
theorem prescanLoop_cached (rounds : Nat) {left : List Bytes} {buffer : Bytes} {reads : Reads}
    (hleft : segments (buffer ++ reads.flatten) = left) (hc : Cached file hub)
    (hu : Unheard hub heard) (hfile : heard ++ nals left = file) :
    Cached file (hub.prescanLoop rounds buffer reads).1 ∧
    Unheard (hub.prescanLoop rounds buffer reads).1
      (heard ++ (hub.prescanLoop rounds buffer reads).2) := by
  induction rounds generalizing hub heard left buffer reads with
  | zero => exact ⟨hc, by simpa [Hub.prescanLoop] using hu⟩
  | succ rounds ih =>
    rw [Hub.prescanLoop]
    split
    · obtain ⟨hcallback, _, hrest⟩ := readNal_left buffer reads hleft
      have hnext : heard ++ (nals (left.take 1) ++ nals left.tail) = file := by
        rw [nals_take_tail, hfile]
      obtain ⟨hc', hu'⟩ := foldl_prescanNal nals_ne_nil hc hu (congrArg firstNal hnext)
      dsimp only
      rw [hcallback]
      split
      · exact ⟨hc', hu'⟩
      · have htail := ih hrest hc' hu' (by rwa [List.append_assoc])
        rwa [List.append_assoc] at htail
    · exact ⟨hc, by simpa using hu⟩

theorem prescanNal_fields (hub : Hub σ) (nal : Bytes) :
    (hub.prescanNal nal).subscribers = hub.subscribers ∧
    (hub.prescanNal nal).tsIncrement = hub.tsIncrement := by
  by_cases hnal : nal = []
  · simp [Hub.prescanNal, hnal]
  · simp [prescanNal_eq hnal]

theorem prescanLoop_fields (rounds : Nat) (hub : Hub σ) (buffer : Bytes) (reads : Reads) :
    (hub.prescanLoop rounds buffer reads).1.subscribers = hub.subscribers ∧
    (hub.prescanLoop rounds buffer reads).1.tsIncrement = hub.tsIncrement := by
  induction rounds generalizing hub buffer reads with
  | zero => exact ⟨rfl, rfl⟩
  | succ rounds ih =>
    have hcall : ∀ callback : Option Bytes,
        (callback.toList.foldl Hub.prescanNal hub).subscribers = hub.subscribers ∧
        (callback.toList.foldl Hub.prescanNal hub).tsIncrement = hub.tsIncrement := by
      rintro (_ | nal)
      · exact ⟨rfl, rfl⟩
      · exact prescanNal_fields hub nal
    rw [Hub.prescanLoop]
    split
    · obtain ⟨hsubscribers, hincrement⟩ := hcall (Media.readNal buffer reads).callback
      dsimp only
      split
      · exact ⟨hsubscribers, hincrement⟩
      · obtain ⟨hsubscribers', hincrement'⟩ := ih
          ((Media.readNal buffer reads).callback.toList.foldl Hub.prescanNal hub)
          (Media.readNal buffer reads).buffer (Media.readNal buffer reads).reads
        exact ⟨hsubscribers'.trans hsubscribers, hincrement'.trans hincrement⟩
    · exact ⟨rfl, rfl⟩

theorem cached_create (file : List Bytes) (fps : Int) :
    Cached file (Hub.create fps : Hub σ) ∧ Unheard (Hub.create fps : Hub σ) [] := by
  constructor
  · intro type _
    exact Or.inl (by simp [Hub.parameterSet, Hub.create])
  · intro type _ _ nal hnal
    simp at hnal

/-- The Hub as its constructor leaves it, over a file that can be read or not. -/
theorem prescan_cached (fps : Int) {content : Bytes} {disk : Option Reads}
    (hdisk : ∀ reads ∈ disk, reads.flatten = content) :
    Cached (nals (segments content)) ((Hub.create fps : Hub σ).prescanParameterSets disk).1 ∧
    Unheard ((Hub.create fps : Hub σ).prescanParameterSets disk).1
      ((Hub.create fps : Hub σ).prescanParameterSets disk).2 := by
  obtain ⟨hc, hu⟩ := cached_create (σ := σ) (nals (segments content)) fps
  cases disk with
  | none => exact ⟨hc, hu⟩
  | some reads =>
    have hleft : segments ([] ++ reads.flatten) = segments content := by
      rw [List.nil_append, hdisk reads rfl]
    have hloop := prescanLoop_cached 64 hleft hc hu rfl
    simpa [Hub.prescanParameterSets] using hloop

/-- What `sprop_parameter_sets` returns is empty or made of the first NALs of the file. -/
theorem Cached.sprop (h : Cached file hub) (hsprop : hub.spropParameterSets ≠ []) :
    ∃ sps pps, firstNal file kNalSps = some sps ∧ firstNal file kNalPps = some pps ∧
      hub.spropParameterSets =
        Util.base64Encode sps ++ ascii "," ++ Util.base64Encode pps := by
  rw [Hub.spropParameterSets] at hsprop ⊢
  split at hsprop
  · exact absurd rfl hsprop
  · rename_i hboth
    obtain ⟨hsps, hpps⟩ := not_or.mp hboth
    rw [if_neg hboth]
    refine ⟨hub.sps, hub.pps, ?_, ?_, rfl⟩
    · rcases h kNalSps (Or.inl rfl) with hempty | hfirst
      · exact absurd hempty hsps
      · exact hfirst
    · rcases h kNalPps (Or.inr rfl) with hempty | hfirst
      · exact absurd hempty hpps
      · exact hfirst

end Veda.Media
