import Veda.Rtsp.Handling

/-!
In which order a session makes its calls. The history is what the control thread has called so
far, and `callOrder` is the contract that every session keeps: a streamer is subscribed right
after the response to its PLAY, and a PAUSE or a TEARDOWN succeeds only when nothing that the
session has subscribed is left in the Hub.
-/
namespace Veda.Rtsp

open Cpp Effects

abbrev History := List Call

namespace History

def nextRequest (last : Option (ConnId × Bytes)) : Call → Option (ConnId × Bytes)
  | ⟨.logRequest conn raw, _⟩ => some (conn, raw)
  | _ => last

/-- The request that is being handled. -/
def lastRequest (h : History) : Option (ConnId × Bytes) := h.foldl nextRequest none

def nextPreparing (current : Option StreamerId) : Call → Option StreamerId
  | ⟨.makeStreamer _, x⟩ => some x
  | ⟨.connect _ _ _, connected⟩ => bif connected then current else none
  | ⟨.send _ _, _⟩ => current
  | _ => none

/-- The streamer that a PLAY has made and not yet handed to the Hub. -/
def preparing (h : History) : Option StreamerId := h.foldl nextPreparing none

def streamerOf : Call → Option StreamerId
  | ⟨.makeStreamer _, x⟩ => some x
  | ⟨.connect x _ _, _⟩ => some x
  | ⟨.subscribe x, _⟩ => some x
  | ⟨.unsubscribe x, _⟩ => some x
  | _ => none

def Known (h : History) (x : StreamerId) : Prop := ∃ c ∈ h, streamerOf c = some x

/-- The session of `conn` has made this streamer. -/
def Created (h : History) (conn : ConnId) (x : StreamerId) : Prop :=
  ⟨.makeStreamer conn, x⟩ ∈ h

/-- `Hub::subscribe` has returned `true` for this streamer. -/
def Accepted (h : History) (x : StreamerId) : Prop := ⟨.subscribe x, true⟩ ∈ h

/-- `Hub::unsubscribe` has returned for this streamer. -/
def Released (h : History) (x : StreamerId) : Prop := ⟨.unsubscribe x, ()⟩ ∈ h

/-- Nothing is left to do about the streamer. -/
structure Finished (h : History) (x : StreamerId) : Prop where
  created : ∃ conn, h.Created conn x
  prepared : h.preparing ≠ some x
  released : h.Accepted x → h.Released x

/-- The PLAY that made the streamer has got its response. -/
def Announced (ord : HashOrder) (h : History) (x : StreamerId) : Prop :=
  ∃ conn raw req ip port id, parseRequest ord raw = .ok (some req) ∧ req.method = .play ∧
    [⟨.logRequest conn raw, ()⟩, ⟨.makeStreamer conn, x⟩, ⟨.connect x ip port, true⟩,
      ⟨.send conn (Response.play req.cseq id), ()⟩] <:+: h

/-- This text is the success response to a PAUSE or to a TEARDOWN. -/
def Stops (ord : HashOrder) (h : History) (conn : ConnId) (response : Bytes) : Prop :=
  ∃ raw req, h.lastRequest = some (conn, raw) ∧ parseRequest ord raw = .ok (some req) ∧
    (req.method = .pause ∨ req.method = .teardown) ∧ statusOf response = .ok 200

theorem Stops.method {ord : HashOrder} {h : History} {conn c : ConnId} {raw response : Bytes}
    {req : Request} (hs : h.Stops ord c response) (hl : h.lastRequest = some (conn, raw))
    (hp : parseRequest ord raw = .ok (some req)) :
    (req.method = .pause ∨ req.method = .teardown) ∧ statusOf response = .ok 200 := by
  obtain ⟨raw', req', hl', hp', hm, hok⟩ := hs
  rw [hl] at hl'
  obtain ⟨-, rfl⟩ := Prod.mk.inj (Option.some.inj hl')
  rw [hp] at hp'
  cases hp'
  exact ⟨hm, hok⟩

theorem lastRequest_of_suffix {h : History} {conn : ConnId} {raw : Bytes}
    (hlog : [⟨.logRequest conn raw, ()⟩] <:+ h) : h.lastRequest = some (conn, raw) := by
  obtain ⟨h₀, rfl⟩ := hlog
  simp [lastRequest, nextRequest]

/-- What the session of `conn` may call next. -/
def Permits (ord : HashOrder) (conn : ConnId) (h : History) : Op → Prop
  | .makeStreamer c => c = conn
  | .connect x _ _ => h.preparing = some x
  | .send c response => c = conn ∧ (h.Stops ord c response → ∀ x, h.Created c x → h.Finished x)
  | .subscribe x => h.preparing = some x ∧ h.Announced ord x
  | .unsubscribe x => ∃ c, h.Created c x
  | _ => True

/-- A new streamer is not one that was there before. -/
def Fresh (h : History) : Call → Prop
  | ⟨.makeStreamer _, x⟩ => ¬ h.Known x
  | _ => True

section Append
variable {h : History} {c : Call} {cs : List Call} {x : StreamerId} {conn : ConnId}

@[simp] theorem lastRequest_append :
    lastRequest (h ++ cs) = cs.foldl nextRequest h.lastRequest := by
  simp [lastRequest]

@[simp] theorem preparing_append :
    preparing (h ++ cs) = cs.foldl nextPreparing h.preparing := by
  simp [preparing]

@[simp] theorem created_append :
    Created (h ++ cs) conn x ↔ h.Created conn x ∨ ⟨.makeStreamer conn, x⟩ ∈ cs := by
  simp [Created]

@[simp] theorem accepted_append :
    Accepted (h ++ cs) x ↔ h.Accepted x ∨ ⟨.subscribe x, true⟩ ∈ cs := by
  simp [Accepted]

@[simp] theorem released_append :
    Released (h ++ cs) x ↔ h.Released x ∨ ⟨.unsubscribe x, ()⟩ ∈ cs := by
  simp [Released]

theorem known_snoc : Known (h ++ [c]) x ↔ h.Known x ∨ streamerOf c = some x := by
  simp [Known, or_and_right, exists_or]

theorem created_snoc :
    Created (h ++ [c]) conn x ↔ h.Created conn x ∨ c = ⟨.makeStreamer conn, x⟩ := by
  simp [eq_comm]

theorem Announced.snoc {ord : HashOrder} (ha : h.Announced ord x) :
    Announced ord (h ++ [c]) x := by
  obtain ⟨conn, raw, req, ip, port, id, hp, hm, hin⟩ := ha
  exact ⟨conn, raw, req, ip, port, id, hp, hm, hin.trans (List.infix_append' [] h [c])⟩

theorem Created.known (hc : h.Created conn x) : h.Known x := ⟨_, hc, rfl⟩
theorem Released.known (hr : h.Released x) : h.Known x := ⟨_, hr, rfl⟩
theorem Accepted.known (ha : h.Accepted x) : h.Known x := ⟨_, ha, rfl⟩

end Append

/-- No call of the contract takes up a finished streamer again. -/
theorem Finished.snoc {ord : HashOrder} {conn : ConnId} {h : History} {op : Op} {r : op.Res}
    {x : StreamerId} (hp : h.Permits ord conn op) (hf : h.Fresh ⟨op, r⟩) (hx : h.Finished x) :
    Finished (h ++ [⟨op, r⟩]) x := by
  obtain ⟨⟨c, hc⟩, hprep, hrel⟩ := hx
  refine ⟨⟨c, by simp [hc]⟩, ?_, ?_⟩
  · cases op with
    | makeStreamer c' =>
      rintro hx
      obtain rfl : r = x := by simpa [nextPreparing] using hx
      exact hf hc.known
    | connect y ip port => cases r <;> simp_all [nextPreparing]
    | _ => simp_all [nextPreparing]
  · cases op with
    | subscribe y =>
      have hy : x ≠ y := by
        rintro rfl
        exact hprep hp.1
      simpa [hy] using hrel
    | _ => simp_all

/-- What the code relies on besides the contract: a streamer in preparation is new to the Hub,
and the Hub hears of announced streamers only. -/
structure Regular (ord : HashOrder) (h : History) : Prop where
  created : ∀ x, h.Known x → ∃ conn, h.Created conn x
  prepared : ∀ x, h.preparing = some x →
    h.Known x ∧ ¬ h.Released x ∧ ∀ ok, (⟨.subscribe x, ok⟩ : Call) ∉ h
  announced : ∀ x ok, (⟨.subscribe x, ok⟩ : Call) ∈ h → h.Announced ord x

theorem regular_nil (ord : HashOrder) : Regular ord [] := by
  constructor <;> simp [Known, preparing]

theorem Regular.snoc {ord : HashOrder} {conn : ConnId} {h : History} {op : Op} {r : op.Res}
    (hr : Regular ord h) (hp : h.Permits ord conn op) (hf : h.Fresh ⟨op, r⟩) :
    Regular ord (h ++ [⟨op, r⟩]) := by
  obtain ⟨hcreated, hprepared, hannounced⟩ := hr
  refine ⟨?_, ?_, ?_⟩
  · intro x hx
    have hold : h.Known x → ∃ c, Created (h ++ [⟨op, r⟩]) c x := by
      intro hx
      obtain ⟨c, hc⟩ := hcreated x hx
      exact ⟨c, by simp [hc]⟩
    rcases known_snoc.mp hx with hx | hx
    · exact hold hx
    · cases op with
      | makeStreamer c =>
        obtain rfl : r = x := by simpa [streamerOf] using hx
        exact ⟨c, by simp⟩
      | connect y ip port =>
        obtain rfl : y = x := by simpa [streamerOf] using hx
        exact hold (hprepared y hp).1
      | subscribe y =>
        obtain rfl : y = x := by simpa [streamerOf] using hx
        exact hold (hprepared y hp.1).1
      | unsubscribe y =>
        obtain rfl : y = x := by simpa [streamerOf] using hx
        obtain ⟨c, hc⟩ := hp
        exact ⟨c, by simp [hc]⟩
      | _ => simp [streamerOf] at hx
  · intro x hx
    have hold : h.preparing = some x → op.editsHub = false → Known (h ++ [⟨op, r⟩]) x ∧
        ¬ Released (h ++ [⟨op, r⟩]) x ∧ ∀ ok, (⟨.subscribe x, ok⟩ : Call) ∉ h ++ [⟨op, r⟩] := by
      intro hx hop
      obtain ⟨hk, hrel, hsub⟩ := hprepared x hx
      refine ⟨known_snoc.mpr (.inl hk), ?_, ?_⟩ <;> cases op <;> simp_all [Op.editsHub]
    cases op with
    | makeStreamer c =>
      obtain rfl : r = x := by simpa [nextPreparing] using hx
      refine ⟨known_snoc.mpr (.inr rfl), ?_, ?_⟩
      · intro hrel
        exact hf (Released.known (by simpa using hrel))
      · intro ok hsub
        exact hf ⟨_, by simpa using hsub, rfl⟩
    | connect y ip port => cases r <;> simp_all [nextPreparing, Op.editsHub]
    | send c response => exact hold (by simpa [nextPreparing] using hx) rfl
    | _ => simp [nextPreparing] at hx
  · intro x ok hx
    rcases List.mem_append.mp hx with hx | hx
    · exact (hannounced x ok hx).snoc
    · obtain ⟨rfl, -⟩ : op = .subscribe x ∧ HEq r ok := by simpa [eq_comm] using hx
      exact hp.2.snoc

end History

open History

/-- The contract of the session of `conn`. -/
def callOrder (ord : HashOrder) (conn : ConnId) : Program.Spec Op Op.Res History where
  pre h op := h.Permits ord conn op
  post h op r h' := h.Fresh ⟨op, r⟩ ∧ h' = h ++ [⟨op, r⟩]

@[simp] theorem callOrder_pre {ord : HashOrder} {conn : ConnId} {h : History} {op : Op} :
    (callOrder ord conn).pre h op ↔ h.Permits ord conn op := Iff.rfl

end Veda.Rtsp
