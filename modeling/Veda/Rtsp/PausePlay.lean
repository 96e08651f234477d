import Mathlib.Data.List.Chain
import Veda.Media.FanOut
import Veda.Rtp.HeaderFields
import Veda.Rtp.RoundTrip
import Veda.Rtsp.Framing
import Veda.Rtsp.Moves

/-!
One session and the pump taking turns, with every RTP packet that they hand to a socket. Each
PLAY makes a streamer of its own, so after a PAUSE the packets go on where they were only if the
random generators return the SSRC and the sequence number that the last streamer had reached.
-/
namespace Veda.Rtsp

open Cpp Media Rtp Delimited

/-- What the random generators return in the constructor of each streamer, and what its socket
answers. -/
structure Generators where
  ssrc : StreamerId → UInt32
  sequence : StreamerId → UInt16
  outcome : StreamerId → Nat → Bool

def Generators.streamer (g : Generators) (x : StreamerId) : Streamer :=
  newStreamer (g.ssrc x) (g.sequence x) (g.outcome x)

/-- A session with its world and its streamers, and the packets handed to their sockets. -/
structure Playback where
  session : Session
  world : World
  mem : StreamerId → Streamer
  packets : List Bytes := []

inductive Turn
  | request (raw : Bytes)
  | disconnect
  /-- The pump broadcasts a NAL. -/
  | onNal (nal : Bytes)

namespace Playback

/-- Before the first request. -/
def create (fps : Int) (g : Generators) (clientIp : Bytes) (hub : Bool) (conn : ConnId) :
    Playback where
  session := Session.create clientIp hub conn
  world := { hub := Hub.create fps }
  mem := g.streamer

/-- The packets that the streamers of `xs` have tried to send since `before`. -/
def attempted (before after : StreamerId → Streamer) (xs : List StreamerId) : List Bytes :=
  xs.flatMap fun x =>
    ((after x).socket.attempts.drop (before x).socket.attempts.length).map (·.packet)

def step (ord : HashOrder) (o : Oracle) (p : Playback) : Turn → Playback
  | .request raw =>
    let served := (p.session.serve ord raw).exec o p.world
    { p with session := served.1.1, world := served.2 }
  | .disconnect =>
    let ended := p.session.onDisconnect.exec o p.world
    { p with session := ended.1, world := ended.2 }
  | .onNal nal =>
    let (hub, mem) := p.world.hub.onNal p.mem nal
    { p with
      world := { p.world with hub }
      mem
      packets := p.packets ++ attempted p.mem mem p.world.hub.subscribers }

def run (ord : HashOrder) (o : Oracle) (p : Playback) (turns : List Turn) : Playback :=
  turns.foldl (step ord o) p

end Playback

/-- One packet after another of an RTP session: the same SSRC and the next sequence number. -/
def Continues (p q : Bytes) : Prop := ssrcOf q = ssrcOf p ∧ sequenceOf q = sequenceOf p + 1

instance (p q : Bytes) : Decidable (Continues p q) := inferInstanceAs (Decidable (_ ∧ _))

/-- All packets belong to one RTP session, with no gap in their numbers. -/
def OneRtpSession (packets : List Bytes) : Prop := packets.IsChain Continues

/-- A streamer that is to send its first packet has the SSRC of the packet before and the
number after it. -/
def Resumes (g : Generators) (p : Playback) : Turn → Prop
  | .onNal nal => nal ≠ [] → ∀ x ∈ p.world.hub.subscribers, (p.mem x).socket.attempts = [] →
      ∀ packet ∈ p.packets.getLast?,
        g.ssrc x = ssrcOf packet ∧ g.sequence x = sequenceOf packet + 1
  | _ => True

/-- Every turn of a run meets `Resumes`. -/
def AllResume (ord : HashOrder) (o : Oracle) (g : Generators) : Playback → List Turn → Prop
  | _, [] => True
  | p, t :: turns => Resumes g p t ∧ AllResume ord o g (p.step ord o t) turns

/-- The streamer of the session carries on with the last packet, or has sent none. -/
structure Carries (g : Generators) (p : Playback) (x : StreamerId) : Prop where
  made : x < p.world.streamers
  connected : (p.mem x).connected = true
  ssrc : (p.mem x).ssrc = g.ssrc x
  sequence : ((p.mem x).socket.attempts = [] ∧ (p.mem x).sequence = g.sequence x) ∨
    ∃ packet, p.packets.getLast? = some packet ∧ ssrcOf packet = g.ssrc x ∧
      (p.mem x).sequence = sequenceOf packet + 1 ∧ (p.mem x).socket.attempts ≠ []

/-- What every turn keeps: the Hub has the streamer of the session and no other, and those that
are still to be made are as the constructor leaves them. -/
structure Kept (g : Generators) (p : Playback) : Prop where
  hub : p.session.streamer ≠ none → p.session.hub = true
  playing : p.session.streamer ≠ none → p.session.state = .playing
  listed : p.world.hub.subscribers = p.session.streamer.toList
  carries : ∀ x, p.session.streamer = some x → Carries g p x
  fresh : ∀ x, p.world.streamers ≤ x → p.mem x = g.streamer x

variable {ord : HashOrder} {o : Oracle} {g : Generators} {w : World} {s s' : Session}
  {p : Playback} {m : Move} {t : Turn} {turns : List Turn} {x : StreamerId} {nal : Bytes}
  {hdr : Header} {outcome : Nat → Bool} {n : Nat} {frags : List Bytes}

section Attempts

/-- Packets from a sequence number on. -/
def Numbers (ssrc : UInt32) (seq : UInt16) (packets : List Bytes) : Prop :=
  ∀ i packet, packets[i]? = some packet →
    ssrcOf packet = ssrc ∧ sequenceOf packet = seq + UInt16.ofNat i

variable {ssrc : UInt32} {seq : UInt16} {packets : List Bytes} {packet : Bytes}

theorem numbers_attemptsOf :
    Numbers hdr.ssrc hdr.sequence ((attemptsOf hdr outcome n frags).map (·.packet)) := by
  intro i packet hi
  rw [attemptsOf_packets, List.getElem?_mapIdx, Option.map_eq_some_iff] at hi
  obtain ⟨f, -, rfl⟩ := hi
  exact ⟨ssrcOf_buildPacket _ _, sequenceOf_buildPacket _⟩

theorem Numbers.chain (h : Numbers ssrc seq packets) : OneRtpSession packets := by
  rw [OneRtpSession, List.isChain_iff_getElem]
  intro i hi
  obtain ⟨hs, hq⟩ := h i packets[i] (List.getElem?_eq_getElem _)
  obtain ⟨hs', hq'⟩ := h (i + 1) packets[i + 1] (List.getElem?_eq_getElem hi)
  refine ⟨hs'.trans hs.symm, ?_⟩
  rw [hq', hq, UInt16.ofNat_add, UInt16.add_assoc]
  rfl

theorem Numbers.head (h : Numbers ssrc seq packets) (hp : packets.head? = some packet) :
    ssrcOf packet = ssrc ∧ sequenceOf packet = seq := by
  rw [List.head?_eq_getElem?] at hp
  simpa using h 0 packet hp

theorem Numbers.last (h : Numbers ssrc seq packets) (hp : packets.getLast? = some packet) :
    ssrcOf packet = ssrc ∧ seq + UInt16.ofNat packets.length = sequenceOf packet + 1 := by
  rw [List.getLast?_eq_getElem?] at hp
  obtain ⟨hlt, -⟩ := List.getElem?_eq_some_iff.mp hp
  obtain ⟨hs, hq⟩ := h _ packet hp
  refine ⟨hs, ?_⟩
  have hlength : packets.length = packets.length - 1 + 1 := by omega
  rw [hq, UInt16.add_assoc, hlength, UInt16.ofNat_add]
  rfl

end Attempts

section Requests
variable {w' : World}

/-- Nothing happens to the streamer of the session. -/
theorem Kept.same (h : Kept g p) (hx : s'.streamer = p.session.streamer)
    (hhub : s'.hub = p.session.hub) (hstate : s'.streamer ≠ none → s'.state = .playing)
    (hlist : w'.hub.subscribers = p.world.hub.subscribers)
    (hmade : p.world.streamers ≤ w'.streamers) :
    Kept g { p with session := s', world := w' } := by
  refine ⟨?_, hstate, ?_, ?_, fun x hle => h.fresh x (hmade.trans hle)⟩
  · intro hne
    exact hhub.trans (h.hub (hx ▸ hne))
  · rw [hlist, h.listed, hx]
  · intro x hs
    obtain ⟨hlt, hconnected, hssrc, hseq⟩ := h.carries x (hx.symm.trans hs)
    exact ⟨hlt.trans_le hmade, hconnected, hssrc, hseq⟩

theorem Kept.unchanged (h : Kept g p)
    (hlist : w'.hub.subscribers = p.world.hub.subscribers)
    (hmade : p.world.streamers ≤ w'.streamers) : Kept g { p with world := w' } :=
  h.same rfl rfl h.playing hlist hmade

/-- The session no longer streams. -/
theorem Kept.stopped (h : Kept g p) (hx : s'.streamer = none) (hlist : w'.hub.subscribers = [])
    (hmade : p.world.streamers ≤ w'.streamers) :
    Kept g { p with session := s', world := w' } := by
  refine ⟨fun hne => absurd hx hne, fun hne => absurd hx hne, ?_, ?_,
    fun x hle => h.fresh x (hmade.trans hle)⟩
  · rw [hlist, hx]
    rfl
  · intro x hs
    rw [hx] at hs
    cases hs

theorem stopOps_subscribers (hlist : w.hub.subscribers = s.streamer.toList)
    (hhub : s.streamer ≠ none → s.hub = true) :
    (w.afterAll o s.stopOps).hub.subscribers = [] := by
  cases hx : s.streamer with
  | none =>
    rw [Session.stopOps, hx]
    rw [hx] at hlist
    exact hlist
  | some x =>
    have hunsubscribe : s.stopOps = [.unsubscribe x] := by
      simp [Session.stopOps, hx, hhub (by simp [hx])]
    rw [hunsubscribe]
    change (w.hub.unsubscribe x).subscribers = []
    rw [Hub.unsubscribe, hlist, hx]
    simp

/-- A new streamer, as the constructor and `connect` leave it. -/
theorem Kept.started (h : Kept g p) (hnone : p.session.streamer = none)
    (hx : s'.streamer = some p.world.streamers) (hhub : s'.hub = true)
    (hstate : s'.state = .playing)
    (hlist : w'.hub.subscribers = p.world.hub.subscribers ++ [p.world.streamers])
    (hmade : p.world.streamers < w'.streamers) :
    Kept g { p with session := s', world := w' } := by
  refine ⟨fun _ => hhub, fun _ => hstate, ?_, ?_, fun x hle => h.fresh x (hmade.le.trans hle)⟩
  · rw [hlist, h.listed, hnone, hx]
    rfl
  · intro x hs
    obtain rfl : p.world.streamers = x := Option.some.inj (hx.symm.trans hs)
    have hfresh := h.fresh _ le_rfl
    refine ⟨hmade, ?_, ?_, Or.inl ⟨?_, ?_⟩⟩ <;> rw [hfresh] <;> rfl

/-- A session with a streamer plays, so no SETUP and no PLAY is allowed. -/
theorem Kept.streamer_eq_none (h : Kept g p) (hs : p.session.state ≠ .playing) :
    p.session.streamer = none := by
  by_contra hne
  exact hs (h.playing hne)

theorem Kept.handled {req : Request} {a : Answer} {before after : List Op} (h : Kept g p)
    (hh : Session.Handled o p.world p.session req a s' before after) :
    Kept g { p with
      session := s'
      world := p.world.afterAll o (Session.callsOf p.session req a before after) } := by
  have hmade : p.world.streamers ≤
      (p.world.afterAll o (Session.callsOf p.session req a before after)).streamers :=
    World.afterAll_streamers _
  have hlist : (∀ op ∈ before ++ after, op.editsHub = false) →
      (p.world.afterAll o (Session.callsOf p.session req a before after)).hub.subscribers =
        p.world.hub.subscribers := Session.callsOf_subscribers
  have hstopped : before = p.session.stopOps → after = [] →
      (p.world.afterAll o (Session.callsOf p.session req a before after)).hub.subscribers = [] := by
    rintro rfl rfl
    rw [Session.callsOf, World.afterAll_append]
    exact stopOps_subscribers h.listed h.hub
  cases hh with
  | describe => exact h.unchanged (hlist (by split <;> simp [Op.editsHub])) hmade
  | badTransport t _ ha =>
    exact h.same rfl rfl h.playing (hlist (by simp)) hmade
  | setup t _ ha =>
    have hstate : p.session.state ≠ .playing := by
      intro hplaying
      simp [Session.methodAllowed, hplaying] at ha
    have hnone := h.streamer_eq_none hstate
    refine h.same rfl rfl (fun hne => absurd hnone hne) (hlist ?_) hmade
    unfold Session.idOps
    split <;> simp [Op.editsHub]
  | notConnected => exact h.unchanged (hlist (by simp [Op.editsHub])) hmade
  | noHub => exact h.unchanged (hlist (by simp [Op.editsHub])) hmade
  | noSource _ hready _ _ _ hup =>
    refine h.unchanged ?_ hmade
    change ((((p.world.after o _).after o _).after o _).after o (.subscribe _)).hub.subscribers = _
    rw [World.after_subscribe, hup]
    rfl
  | playing _ hready _ _ hhub hup =>
    have hnone := h.streamer_eq_none (by simp [hready])
    refine h.started hnone rfl hhub rfl ?_ (Nat.lt_succ_self _)
    change ((((p.world.after o _).after o _).after o _).after o (.subscribe _)).hub.subscribers = _
    rw [World.after_subscribe, hup]
    rfl
  | paused => exact h.stopped rfl (hstopped rfl rfl) hmade
  | closed => exact h.stopped rfl (hstopped rfl rfl) hmade
  | _ => exact h.unchanged (hlist (by simp)) hmade

theorem Kept.move (h : Kept g p) (he : Effect ord o p.world m) (hb : m.before = p.session) :
    Kept g { p with session := m.after, world := p.world.afterAll o m.calls } := by
  cases he with
  | received b =>
    obtain rfl : _ = p.session := hb
    exact h.same rfl rfl h.playing rfl le_rfl
  | raised hp =>
    obtain rfl : _ = p.session := hb
    exact h.unchanged rfl (World.afterAll_streamers _)
  | unparsable hp =>
    obtain rfl : _ = p.session := hb
    exact h.unchanged rfl (World.afterAll_streamers _)
  | @handled s s' raw req a before after hp hh =>
    obtain rfl : s = p.session := hb
    have hlogged : Kept g { p with world := p.world.after o (.logRequest p.session.conn raw) } :=
      h.unchanged rfl le_rfl
    exact hlogged.handled hh
  | disconnect =>
    obtain rfl : _ = p.session := hb
    exact h.stopped rfl (stopOps_subscribers h.listed h.hub) (World.afterAll_streamers _)

end Requests

section Broadcasts

theorem attemptsFor_ne_nil (st : Streamer) (hn : nal ≠ []) :
    (st.attemptsFor nal).map (·.packet) ≠ [] := by
  obtain ⟨f, fs, hf⟩ := List.exists_cons_of_ne_nil (fragmentNalDefault_ne_nil hn)
  simp [Streamer.attemptsFor, hf, attemptsOf]

theorem numbers_attemptsFor (st : Streamer) (nal : Bytes) :
    Numbers st.ssrc st.sequence ((st.attemptsFor nal).map (·.packet)) :=
  numbers_attemptsOf

theorem Kept.listed_eq (h : Kept g p) (hx : p.session.streamer = some x) :
    p.world.hub.subscribers = [x] := by
  rw [h.listed, hx]
  rfl

/-- A broadcast that reaches no streamer. -/
theorem Kept.onNal_quiet (h : Kept g p) (hq : nal = [] ∨ p.session.streamer = none) :
    Kept g (p.step ord o (.onNal nal)) ∧ (p.step ord o (.onNal nal)).packets = p.packets := by
  have hmem : (p.world.hub.onNal p.mem nal).2 = p.mem := by
    rcases hq with rfl | hnone
    · rfl
    · simp only [Hub.onNal, Hub.cacheParameterSets_subscribers, h.listed, hnone]
      split <;> rfl
  have hlist : (p.world.hub.onNal p.mem nal).1.subscribers = p.world.hub.subscribers := by
    rw [Hub.onNal]
    split
    · rfl
    · exact Hub.cacheParameterSets_subscribers _ _
  have hpackets : (p.step ord o (.onNal nal)).packets = p.packets := by
    simp [Playback.step, Playback.attempted, hmem]
  refine ⟨?_, hpackets⟩
  have hsame : p.step ord o (.onNal nal) =
      { p with world := { p.world with hub := (p.world.hub.onNal p.mem nal).1 } } := by
    simp [Playback.step, Playback.attempted, hmem]
  rw [hsame]
  exact h.unchanged hlist le_rfl

/-- A broadcast that reaches the streamer of the session. -/
theorem Kept.onNal_sends (h : Kept g p) (hn : nal ≠ []) (hx : p.session.streamer = some x) :
    p.step ord o (.onNal nal) = { p with
      world := { p.world with hub := p.world.hub.cacheParameterSets nal }
      mem := Function.update p.mem x (Hub.deliver p.world.hub.tsIncrement nal (p.mem x))
      packets := p.packets ++ ((p.mem x).attemptsFor nal).map (·.packet) } := by
  have hlist := h.listed_eq hx
  have hhub : p.world.hub.onNal p.mem nal = (p.world.hub.cacheParameterSets nal,
      Function.update p.mem x (Hub.deliver p.world.hub.tsIncrement nal (p.mem x))) := by
    rw [Hub.onNal, if_neg hn]
    simp only [Hub.cacheParameterSets_subscribers, Hub.cacheParameterSets_tsIncrement, hlist]
    rfl
  have hdeliver : Hub.deliver p.world.hub.tsIncrement nal (p.mem x) = _ :=
    deliver_eq (h.carries x hx).connected hn
  simp [Playback.step, Playback.attempted, hhub, hlist, hdeliver]

theorem Kept.carries_next (h : Kept g p) (ord : HashOrder) (o : Oracle) (hn : nal ≠ [])
    (hx : p.session.streamer = some x) :
    Carries g (p.step ord o (.onNal nal)) x := by
  obtain ⟨hmade, hconnected, hssrc, -⟩ := h.carries x hx
  have hnumbers := numbers_attemptsFor (p.mem x) nal
  have hsent := attemptsFor_ne_nil (p.mem x) hn
  obtain ⟨packet, hpacket⟩ := Option.ne_none_iff_exists'.mp
    (mt List.getLast?_eq_none_iff.mp hsent)
  obtain ⟨hs, hq⟩ := hnumbers.last hpacket
  rw [h.onNal_sends hn hx]
  refine ⟨hmade, ?_, ?_, Or.inr ⟨packet, ?_, hs.trans hssrc, ?_, ?_⟩⟩
  · simp [deliver_eq hconnected hn, hconnected]
  · simp [deliver_eq hconnected hn, Streamer.after, hssrc]
  · rw [List.getLast?_append, hpacket]
    rfl
  · rw [← hq, List.length_map]
    simp [deliver_eq hconnected hn, Streamer.after]
  · intro hnil
    apply hsent
    simp [deliver_eq hconnected hn, Streamer.after] at hnil
    simp [hnil]

theorem Kept.onNal (h : Kept g p) : Kept g (p.step ord o (.onNal nal)) := by
  by_cases hn : nal = []
  · exact (h.onNal_quiet (Or.inl hn)).1
  · cases hx : p.session.streamer with
    | none => exact (h.onNal_quiet (Or.inr hx)).1
    | some x =>
      have hcarries := h.carries_next ord o hn hx
      have hmade : x < p.world.streamers := (h.carries x hx).made
      rw [h.onNal_sends hn hx] at hcarries ⊢
      refine ⟨h.hub, h.playing, ?_, ?_, ?_⟩
      · exact (Hub.cacheParameterSets_subscribers _ _).trans h.listed
      · intro y hy
        obtain rfl : x = y := Option.some.inj (hx.symm.trans hy)
        exact hcarries
      · intro y hle
        have hne : y ≠ x := by
          rintro rfl
          exact absurd hmade (Nat.not_lt.mpr hle)
        exact (Function.update_of_ne hne _ _).trans (h.fresh y hle)

/-- The packets of a broadcast carry on with the last packet exactly if a streamer that starts
resumes. -/
theorem Kept.oneRtpSession_iff (h : Kept g p) : OneRtpSession (p.step ord o (.onNal nal)).packets ↔
    OneRtpSession p.packets ∧ Resumes g p (.onNal nal) := by
  by_cases hn : nal = []
  · rw [(h.onNal_quiet (Or.inl hn)).2]
    simp [Resumes, hn]
  · cases hx : p.session.streamer with
    | none =>
      rw [(h.onNal_quiet (Or.inr hx)).2]
      simp [Resumes, h.listed, hx]
    | some x =>
      have hlist := h.listed_eq hx
      obtain ⟨-, -, hssrc, hseq⟩ := h.carries x hx
      have hnumbers := numbers_attemptsFor (p.mem x) nal
      have hlink : (∀ a ∈ p.packets.getLast?,
          ∀ b ∈ (((p.mem x).attemptsFor nal).map (·.packet)).head?, Continues a b) ↔
          Resumes g p (.onNal nal) := by
        obtain ⟨first, hfirst⟩ := Option.ne_none_iff_exists'.mp
          (mt List.head?_eq_none_iff.mp (attemptsFor_ne_nil (p.mem x) hn))
        obtain ⟨hs, hq⟩ := hnumbers.head hfirst
        rcases hseq with ⟨hnone, hseq⟩ | ⟨last, hlast, hssrcLast, hseq, hsome⟩
        · simp [Resumes, hn, hlist, hnone, hfirst, Continues, hs, hq, hssrc, hseq]
        · simp [Resumes, hn, hlist, hsome, hfirst, hlast, Continues, hs, hq, hssrc, hseq,
            hssrcLast]
      rw [h.onNal_sends hn hx, OneRtpSession, List.isChain_append, hlink]
      exact ⟨fun hall => ⟨hall.1, hall.2.2⟩, fun hall => ⟨hall.1, hnumbers.chain, hall.2⟩⟩

end Broadcasts

theorem kept_create (fps : Int) (clientIp : Bytes) (hub : Bool) (conn : ConnId) :
    Kept g (.create fps g clientIp hub conn) :=
  ⟨fun hne => absurd rfl hne, fun hne => absurd rfl hne, rfl, by simp [Playback.create,
    Session.create], fun _ _ => rfl⟩

theorem Kept.step (h : Kept g p) (ord : HashOrder) (o : Oracle) (t : Turn) :
    Kept g (p.step ord o t) ∧
    (OneRtpSession (p.step ord o t).packets ↔ OneRtpSession p.packets ∧ Resumes g p t) := by
  cases t with
  | request raw =>
    obtain ⟨s', result, calls, heffect, hexec⟩ :=
      Session.serve_effect ord o p.world p.session raw
    have hserved : p.step ord o (.request raw) =
        { p with session := s', world := p.world.afterAll o calls } := by
      rw [Playback.step, hexec]
    rw [hserved]
    exact ⟨h.move heffect rfl, by simp [Resumes]⟩
  | disconnect =>
    have hended : p.step ord o .disconnect = { p with
        session := { p.session with streamer := none, state := .closed }
        world := p.world.afterAll o p.session.stopOps } := by
      rw [Playback.step, Session.onDisconnect_exec]
    rw [hended]
    have heffect : Effect ord o p.world ⟨.disconnect, p.session,
      { p.session with streamer := none, state := .closed }, p.session.stopOps⟩ := .disconnect
    exact ⟨h.move heffect rfl, by simp [Resumes]⟩
  | onNal nal => exact ⟨h.onNal, h.oneRtpSession_iff⟩

theorem Kept.run (h : Kept g p) (turns : List Turn) :
    OneRtpSession (p.run ord o turns).packets ↔
      OneRtpSession p.packets ∧ AllResume ord o g p turns := by
  induction turns generalizing p with
  | nil => simp [Playback.run, AllResume]
  | cons t turns ih =>
    obtain ⟨hnext, hone⟩ := h.step ord o t
    rw [Playback.run, List.foldl_cons, ← Playback.run, ih hnext, hone, AllResume, and_assoc]

theorem serveAll_turns (ord : HashOrder) (o : Oracle) (p : Playback) (raws : List Bytes) :
    ∃ served, served <+: raws ∧
    ((Session.serveAll ord p.session raws).exec o p.world).1.1 =
      (p.run ord o (served.map .request)).session ∧
    ((Session.serveAll ord p.session raws).exec o p.world).2 =
      (p.run ord o (served.map .request)).world := by
  induction raws generalizing p with
  | nil => exact ⟨[], List.prefix_rfl, rfl, rfl⟩
  | cons raw raws ih =>
    rw [Session.serveAll_cons, Control.exec_bind]
    split
    · obtain ⟨served, hprefix, hsession, hworld⟩ := ih (p.step ord o (.request raw))
      exact ⟨raw :: served, List.cons_prefix_cons.mpr ⟨rfl, hprefix⟩, hsession, hworld⟩
    · exact ⟨[raw], by simp, rfl, rfl⟩

/-- What `feed` does with the bytes of a client is a run of turns: the complete requests in
order, up to one that ends the session. -/
theorem feedAll_turns {chunks : List Bytes} (hc : Clean crlfcrlf p.session.rxBuffer)
    (hg : Session.WithinGuard ord o p.session p.world chunks) : ∃ served b,
    served <+: (scan crlfcrlf p.session.rxBuffer chunks.flatten).1 ∧
    ((p.session.feedAll ord chunks).exec o p.world).1.1 =
      (p.run ord o (served.map .request)).session.withRx b ∧
    ((p.session.feedAll ord chunks).exec o p.world).2 =
      (p.run ord o (served.map .request)).world := by
  obtain ⟨b, hfeed, -⟩ := Session.feedAll_exec hc hg
  obtain ⟨served, hprefix, hsession, hworld⟩ := serveAll_turns ord o p
    (scan crlfcrlf p.session.rxBuffer chunks.flatten).1
  rw [hfeed]
  exact ⟨served, b, hprefix, congrArg (Session.withRx b) hsession, hworld⟩

/-- In every run of a session the packets belong to one RTP session exactly if each streamer
that starts after a PAUSE got the SSRC and the next sequence number of the packets before it
from the random generators. -/
theorem pausePlay_iff (ord : HashOrder) (o : Oracle) (g : Generators) (fps : Int)
    (clientIp : Bytes) (hub : Bool) (conn : ConnId) (turns : List Turn) :
    OneRtpSession ((Playback.create fps g clientIp hub conn).run ord o turns).packets ↔
      AllResume ord o g (.create fps g clientIp hub conn) turns := by
  rw [(kept_create fps clientIp hub conn).run]
  exact and_iff_right .nil

/-- PLAY, a frame, PAUSE, PLAY, a frame: the second streamer has values of its own. -/
theorem pausePlay_new_streamer :
    let g : Generators :=
      { ssrc := fun x => UInt32.ofNat (7 + x), sequence := fun x => UInt16.ofNat (1000 * x),
        outcome := fun _ _ => true }
    let turns : List Turn := [
      .request (ascii "SETUP rtsp://h/s/track0 RTSP/1.0\r\nCSeq: 1\r\n" ++
        ascii "Transport: RTP/AVP;unicast;client_port=5000-5001\r\n\r\n"),
      .request (ascii "PLAY rtsp://h/s RTSP/1.0\r\nCSeq: 2\r\nSession: 1A2B3C4D\r\n\r\n"),
      .onNal [65, 1],
      .request (ascii "PAUSE rtsp://h/s RTSP/1.0\r\nCSeq: 3\r\nSession: 1A2B3C4D\r\n\r\n"),
      .request (ascii "PLAY rtsp://h/s RTSP/1.0\r\nCSeq: 4\r\nSession: 1A2B3C4D\r\n\r\n"),
      .onNal [65, 2]]
    let p := (Playback.create 30 g (ascii "10.0.0.2") true 5).run default default turns
    p.packets = [
      buildPacket { sequence := 0, timestamp := 0, ssrc := 7, marker := true } [65, 1],
      buildPacket { sequence := 1000, timestamp := 0, ssrc := 8, marker := true } [65, 2]] ∧
    ¬ OneRtpSession p.packets := by
  intro g turns p
  have hpackets : p.packets = [
      buildPacket { sequence := 0, timestamp := 0, ssrc := 7, marker := true } [65, 1],
      buildPacket { sequence := 1000, timestamp := 0, ssrc := 8, marker := true } [65, 2]] := by
    decide +kernel
  refine ⟨hpackets, ?_⟩
  rw [hpackets, OneRtpSession, List.isChain_pair]
  decide +kernel

end Veda.Rtsp
