import Veda.Rtsp.EventLoop
import Veda.Rtsp.OwnCalls

/-!
The descriptors of the server against the contract of the kernel. `Kernel` is a ghost state: what
is open, what epoll watches, and which reports of the last `epoll_wait` are still to be attended.
-/
namespace Veda.Rtsp

open Cpp Effects

inductive Kind
  | socket | bound | listening | epoll | connection
  deriving DecidableEq

@[ext] structure Kernel where
  kind : Nat → Option Kind := fun _ => none
  /-- The descriptors that the epoll instance watches. -/
  interest : List Nat := []
  reported : List Ready := []
  /-- The Hub is alive. -/
  hub : Bool := false

namespace Kernel

def become (k : Kernel) (fd : Nat) (kind : Kind) : Kernel :=
  { k with kind := Function.update k.kind fd (some kind) }

/-- The kernel takes a closed descriptor out of the epoll instance. -/
def closed (k : Kernel) (fd : Nat) : Kernel :=
  { k with
    kind := Function.update k.kind fd none
    interest := if k.kind fd = some .epoll then [] else k.interest.filter (· ≠ fd) }

def attended (k : Kernel) (fd : Nat) : Kernel :=
  { k with reported := k.reported.filter (·.fd ≠ fd) }

def watched (k : Kernel) (fd : Nat) : Kernel := { k with interest := fd :: k.interest }

/-- What was reported of a descriptor is void once it is no longer watched. -/
def unwatched (k : Kernel) (fd : Nat) : Kernel :=
  { k.attended fd with interest := k.interest.filter (· ≠ fd) }

/-- A call of a session, with a Hub and a connection that are there. -/
def Serves (k : Kernel) (op : Op) : Prop :=
  k.hub = true ∧ ∀ conn, op = .makeStreamer conn ∨ (∃ raw, op = .logRequest conn raw) ∨
    (∃ response, op = .send conn response) → k.kind conn = some .connection

/-- When a call is right. Nothing blocks but `epoll_wait`: `accept` and `read` follow a report that
has not been attended yet; and no report may wait when a descriptor is closed, nor at the next
`epoll_wait`. -/
def Allows (k : Kernel) : LoopOp → Prop
  | .socket => True
  | .setReuseAddr fd => k.kind fd = some .socket
  | .bind fd _ => k.kind fd = some .socket
  | .listen fd _ => k.kind fd = some .bound
  | .accept fd => k.kind fd = some .listening ∧ ∃ r ∈ k.reported, r.fd = fd
  | .getpeername fd => k.kind fd = some .connection
  | .read fd len => k.kind fd = some .connection ∧ ⟨fd, false⟩ ∈ k.reported ∧ 0 < len
  | .close fd => k.kind fd ≠ none ∧ ∀ r ∈ k.reported, r.fd ≠ fd
  | .epollCreate => True
  | .epollAdd epoll fd _ =>
    k.kind epoll = some .epoll ∧ fd ≠ epoll ∧ k.kind fd ≠ none ∧ fd ∉ k.interest
  | .epollDel epoll fd => k.kind epoll = some .epoll ∧ fd ∈ k.interest
  | .epollWait epoll maxEvents _ =>
    k.kind epoll = some .epoll ∧ 0 < maxEvents ∧ k.reported = []
  | .running => True
  | .makeHub _ => k.hub = false
  | .destroyHub => k.hub = true ∧ ∀ fd, k.kind fd ≠ some .connection
  | .session op => k.Serves op

/-- The answers that the kernel can give. A new descriptor is one that was not open, and a batch
has at most one entry for each descriptor that is watched. -/
def Answers (k : Kernel) : (op : LoopOp) → op.Res → Kernel → Prop
  | .socket, fd, k' =>
    match fd with
    | none => k' = k
    | some fd => k.kind fd = none ∧ k' = k.become fd .socket
  | .setReuseAddr _, _, k' => k' = k
  | .bind fd _, ok, k' => k' = if ok then k.become fd .bound else k
  | .listen fd _, ok, k' => k' = if ok then k.become fd .listening else k
  | .accept listener, fd, k' =>
    match fd with
    | none => k' = k.attended listener
    | some fd => k.kind fd = none ∧ k' = (k.attended listener).become fd .connection
  | .getpeername _, _, k' => k' = k
  | .read fd len, answer, k' =>
    match answer with
    | .count data => data.length ≤ len ∧ k' = k.attended fd
    | .interrupted => k' = k
    | .failed => k' = k.attended fd
  | .close fd, _, k' => k' = k.closed fd
  | .epollCreate, fd, k' =>
    match fd with
    | none => k' = k
    | some fd => k.kind fd = none ∧ k' = k.become fd .epoll
  | .epollAdd _ fd _, ok, k' => k' = if ok then k.watched fd else k
  | .epollDel _ fd, _, k' => k' = k.unwatched fd
  | .epollWait _ maxEvents _, answer, k' =>
    match answer with
    | .events ready => ready.length ≤ maxEvents ∧ (ready.map Ready.fd).Nodup ∧
        (∀ r ∈ ready, r.fd ∈ k.interest) ∧ k' = { k with reported := ready }
    | .interrupted => k' = k
    | .failed => k' = k
  | .running, _, k' => k' = k
  | .makeHub _, _, k' => k' = { k with hub := true }
  | .destroyHub, _, k' => k' = { k with hub := false }
  | .session _, _, k' => k' = k

end Kernel

def kernelCalls : Program.Spec LoopOp LoopOp.Res Kernel where
  pre := Kernel.Allows
  post := Kernel.Answers

/-- Between two events: what is open and watched belongs to the server's objects. -/
structure Serving (listener epoll : Nat) (clients : Clients) (k : Kernel) : Prop where
  listening : k.kind listener = some .listening
  polling : k.kind epoll = some .epoll
  connected : ∀ fd ∈ clients, k.kind fd = some .connection
  owned : ∀ fd, k.kind fd ≠ none → fd = listener ∨ fd = epoll ∨ fd ∈ clients
  watching : ∀ fd, fd ∈ k.interest ↔ fd = listener ∨ fd ∈ clients
  reported : ∀ r ∈ k.reported, r.fd ∈ k.interest
  once : (k.reported.map Ready.fd).Nodup
  hub : k.hub = true
  conn : ∀ fd s, clients.lookup fd = some s → s.conn = fd

namespace Kernel

variable {k : Kernel} {fd : Nat} {r : Ready} {rest : List Ready}

theorem closed_become {kind : Kind} (hnew : k.kind fd = none) (hkind : kind ≠ .epoll)
    (hi : fd ∉ k.interest) : (k.become fd kind).closed fd = k := by
  have hout : ∀ x ∈ k.interest, x ≠ fd := fun x hx he => hi (he ▸ hx)
  have hback : Function.update k.kind fd none = k.kind := by
    rw [← hnew, Function.update_eq_self]
  ext1
  · simpa [closed, become] using hback
  · simpa [closed, become, hkind] using hout
  · rfl
  · rfl

theorem reported_attended (hr : k.reported = r :: rest)
    (honce : (k.reported.map Ready.fd).Nodup) : (k.attended r.fd).reported = rest := by
  rw [hr, List.map_cons, List.nodup_cons] at honce
  have hother : ∀ x ∈ rest, x.fd ≠ r.fd := fun x hx he => honce.1 (he ▸ List.mem_map_of_mem hx)
  simpa [attended, hr] using hother

end Kernel

open Kernel

variable {ord : HashOrder} {listener epoll fd retries : Nat} {clients : Clients} {k : Kernel}
  {s : Session} {r : Ready} {rest : List Ready} {data : Bytes}

/-- The code of a session leaves the descriptors as they are. -/
theorem session_meets {α : Type} {p : Control α} {ip : Bytes} {m : Streamers}
    {Q : α → Streamers → Prop} (hp : p.Meets (ownCalls fd ip) Q m)
    (hk : k.kind fd = some .connection) (hhub : k.hub = true) :
    (Loop.session p).Meets kernelCalls (fun a k' => (∃ m', Q a m') ∧ k' = k) k := by
  have hserves : ∀ (op : Op) (m : Streamers), op.Own fd ip m → k.Serves op := by
    intro op m hown
    refine ⟨hhub, ?_⟩
    rintro conn (rfl | ⟨raw, rfl⟩ | ⟨response, rfl⟩) <;> exact (show conn = fd from hown) ▸ hk
  have himplements : ∀ op (m : Streamers) k₀, k₀ = k → (ownCalls fd ip).pre m op →
      (Program.perform (LoopOp.session op) : Loop op.Res).Meets kernelCalls
        (fun r k' => ∃ m', (ownCalls fd ip).post m op r m' ∧ k' = k) k₀ := by
    rintro op m k₀ rfl hown
    exact ⟨hserves op m hown, fun r k' hk' => ⟨_, rfl, hk'⟩⟩
  apply (Program.Meets.interpret (R := fun _ k' => k' = k) himplements hp rfl).mono
  rintro a k' ⟨m', hq, rfl⟩
  exact ⟨⟨m', hq⟩, rfl⟩

/-- `~Client` closes the connection. -/
theorem destroyClient_meets (hs : s.conn = fd) (hk : k.kind fd = some .connection)
    (hhub : k.hub = true) (hr : ∀ r ∈ k.reported, r.fd ≠ fd) :
    (destroyClient fd s).Meets kernelCalls (fun _ k' => k' = k.closed fd) k := by
  have hown := s.of_made hs
  rw [destroyClient, Program.meets_bind]
  apply (session_meets (Session.destroy_own hown) hk hhub).mono
  rintro _ _ ⟨-, rfl⟩
  exact ⟨⟨by simp [hk], hr⟩, fun _ _ hk' => hk'⟩

theorem peerIp_meets (hk : k.kind fd = some .connection) :
    (peerIp fd).Meets kernelCalls (fun _ k' => k' = k) k :=
  ⟨hk, fun _ _ hk' => hk'⟩

/-- What `TcpConnection::read` takes, it takes from a descriptor that was reported. -/
theorem readConnection_meets {len : Nat} (hk : k.kind fd = some .connection)
    (hr : ⟨fd, false⟩ ∈ k.reported) (hlen : 0 < len) (retries : Nat) :
    (readConnection fd len retries).Meets kernelCalls (fun answer k' =>
      match answer with
      | .interrupted => k' = k
      | _ => k' = k.attended fd) k := by
  induction retries with
  | zero => rfl
  | succ retries ih =>
    refine ⟨⟨hk, hr, hlen⟩, ?_⟩
    intro answer k' hk'
    cases answer with
    | count data => exact hk'.2
    | interrupted =>
      obtain rfl : k' = k := hk'
      exact ih
    | failed => exact hk'

namespace Serving

theorem notMem_listener (hs : Serving listener epoll clients k) : listener ∉ clients := by
  intro hmem
  have hkind := hs.connected listener hmem
  rw [hs.listening] at hkind
  cases hkind

theorem notMem_epoll (hs : Serving listener epoll clients k) : epoll ∉ clients := by
  intro hmem
  have hkind := hs.connected epoll hmem
  rw [hs.polling] at hkind
  cases hkind

theorem watched_open (hs : Serving listener epoll clients k) (hfd : fd ∈ k.interest) :
    k.kind fd ≠ none := by
  rcases (hs.watching fd).mp hfd with rfl | hmem
  · simp [hs.listening]
  · simp [hs.connected fd hmem]

/-- A report has been attended. -/
theorem attend (hs : Serving listener epoll clients k) (fd : Nat) :
    Serving listener epoll clients (k.attended fd) where
  listening := hs.listening
  polling := hs.polling
  connected := hs.connected
  owned := hs.owned
  watching := hs.watching
  reported := fun r hr => hs.reported r (List.mem_filter.mp hr).1
  once := hs.once.sublist (List.filter_sublist.map _)
  hub := hs.hub
  conn := hs.conn

/-- A session changes, but not its connection. -/
theorem feed (hs : Serving listener epoll clients k) (hfd : fd ∈ clients) (hconn : s.conn = fd) :
    Serving listener epoll (clients.insert fd s) k := by
  have hsame : ∀ x, x ∈ clients.insert fd s ↔ x ∈ clients := by
    intro x
    rw [AList.mem_insert]
    exact ⟨fun h => h.elim (fun he => he ▸ hfd) id, .inr⟩
  refine ⟨hs.listening, hs.polling, ?_, ?_, ?_, hs.reported, hs.once, hs.hub, ?_⟩
  · exact fun x hx => hs.connected x ((hsame x).mp hx)
  · intro x hx
    rw [hsame]
    exact hs.owned x hx
  · intro x
    rw [hsame]
    exact hs.watching x
  · intro x s' hx
    by_cases he : x = fd
    · subst he
      rw [AList.lookup_insert] at hx
      cases hx
      exact hconn
    · rw [AList.lookup_insert_ne he] at hx
      exact hs.conn x s' hx

/-- A new connection is watched and moves into the map. -/
theorem accept (hs : Serving listener epoll clients k) (hnew : k.kind fd = none)
    (hconn : s.conn = fd) :
    Serving listener epoll (clients.insert fd s) ((k.become fd .connection).watched fd) := by
  have hne : ∀ x, k.kind x ≠ none → x ≠ fd := fun x hx he => hx (he ▸ hnew)
  have hother : ∀ x, x ≠ fd → ((k.become fd .connection).watched fd).kind x = k.kind x :=
    fun x hx => Function.update_of_ne hx _ _
  have hlistener := hne listener (by simp [hs.listening])
  have hepoll := hne epoll (by simp [hs.polling])
  refine ⟨?_, ?_, ?_, ?_, ?_, ?_, hs.once, hs.hub, ?_⟩
  · rw [hother _ hlistener]
    exact hs.listening
  · rw [hother _ hepoll]
    exact hs.polling
  · intro x hx
    by_cases he : x = fd
    · subst he
      exact Function.update_self ..
    · rw [hother x he]
      exact hs.connected x (((AList.mem_insert _).mp hx).resolve_left he)
  · intro x hx
    by_cases he : x = fd
    · exact .inr (.inr ((AList.mem_insert _).mpr (.inl he)))
    · rw [hother x he] at hx
      refine (hs.owned x hx).imp_right fun h => h.imp_right fun h => ?_
      exact (AList.mem_insert _).mpr (.inr h)
  · intro x
    have hx := hs.watching x
    simp only [watched, become, List.mem_cons, AList.mem_insert]
    tauto
  · exact fun r hr => List.mem_cons_of_mem _ (hs.reported r hr)
  · intro x s' hx
    by_cases he : x = fd
    · subst he
      rw [AList.lookup_insert] at hx
      cases hx
      exact hconn
    · rw [AList.lookup_insert_ne he] at hx
      exact hs.conn x s' hx

/-- A client is no longer watched, closed and taken out of the map. -/
theorem drop (hs : Serving listener epoll clients k) (hfd : fd ∈ clients) :
    Serving listener epoll (clients.erase fd) ((k.unwatched fd).closed fd) := by
  have hkind : k.kind fd = some .connection := hs.connected fd hfd
  have hlistener : listener ≠ fd := fun he => hs.notMem_listener (he ▸ hfd)
  have hepoll : epoll ≠ fd := fun he => hs.notMem_epoll (he ▸ hfd)
  have hother : ∀ x, x ≠ fd → ((k.unwatched fd).closed fd).kind x = k.kind x :=
    fun x hx => Function.update_of_ne hx _ _
  have hinterest : ((k.unwatched fd).closed fd).interest = k.interest.filter (· ≠ fd) := by
    simp [closed, unwatched, attended, hkind]
  refine ⟨?_, ?_, ?_, ?_, ?_, ?_, ?_, hs.hub, ?_⟩
  · rw [hother _ hlistener]
    exact hs.listening
  · rw [hother _ hepoll]
    exact hs.polling
  · intro x hx
    obtain ⟨hne, hx⟩ := AList.mem_erase.mp hx
    rw [hother x hne]
    exact hs.connected x hx
  · intro x hx
    have hne : x ≠ fd := by
      rintro rfl
      exact hx (Function.update_self ..)
    rw [hother x hne] at hx
    exact (hs.owned x hx).imp_right fun h => h.imp_right fun h => AList.mem_erase.mpr ⟨hne, h⟩
  · intro x
    rw [hinterest, List.mem_filter, hs.watching x, AList.mem_erase]
    simp only [ne_eq, decide_eq_true_eq]
    have hx : x = listener → x ≠ fd := fun he => he ▸ hlistener
    tauto
  · intro r hr
    obtain ⟨hr, hne⟩ := List.mem_filter.mp hr
    rw [hinterest]
    exact List.mem_filter.mpr ⟨hs.reported r hr, hne⟩
  · exact hs.once.sublist (List.filter_sublist.map _)
  · intro x s' hx
    have hne : x ≠ fd := by
      rintro rfl
      rw [AList.lookup_erase] at hx
      cases hx
    rw [AList.lookup_erase_ne hne] at hx
    exact hs.conn x s' hx

end Serving

namespace EventLoop

theorem dropClient_meets (hs : Serving listener epoll clients k) (hfd : fd ∈ clients) :
    (dropClient epoll clients fd).Meets kernelCalls (fun clients' k' =>
      Serving listener epoll clients' k' ∧ k'.reported = (k.attended fd).reported) k := by
  obtain ⟨s, hlookup⟩ := Option.isSome_iff_exists.mp (AList.lookup_isSome.mpr hfd)
  have hown := s.of_made (hs.conn fd s hlookup)
  have hkind : (k.unwatched fd).kind fd = some .connection := hs.connected fd hfd
  have hhub : (k.unwatched fd).hub = true := hs.hub
  have hvoid : ∀ r ∈ (k.unwatched fd).reported, r.fd ≠ fd := by
    intro r hr
    simpa using (List.mem_filter.mp hr).2
  rw [dropClient, Program.perform_bind]
  refine ⟨⟨hs.polling, (hs.watching fd).mpr (.inr hfd)⟩, ?_⟩
  rintro _ _ rfl
  simp only [hlookup]
  rw [Program.meets_bind]
  apply (session_meets (Session.onDisconnect_own hown) hkind hhub).mono
  rintro s' _ ⟨⟨m', hs'⟩, rfl⟩
  rw [Program.meets_bind]
  apply (destroyClient_meets hs'.conn hkind hhub hvoid).mono
  rintro _ _ rfl
  exact ⟨hs.drop hfd, rfl⟩

/-- A client that was accepted but is not registered goes as it came. -/
theorem destroyNew_meets (hs : Serving listener epoll clients k) (hnew : k.kind fd = none)
    (hconn : s.conn = fd) :
    (destroyClient fd s).Meets kernelCalls (fun _ k' => k' = k) (k.become fd .connection) := by
  have hvoid : ∀ r ∈ (k.become fd .connection).reported, r.fd ≠ fd := by
    rintro r hr rfl
    exact hs.watched_open (hs.reported r hr) hnew
  have hclosed : (k.become fd .connection).closed fd = k :=
    closed_become hnew (by simp) fun hfd => hs.watched_open hfd hnew
  have hkind : (k.become fd .connection).kind fd = some .connection := Function.update_self ..
  have hhub : (k.become fd .connection).hub = true := hs.hub
  apply (destroyClient_meets hconn hkind hhub hvoid).mono
  rintro _ _ rfl
  exact hclosed

theorem acceptClient_meets (hs : Serving listener epoll clients k)
    (hr : ∃ r ∈ k.reported, r.fd = listener) :
    (acceptClient listener epoll clients).Meets kernelCalls (fun clients' k' =>
      Serving listener epoll clients' k' ∧ k'.reported = (k.attended listener).reported) k := by
  have hs₁ := hs.attend listener
  rw [acceptClient, acceptOne, Program.perform_bind]
  refine ⟨⟨hs.listening, hr⟩, ?_⟩
  rintro (_ | fd) k₁ hk₁
  · obtain rfl : k₁ = k.attended listener := hk₁
    exact ⟨hs₁, rfl⟩
  · obtain ⟨hnew, rfl⟩ := hk₁
    have hkind : ((k.attended listener).become fd .connection).kind fd = some .connection :=
      Function.update_self ..
    have hepoll : epoll ≠ fd := by
      rintro rfl
      simp [hs.polling] at hnew
    have hpolling : ((k.attended listener).become fd .connection).kind epoll = some .epoll :=
      (Function.update_of_ne hepoll _ _).trans hs.polling
    have hfree : fd ∉ k.interest := fun hfd => hs.watched_open hfd hnew
    dsimp only
    rw [Program.meets_bind]
    apply (peerIp_meets hkind).mono
    rintro ip _ rfl
    rw [Program.perform_bind]
    refine ⟨⟨hpolling, hepoll.symm, by simp [hkind], hfree⟩, ?_⟩
    intro registered k₂ hk₂
    dsimp only
    cases registered with
    | true =>
      obtain rfl : k₂ = ((k.attended listener).become fd .connection).watched fd := hk₂
      have hnext := hs₁.accept (s := Session.create ip true fd) hnew rfl
      rw [if_pos rfl, Program.meets_bind]
      apply (peerIp_meets (hnext.connected fd ((AList.mem_insert _).mpr (.inl rfl)))).mono
      rintro _ _ rfl
      have hout : fd ∉ clients := fun hmem => by simp [hs.connected fd hmem] at hnew
      rw [if_neg hout]
      exact ⟨hnext, rfl⟩
    | false =>
      obtain rfl : k₂ = (k.attended listener).become fd .connection := hk₂
      rw [if_neg (by simp), Program.meets_bind]
      apply (destroyNew_meets hs₁ hnew rfl).mono
      rintro _ _ rfl
      exact ⟨hs₁, rfl⟩

theorem feedClient_meets (hs : Serving listener epoll clients k)
    (hlookup : clients.lookup fd = some s) (hr : (k.attended fd).reported = k.reported) :
    (feedClient ord epoll clients fd s data).Meets kernelCalls (fun p k' =>
      Serving listener epoll p.1 k' ∧ k'.reported = k.reported) k := by
  have hfd : fd ∈ clients := AList.lookup_isSome.mp (by simp [hlookup])
  have hown := s.of_made (hs.conn fd s hlookup)
  rw [feedClient, Program.meets_bind]
  apply (session_meets (Session.feed_own data hown) (hs.connected fd hfd) hs.hub).mono
  rintro ⟨s', result⟩ _ ⟨⟨m', hs'⟩, rfl⟩
  have hfed := hs.feed hfd hs'.conn
  dsimp only
  split
  · exact ⟨hfed, rfl⟩
  · rw [Program.meets_bind]
    apply (dropClient_meets hfed ((AList.mem_insert _).mpr (.inl rfl))).mono
    rintro clients' k' ⟨hdropped, hk'⟩
    exact ⟨hdropped, hk'.trans hr⟩
  · exact ⟨hfed, rfl⟩

/-- Every report of a batch is attended: none is about a descriptor that has gone meanwhile. -/
theorem handleReady_meets (hs : Serving listener epoll clients k)
    (hr : k.reported = r :: rest) :
    (handleReady ord retries listener epoll clients r).Meets kernelCalls (fun p k' =>
      Serving listener epoll p.1 k' ∧ (p.2 = none → k'.reported = rest)) k := by
  have hmem : r ∈ k.reported := hr ▸ List.mem_cons_self
  have hrest := reported_attended hr hs.once
  unfold handleReady
  split
  · rename_i hlistener
    rw [Program.meets_bind]
    apply (acceptClient_meets hs ⟨r, hmem, hlistener⟩).mono
    rintro clients' k' ⟨hs', hk'⟩
    exact ⟨hs', fun _ => hk'.trans (hlistener ▸ hrest)⟩
  · rename_i hlistener
    have hfd : r.fd ∈ clients := ((hs.watching r.fd).mp (hs.reported r hmem)).resolve_left hlistener
    obtain ⟨s, hlookup⟩ := Option.isSome_iff_exists.mp (AList.lookup_isSome.mpr hfd)
    have hdrop : ∀ k₁, Serving listener epoll clients k₁ →
        (k₁.attended r.fd).reported = rest →
        (dropClient epoll clients r.fd >>= fun clients' =>
          (pure (clients', none) : Loop (Clients × Option Halt))).Meets kernelCalls (fun p k' =>
            Serving listener epoll p.1 k' ∧ (p.2 = none → k'.reported = rest)) k₁ := by
      intro k₁ hs₁ hk₁
      rw [Program.meets_bind]
      apply (dropClient_meets hs₁ hfd).mono
      rintro clients' k' ⟨hs', hk'⟩
      exact ⟨hs', fun _ => hk'.trans hk₁⟩
    have hagain : ((k.attended r.fd).attended r.fd).reported = rest := by
      rw [← hrest]
      simp [attended, List.filter_filter]
    simp only [hlookup]
    split
    · exact hdrop k hs hrest
    · rename_i hhangup
      have hreadable : ⟨r.fd, false⟩ ∈ k.reported := by
        obtain ⟨fd, hangup⟩ := r
        cases hangup with
        | false => exact hmem
        | true => exact absurd rfl hhangup
      rw [Program.meets_bind]
      apply (readConnection_meets (hs.connected r.fd hfd) hreadable (by decide) retries).mono
      intro answer k₁ hk₁
      cases answer with
      | interrupted =>
        obtain rfl : k₁ = k := hk₁
        exact ⟨hs, by simp⟩
      | failed =>
        obtain rfl : k₁ = k.attended r.fd := hk₁
        exact hdrop _ (hs.attend r.fd) hagain
      | count data =>
        obtain rfl : k₁ = k.attended r.fd := hk₁
        dsimp only
        split
        · exact hdrop _ (hs.attend r.fd) hagain
        · apply (feedClient_meets (hs.attend r.fd) hlookup (hagain.trans hrest.symm)).mono
          rintro p k' ⟨hs', hk'⟩
          exact ⟨hs', fun _ => hk'.trans hrest⟩

theorem handleBatch_meets {ready : List Ready} (hs : Serving listener epoll clients k)
    (hr : k.reported = ready) :
    (handleBatch ord retries listener epoll clients ready).Meets kernelCalls (fun p k' =>
      Serving listener epoll p.1 k' ∧ (p.2 = none → k'.reported = [])) k := by
  induction ready generalizing clients k with
  | nil => exact ⟨hs, fun _ => hr⟩
  | cons r ready ih =>
    rw [handleBatch, Program.meets_bind]
    apply (handleReady_meets hs hr).mono
    rintro ⟨clients', halt⟩ k' ⟨hs', hk'⟩
    cases halt with
    | none => exact ih hs' (hk' rfl)
    | some why => exact ⟨hs', by simp⟩

/-- The loop as a whole, however long it runs. -/
theorem loop_meets (rounds : Nat) (hs : Serving listener epoll clients k)
    (hr : k.reported = []) :
    (loop ord retries listener epoll rounds clients).Meets kernelCalls (fun p k' =>
      Serving listener epoll p.1 k' ∧ (p.2 = none → k'.reported = [])) k := by
  induction rounds generalizing clients k with
  | zero => exact ⟨hs, by simp⟩
  | succ rounds ih =>
    rw [loop, Program.perform_bind]
    refine ⟨trivial, ?_⟩
    intro running k₀ hk₀
    obtain rfl : k = k₀ := Eq.symm hk₀
    dsimp only
    cases running with
    | false => exact ⟨hs, fun _ => hr⟩
    | true =>
      rw [if_pos rfl, Program.perform_bind]
      refine ⟨⟨hs.polling, by decide, hr⟩, ?_⟩
      intro answer k₁ hk₁
      cases answer with
      | interrupted =>
        obtain rfl : k₁ = _ := hk₁
        exact ih hs hr
      | failed =>
        obtain rfl : k₁ = _ := hk₁
        exact ⟨hs, fun _ => hr⟩
      | events ready =>
        obtain ⟨-, honce, hwatched, rfl⟩ := hk₁
        have hbatch : Serving listener epoll clients { k with reported := ready } :=
          { hs with reported := hwatched, once := honce }
        dsimp only
        rw [Program.meets_bind]
        apply (handleBatch_meets hbatch rfl).mono
        rintro ⟨clients', halt⟩ k' ⟨hs', hk'⟩
        cases halt with
        | none => exact ih hs' (hk' rfl)
        | some why => exact ⟨hs', by simp⟩

/-- At the end of `run` the clients close their connections, in any order. -/
theorem clearClients_meets {left : List (Sigma fun _ : Nat => Session)}
    (hleft : ∀ c ∈ left, k.kind c.1 = some .connection ∧ c.2.conn = c.1)
    (hkeys : (left.map Sigma.fst).Nodup) (hhub : k.hub = true) (hr : k.reported = []) :
    (clearClients left).Meets kernelCalls
      (fun _ k' => k' = (left.map Sigma.fst).foldl closed k) k := by
  induction left generalizing k with
  | nil => rfl
  | cons c left ih =>
    obtain ⟨fd, s⟩ := c
    obtain ⟨hkind, hconn⟩ := hleft ⟨fd, s⟩ List.mem_cons_self
    rw [List.map_cons, List.nodup_cons] at hkeys
    have hrest : ∀ c ∈ left, (k.closed fd).kind c.1 = some .connection ∧ c.2.conn = c.1 := by
      intro c hc
      obtain ⟨hkind', hconn'⟩ := hleft c (List.mem_cons_of_mem _ hc)
      have hmem : c.1 ∈ left.map Sigma.fst := List.mem_map_of_mem hc
      have hne : c.1 ≠ fd := fun he => hkeys.1 (he ▸ hmem)
      exact ⟨(Function.update_of_ne hne _ _).trans hkind', hconn'⟩
    rw [clearClients, Program.meets_bind]
    apply (destroyClient_meets hconn hkind hhub (by simp [hr])).mono
    rintro _ _ rfl
    exact ih hrest hkeys.2 hhub hr

theorem kind_foldl_closed (fds : List Nat) (x : Nat) :
    (fds.foldl closed k).kind x = if x ∈ fds then none else k.kind x := by
  induction fds generalizing k with
  | nil => rfl
  | cons fd fds ih =>
    rw [List.foldl_cons, ih]
    by_cases hx : x = fd
    · simp [hx, closed]
    · simp [hx, closed, Function.update_of_ne]

theorem foldl_closed_fields (fds : List Nat) :
    (fds.foldl closed k).hub = k.hub ∧ (fds.foldl closed k).reported = k.reported := by
  induction fds generalizing k with
  | nil => exact ⟨rfl, rfl⟩
  | cons fd fds ih => exact ih

theorem openListener_meets (port : UInt16) : (openListener port).Meets kernelCalls
    (fun listener k => match listener with
      | none => k = {}
      | some fd => k = ({} : Kernel).become fd .listening) {} := by
  have hkind : ∀ fd kind, (({} : Kernel).become fd kind).kind fd = some kind :=
    fun fd kind => Function.update_self ..
  have hagain : ∀ fd kind kind', (({} : Kernel).become fd kind).become fd kind' =
      ({} : Kernel).become fd kind' := by
    intro fd kind kind'
    simp [become]
  have hback : ∀ fd kind, kind ≠ .epoll → (({} : Kernel).become fd kind).closed fd = {} :=
    fun fd kind hne => closed_become rfl hne (by simp)
  rw [openListener, Program.perform_bind]
  refine ⟨trivial, ?_⟩
  rintro (_ | fd) k hk
  · exact hk
  · obtain ⟨-, rfl⟩ := hk
    dsimp only
    rw [Program.perform_bind]
    refine ⟨hkind fd _, ?_⟩
    rintro (_ | _) _ rfl
    · exact ⟨⟨by simp [hkind], by simp [become]⟩, fun _ _ hk => hk.trans (hback fd _ (by simp))⟩
    · dsimp only
      rw [if_pos rfl, Program.perform_bind]
      refine ⟨hkind fd _, ?_⟩
      rintro (_ | _) _ rfl
      · exact ⟨⟨by simp [hkind], by simp [become]⟩, fun _ _ hk => hk.trans (hback fd _ (by simp))⟩
      · dsimp only
        rw [if_pos rfl, if_pos rfl, Program.perform_bind, hagain]
        refine ⟨hkind fd _, ?_⟩
        rintro (_ | _) _ rfl
        · exact ⟨⟨by simp [hkind], by simp [become]⟩,
            fun _ _ hk => hk.trans (hback fd _ (by simp))⟩
        · exact hagain fd _ _

theorem serving_start (hne : epoll ≠ listener) : Serving listener epoll ∅
    { ((({} : Kernel).become listener .listening).become epoll .epoll).watched listener with
      hub := true } := by
  have hkind : ∀ x, ((({} : Kernel).become listener .listening).become epoll .epoll).kind x =
      if x = epoll then some .epoll else if x = listener then some .listening else none := by
    intro x
    by_cases hx : x = epoll
    · simp [become, hx]
    · by_cases hl : x = listener
      · simp [become, hl, hne.symm]
      · simp [become, hx, hl, Function.update_of_ne]
  refine ⟨?_, ?_, by simp, ?_, by simp [watched, become], ?_, ?_, rfl, by simp⟩
  · exact (hkind listener).trans (by simp [hne.symm])
  · exact (hkind epoll).trans (by simp)
  · intro x hx
    have hx' := (hkind x).symm.trans_ne hx
    split at hx'
    · exact .inr (.inl ‹_›)
    · split at hx'
      · exact .inl ‹_›
      · exact absurd rfl hx'
  · simp [watched, become]
  · simp [watched, become]

/-- `clients.clear()`, `close(epoll_fd)`, `~Hub` and `~TcpListener`. -/
theorem shutdown_meets (clear : ClearOrder) (hs : Serving listener epoll clients k)
    (hr : k.reported = []) :
    (do
      clearClients (clear.order clients)
      Program.perform (LoopOp.close epoll)
      Program.perform LoopOp.destroyHub
      Program.perform (LoopOp.close listener)
      pure (.exited 0) : Loop Outcome).Meets kernelCalls
        (fun outcome k' => outcome = .exited 0 ∧ k' = {}) k := by
  have hkeys : ∀ fd, fd ∈ (clear.order clients).map Sigma.fst ↔ fd ∈ clients :=
    fun fd => ((clear.perm clients).map Sigma.fst).mem_iff
  have hnodup : ((clear.order clients).map Sigma.fst).Nodup :=
    ((clear.perm clients).map Sigma.fst).nodup_iff.mpr clients.nodupKeys
  have hleft : ∀ c ∈ clear.order clients, k.kind c.1 = some .connection ∧ c.2.conn = c.1 := by
    intro c hc
    have hlookup : clients.lookup c.1 = some c.2 :=
      AList.mem_lookup_iff.mpr ((clear.perm clients).mem_iff.mp hc)
    exact ⟨hs.connected c.1 (AList.lookup_isSome.mp (by simp [hlookup])), hs.conn c.1 c.2 hlookup⟩
  rw [Program.meets_bind]
  apply (clearClients_meets hleft hnodup hs.hub hr).mono
  rintro _ k₁ hk₁
  have hkind : ∀ x, k₁.kind x = if x ∈ clients then none else k.kind x := by
    intro x
    simp only [hk₁, kind_foldl_closed, hkeys]
  obtain ⟨hhub, hreported⟩ := foldl_closed_fields (k := k) ((clear.order clients).map Sigma.fst)
  rw [← hk₁] at hhub hreported
  have hpolling : k₁.kind epoll = some .epoll := by
    rw [hkind, if_neg hs.notMem_epoll, hs.polling]
  have hlistening : k₁.kind listener = some .listening := by
    rw [hkind, if_neg hs.notMem_listener, hs.listening]
  have hne : listener ≠ epoll := by
    rintro rfl
    rw [hpolling] at hlistening
    cases hlistening
  have hothers : ∀ x, x ≠ listener → x ≠ epoll → k₁.kind x = none := by
    intro x hl he
    rw [hkind]
    split
    · rfl
    · rename_i hout
      by_contra hopen
      exact hout (((hs.owned x hopen).resolve_left hl).resolve_left he)
  have hclosed : ∀ x, (k₁.closed epoll).kind x =
      if x = listener then some .listening else none := by
    intro x
    by_cases he : x = epoll
    · simp [closed, he, hne.symm]
    · by_cases hl : x = listener
      · simp [closed, hl, hne, hlistening]
      · simp [closed, he, hl, hothers x hl he]
  refine ⟨⟨by simp [hpolling], by simp [hreported, hr]⟩, ?_⟩
  rintro _ _ rfl
  refine ⟨⟨hhub.trans hs.hub, ?_⟩, ?_⟩
  · intro fd
    rw [hclosed]
    split <;> simp
  rintro _ _ rfl
  refine ⟨⟨?_, by simp [closed, hreported, hr]⟩, ?_⟩
  · exact (hclosed listener).trans_ne (by simp)
  rintro _ k' hk'
  refine ⟨rfl, hk'.trans ?_⟩
  ext1
  · funext x
    by_cases hx : x = listener
    · simp [closed, hx]
    · simpa [closed, hx] using hclosed x
  · simp [closed, hpolling]
  · exact hreported.trans hr
  · rfl

/-- The listener, the epoll instance and the connections (not the sockets of the streamers, nor
the file or pipe of the source), whatever the kernel answers and the clients send: `run` uses such
a descriptor only while it is open, closes it once, does not accept or read but on a fresh report
about this very connection, leaves no report unattended, and destroys the Hub after the last
session. When it returns none of them is open; between two batches of events, and where an exception
leaves the loop, only the listener, the epoll instance and the clients of the map are. -/
theorem descriptors_kept (ord : HashOrder) (clear : ClearOrder) (retries rounds : Nat)
    (port : UInt16) (sourcePath : Bytes) :
    (run ord clear retries rounds port sourcePath).Meets kernelCalls
      (fun outcome k => match outcome with
        | .exited _ => k = {}
        | .halted _ listener epoll clients => Serving listener epoll clients k) {} := by
  rw [run, Program.meets_bind]
  apply (openListener_meets port).mono
  rintro (_ | listener) k hk
  · exact hk
  · obtain rfl : k = ({} : Kernel).become listener .listening := hk
    have hlistener : (({} : Kernel).become listener .listening).kind listener =
        some .listening := Function.update_self ..
    have hback : (({} : Kernel).become listener .listening).closed listener = {} :=
      closed_become rfl (by simp) (by simp)
    dsimp only
    rw [Program.perform_bind]
    refine ⟨trivial, ?_⟩
    rintro (_ | epoll) k hk
    · obtain rfl : k = _ := hk
      exact ⟨⟨by simp [hlistener], by simp [become]⟩, fun _ _ hk => hk.trans hback⟩
    · obtain ⟨hnew, rfl⟩ := hk
      have hne : epoll ≠ listener := by
        rintro rfl
        simp [hlistener] at hnew
      have hopen : ((({} : Kernel).become listener .listening).become epoll .epoll).kind listener =
          some .listening := (Function.update_of_ne hne.symm _ _).trans hlistener
      dsimp only
      rw [Program.perform_bind]
      refine ⟨⟨Function.update_self .., hne.symm, by simp [hopen], by simp [become]⟩, ?_⟩
      rintro (_ | _) _ rfl
      · have hclosed :
            ((({} : Kernel).become listener .listening).become epoll .epoll).closed epoll =
              ({} : Kernel).become listener .listening := by
          simpa [closed, become] using hnew.symm
        refine ⟨⟨by simp [become], by simp [become]⟩, ?_⟩
        intro _ k hk
        obtain rfl : k = ({} : Kernel).become listener .listening := hk.trans hclosed
        exact ⟨⟨by simp [hlistener], by simp [become]⟩, fun _ _ hk => hk.trans hback⟩
      · dsimp only
        rw [if_pos rfl, if_pos rfl, Program.perform_bind]
        refine ⟨rfl, ?_⟩
        rintro _ _ rfl
        dsimp only
        rw [Program.meets_bind]
        apply (loop_meets rounds (serving_start hne) (by simp [watched, become])).mono
        rintro ⟨clients, halt⟩ k ⟨hs, hk⟩
        cases halt with
        | some why => exact hs
        | none =>
          apply (shutdown_meets clear hs (hk rfl)).mono
          rintro _ _ ⟨rfl, rfl⟩
          rfl

end EventLoop
end Veda.Rtsp
