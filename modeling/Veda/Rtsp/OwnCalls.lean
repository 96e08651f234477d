import Veda.Rtsp.Session

/-!
What a session touches of the outside: it writes to its own connection, points its streamers at
its own client, connects each of them once and uses no others, whatever it is fed and whatever
its calls answer.
-/
namespace Veda.Rtsp

open Cpp Effects

/-- The streamers that a session has made, and the last one as long as it is not connected. -/
structure Streamers where
  made : List StreamerId := []
  fresh : Option StreamerId := none

def Streamers.note (m : Streamers) : (op : Op) → op.Res → Streamers
  | .makeStreamer _, x => { made := m.made ++ [x], fresh := some x }
  | .connect _ _ _, _ => { m with fresh := none }
  | _, _ => m

/-- A call of the session of this connection and this client, which has made these streamers. -/
def Op.Own (conn : ConnId) (ip : Bytes) (m : Streamers) : Op → Prop
  | .logRequest c _ => c = conn
  | .send c _ => c = conn
  | .makeStreamer c => c = conn
  | .connect x client _ => client = ip ∧ m.fresh = some x
  | .subscribe x => x ∈ m.made
  | .unsubscribe x => x ∈ m.made
  | _ => True

def ownCalls (conn : ConnId) (ip : Bytes) : Program.Spec Op Op.Res Streamers where
  pre m op := op.Own conn ip m
  post m op r m' := m' = m.note op r

namespace Session

/-- Still a session of this connection and this client, and it streams through one of these. -/
structure Of (conn : ConnId) (ip : Bytes) (m : Streamers) (s : Session) : Prop where
  conn : s.conn = conn
  ip : s.clientIp = ip
  streamer : ∀ x, s.streamer = some x → x ∈ m.made

variable {ord : HashOrder} {conn : ConnId} {ip : Bytes} {m : Streamers} {s : Session}
  {req : Request} {raw : Bytes}

/-- A session that has made nothing but what it streams through. -/
theorem of_made (s : Session) (hs : s.conn = conn) :
    s.Of conn s.clientIp { made := s.streamer.toList } :=
  ⟨hs, rfl, fun x hx => by simp [hx]⟩

theorem stopStreaming_own (hs : s.Of conn ip m) :
    s.stopStreaming.Meets (ownCalls conn ip) (fun s' m' => s'.Of conn ip m') m := by
  unfold stopStreaming
  split
  · exact hs
  · rename_i x hx
    have hstopped : ∀ m', Of conn ip m' { s with streamer := none } := by
      intro m'
      exact ⟨hs.conn, hs.ip, fun y hy => by cases hy⟩
    split
    · exact ⟨hs.streamer x hx, fun _ m' _ => hstopped m'⟩
    · exact hstopped m

theorem onDisconnect_own (hs : s.Of conn ip m) :
    s.onDisconnect.Meets (ownCalls conn ip) (fun s' m' => s'.Of conn ip m') m := by
  rw [onDisconnect, Program.meets_bind]
  apply (stopStreaming_own hs).mono
  exact fun _ _ hs' => ⟨hs'.conn, hs'.ip, hs'.streamer⟩

theorem destroy_own (hs : s.Of conn ip m) :
    s.destroy.Meets (ownCalls conn ip) (fun _ _ => True) m := by
  rw [destroy, Program.meets_bind]
  apply (stopStreaming_own hs).mono
  exact fun _ _ _ => trivial

theorem handleDescribe_own (hs : s.Of conn ip m) :
    (s.handleDescribe req).Meets (ownCalls conn ip) (fun p m' => p.1.Of conn ip m') m := by
  unfold handleDescribe
  split
  · refine ⟨trivial, ?_⟩
    rintro sprop _ rfl
    exact hs
  · exact hs

theorem handleSetup_own (hs : s.Of conn ip m) :
    (s.handleSetup req).Meets (ownCalls conn ip) (fun p m' => p.1.Of conn ip m') m := by
  unfold handleSetup
  split
  · exact hs
  · dsimp only
    split
    · split
      · refine ⟨trivial, ?_⟩
        rintro id _ rfl
        exact ⟨hs.conn, hs.ip, hs.streamer⟩
      · exact ⟨hs.conn, hs.ip, hs.streamer⟩
    · exact ⟨hs.conn, hs.ip, hs.streamer⟩

/-- The streamer of a PLAY is made and connected in a row. -/
theorem handlePlay_own (hs : s.Of conn ip m) :
    (s.handlePlay req).Meets (ownCalls conn ip) (fun p m' => p.1.Of conn ip m') m := by
  unfold handlePlay
  split
  · refine ⟨hs.conn, ?_⟩
    rintro x _ rfl
    have hmade : x ∈ (m.note (.makeStreamer s.conn) x).made := by simp [Streamers.note]
    have hkept : s.Of conn ip (m.note (.makeStreamer s.conn) x) := by
      refine ⟨hs.conn, hs.ip, ?_⟩
      intro y hy
      simp [Streamers.note, hs.streamer y hy]
    refine ⟨⟨hs.ip, rfl⟩, ?_⟩
    rintro connected _ rfl
    cases connected with
    | false => exact ⟨hkept.conn, hkept.ip, hkept.streamer⟩
    | true =>
      refine ⟨hs.conn, ?_⟩
      rintro _ _ rfl
      split
      · refine ⟨hmade, ?_⟩
        rintro subscribed _ rfl
        cases subscribed with
        | false => exact ⟨hkept.conn, hkept.ip, hkept.streamer⟩
        | true =>
          refine ⟨hs.conn, hs.ip, ?_⟩
          rintro _ ⟨⟩
          exact hmade
      · exact ⟨hkept.conn, hkept.ip, hkept.streamer⟩
  · exact hs

theorem handlePause_own (hs : s.Of conn ip m) :
    (s.handlePause req).Meets (ownCalls conn ip) (fun p m' => p.1.Of conn ip m') m := by
  unfold handlePause
  split
  · rw [Program.meets_bind]
    apply (stopStreaming_own hs).mono
    exact fun _ _ hs' => ⟨hs'.conn, hs'.ip, hs'.streamer⟩
  · exact hs

theorem handleTeardown_own (hs : s.Of conn ip m) :
    (s.handleTeardown req).Meets (ownCalls conn ip) (fun p m' => p.1.Of conn ip m') m := by
  unfold handleTeardown
  split
  · rw [Program.meets_bind]
    apply (stopStreaming_own hs).mono
    exact fun _ _ hs' => ⟨hs'.conn, hs'.ip, hs'.streamer⟩
  · exact hs

theorem handle_own (hs : s.Of conn ip m) :
    (s.handle req).Meets (ownCalls conn ip) (fun p m' => p.1.Of conn ip m') m := by
  unfold handle
  split
  · exact hs
  · split
    · cases req.method with
      | describe => exact handleDescribe_own hs
      | setup => exact handleSetup_own hs
      | play => exact handlePlay_own hs
      | pause => exact handlePause_own hs
      | teardown => exact handleTeardown_own hs
      | _ => exact hs
    · exact hs

theorem respond_own (hs : s.Of conn ip m) :
    (s.respond req).Meets (ownCalls conn ip) (fun s' m' => s'.Of conn ip m') m := by
  rw [respond, Program.meets_bind]
  apply (handle_own hs).mono
  rintro ⟨s', response⟩ m' hs'
  dsimp only at *
  split
  · exact hs'
  · refine ⟨hs'.conn, ?_⟩
    rintro _ _ rfl
    exact hs'

theorem serve_own (hs : s.Of conn ip m) :
    (s.serve ord raw).Meets (ownCalls conn ip) (fun p m' => p.1.Of conn ip m') m := by
  rw [serve, Program.perform_bind]
  refine ⟨hs.conn, ?_⟩
  rintro _ _ rfl
  split
  · exact hs
  · refine ⟨hs.conn, ?_⟩
    rintro _ _ rfl
    exact hs
  · rw [Program.meets_bind]
    apply (respond_own hs).mono
    intro s' m' hs'
    split <;> exact hs'

theorem feedLoop_own (fuel : Nat) (hs : s.Of conn ip m) :
    (feedLoop ord fuel s).Meets (ownCalls conn ip) (fun p m' => p.1.Of conn ip m') m := by
  induction fuel generalizing s m with
  | zero => exact hs
  | succ fuel ih =>
    unfold feedLoop
    split
    · exact hs
    · rename_i endPos _
      have hcut : Of conn ip m { s with rxBuffer := s.rxBuffer.drop (endPos + 4) } :=
        ⟨hs.conn, hs.ip, hs.streamer⟩
      dsimp only
      rw [Program.meets_bind]
      apply (serve_own hcut).mono
      rintro ⟨s', result⟩ m' hs'
      cases result with
      | none => exact ih hs'
      | some r => exact hs'

/-- Whatever bytes a client sends, its session stays with its own connection, address and
streamers. -/
theorem feed_own (data : Bytes) (hs : s.Of conn ip m) :
    (s.feed ord data).Meets (ownCalls conn ip) (fun p m' => p.1.Of conn ip m') m := by
  have happended : Of conn ip m { s with rxBuffer := s.rxBuffer ++ data } :=
    ⟨hs.conn, hs.ip, hs.streamer⟩
  unfold feed
  dsimp only
  split
  · exact happended
  · exact feedLoop_own _ happended

end Session
end Veda.Rtsp
