import Veda.Rtp.Fragments
import Veda.Rtp.Streamer

/-! What `send_nal` hands to the socket, in closed form. -/
namespace Veda.Rtp

variable {st : Streamer} {frags : List Bytes} {nal : Bytes} {hdr : Header}
  {outcome : Nat → Bool} {n : Nat}

/-- The attempts for `frags` when `hdr` is the header of the first and `n` the number of its
send: consecutive sequence numbers, the marker on the last fragment, up to a failure. -/
def attemptsOf (hdr : Header) (outcome : Nat → Bool) : Nat → List Bytes → List Attempt
  | _, [] => []
  | n, f :: fs =>
    ⟨buildPacket { hdr with marker := fs.isEmpty } f, outcome n⟩ ::
      if outcome n then
        attemptsOf { hdr with sequence := hdr.sequence + 1 } outcome (n + 1) fs
      else []

/-- All of them go out where each send that `frags` needs succeeds. -/
theorem attemptsOf_sent_iff : (attemptsOf hdr outcome n frags).all (·.sent) = true ↔
    ∀ i < frags.length, outcome (n + i) = true := by
  induction frags generalizing hdr n with
  | nil => simp [attemptsOf]
  | cons f fs ih =>
    have hsplit : (∀ i < (f :: fs).length, outcome (n + i) = true) ↔
        outcome n = true ∧ ∀ i < fs.length, outcome (n + 1 + i) = true := by
      simp only [List.length_cons, Nat.forall_lt_succ_left, Nat.add_zero, Nat.add_right_comm n 1,
        ← Nat.add_assoc]
    rw [hsplit, attemptsOf, List.all_cons, Bool.and_eq_true]
    refine and_congr_right fun hsent => ?_
    rw [if_pos hsent]
    exact ih

/-- The streamer after these attempts. -/
def Streamer.after (st : Streamer) (as : List Attempt) : Streamer :=
  { st with
    sequence := st.sequence + UInt16.ofNat as.length
    socket := { st.socket with attempts := st.socket.attempts ++ as } }

@[simp] theorem Streamer.after_nil : st.after [] = st := by simp [Streamer.after]

theorem Streamer.after_append (as bs : List Attempt) :
    (st.after as).after bs = st.after (as ++ bs) := by
  simp only [Streamer.after, List.length_append, List.append_assoc, UInt16.ofNat_add,
    UInt16.add_assoc]

@[simp] theorem Streamer.after_connected (as : List Attempt) :
    (st.after as).connected = st.connected := rfl
@[simp] theorem Streamer.after_attempts (as : List Attempt) :
    (st.after as).socket.attempts = st.socket.attempts ++ as := rfl

/-- The attempt for the next fragment. -/
def Streamer.attempt (st : Streamer) (isLast : Bool) (f : Bytes) : Attempt :=
  ⟨buildPacket (st.nextHeader isLast) f, st.socket.outcome st.socket.attempts.length⟩

theorem sendFragments_cons (f : Bytes) (fs : List Bytes) : st.sendFragments (f :: fs) =
    if (st.attempt fs.isEmpty f).sent then (st.after [st.attempt fs.isEmpty f]).sendFragments fs
    else (false, st.after [st.attempt fs.isEmpty f]) := rfl

theorem sendFragments_eq : st.sendFragments frags =
    ((attemptsOf (st.nextHeader false) st.socket.outcome st.socket.attempts.length frags).all
        (·.sent),
      st.after
        (attemptsOf (st.nextHeader false) st.socket.outcome st.socket.attempts.length frags)) := by
  induction frags generalizing st with
  | nil => simp [Streamer.sendFragments, attemptsOf]
  | cons f fs ih =>
    have hfirst : attemptsOf (st.nextHeader false) st.socket.outcome st.socket.attempts.length
        (f :: fs) = st.attempt fs.isEmpty f ::
          if (st.attempt fs.isEmpty f).sent then
            attemptsOf ((st.after [st.attempt fs.isEmpty f]).nextHeader false) st.socket.outcome
              (st.socket.attempts.length + 1) fs
          else [] := rfl
    rw [sendFragments_cons, hfirst]
    by_cases hs : (st.attempt fs.isEmpty f).sent
    · rw [if_pos hs, if_pos hs, ih, Streamer.after_append, List.singleton_append]
      simp [hs, Streamer.after]
    · simp [hs]

/-- The attempts of one `send_nal` on a connected streamer. -/
def Streamer.attemptsFor (st : Streamer) (nal : Bytes) : List Attempt :=
  attemptsOf (st.nextHeader false) st.socket.outcome st.socket.attempts.length
    (fragmentNalDefault nal)

theorem sendNal_eq (hc : st.connected = true) (hn : nal ≠ []) :
    st.sendNal nal = ((st.attemptsFor nal).all (·.sent), st.after (st.attemptsFor nal)) := by
  simp only [Streamer.sendNal, hc, hn, fragmentNalDefault_ne_nil hn]
  exact sendFragments_eq

/-- When `send_nal` returns `true`: all the sends of its fragments have succeeded. -/
theorem sendNal_sent_iff (hc : st.connected = true) (hn : nal ≠ []) :
    (st.sendNal nal).1 = true ↔ ∀ i < (fragmentNalDefault nal).length,
      st.socket.outcome (st.socket.attempts.length + i) = true := by
  rw [sendNal_eq hc hn]
  exact attemptsOf_sent_iff

end Veda.Rtp
