import Veda.Rtp.Receiver

/-! Whole runs of a streamer: numbering of the send attempts and the end-to-end round trip. -/
namespace Veda.Rtp

variable {st : Streamer} {hdr : Header} {outcome : Nat → Bool} {n : Nat}
  {nals frags : List Bytes} {as bs : List Attempt} {seq : UInt16}

/-- Attempts from send number `n` on: consecutive sequence numbers, and the socket's results. -/
def Numbered (outcome : Nat → Bool) (n : Nat) (seq : UInt16) (as : List Attempt) : Prop :=
  ∀ i a, as[i]? = some a → a.sent = outcome (n + i) ∧
    sequenceOf a.packet = seq + UInt16.ofNat i

theorem numbered_nil : Numbered outcome n seq [] := by simp [Numbered]

theorem numbered_singleton {packet : Bytes} (h : sequenceOf packet = seq) :
    Numbered outcome n seq [⟨packet, outcome n⟩] := by
  intro i a hi
  cases i with
  | zero => cases hi; exact ⟨rfl, by simp [h]⟩
  | succ i => simp at hi

theorem Numbered.append (ha : Numbered outcome n seq as)
    (hb : Numbered outcome (n + as.length) (seq + UInt16.ofNat as.length) bs) :
    Numbered outcome n seq (as ++ bs) := by
  intro i a hi
  by_cases hlt : i < as.length
  · exact ha i a (by rwa [List.getElem?_append_left hlt] at hi)
  · have hsum : as.length + (i - as.length) = i := by omega
    rw [List.getElem?_append_right (by omega)] at hi
    obtain ⟨hs, hq⟩ := hb _ a hi
    rw [Nat.add_assoc, hsum] at hs
    rw [UInt16.add_assoc, ← UInt16.ofNat_add, hsum] at hq
    exact ⟨hs, hq⟩

theorem numbered_attemptsOf (hdr : Header) :
    Numbered outcome n hdr.sequence (attemptsOf hdr outcome n frags) := by
  induction frags generalizing hdr n with
  | nil => exact numbered_nil
  | cons f fs ih =>
    rw [attemptsOf, ← List.singleton_append]
    apply Numbered.append (numbered_singleton (sequenceOf_buildPacket f))
    split
    · exact ih { hdr with sequence := hdr.sequence + 1 }
    · exact numbered_nil

/-- A run of `send_nal` calls numbers its attempts consecutively, and its packets give the
receiver exactly the NALs that were reported as sent. -/
theorem sendAll_received (st : Streamer) (hc : st.connected = true)
    (hn : ∀ nal ∈ nals, Sendable nal) (chain : Option Chain) :
    ∃ as chain', (st.sendAll nals).2 = st.after as ∧
      Numbered st.socket.outcome st.socket.attempts.length st.sequence as ∧
      (st.sendAll nals).1.length = nals.length ∧
      receiveAll chain (sentOf as) =
        (chain', ((nals.zip (st.sendAll nals).1).filter (·.2)).map (·.1)) := by
  induction nals generalizing st chain with
  | nil => exact ⟨[], chain, by simp [Streamer.sendAll], numbered_nil, rfl, rfl⟩
  | cons nal nals ih =>
    have hnal := hn nal (by simp)
    have hsend := sendNal_eq hc hnal.1
    obtain ⟨chain₁, h₁⟩ := receive_nal (st.nextHeader false) st.socket.outcome
      st.socket.attempts.length hnal chain
    obtain ⟨as, chain₂, hst, hnum, hlen, h₂⟩ := ih (st.after (st.attemptsFor nal)) hc
      (fun x hx => hn x (by simp [hx])) chain₁
    refine ⟨st.attemptsFor nal ++ as, chain₂, ?_, ?_, ?_, ?_⟩
    · simp only [Streamer.sendAll, hsend, hst, Streamer.after_append]
    · refine Numbered.append (numbered_attemptsOf (st.nextHeader false)) ?_
      simpa [Streamer.after, Streamer.attemptsFor] using hnum
    · simp [Streamer.sendAll, hsend, hlen]
    · simp only [sentOf_append, receiveAll_append, Streamer.attemptsFor, h₁, h₂,
        Streamer.sendAll, hsend, List.zip_cons_cons]
      split <;> simp_all

/-- A connected streamer that has sent nothing yet. -/
def Streamer.ready (outcome : Nat → Bool) (sequence : UInt16) (timestamp ssrc : UInt32) :
    Streamer :=
  { socket := { outcome }, connected := true, sequence, timestamp, ssrc }

/-- Under any pattern of send failures the receiver reassembles exactly the NALs that
`send_nal` reported as sent, and the `i`-th attempt carries the `i`-th sequence number. -/
theorem receive_sendAll (outcome : Nat → Bool) (sequence : UInt16) (timestamp ssrc : UInt32)
    (nals : List Bytes) (hn : ∀ nal ∈ nals, Sendable nal) :
    let run := (Streamer.ready outcome sequence timestamp ssrc).sendAll nals
    run.1.length = nals.length ∧
    (receiveAll none run.2.sentPackets).2 = ((nals.zip run.1).filter (·.2)).map (·.1) ∧
    ∀ i a, run.2.socket.attempts[i]? = some a →
      a.sent = outcome i ∧ (sequenceOf a.packet).toNat = (sequence.toNat + i) % 2 ^ 16 := by
  intro run
  obtain ⟨as, chain', hst, hnum, hlen, hrec⟩ :=
    sendAll_received (Streamer.ready outcome sequence timestamp ssrc) rfl hn none
  have hattempts : run.2.socket.attempts = as := congrArg (·.socket.attempts) hst
  refine ⟨hlen, ?_, ?_⟩
  · rw [Streamer.sentPackets, hattempts]
    exact congrArg Prod.snd hrec
  · intro i a hi
    rw [hattempts] at hi
    obtain ⟨hs, hq⟩ := hnum i a hi
    refine ⟨by simpa [Streamer.ready] using hs, ?_⟩
    rw [hq]
    simp [Streamer.ready]

/-- A key frame whose second fragment is lost, then a small NAL, across the wrap of the
sequence number: only the small NAL arrives. -/
theorem receive_sendAll_lost_fragment :
    (receiveAll none ((Streamer.ready (fun i => i != 1) 65535 0 7).sendAll
      [101 :: List.replicate 1500 9, [65, 1]]).2.sentPackets).2 = [[65, 1]] :=
  (receive_sendAll (fun i => i != 1) 65535 0 7 [101 :: List.replicate 1500 9, [65, 1]]
    (by decide +kernel)).2.1.trans (by decide +kernel)

/-- On a socket that takes everything every `send_nal` returns `true`. -/
theorem sendAll_sent {st : Streamer} {nals : List Bytes} (hc : st.connected = true)
    (hn : ∀ nal ∈ nals, nal ≠ []) (hsent : ∀ i, st.socket.outcome i = true) :
    ∀ result ∈ (st.sendAll nals).1, result = true := by
  induction nals generalizing st with
  | nil => simp [Streamer.sendAll]
  | cons nal nals ih =>
    have hnal := hn nal List.mem_cons_self
    have hnext : (st.sendNal nal).2 = st.after (st.attemptsFor nal) := by rw [sendNal_eq hc hnal]
    have hresults : (st.sendAll (nal :: nals)).1 =
        (st.sendNal nal).1 :: ((st.sendNal nal).2.sendAll nals).1 := rfl
    rw [hresults, hnext, List.forall_mem_cons]
    refine ⟨(sendNal_sent_iff hc hnal).mpr fun i _ => hsent _, ?_⟩
    exact ih hc (fun x hx => hn x (List.mem_cons_of_mem nal hx)) hsent

end Veda.Rtp
