import Veda.Rtsp.ResponseStream
import Veda.Util.Base64Decode

/-!
Parameter sets on their way to a client: Base64, the Hub's pair, the SDP and the response are
undone by the client's framer, its line split, its search for the parameter and its decoder.
-/
namespace Veda.Rtsp

open Cpp Delimited

namespace Client

/-- The format line of a session description. -/
def fmtpLine (sdp : Bytes) : Option Bytes :=
  (splitOn crlf sdp).find? fun line => ascii "a=fmtp:" <+: line

def spropKey : Bytes := ascii "sprop-parameter-sets="

/-- The value of the parameter: the rest of the line. -/
def spropOf (line : Bytes) : Option Bytes :=
  (Delimited.find spropKey line).map fun pos => line.drop (pos + spropKey.length)

/-- The parameter sets of a session description. -/
def parameterSets (sdp : Bytes) : Option (Bytes × Bytes) := do
  let line ← fmtpLine sdp
  let value ← spropOf line
  let comma ← Delimited.find [44] value
  let sps ← Util.base64Decode (value.take comma)
  let pps ← Util.base64Decode (value.drop (comma + 1))
  return (sps, pps)

end Client

variable {ord : HashOrder} {o : Oracle} {w : World} {s : Session} {raw : Bytes} {req : Request}
  {sps pps sprop : Bytes}

/-- The lines of the session description before the format line. -/
def sdpHead : List Bytes :=
  [ ascii "v=0", ascii "o=- 0 0 IN IP4 0.0.0.0", ascii "s=VEDA RTSP Stream",
    ascii "c=IN IP4 0.0.0.0", ascii "t=0 0", ascii "a=control:*",
    ascii "m=video 0 RTP/AVP 96", ascii "a=rtpmap:96 H264/90000" ]

def sdpFmtp (sprop : Bytes) : Bytes :=
  ascii "a=fmtp:96 packetization-mode=1" ++
    if sprop = [] then [] else ascii ";sprop-parameter-sets=" ++ sprop

def sdpInfo (sprop : Bytes) : Sdp.VideoStreamInfo :=
  { payloadType := 96, clockRate := 90000, spropParameterSets := sprop }

theorem sdp_lines (sprop : Bytes) : Sdp.build (sdpInfo sprop) =
    crlf.intercalate (sdpHead ++ [sdpFmtp sprop, ascii "a=control:track0", []]) := by
  have hhead : ascii "v=0\r\n" ++ ascii "o=- 0 0 IN IP4 0.0.0.0\r\n" ++
      ascii "s=VEDA RTSP Stream\r\n" ++ ascii "c=IN IP4 0.0.0.0\r\n" ++ ascii "t=0 0\r\n" ++
      ascii "a=control:*\r\n" ++ ascii "m=video 0 RTP/AVP " ++ showInt 96 ++ crlf ++
      ascii "a=rtpmap:" ++ showInt 96 ++ ascii " H264/" ++ showInt 90000 ++ crlf =
        crlf.intercalate sdpHead ++ crlf := by
    decide
  have hfmtp : ascii "a=fmtp:96 packetization-mode=1" =
      ascii "a=fmtp:" ++ showInt 96 ++ ascii " packetization-mode=1" := by
    decide
  have htail : ascii "a=control:track0\r\n" = ascii "a=control:track0" ++ crlf := by
    decide
  have hpayload : (sdpInfo sprop).payloadType = 96 := rfl
  have hclock : (sdpInfo sprop).clockRate = 90000 := rfl
  have hsprop : (sdpInfo sprop).spropParameterSets = sprop := rfl
  unfold Sdp.build
  rw [hpayload, hclock, hsprop, hhead, htail, sdpFmtp, hfmtp]
  simp only [sdpHead, List.cons_append, List.nil_append, List.intercalate_cons_cons,
    List.intercalate_singleton, List.append_assoc, List.append_nil]

theorem sdpFmtp_no_cr (h : 13 ∉ sprop) : 13 ∉ sdpFmtp sprop := by
  have hname : 13 ∉ ascii "a=fmtp:96 packetization-mode=1" := by decide
  have hkey : 13 ∉ ascii ";sprop-parameter-sets=" := by decide
  rw [sdpFmtp]
  split
  · simpa using hname
  · simp only [List.mem_append, not_or]
    exact ⟨hname, hkey, h⟩

/-- The client finds the format line among the lines. -/
theorem fmtpLine_build (h : 13 ∉ sprop) :
    Client.fmtpLine (Sdp.build (sdpInfo sprop)) = some (sdpFmtp sprop) := by
  have hhead : ∀ l ∈ sdpHead, ¬ crlf <:+: l ∧ ¬ ascii "a=fmtp:" <+: l := by decide
  have hclean : ∀ l ∈ sdpHead ++ [sdpFmtp sprop, ascii "a=control:track0", []],
      ¬ crlf <:+: l := by
    intro l hl
    rcases List.mem_append.mp hl with hl | hl
    · exact (hhead l hl).1
    · simp only [List.mem_cons, List.not_mem_nil, or_false] at hl
      rcases hl with rfl | rfl | rfl
      · exact crlf_not_infix_of_cr (sdpFmtp_no_cr h)
      · decide
      · decide
  have hnone : sdpHead.find? (fun line => ascii "a=fmtp:" <+: line) = none := by
    rw [List.find?_eq_none]
    intro l hl
    simpa using (hhead l hl).2
  have hname : ascii "a=fmtp:" <+: sdpFmtp sprop := by
    refine List.IsPrefix.trans ?_ (List.prefix_append _ _)
    decide
  rw [Client.fmtpLine, sdp_lines, crlf_unbordered.splitOn_intercalate (by decide) (by simp)
    hclean, List.find?_append, hnone, List.find?_cons_of_pos (by simpa using hname)]
  rfl

theorem spropOf_nil : Client.spropOf (sdpFmtp []) = none := by
  decide

/-- The client finds the value of the parameter. -/
theorem spropOf_fmtp (h : sprop ≠ []) : Client.spropOf (sdpFmtp sprop) = some sprop := by
  have hline : sdpFmtp sprop =
      ascii "a=fmtp:96 packetization-mode=1;" ++ (Client.spropKey ++ sprop) := by
    have hkey : ascii "a=fmtp:96 packetization-mode=1" ++ ascii ";sprop-parameter-sets=" =
        ascii "a=fmtp:96 packetization-mode=1;" ++ Client.spropKey := by
      decide
    rw [sdpFmtp, if_neg h, ← List.append_assoc, hkey, List.append_assoc]
  have hunbordered : Unbordered Client.spropKey := by decide
  have hbefore : ¬ Client.spropKey <:+: ascii "a=fmtp:96 packetization-mode=1;" := by
    decide
  rw [Client.spropOf, hline, hunbordered.find_append hbefore, Option.map_some,
    ← List.drop_drop, List.drop_left, List.drop_left]

theorem base64_ne {bs : Bytes} {b : UInt8} (hb : b = 13 ∨ b = 44) :
    b ∉ Util.base64Encode bs := by
  intro hm
  rcases Util.base64Encode_mem hm with hm | rfl
  · obtain ⟨h13, -, h44, -⟩ := Util.alphabet_ne b hm
    rcases hb with rfl | rfl
    · exact h13 rfl
    · exact h44 rfl
  · rcases hb with hb | hb <;> exact absurd hb (by decide)

theorem base64_ne_nil {bs : Bytes} (h : bs ≠ []) : Util.base64Encode bs ≠ [] := by
  intro hnil
  have hdecode := Util.base64Decode_encode bs
  rw [hnil] at hdecode
  exact h (Option.some.inj hdecode).symm

/-- Both parameter sets come out of the session description. -/
theorem parameterSets_build (hs : sps ≠ []) :
    Client.parameterSets (Sdp.build (sdpInfo
      (Util.base64Encode sps ++ ascii "," ++ Util.base64Encode pps))) = some (sps, pps) := by
  have hne : Util.base64Encode sps ++ ascii "," ++ Util.base64Encode pps ≠ [] := by
    simp [base64_ne_nil hs]
  have hcr : 13 ∉ Util.base64Encode sps ++ ascii "," ++ Util.base64Encode pps := by
    have hcomma : 13 ∉ ascii "," := by decide
    simp only [List.mem_append, base64_ne (Or.inl rfl), hcomma, or_self, not_false_eq_true]
  have hunbordered : Unbordered ([44] : Bytes) := by decide
  have hfirst : ¬ [44] <:+: Util.base64Encode sps := by
    intro hi
    exact base64_ne (Or.inr rfl) (hi.subset (List.mem_singleton.mpr rfl))
  have hcomma : Delimited.find [44] (Util.base64Encode sps ++ ascii "," ++ Util.base64Encode pps) =
      some (Util.base64Encode sps).length := by
    rw [List.append_assoc]
    exact hunbordered.find_append hfirst
  have hsps : (Util.base64Encode sps ++ ascii "," ++ Util.base64Encode pps).take
      (Util.base64Encode sps).length = Util.base64Encode sps := by
    rw [List.append_assoc, List.take_left]
  have hpps : (Util.base64Encode sps ++ ascii "," ++ Util.base64Encode pps).drop
      ((Util.base64Encode sps).length + 1) = Util.base64Encode pps := by
    rw [List.append_assoc, ← List.drop_drop, List.drop_left]
    rfl
  simp only [Client.parameterSets, fmtpLine_build hcr, spropOf_fmtp hne, hcomma, hsps, hpps,
    Util.base64Decode_encode, Option.bind_eq_bind, Option.bind_some, Option.pure_def]

/-- What a client finds in the description it is sent. -/
theorem parameterSets_sdpOf (o : Oracle) (w : World) (s : Session) :
    let sps := (o.parameterSets w.lookups).1
    let pps := (o.parameterSets w.lookups).2
    (s.hub = true → sps ≠ [] → pps ≠ [] →
      Client.parameterSets (Session.sdpOf o w s) = some (sps, pps)) ∧
    (s.hub = false ∨ sps = [] ∨ pps = [] → ∃ line,
      Client.fmtpLine (Session.sdpOf o w s) = some line ∧ Client.spropOf line = none) := by
  intro sps pps
  refine ⟨?_, ?_⟩
  · intro hhub hs hp
    have hsprop : (w.hubAtLookup o).spropParameterSets =
        Util.base64Encode sps ++ ascii "," ++ Util.base64Encode pps := by
      rw [Media.Hub.spropParameterSets, if_neg]
      · rfl
      · rintro (hnil | hnil)
        · exact hs hnil
        · exact hp hnil
    rw [Session.sdpOf, if_pos hhub, hsprop]
    exact parameterSets_build hs
  · intro hmissing
    have hempty : sps = [] ∨ pps = [] → (w.hubAtLookup o).spropParameterSets = [] := by
      intro hnil
      rw [Media.Hub.spropParameterSets]
      exact if_pos hnil
    have hsprop : (if s.hub then (w.hubAtLookup o).spropParameterSets else []) = [] := by
      cases hhub : s.hub with
      | false => rfl
      | true => exact hempty (hmissing.resolve_left (by simp [hhub]))
    rw [Session.sdpOf, hsprop]
    exact ⟨_, fmtpLine_build (by simp), spropOf_nil⟩

/-- A DESCRIBE is answered in every state. -/
theorem Session.Handled.of_describe {s' : Session} {a : Answer} {before after : List Op}
    (h : Session.Handled o w s req a s' before after) (hm : req.method = .describe) :
    a = .describe (Session.sdpOf o w s) (req.uri ++ ascii "/") := by
  cases h with
  | describe => rfl
  | notAllowed _ ha =>
    rw [hm] at ha
    cases ha
  | _ => simp_all

/-- Parameter sets survive DESCRIBE: in every state a client takes from the body of the
response exactly the SPS and PPS that the Hub holds, and finds no such parameter where one of
them is missing. -/
theorem describe_parameterSets (ord : HashOrder) (o : Oracle) (w : World) (s : Session)
    (raw : Bytes) (req : Request) (hp : parseRequest ord raw = .ok (some req))
    (hm : req.method = .describe) :
    let sps := (o.parameterSets w.lookups).1
    let pps := (o.parameterSets w.lookups).2
    ∃ response message,
      ((s.serve ord raw).exec o w).2.responses = w.responses ++ [response] ∧
      Client.nextMessage response = some (message, []) ∧
      (s.hub = true → sps ≠ [] → pps ≠ [] →
        Client.parameterSets message.body = some (sps, pps)) ∧
      (s.hub = false ∨ sps = [] ∨ pps = [] → ∃ line,
        Client.fmtpLine message.body = some line ∧ Client.spropOf line = none) := by
  intro sps pps
  obtain ⟨s', result, calls, heffect, hexec⟩ := Session.serve_effect ord o w s raw
  have hsent : calls.filterMap Op.sent =
      [(Reply.mk req.cseq (.describe (Session.sdpOf o w s) (req.uri ++ ascii "/"))).render] := by
    cases heffect with
    | raised he =>
      rw [hp] at he
      cases he
    | unparsable hn =>
      rw [hp] at hn
      cases hn
    | handled hp' hh =>
      rw [hp] at hp'
      cases hp'
      rw [List.filterMap_cons, Session.callsOf_sent hh, hh.of_describe hm]
      rfl
  have hframed : (Reply.mk req.cseq
      (.describe (Session.sdpOf o w s) (req.uri ++ ascii "/"))).Framed :=
    crlf_not_infix_append (parseRequest_uri hp) (by decide) (Or.inr (by decide))
  have hnext := Client.nextMessage_render hframed []
  rw [List.append_nil] at hnext
  refine ⟨_, _, ?_, hnext, parameterSets_sdpOf o w s⟩
  rw [hexec, World.afterAll_responses, hsent]

/-- A key of two bytes and one of five, for a client that has already set up. -/
theorem describe_parameterSets_padded :
    let o : Oracle :=
      { (default : Oracle) with parameterSets := fun _ => ([103, 66], [104, 0, 44, 13, 10]) }
    let s : Session := { Session.create (ascii "10.0.0.2") true 5 with state := .ready }
    let raw := ascii "DESCRIBE rtsp://h/s RTSP/1.0\r\nCSeq: 1\r\n\r\n"
    ∃ response message,
      ((s.serve default raw).exec o default).2.responses = [response] ∧
      Client.nextMessage response = some (message, []) ∧
      Client.parameterSets message.body = some ([103, 66], [104, 0, 44, 13, 10]) := by
  intro o s raw
  have hparsed : parseRequest default raw = .ok (some
      { method := .describe, uri := ascii "rtsp://h/s", cseq := 1,
        headers := [(ascii "CSeq", ascii "1")] }) := by
    decide
  obtain ⟨response, message, hsent, hnext, hboth, -⟩ :=
    describe_parameterSets default o default s raw _ hparsed rfl
  exact ⟨response, message, hsent, hnext, hboth rfl (by decide) (by decide)⟩

end Veda.Rtsp
