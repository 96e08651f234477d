import Veda.Rtsp.Ports
import Veda.Rtsp.ResponseStream

/-!
The ports of a SETUP from the header of the request to that of the response. They are found
wherever they stand among the parameters, and the answer reads back as it was printed.
-/
namespace Veda.Rtsp

open Cpp Delimited Transitions

/-- The `client_port` parameter as a client may write it. -/
inductive ClientPorts
  | range (rtp rtcp : Int)
  | single (rtp : Int)

namespace ClientPorts

def text : ClientPorts → Bytes
  | range rtp rtcp => showInt rtp ++ ascii "-" ++ showInt rtcp
  | single rtp => showInt rtp

def rtpPort : ClientPorts → Int
  | range rtp _ => rtp
  | single rtp => rtp

def rtcpPort : ClientPorts → Int
  | range _ rtcp => rtcp
  | single rtp => rtp + 1

/-- Ports from 1 to 65535; a single port has a successor among them. -/
def Valid : ClientPorts → Prop
  | range rtp rtcp => ValidPort rtp ∧ ValidPort rtcp
  | single rtp => ValidPort rtp ∧ rtp < 65535

end ClientPorts

namespace Client

/-- The value of a header, by the first line of its name. -/
def headerOf (lines : List Bytes) (name : Bytes) : Option Bytes :=
  (lines.find? fun line => iequals (headerName line) name).map headerValue

end Client

variable {ord : HashOrder} {o : Oracle} {w : World} {s s' : Session} {raw : Bytes}
  {req : Request} {a : Answer} {before after : List Op} {ports : ClientPorts}
  {front back text : Bytes} {port : Int}

/-- The parameters behind the ports begin with a delimiter. -/
def Delimits (back : Bytes) : Prop := back = [] ∨ back.head? = some 59 ∨ back.head? = some 44

theorem clientPortKey_unbordered : Unbordered clientPortKey := by decide +kernel

/-- The parameter is found behind any others and ends before the next delimiter. -/
theorem clientPortText_between (hfront : ¬ clientPortKey <:+: front)
    (htext : ∀ b ∈ text, b ≠ 59 ∧ b ≠ 44) (hback : Delimits back) :
    clientPortText (front ++ clientPortKey ++ text ++ back) = some text := by
  have hfind : Cpp.find clientPortKey (front ++ (clientPortKey ++ (text ++ back))) =
      some front.length :=
    clientPortKey_unbordered.find_append hfront
  have hrest : (front ++ (clientPortKey ++ (text ++ back))).drop (front.length + 12) =
      text ++ back := by
    rw [← List.drop_drop, List.drop_left]
    exact List.drop_left' (by decide +kernel)
  have hall : ∀ b ∈ text, (b ≠ 59 && b ≠ 44) = true := by
    intro b hb
    simpa using htext b hb
  have hend : back.takeWhile (fun b => b ≠ 59 && b ≠ 44) = [] := by
    cases back with
    | nil => rfl
    | cons b back =>
      rcases hback with hnil | hb | hb
      · cases hnil
      · cases hb
        rfl
      · cases hb
        rfl
  rw [List.append_assoc, List.append_assoc, clientPortText, hfind, Option.map_some, hrest,
    List.takeWhile_append_of_pos hall, hend, List.append_nil]

theorem showInt_port (h : ValidPort port) : 45 ∉ showInt port ∧ stoi (showInt port) = .ok port := by
  obtain ⟨hpos, hmax⟩ := h
  constructor
  · rw [showInt, if_neg (by omega)]
    intro hm
    exact absurd (decimal_digits hm) (by decide)
  · apply stoi_showInt
    · rw [intMin]
      omega
    · rw [intMax]
      omega

theorem ClientPorts.text_plain (ports : ClientPorts) : ∀ b ∈ ports.text, b ≠ 59 ∧ b ≠ 44 := by
  have hshow : ∀ z : Int, ∀ b ∈ showInt z, b ≠ 59 ∧ b ≠ 44 := by
    intro z b hb
    rcases showInt_bytes hb with hd | rfl
    · constructor
      · rintro rfl
        exact absurd hd (by decide)
      · rintro rfl
        exact absurd hd (by decide)
    · decide
  intro b hb
  cases ports with
  | range rtp rtcp =>
    simp only [text, List.mem_append] at hb
    rcases hb with (hb | hb) | hb
    · exact hshow rtp b hb
    · rw [show ascii "-" = [45] by decide, List.mem_singleton] at hb
      subst hb
      decide
    · exact hshow rtcp b hb
  | single rtp => exact hshow rtp b hb

/-- Whatever stands around the ports, they are the ones that are read. -/
theorem parseTransport_negotiated (hports : ports.Valid) (hfront : ¬ clientPortKey <:+: front)
    (hback : Delimits back) (rtpPort rtcpPort : Int) :
    parseTransport (front ++ clientPortKey ++ ports.text ++ back) rtpPort rtcpPort =
      { ok := true, rtpPort := ports.rtpPort, rtcpPort := ports.rtcpPort } := by
  rw [parseTransport, clientPortText_between hfront ports.text_plain hback]
  cases ports with
  | range rtp rtcp =>
    obtain ⟨hrtp, hrtcp⟩ := hports
    obtain ⟨hdash, hrtpText⟩ := showInt_port hrtp
    have htext : (ClientPorts.range rtp rtcp).text = showInt rtp ++ 45 :: showInt rtcp := by
      rw [ClientPorts.text, List.append_assoc]
      rfl
    have hfind : Cpp.find [45] (showInt rtp ++ 45 :: showInt rtcp) =
        some (showInt rtp).length :=
      find_singleton_iff.mpr ⟨_, _, rfl, hdash, rfl⟩
    have hrest : (showInt rtp ++ 45 :: showInt rtcp).drop ((showInt rtp).length + 1) =
        showInt rtcp := by
      rw [← List.drop_drop, List.drop_left]
      rfl
    have hvalid : (decide (rtp > 0) && decide (rtp ≤ 65535)) = true := inRange_iff.mpr hrtp
    simp only [htext, hfind, hrest, List.take_left, hrtpText, (showInt_port hrtcp).2, hvalid,
      ClientPorts.rtpPort, ClientPorts.rtcpPort]
  | single rtp =>
    obtain ⟨hrtp, hlast⟩ := hports
    obtain ⟨hdash, hrtpText⟩ := showInt_port hrtp
    have hfind : Cpp.find [45] (showInt rtp) = none := find_singleton_none.mpr hdash
    have hvalid : (decide (rtp > 0) && decide (rtp ≤ 65535)) = true := inRange_iff.mpr hrtp
    have hoverflow : addOverflows rtp 1 = false := by
      have hrange := stoi_range hrtpText
      refine (addOverflows_one hrange.2).mpr ⟨?_, ?_⟩
      · rw [intMax]
        omega
      · omega
    simp only [ClientPorts.text, hfind, hrtpText, hvalid, intAdd_one hrtp, hoverflow,
      ClientPorts.rtpPort, ClientPorts.rtcpPort]

theorem ClientPorts.Valid.both (h : ports.Valid) :
    (ClientPorts.range ports.rtpPort ports.rtcpPort).Valid := by
  cases ports with
  | range rtp rtcp => exact h
  | single rtp =>
    obtain ⟨hrtp, hlast⟩ := h
    have hpos := hrtp.1
    refine ⟨hrtp, ?_, ?_⟩
    · simp only [ClientPorts.rtcpPort]
      omega
    · simp only [ClientPorts.rtcpPort]
      omega

/-- What stands behind `Transport: ` in a reply to SETUP. -/
def transportValue (rtpPort rtcpPort : Int) : Bytes :=
  ascii "RTP/AVP;unicast;" ++ clientPortKey ++ (ClientPorts.range rtpPort rtcpPort).text ++
    ascii ";server_port=6970-6971"

theorem transportValue_trimmed (rtpPort rtcpPort : Int) :
    Trimmed (transportValue rtpPort rtcpPort) := by
  have hhead : ascii "RTP/AVP;unicast;" ≠ [] ∧
      ∀ c ∈ (ascii "RTP/AVP;unicast;").head?, isspace c = false := by
    decide +kernel
  have hlast : ascii ";server_port=6970-6971" ≠ [] ∧
      ∀ c ∈ (ascii ";server_port=6970-6971").getLast?, isspace c = false := by
    decide +kernel
  rw [transportValue]
  constructor
  · rw [List.append_assoc, List.append_assoc, List.head?_append_of_ne_nil _ hhead.1]
    exact hhead.2
  · rw [List.getLast?_append_of_ne_nil _ hlast.1]
    exact hlast.2

theorem transport_line (rtpPort rtcpPort : Int) :
    ascii "Transport: RTP/AVP;unicast;client_port=" ++ showInt rtpPort ++ ascii "-" ++
      showInt rtcpPort ++ ascii ";server_port=6970-6971" =
        ascii "Transport:" ++ 32 :: transportValue rtpPort rtcpPort := by
  have hfirst : ascii "Transport: RTP/AVP;unicast;client_port=" =
      ascii "Transport:" ++ 32 :: (ascii "RTP/AVP;unicast;" ++ clientPortKey) := by
    decide +kernel
  rw [hfirst, transportValue, ClientPorts.text]
  simp only [List.append_assoc, List.cons_append]

/-- What the server prints is read back, whatever ports the reader had. -/
theorem parseTransport_transportValue (h : ports.Valid) (rtpPort rtcpPort : Int) :
    parseTransport (transportValue ports.rtpPort ports.rtcpPort) rtpPort rtcpPort =
      { ok := true, rtpPort := ports.rtpPort, rtcpPort := ports.rtcpPort } :=
  parseTransport_negotiated h.both (by decide +kernel) (Or.inr (Or.inl (by decide +kernel)))
    rtpPort rtcpPort

/-- A header line is called what stands before its colon. -/
theorem Client.iequals_headerName {name : Bytes} (rest field : Bytes) (h : 58 ∈ name) :
    iequals (headerName (name ++ rest)) field = iequals (headerName name) field := by
  rw [(takeWhile_dropWhile_colon rest h).1]

/-- The Transport header of a reply to SETUP as a client finds it. -/
theorem headerOf_setup (cseq : Int) (id : Bytes) (rtpPort rtcpPort : Int) :
    Client.headerOf (Reply.mk cseq (.setup id rtpPort rtcpPort)).lines (ascii "Transport") =
      some (transportValue rtpPort rtcpPort) := by
  have hheader : Client.headerValue (ascii "Transport:" ++ 32 :: transportValue rtpPort rtcpPort) =
      transportValue rtpPort rtcpPort := by
    rw [Client.headerValue, (Client.takeWhile_dropWhile_colon _ (by decide +kernel)).2]
    exact (transportValue_trimmed rtpPort rtcpPort).trim
  have hstatus : iequals (Client.headerName (ascii "RTSP/1.0 200 OK")) (ascii "Transport") =
      false := by
    decide +kernel
  have hcseq : iequals (Client.headerName (ascii "CSeq: " ++ showInt cseq)) (ascii "Transport") =
      false := by
    rw [Client.iequals_headerName _ _ (by decide +kernel)]
    decide +kernel
  have hsession : iequals (Client.headerName (ascii "Session: " ++ id)) (ascii "Transport") =
      false := by
    rw [Client.iequals_headerName _ _ (by decide +kernel)]
    decide +kernel
  have htransport : iequals
      (Client.headerName (ascii "Transport:" ++ 32 :: transportValue rtpPort rtcpPort))
      (ascii "Transport") = true := by
    rw [Client.iequals_headerName _ _ (by decide +kernel)]
    decide +kernel
  simp only [Client.headerOf, Reply.lines, Reply.statusLine, Reply.headerLines, transport_line,
    List.find?_cons, hstatus, hcseq, hsession, htransport, Option.map_some, hheader]

/-- A SETUP with a good Transport header has one outcome. -/
theorem Session.Handled.of_setup {t : TransportResult}
    (h : Session.Handled o w s req a s' before after) (hm : req.method = .setup)
    (ha : s.methodAllowed .setup = true) (ht : s.transportOf req = some t) (hok : t.ok = true) :
    a = .setup (Session.announcedId o w s) t.rtpPort t.rtcpPort ∧
    s' = { s.withPorts t with sessionId := Session.announcedId o w s, state := .ready } := by
  cases h with
  | setup t' _ _ ht' _ =>
    rw [ht] at ht'
    cases ht'
    exact ⟨rfl, rfl⟩
  | badTransport t' _ _ ht' hbad =>
    rw [ht] at ht'
    cases ht'
    rw [hok] at hbad
    cases hbad
  | _ => simp_all

/-- A SETUP gets the ports it asks for, wherever they stand in its Transport header, and the
Transport header of the answer gives them to the client by the same rules. -/
theorem setup_negotiates (hdrawn : ∀ n, ∃ drawn, o.sessionId n = generateSessionId drawn)
    (clientIp : Bytes) (hub : Bool) (conn : ConnId) (uses : List Use) (w₀ : World)
    (hrun : ((Session.create clientIp hub conn).useAll ord uses).exec o w₀ = (s, w))
    (hstate : s.state = .init ∨ s.state = .ready)
    (hp : parseRequest ord raw = .ok (some req)) (hm : req.method = .setup)
    (htransport : header req (ascii "Transport") =
      some (front ++ clientPortKey ++ ports.text ++ back))
    (hports : ports.Valid) (hfront : ¬ clientPortKey <:+: front) (hback : Delimits back) :
    ∃ s' w' response message value,
      (s.serve ord raw).exec o w = ((s', none), w') ∧ s'.state = .ready ∧
      s'.clientRtpPort = ports.rtpPort ∧ s'.clientRtcpPort = ports.rtcpPort ∧
      w'.responses = w.responses ++ [response] ∧ statusOf response = .ok 200 ∧
      Client.nextMessage response = some (message, []) ∧
      Client.headerOf message.lines (ascii "Transport") = some value ∧
      ∀ rtpPort rtcpPort, parseTransport value rtpPort rtcpPort =
        { ok := true, rtpPort := ports.rtpPort, rtcpPort := ports.rtcpPort } := by
  have hid := sessionId_hex hdrawn
  have hallowed : s.methodAllowed .setup = true := by
    rcases hstate with hstate | hstate <;> simp [Session.methodAllowed, hstate]
  have hresult := parseTransport_negotiated hports hfront hback s.clientRtpPort s.clientRtcpPort
  have ht : s.transportOf req =
      some { ok := true, rtpPort := ports.rtpPort, rtcpPort := ports.rtcpPort } := by
    rw [Session.transportOf, htransport, Option.map_some, hresult]
  have hs : IdHex s := by
    obtain ⟨ms, hmoves⟩ : ∃ ms, Run (Moves ord o) (Session.create clientIp hub conn, w₀) ms
        (((Session.create clientIp hub conn).useAll ord uses).exec o w₀) :=
      Session.useAll_moves uses
    rw [hrun] at hmoves
    exact idHex_run hid hmoves fun b hb => by cases hb
  obtain ⟨a, s', before, after, hh, hserve⟩ := @Session.serve_handled ord o w s raw req hp
  obtain ⟨ha, hs'⟩ := hh.of_setup hm hallowed ht rfl
  have hframed := hh.framed hid hs hp
  have hsent := Session.callsOf_sent hh
  have hready : s'.state = .ready := by rw [hs']
  have hopen : s'.state ≠ .closed := by simp [hready]
  rw [if_neg hopen] at hserve
  have hnext := Client.nextMessage_render hframed []
  rw [List.append_nil] at hnext
  refine ⟨s', _, _, _, transportValue ports.rtpPort ports.rtcpPort, hserve, hready,
    by rw [hs']; rfl, by rw [hs']; rfl, ?_, ?_, hnext, ?_, parseTransport_transportValue hports⟩
  · rw [World.afterAll_responses, List.filterMap_cons, hsent]
    rfl
  · rw [Reply.statusOf_render, ha]
    rfl
  · rw [ha]
    exact headerOf_setup _ _ _ _

theorem setup_negotiates_middle :
    let o : Oracle := { (default : Oracle) with sessionId := fun _ => ascii "1A2B3C4D" }
    let s := Session.create (ascii "10.0.0.2") true 5
    let raw := ascii ("SETUP rtsp://h/s RTSP/1.0\r\nCSeq: 1\r\n" ++
      "Transport: RTP/AVP;unicast;mode=a-b;client_port=5000-5001;x\r\n\r\n")
    ∃ s' w' response message value,
      (s.serve default raw).exec o default = ((s', none), w') ∧ s'.state = .ready ∧
      s'.clientRtpPort = 5000 ∧ s'.clientRtcpPort = 5001 ∧
      w'.responses = [response] ∧ statusOf response = .ok 200 ∧
      Client.nextMessage response = some (message, []) ∧
      Client.headerOf message.lines (ascii "Transport") = some value ∧
      ∀ rtpPort rtcpPort, parseTransport value rtpPort rtcpPort =
        { ok := true, rtpPort := 5000, rtcpPort := 5001 } := by
  intro o s raw
  have hparsed : parseRequest default raw = .ok (some
      { method := .setup, uri := ascii "rtsp://h/s", cseq := 1,
        headers := [(ascii "CSeq", ascii "1"),
          (ascii "Transport", ascii "RTP/AVP;unicast;mode=a-b;client_port=5000-5001;x")] }) := by
    decide +kernel
  have hdrawn : ascii "1A2B3C4D" = generateSessionId 0x1A2B3C4D := by decide +kernel
  have hports : (ClientPorts.range 5000 5001).Valid :=
    ⟨⟨by decide, by decide⟩, ⟨by decide, by decide⟩⟩
  have htransport :
      some (ascii "RTP/AVP;unicast;mode=a-b;client_port=5000-5001;x") =
        some (ascii "RTP/AVP;unicast;mode=a-b;" ++ clientPortKey ++
          (ClientPorts.range 5000 5001).text ++ ascii ";x") := by
    decide +kernel
  exact @setup_negotiates default o default s raw _ _ _ _ (fun _ => ⟨_, hdrawn⟩) (ascii "10.0.0.2")
    true 5 [] default rfl (Or.inl rfl) hparsed rfl htransport hports (by decide +kernel)
    (Or.inr (Or.inl (by decide +kernel)))

end Veda.Rtsp
