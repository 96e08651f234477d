import Veda.Cpp

/-! The response builders. -/
namespace Veda.Rtsp

open Cpp

namespace Response

/-- `RTSP/1.0 200 OK` and the echoed sequence number, with which every success begins. -/
def okHead (cseq : Int) : Bytes :=
  ascii "RTSP/1.0 200 OK" ++ crlf ++ ascii "CSeq: " ++ showInt cseq ++ crlf

def ok (cseq : Int) : Bytes := okHead cseq ++ crlf

def okSession (cseq : Int) (sessionId : Bytes) : Bytes :=
  okHead cseq ++ ascii "Session: " ++ sessionId ++ crlf ++ crlf

def options (cseq : Int) : Bytes :=
  okHead cseq ++
  ascii "Public: OPTIONS, DESCRIBE, SETUP, PLAY, PAUSE, TEARDOWN, GET_PARAMETER" ++ crlf ++ crlf

def describe (cseq : Int) (sdp contentBase : Bytes) : Bytes :=
  okHead cseq ++
  ascii "Content-Type: application/sdp" ++ crlf ++
  ascii "Content-Base: " ++ contentBase ++ crlf ++
  ascii "Content-Length: " ++ decimal sdp.length ++ crlf ++ crlf ++ sdp

def setup (cseq : Int) (sessionId : Bytes) (clientRtpPort clientRtcpPort : Int)
    (serverRtpPort serverRtcpPort : Int) : Bytes :=
  okHead cseq ++
  ascii "Session: " ++ sessionId ++ crlf ++
  ascii "Transport: RTP/AVP;unicast;" ++
  ascii "client_port=" ++ showInt clientRtpPort ++ ascii "-" ++ showInt clientRtcpPort ++
  ascii ";" ++
  ascii "server_port=" ++ showInt serverRtpPort ++ ascii "-" ++ showInt serverRtcpPort ++ crlf ++
  crlf

def play (cseq : Int) (sessionId : Bytes) : Bytes :=
  okHead cseq ++ ascii "Session: " ++ sessionId ++ crlf ++
  ascii "Range: npt=0.000-" ++ crlf ++ crlf

def teardown (cseq : Int) (sessionId : Bytes) : Bytes :=
  okHead cseq ++ ascii "Session: " ++ sessionId ++ crlf ++ crlf

def error (cseq : Int) (statusCode : Int) (reason : Bytes) : Bytes :=
  ascii "RTSP/1.0 " ++ showInt statusCode ++ ascii " " ++ reason ++ crlf ++
  ascii "CSeq: " ++ showInt cseq ++ crlf ++ crlf

end Response

/-- The text of a response up to and including its sequence number line: a status line
without a line end, then `CSeq:` as the first header. -/
def HasHead (statusCode cseq : Int) (response : Bytes) : Prop :=
  ∃ reason tail, 13 ∉ reason ∧
    response = ascii "RTSP/1.0 " ++ showInt statusCode ++ ascii " " ++ reason ++ crlf ++
      ascii "CSeq: " ++ showInt cseq ++ crlf ++ tail

/-- The status code of a response, read as `std::stoi(response.substr(9, 3))`. -/
def statusOf (response : Bytes) : Except StdException Int := stoi ((response.drop 9).take 3)

end Veda.Rtsp
