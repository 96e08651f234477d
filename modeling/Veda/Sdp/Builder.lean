import Veda.Cpp

/-! The SDP body of a DESCRIBE response. -/
namespace Veda.Sdp

open Cpp

structure VideoStreamInfo where
  payloadType : Int := 96
  clockRate : Int := 90000
  /-- `<SPS>,<PPS>` in Base64, or empty. -/
  spropParameterSets : Bytes := []

def build (info : VideoStreamInfo) : Bytes :=
  ascii "v=0\r\n" ++
  ascii "o=- 0 0 IN IP4 0.0.0.0\r\n" ++
  ascii "s=VEDA RTSP Stream\r\n" ++
  ascii "c=IN IP4 0.0.0.0\r\n" ++
  ascii "t=0 0\r\n" ++
  ascii "a=control:*\r\n" ++
  ascii "m=video 0 RTP/AVP " ++ showInt info.payloadType ++ crlf ++
  ascii "a=rtpmap:" ++ showInt info.payloadType ++ ascii " H264/" ++ showInt info.clockRate ++
  crlf ++
  ascii "a=fmtp:" ++ showInt info.payloadType ++ ascii " packetization-mode=1" ++
  (if info.spropParameterSets = [] then []
    else ascii ";sprop-parameter-sets=" ++ info.spropParameterSets) ++
  crlf ++
  ascii "a=control:track0\r\n"

end Veda.Sdp
