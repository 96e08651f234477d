import Veda.Camera.Source
import Veda.Lib.Delimited
import Veda.Lib.Effects
import Veda.Lib.Framing
import Veda.Lib.Lines
import Veda.Lib.Search
import Veda.Lib.Transitions
import Veda.Media.AnnexB
import Veda.Media.CameraHub
import Veda.Media.CameraStreams
import Veda.Media.ClockDrift
import Veda.Media.DataRaces
import Veda.Media.FanOut
import Veda.Media.FileHub
import Veda.Media.Linearization
import Veda.Media.LivePump
import Veda.Media.MarkerBit
import Veda.Media.PictureClock
import Veda.Media.Playback
import Veda.Media.Progress
import Veda.Media.Viewing
import Veda.Media.ZeroPadding
import Veda.Net.TcpSocket
import Veda.Rtp.Decode
import Veda.Rtp.FragmentLaw
import Veda.Rtp.RoundTrip
import Veda.Rtsp.Atomicity
import Veda.Rtsp.ContentLength
import Veda.Rtsp.Descriptors
import Veda.Rtsp.Dialogue
import Veda.Rtsp.Disconnect
import Veda.Rtsp.EventLoop
import Veda.Rtsp.Formatting
import Veda.Rtsp.Framing
import Veda.Rtsp.HashOrders
import Veda.Rtsp.Isolation
import Veda.Rtsp.LoopEvents
import Veda.Rtsp.Negotiation
import Veda.Rtsp.OwnCalls
import Veda.Rtsp.ParameterSets
import Veda.Rtsp.PausePlay
import Veda.Rtsp.PlayAnswer
import Veda.Rtsp.Ports
import Veda.Rtsp.PrintParse
import Veda.Rtsp.Raising
import Veda.Rtsp.Replay
import Veda.Rtsp.ResponseStream
import Veda.Rtsp.Responses
import Veda.Rtsp.RtpWindow
import Veda.Rtsp.Sending
import Veda.Rtsp.Serial
import Veda.Rtsp.Session
import Veda.Rtsp.SessionId
import Veda.Rtsp.SizeGuard
import Veda.Rtsp.StateMachine
import Veda.Rtsp.Subscriptions
