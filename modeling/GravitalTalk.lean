import GravitalTalk.Lib.Bytes
import GravitalTalk.Lib.Codec
import GravitalTalk.Lib.Slots
import GravitalTalk.Lib.Text
import GravitalTalk.Lib.Greedy
import GravitalTalk.Lib.ShiftRegister
import GravitalTalk.Lib.Serial
import GravitalTalk.Lib.TableCrc
import GravitalTalk.Lib.XorParity
import GravitalTalk.Lib.Blocks
import GravitalTalk.Lib.Batching
import GravitalTalk.Lib.Transition
import GravitalTalk.Lib.Trace
import GravitalTalk.Lib.Linearization
import GravitalTalk.Lib.Insertion
import GravitalTalk.Lib.Framing
import GravitalTalk.Lib.Smoothing
import GravitalTalk.Core.Constants
import GravitalTalk.Core.Checksum
import GravitalTalk.Core.Header
import GravitalTalk.Core.Packet
import GravitalTalk.Core.ReferenceCrc
import GravitalTalk.Core.ErrorDetection
import GravitalTalk.Core.Message
import GravitalTalk.Core.Fragment
import GravitalTalk.Core.Reassembly
import GravitalTalk.Core.Floor
import GravitalTalk.Core.FloorOwnership
import GravitalTalk.Core.PayloadCodecs
import GravitalTalk.Core.Crypto
import GravitalTalk.Core.SessionState
import GravitalTalk.Metrics.Estimators
import GravitalTalk.Metrics.JitterFilter
import GravitalTalk.Metrics.LossWindow
import GravitalTalk.Metrics.LossCount
import GravitalTalk.Metrics.Settling
import GravitalTalk.Codec.Pcm
import GravitalTalk.Transport.Congestion
import GravitalTalk.Transport.JitterBuffer
import GravitalTalk.Transport.JitterWindow
import GravitalTalk.Transport.JitterTrace
import GravitalTalk.Transport.JitterInvariant
import GravitalTalk.Transport.JitterReorder
import GravitalTalk.Transport.JitterBurst
import GravitalTalk.Transport.JitterIdle
import GravitalTalk.Transport.Fec
import GravitalTalk.Transport.FecGroups
import GravitalTalk.Transport.FecRecovery
import GravitalTalk.Transport.Session
import GravitalTalk.Transport.Construction
import GravitalTalk.Transport.CongestionRuns
import GravitalTalk.Transport.Stun
import GravitalTalk.Transport.StunResponse
import GravitalTalk.Transport.StunDiscovery
import GravitalTalk.Transport.Discovery
import GravitalTalk.Transport.Receive
import GravitalTalk.Transport.PushToTalk
import GravitalTalk.Transport.Delivery
import GravitalTalk.Transport.OffPath
import GravitalTalk.Transport.Send
import GravitalTalk.Transport.AudioStream
import GravitalTalk.Transport.ParitySize
import GravitalTalk.Transport.Contents
import GravitalTalk.Transport.EndToEnd
import GravitalTalk.Transport.RoundTrip
import GravitalTalk.Transport.Senders
import GravitalTalk.Transport.FecNumbering
import GravitalTalk.Transport.FecOrder
import GravitalTalk.Transport.AudioSecrecy
import GravitalTalk.Transport.NonceReuse
import GravitalTalk.Transport.KeySchedule
import GravitalTalk.Transport.Handshake
import GravitalTalk.Transport.HandshakeStep
import GravitalTalk.Transport.HandshakeInvariant
import GravitalTalk.Transport.HandshakeRun
import GravitalTalk.Transport.Agreement
import GravitalTalk.Transport.HandshakeNoise
import GravitalTalk.Transport.NoiseImmunity
import GravitalTalk.Transport.HandshakeLoss
import GravitalTalk.Transport.Closing
import GravitalTalk.Transport.ClosingMoves
import GravitalTalk.Transport.CloseFinal
import GravitalTalk.Transport.LoneCall
import GravitalTalk.Transport.CallInvariant
import GravitalTalk.Transport.HandshakeOutcome
import GravitalTalk.Transport.PeerLiveness
import GravitalTalk.Transport.ServerTwins
import GravitalTalk.Transport.Amplification
import GravitalTalk.Relay.Router
import GravitalTalk.Relay.RouterInvariant
import GravitalTalk.Relay.Refusals
import GravitalTalk.Relay.Entry
import GravitalTalk.Relay.Floor
import GravitalTalk.Relay.FanOut
import GravitalTalk.Relay.Concurrent
import GravitalTalk.Relay.Workers
import GravitalTalk.Relay.WorkerFloor
import GravitalTalk.Relay.RoomCode
import GravitalTalk.Relay.RoomsApi
import GravitalTalk.Relay.Ingress
import GravitalTalk.Relay.Turns
import GravitalTalk.Relay.Bridge
import GravitalTalk.Relay.Connections
import GravitalTalk.Relay.Accounting
import GravitalTalk.Relay.IngressAgreement
import GravitalTalk.Relay.FloorAccess
import GravitalTalk.Relay.HandshakeRelay
import GravitalTalk.Relay.Talkers
import GravitalTalk.Relay.SingleTalker
import GravitalTalk.Facade.CodecSession
import GravitalTalk.Facade.FrameSize
import GravitalTalk.Facade.Concealment
import GravitalTalk.Facade.CodecHandshake
import GravitalTalk.Ffi.RecvAudio
import GravitalTalk.Ffi.RecvRuns
import GravitalTalk.Io.Capture
import GravitalTalk.Io.CaptureFraming
import GravitalTalk.Io.Playback
import GravitalTalk.Io.Resampler
