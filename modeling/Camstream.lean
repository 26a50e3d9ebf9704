import Camstream.App.JsonBounds
import Camstream.App.JsonReply
import Camstream.Lib.CString
import Camstream.Lib.DirectMapped
import Camstream.Lib.Run
import Camstream.Libpeer.Lifecycle
import Camstream.Media.Accounting
import Camstream.Media.AuRing
import Camstream.Media.EncoderM2m
import Camstream.Media.FrameHub
import Camstream.Media.FramePool
import Camstream.Media.Headroom
import Camstream.Media.InputBuffers
import Camstream.Media.Isolation
import Camstream.Media.KeepNewest
import Camstream.Media.KeyframeRequests
import Camstream.Media.Mailboxes
import Camstream.Media.PictureOrder
import Camstream.Media.References
import Camstream.Media.YuvReference
import Camstream.Rtcp.Compound
import Camstream.Rtcp.Feedback
import Camstream.Rtp.Bookkeeping
import Camstream.Rtp.Depacketizer
import Camstream.Rtp.Marker
import Camstream.Session.Reports
import Camstream.Sdp.AnswerBuffer
import Camstream.Sdp.Credentials
import Camstream.Sdp.RoundTrip
import Camstream.Session.Destination
import Camstream.Session.Fingerprint
import Camstream.Session.Lifecycle
import Camstream.Session.Negotiation
import Camstream.Session.Repair
import Camstream.Session.Session
import Camstream.Session.Verification
import Camstream.Session.Watchdogs
import Camstream.Stun.BindingResponse
import Camstream.Stun.Bounds
import Camstream.Stun.ErrorCode
import Camstream.Stun.MappedAddress
import Camstream.Vision.FrameMatrix
import Camstream.Vision.LeastError
import Camstream.Vision.Mosaic
import Camstream.Vision.Registration
import Camstream.Vision.SearchReads
import Camstream.Vision.StillScene
import Camstream.Vision.ValidBytes
import Camstream.Vision.VisionWorker
import Camstream.App.Close
import Camstream.App.ConfigValues
import Camstream.App.Json
import Camstream.App.JsonBounds
import Camstream.App.JsonReply
import Camstream.App.JsonLookup
import Camstream.Lib.FixedPoint
import Camstream.Media.Oversized
import Camstream.Rtcp.SenderReport
import Camstream.Session.DatagramReads
import Camstream.Session.DtlsQueue
import Camstream.Lib.Table
import Camstream.Media.BufferTables
import Camstream.App.EventLoop
import Camstream.App.FanOut
import Camstream.App.Pipeline
import Camstream.Lib.Loops
import Camstream.Media.TestPattern
import Camstream.Media.TestSource
import Camstream.Media.FrameContents
import Camstream.Media.SourceWorker
import Camstream.App.Reception
