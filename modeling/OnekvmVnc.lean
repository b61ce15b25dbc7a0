import OnekvmVnc.Lib.Transition
import OnekvmVnc.Lib.Coalesce
import OnekvmVnc.Lib.Framing
import OnekvmVnc.Lib.Damage
import OnekvmVnc.Lib.Grouping
import OnekvmVnc.Lib.Sharing
import OnekvmVnc.Lib.Cursor
import OnekvmVnc.Lib.Parties
import OnekvmVnc.Lib.Smallest
import OnekvmVnc.Lib.Strides
import OnekvmVnc.Lib.Sampling
import OnekvmVnc.Lib.Decoder
import OnekvmVnc.Lib.Cadence
import OnekvmVnc.Lib.Search
import OnekvmVnc.Lib.Scaling
import OnekvmVnc.Lib.Loop
import OnekvmVnc.Lib.Pieces
import OnekvmVnc.Lib.Numbering
import OnekvmVnc.Lib.Json
import OnekvmVnc.Lib.Doorbell
import OnekvmVnc.Theorems.Input.Requests
import OnekvmVnc.Theorems.Input.Coalescing
import OnekvmVnc.Theorems.Input.Release
import OnekvmVnc.Theorems.Input.Departure
import OnekvmVnc.Theorems.Input.Flush
import OnekvmVnc.Theorems.Input.Keyboard
import OnekvmVnc.Theorems.Input.Scaling
import OnekvmVnc.Theorems.Input.Motion
import OnekvmVnc.AdminHID
import OnekvmVnc.Theorems.AdminHID.Reading
import OnekvmVnc.Theorems.AdminHID.Response
import OnekvmVnc.Theorems.AdminHID.Posts
import OnekvmVnc.Ring
import OnekvmVnc.Theorems.Ring
import OnekvmVnc.RingMapping
import OnekvmVnc.Theorems.RingMapping
import OnekvmVnc.Leases
import OnekvmVnc.Theorems.Leases
import OnekvmVnc.Subscription
import OnekvmVnc.Theorems.Subscription
import OnekvmVnc.Descriptors
import OnekvmVnc.Theorems.Descriptors
import OnekvmVnc.SessionRequest
import OnekvmVnc.Theorems.SessionRequest
import OnekvmVnc.MediaFrame
import OnekvmVnc.Theorems.MediaFrame
import OnekvmVnc.Capability
import OnekvmVnc.Theorems.Capability
import OnekvmVnc.Theorems.Tiles
import OnekvmVnc.Theorems.Patch
import OnekvmVnc.Jpeg
import OnekvmVnc.Audio
import OnekvmVnc.Client
import OnekvmVnc.Tight
import OnekvmVnc.Theorems.Tight
import OnekvmVnc.Server
import OnekvmVnc.EventLoop
import OnekvmVnc.AudioInput
import OnekvmVnc.Theorems.Server.Change
import OnekvmVnc.Theorems.Server.Steps
import OnekvmVnc.Theorems.Server.Resize
import OnekvmVnc.Theorems.Server.Framing
import OnekvmVnc.Theorems.Server.Outstanding
import OnekvmVnc.Theorems.Server.Sizes
import OnekvmVnc.Theorems.Server.Damage
import OnekvmVnc.Theorems.Server.Turns
import OnekvmVnc.Theorems.Server.Pacing
import OnekvmVnc.Theorems.Server.JpegWrites
import OnekvmVnc.Theorems.Server.Starvation
import OnekvmVnc.Theorems.Server.Sockets
import OnekvmVnc.Theorems.Server.Cadence
import OnekvmVnc.Theorems.Server.AudioTurns
import OnekvmVnc.Theorems.Server.Switching
import OnekvmVnc.Theorems.AudioInput
import OnekvmVnc.Theorems.Server.AudioSession
import OnekvmVnc.Theorems.Server.AudioBacklog
import OnekvmVnc.Theorems.Server.AudioLimit
import OnekvmVnc.Theorems.Resampling
import OnekvmVnc.Theorems.Server.Arrivals
import OnekvmVnc.Run
import OnekvmVnc.Theorems.Run
import OnekvmVnc.Lib.Numeral
import OnekvmVnc.Identity
import OnekvmVnc.Theorems.Identity
import OnekvmVnc.Lib.Backoff
import OnekvmVnc.Media
import OnekvmVnc.Theorems.Media
import OnekvmVnc.Theorems.AudioSubscription
import OnekvmVnc.Config
import OnekvmVnc.Theorems.Config
import OnekvmVnc.Sink.H264
import OnekvmVnc.Sink.Consumers
import OnekvmVnc.Sink.Jpeg
import OnekvmVnc.Sink.Convert
import OnekvmVnc.Theorems.Sink.H264
import OnekvmVnc.Theorems.Sink.Nal
import OnekvmVnc.Theorems.Sink.Moves
import OnekvmVnc.Theorems.Sink.Consumers
import OnekvmVnc.Theorems.Sink.Demand
import OnekvmVnc.Theorems.Sink.Idle
import OnekvmVnc.Theorems.Sink.Input
import OnekvmVnc.Theorems.Sink.Agreement
import OnekvmVnc.Theorems.Sink.Buffer
import OnekvmVnc.Theorems.Sink.Jpeg
import OnekvmVnc.Theorems.Sink.Convert
import OnekvmVnc.Theorems.Sink.CurrentFrame
import OnekvmVnc.Theorems.Sink.Raw
import OnekvmVnc.Theorems.Sink.Framebuffer
import OnekvmVnc.Theorems.Sink.Messages
import OnekvmVnc.Theorems.Sink.Throttling
import OnekvmVnc.Sink.Lifecycle
import OnekvmVnc.Theorems.Sink.Lifecycle
