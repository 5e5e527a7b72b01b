import ViperFx.Core.Table
import ViperFx.Core.Prog
import ViperFx.Core.Crc
import ViperFx.Core.Fourier
import ViperFx.Core.IndexPool
import ViperFx.Core.Log
import ViperFx.Core.Loops
import ViperFx.Core.Mailbox
import ViperFx.Core.OverlapAdd
import ViperFx.Core.Sha2
import ViperFx.Core.Slots
import ViperFx.Core.Stream
import ViperFx.Core.Words
import ViperFx.Protocol.Wire
import ViperFx.Protocol.Frame
import ViperFx.Protocol.FrameDamage
import ViperFx.Protocol.DeviceKey
import ViperFx.Protocol.SnapshotSchema
import ViperFx.Protocol.SnapshotCommand
import ViperFx.Protocol.AppCommand
import ViperFx.Protocol.OwnerProtocol
import ViperFx.Protocol.ParameterStream
import ViperFx.Protocol.DriverEvent
import ViperFx.Protocol.ControlMessages
import ViperFx.Driver.SnapshotApply
import ViperFx.Driver.ViperContext
import ViperFx.Driver.RawRecords
import ViperFx.Driver.ResourceUploads
import ViperFx.Driver.Mailboxes
import ViperFx.Driver.SnapshotCommit
import ViperFx.Driver.FanOut
import ViperFx.Driver.GraphSlots
import ViperFx.Driver.SetConfig
import ViperFx.Driver.FloatMode
import ViperFx.Driver.SetParam
import ViperFx.Driver.AudioFormat
import ViperFx.Driver.GetParam
import ViperFx.Driver.IemContext
import ViperFx.Driver.ParameterSwap
import ViperFx.Driver.Playback
import ViperFx.Daemon.SessionRegistry
import ViperFx.Daemon.SnapshotStore
import ViperFx.Protocol.Sha256
import ViperFx.Protocol.DeviceIdentity
import ViperFx.Daemon.RouteCache
import ViperFx.Daemon.OwnerSupervisor
import ViperFx.Daemon.OwnerServer
import ViperFx.Daemon.AppEventServer
import ViperFx.Owner.OwnerWire
import ViperFx.Owner.OwnerMain
import ViperFx.Owner.HandleAgreement
import ViperFx.Channel.Machine
import ViperFx.Channel.Stream
import ViperFx.Channel.Replay
import ViperFx.Channel.Gaps
import ViperFx.Channel.Track
import ViperFx.Channel.Agreement
import ViperFx.Channel.Pipeline
import ViperFx.Channel.Answers
import ViperFx.Channel.Echo
import ViperFx.System.Runtime
import ViperFx.System.Provenance
import ViperFx.System.Sound
import ViperFx.System.Restore
import ViperFx.System.AppCopies
import ViperFx.System.StoredCopies
import ViperFx.System.Chronicle
import ViperFx.System.AppEndpoint
import ViperFx.System.AppStaging
import ViperFx.System.Transfers
import ViperFx.System.Routes
import ViperFx.System.Walk
import ViperFx.System.Inheritance
import ViperFx.System.RestoreArming
import ViperFx.System.CommitFiles
import ViperFx.Iem.Limiter
import ViperFx.Iem.Convolver
import ViperFx.Iem.HaloEncoder
import ViperFx.Iem.ParamReplay
import ViperFx.Iem.IemEngine
import ViperFx.Driver.IemGraph
import ViperFx.Driver.KernelAgreement
import ViperFx.Core.Ring
import ViperFx.Core.Rounding
import ViperFx.Iem.StreamingResampler
import ViperFx.Iem.PlanarBlockScheduler
import ViperFx.Iem.IemStream
import ViperFx.Iem.HaloDownmixProcessor
import ViperFx.Driver.GraphCrossfade
import ViperFx.Iem.GranularEncoder
import ViperFx.Iem.HaloSteering
import ViperFx.Iem.HaloUpmix
