import TelemetryEdge.Foundation.Attempt
import TelemetryEdge.Foundation.Binary64
import TelemetryEdge.Foundation.Binary64Difference
import TelemetryEdge.Foundation.Binary64Fraction
import TelemetryEdge.Foundation.Binary64Integer
import TelemetryEdge.Foundation.Binary64Sign
import TelemetryEdge.Foundation.Binary64Single
import TelemetryEdge.Foundation.Bytes
import TelemetryEdge.Foundation.Cadence
import TelemetryEdge.Foundation.Channel
import TelemetryEdge.Foundation.Elementary
import TelemetryEdge.Foundation.ExactRational
import TelemetryEdge.Foundation.Float64
import TelemetryEdge.Foundation.KeyedLoop
import TelemetryEdge.Foundation.Machine
import TelemetryEdge.Foundation.Progress
import TelemetryEdge.Foundation.Registration
import TelemetryEdge.Foundation.Saturating
import TelemetryEdge.Foundation.Significand
import TelemetryEdge.Foundation.Slots
import TelemetryEdge.Foundation.Tally
import TelemetryEdge.Foundation.Text
import TelemetryEdge.Foundation.Transition
import TelemetryEdge.Foundation.Traversal
import TelemetryEdge.Foundation.XorShift
import TelemetryEdge.Protocol.Catalog
import TelemetryEdge.Protocol.Cut
import TelemetryEdge.Protocol.EnumCodec
import TelemetryEdge.Protocol.FloatPayload
import TelemetryEdge.Protocol.IntegerPayload
import TelemetryEdge.Protocol.Kinds
import TelemetryEdge.Protocol.Lookup
import TelemetryEdge.Protocol.OlderCatalog
import TelemetryEdge.Protocol.PacketCodec
import TelemetryEdge.Protocol.PacketDecode
import TelemetryEdge.Protocol.PacketFormat
import TelemetryEdge.Protocol.Ruleset
import TelemetryEdge.Protocol.ScaledInteger
import TelemetryEdge.Protocol.UnscaledInteger
import TelemetryEdge.Protocol.ValidCatalog
import TelemetryEdge.Protocol.Value
import TelemetryEdge.Protocol.Wire
import TelemetryEdge.Rules.Acceptance
import TelemetryEdge.Rules.Cadence
import TelemetryEdge.Rules.Compile
import TelemetryEdge.Rules.Condition
import TelemetryEdge.Rules.Deadline
import TelemetryEdge.Rules.Engine
import TelemetryEdge.Rules.History
import TelemetryEdge.Rules.Invariant
import TelemetryEdge.Rules.Kinds
import TelemetryEdge.Rules.Language
import TelemetryEdge.Rules.Loaded
import TelemetryEdge.Rules.ModelIndependence
import TelemetryEdge.Rules.NonInterference
import TelemetryEdge.Rules.Portability
import TelemetryEdge.Rules.Provenance
import TelemetryEdge.Rules.Reconstruction
import TelemetryEdge.Rules.ReportSize
import TelemetryEdge.Rules.Reporting
import TelemetryEdge.Rules.Representation
import TelemetryEdge.Rules.Schedule
import TelemetryEdge.Rules.Semantics
import TelemetryEdge.Rules.Swap
import TelemetryEdge.Rules.Untimed
import TelemetryEdge.Rules.View
import TelemetryEdge.Simulator.Delivery
import TelemetryEdge.Simulator.Frames
import TelemetryEdge.Simulator.Garbage
import TelemetryEdge.Simulator.GarbageCounts
import TelemetryEdge.Simulator.GarbageEffects
import TelemetryEdge.Simulator.LoggedDrive
import TelemetryEdge.Simulator.Rng
import TelemetryEdge.Simulator.Simulation
import TelemetryEdge.Simulator.Vehicle
import TelemetryEdge.Simulator.VehicleModes
import TelemetryEdge.Simulator.VehicleRange
import TelemetryEdge.Telemetryd.Cascade
import TelemetryEdge.Telemetryd.EndToEnd
import TelemetryEdge.Telemetryd.EngineTask
import TelemetryEdge.Telemetryd.FailedRotation
import TelemetryEdge.Telemetryd.FaultyWrites
import TelemetryEdge.Telemetryd.FileLimit
import TelemetryEdge.Telemetryd.Grouping
import TelemetryEdge.Telemetryd.Lives
import TelemetryEdge.Telemetryd.Memory
import TelemetryEdge.Telemetryd.Metrics
import TelemetryEdge.Telemetryd.Output
import TelemetryEdge.Telemetryd.Pipeline
import TelemetryEdge.Telemetryd.Provenance
import TelemetryEdge.Telemetryd.Reconstruction
import TelemetryEdge.Telemetryd.Replay
import TelemetryEdge.Telemetryd.Rotation
import TelemetryEdge.Telemetryd.Shutdown
import TelemetryEdge.Telemetryd.Startup
import TelemetryEdge.Telemetryd.Tasks
import TelemetryEdge.Telemetryd.TornLines
import TelemetryEdge.Telemetryd.VolumeSteps
import TelemetryEdge.Telemetryd.Volumes
import TelemetryEdge.Telemetryd.WriterSteps
