import Scanout.Config
import Scanout.Interpolation.Matcher
import Scanout.Json.Parser
import Scanout.Log.Limiter
import Scanout.Main
import Scanout.Pacing
import Scanout.Pipeline.Schedule
import Scanout.Proofs.Framebuffer.Shadow
import Scanout.Proofs.Interpolation.Pace
import Scanout.Proofs.Pipeline.Delivery
import Scanout.Proofs.Pipeline.Handed
import Scanout.Proofs.Pipeline.Handover
import Scanout.Proofs.Pipeline.Marking
import Scanout.Proofs.Pipeline.Release
import Scanout.Proofs.Pipeline.Uploading
import Scanout.Proofs.Workload.Barriers
import Scanout.Proofs.Workload.Bindings
import Scanout.Proofs.Workload.Blending
import Scanout.Proofs.Workload.Conversions
import Scanout.Proofs.Workload.Formats
import Scanout.Proofs.Workload.Intact
import Scanout.Proofs.Workload.Journal
import Scanout.Proofs.Workload.Outgrown
import Scanout.Proofs.Workload.Sources
import Scanout.Ring
import Scanout.Target.Record
import Scanout.Trial.Run
import Scanout.Video.Interface
import Scanout.Workload.Sync
import Scanout.Workload.Text
import Scanout.Proofs.Target.Inventory
import Scanout.Proofs.Workload.Filling
import Scanout.Proofs.Workload.References
import Scanout.Proofs.Workload.Queueing
import Scanout.Proofs.Interpolation.Loop
import Scanout.Proofs.Pipeline.Ticking
import Scanout.Proofs.Config
import Scanout.Proofs.Framebuffer.Ledger
import Scanout.Proofs.Workload.Transcript
import Scanout.Proofs.Pipeline.Published
import Scanout.Proofs.Interpolation.Spacing
import Scanout.Proofs.Interpolation.Counterparts
import Scanout.Proofs.Pipeline.Accounting
import Scanout.Proofs.Framebuffer.Stores
import Scanout.Proofs.Pacing
import Scanout.Proofs.Tile
import Scanout.Proofs.Log.Lines
import Scanout.Proofs.Workload.Regions
import Scanout.Proofs.Workload.Reuse
import Scanout.Proofs.Gpu.Device
import Scanout.Proofs.Video.Unscaled
import Scanout.Proofs.Pixel
import Scanout.Proofs.Pacing.Arithmetic
import Scanout.Proofs.Rect.Pixels
import Scanout.Proofs.Pipeline.Remembering
