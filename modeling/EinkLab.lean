import EinkLab.Transition.Run
import EinkLab.Transition.Program
import EinkLab.Frame.DeviceProfile
import EinkLab.Frame.Frame
import EinkLab.PresentationAdapter.Basic
import EinkLab.PresentationAdapter.Equiv.Conservation
import EinkLab.PresentationAdapter.Equiv.Carries
import EinkLab.FrontLight.Basic
import EinkLab.FrontLight.Equiv.Handlers
import EinkLab.FrontLight.Equiv.Scheduler
import EinkLab.FrontLight.Equiv.Updates
import EinkLab.LowerEngine.Color
import EinkLab.LowerEngine.Contract
import EinkLab.LowerEngine.Backend
import EinkLab.LowerEngine.Equiv.Rules
import EinkLab.LowerEngine.Equiv.Parts
import EinkLab.LowerEngine.Equiv.Uncertainty
import EinkLab.LowerEngine.Equiv.SleepColor
import EinkLab.Text.Utf8
import EinkLab.Text.Lines
import EinkLab.Files.Directory
import EinkLab.Catalog.Bounded
import EinkLab.SleepImageStore.Basic
import EinkLab.SleepImageStore.Equiv.Manifest
import EinkLab.SleepImageStore.Equiv.Commit
import EinkLab.SleepImageStore.Equiv.Mutations
import EinkLab.SleepImageStore.Equiv.Opening
import EinkLab.SleepImageStore.Equiv.Settled
import EinkLab.SleepImageStore.Equiv.Atomicity
import EinkLab.SleepImageStore.Equiv.Recovery
import EinkLab.SleepImage.Latch
import EinkLab.SleepImage.Equiv.Latch
import EinkLab.SleepImage.Catalog
import EinkLab.SleepImage.Overlay
import EinkLab.CaptureSession.Policies
import EinkLab.CaptureSession.Basic
import EinkLab.CaptureSession.Equiv.Steps
import EinkLab.CaptureSession.Equiv.Accounting
import EinkLab.CaptureSession.Equiv.Resample
import EinkLab.CaptureSession.SleepRequests
import EinkLab.CaptureSession.Lifetime
import EinkLab.CaptureSession.Equiv.Deferral
import EinkLab.CaptureSession.Equiv.Lifetime
import EinkLab.SleepImageManager.Native
import EinkLab.SleepImageManager.Basic
import EinkLab.SleepImageManager.Descriptors
import EinkLab.SleepImageManager.Equiv.Descriptors
import EinkLab.SleepImageManager.Protocol
import EinkLab.SleepImageManager.Equiv.Protocol
import EinkLab.SleepImageManager.Equiv.Wake
import EinkLab.SleepImageManager.Equiv.Freshness
import EinkLab.SleepImageManager.Equiv.Restart
import EinkLab.SleepImageManager.Equiv.Refresh
import EinkLab.Pipeline.Basic
import EinkLab.Pipeline.Panel
import EinkLab.Pipeline.Equiv.Background
import EinkLab.Pipeline.Equiv.Steps
import EinkLab.Pipeline.Equiv.SleepColor
import EinkLab.Pipeline.Equiv.Refresh
import EinkLab.Pipeline.Equiv.Exclusive
import EinkLab.Pipeline.Holdings
import EinkLab.Pipeline.Equiv.SourceBarrier
import EinkLab.Pipeline.Equiv.Holdings
import EinkLab.SnapshotPool.Basic
import EinkLab.SnapshotPool.Equiv.Ownership
import EinkLab.ResampleDispatcher.Basic
import EinkLab.ResampleDispatcher.Equiv.Requests
import EinkLab.PresentationAdapter.Equiv.Steps
import EinkLab.PresentationAdapter.Timeline
import EinkLab.PresentationAdapter.Equiv.RateLimit
import EinkLab.PresentationAdapter.Equiv.Requests
import EinkLab.Transition.Effect
import EinkLab.Transition.Handles
import EinkLab.LowerEngine.Equiv.Pacing
import EinkLab.LowerEngine.Equiv.QualityHistory
import EinkLab.Search.FirstMinimum
import EinkLab.FrontLight.Policy
import EinkLab.Text.Fields
import EinkLab.FrontLight.Payload
import EinkLab.FrontLight.Workspace
import EinkLab.FrontLight.Equiv.Payload
import EinkLab.FrontLight.Equiv.Workspace
import EinkLab.FrontLight.DirectBackend
import EinkLab.FrontLight.Equiv.Off
import EinkLab.SleepImage.Transforms
import EinkLab.SleepImage.Equiv.Transforms
import EinkLab.SleepImageStore.Equiv.Repair
import EinkLab.SleepImageStore.Publication
import EinkLab.SleepImageStore.Equiv.Publication
import EinkLab.SleepImageStore.Equiv.Lifecycle
import EinkLab.SleepImageStore.Equiv.Colors
import EinkLab.Binary.Fields
import EinkLab.Binary.Splice
import EinkLab.Text.Hex
import EinkLab.Text.Replace
import EinkLab.Transition.Environment
import EinkLab.SystemImage.Sparse
import EinkLab.SystemImage.Promotion
import EinkLab.SystemImage.Equiv.Sparse
import EinkLab.SystemImage.Equiv.Promotion
import EinkLab.RecoveryImage.Ramdisk
import EinkLab.RecoveryImage.Sha1
import EinkLab.RecoveryImage.Boot
import EinkLab.RecoveryImage.Equiv.Ramdisk
import EinkLab.RecoveryImage.Equiv.Boot
import EinkLab.Text.Python
import EinkLab.FrontLight.Validator
import EinkLab.FrontLight.Equiv.Numbers
import EinkLab.FrontLight.Equiv.Validator
import EinkLab.FrontLight.Equiv.Closed
import EinkLab.CaptureSession.PolicyRuns
import EinkLab.CaptureSession.Equiv.Obligations
import EinkLab.CaptureSession.Equiv.Admission
import EinkLab.MicroDelta.Basic
import EinkLab.MicroDelta.Equiv.Hold
import EinkLab.MicroDelta.Equiv.Configuration
import EinkLab.MicroDelta.Equiv.Measured
import EinkLab.Lanes.Neon
import EinkLab.LowerEngine.ColorVectors
import EinkLab.LowerEngine.Equiv.ColorVectors
import EinkLab.SnapshotPool.Gpu
import EinkLab.SnapshotPool.Equiv.Gpu
import EinkLab.CaptureSession.Equiv.Pool
import EinkLab.Transition.Locks
import EinkLab.Pipeline.Converter
import EinkLab.FrameTracker.Device
import EinkLab.FrameTracker.Equiv.Device
import EinkLab.Pipeline.Tracked
import EinkLab.Pipeline.Equiv.Tracked
import EinkLab.Pipeline.Equiv.Baseline
import EinkLab.Pipeline.Equiv.Shown
import EinkLab.Pipeline.Equiv.Line
import EinkLab.Pipeline.Equiv.Suppression
import EinkLab.Pipeline.Equiv.CaptureOrder
import EinkLab.LowerEngine.Equiv.Locks
import EinkLab.Text.PythonHex
import EinkLab.RecoveryImage.Walk
import EinkLab.RecoveryImage.Equiv.Walk
import EinkLab.PartialMemory.Basic
import EinkLab.PartialMemory.Reader
import EinkLab.Ocean.WaveformCompatibility
import EinkLab.Ocean.Equiv.WaveformCompatibility
import EinkLab.Arithmetic.Checked
import EinkLab.LowerEngine.CheckedColor
import EinkLab.LowerEngine.Equiv.ColorLaws
import EinkLab.Plane.RowMajor
import EinkLab.Plane.Symmetry
import EinkLab.SleepImage.Geometry
import EinkLab.SleepImage.Equiv.Geometry
import EinkLab.Grayscale.Conversion
import EinkLab.Grayscale.Equiv.Conversion
import EinkLab.Transition.Versions
import EinkLab.FrameTracker.Basic
import EinkLab.FrameTracker.Equiv.Tracker
import EinkLab.FrameTracker.Equiv.Signatures
import EinkLab.LowerEngine.ColorQuality
import EinkLab.LowerEngine.Equiv.ColorQuality
import EinkLab.SleepImage.Equiv.Overlay
import EinkLab.SleepImage.RetainedBackground
import EinkLab.SleepImage.Equiv.RetainedBackground
import EinkLab.Plane.Bounds
import EinkLab.Grayscale.Delta
import EinkLab.Grayscale.Equiv.Delta
import EinkLab.LowerEngine.Layout
import EinkLab.LowerEngine.Equiv.Layout
import EinkLab.SwitchPolicy.Basic
import EinkLab.SwitchPolicy.Equiv.Spacing
import EinkLab.SwitchPolicy.Equiv.Service
import EinkLab.Binder.Parcel
import EinkLab.SleepImageTransport.Basic
import EinkLab.SleepImageTransport.ControlPlane
import EinkLab.SleepImageTransport.Equiv.Control
import EinkLab.SleepImageTransport.Equiv.Endpoint
import EinkLab.SleepImageTransport.Equiv.RoundTrip
import EinkLab.ControlService.Basic
import EinkLab.FrontLight.Stack
import EinkLab.FrontLight.Equiv.Answers
import EinkLab.FrontLight.Equiv.Writes
import EinkLab.ControlService.Equiv.Light
import EinkLab.FrontLight.Equiv.Stack
import EinkLab.SleepImageManager.PowerOff
import EinkLab.SleepImageManager.Equiv.PowerOff
import EinkLab.ControlService.Equiv.Panel
