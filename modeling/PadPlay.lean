import PadPlay.Transport.Vectored
import PadPlay.Lib.ByteSource
import PadPlay.Device.Reading
import PadPlay.Capture.Advertised
import PadPlay.Capture.Constraints
import PadPlay.Capture.Descriptor
import PadPlay.Capture.Objects
import PadPlay.Capture.Picking
import PadPlay.Capture.Plasma
import PadPlay.Capture.Pool
import PadPlay.Capture.Rotation
import PadPlay.Daemon.Args
import PadPlay.Daemon.AudioQueue
import PadPlay.Daemon.Cadence
import PadPlay.Daemon.Continuity
import PadPlay.Daemon.FrameSource
import PadPlay.Daemon.Freshness
import PadPlay.Daemon.Hosting
import PadPlay.Daemon.Hotplug
import PadPlay.Daemon.Layout
import PadPlay.Daemon.Listing
import PadPlay.Daemon.Monitors
import PadPlay.Daemon.Output
import PadPlay.Daemon.Pacing
import PadPlay.Daemon.Reuse
import PadPlay.Daemon.RoundTrips
import PadPlay.Daemon.Run
import PadPlay.Daemon.Sessions
import PadPlay.Daemon.Shutdown
import PadPlay.Daemon.Tracker
import PadPlay.Device.AcceptLoop
import PadPlay.Device.Announced
import PadPlay.Device.AudioOrder
import PadPlay.Device.AudioReleases
import PadPlay.Device.Codecs
import PadPlay.Device.Connections
import PadPlay.Device.Delivery
import PadPlay.Device.Framing
import PadPlay.Device.Isolation
import PadPlay.Device.Phases
import PadPlay.Device.Stopping
import PadPlay.Device.Surfaces
import PadPlay.Encoder.Preference
import PadPlay.Transport.PanelSize
