import CameraStreamer.Lib.Machine
import CameraStreamer.Lib.Window
import CameraStreamer.RingQueue.Backpressure
import CameraStreamer.Server.SaveFrame
import CameraStreamer.Ssl
import CameraStreamer.Server.HandleClient
import CameraStreamer.Server.Parser
import CameraStreamer.TlsClient.Write
import CameraStreamer.Transport
import CameraStreamer.Lib.Ledger
import CameraStreamer.TlsClient.Network
import CameraStreamer.TlsClient.Resources
import CameraStreamer.Server.Run
import CameraStreamer.RingQueue.Spsc
import CameraStreamer.Client.Machine
import CameraStreamer.Client.Stats
import CameraStreamer.Client.Wire
import CameraStreamer.EndToEnd
import CameraStreamer.Codec
import CameraStreamer.RingQueue.Acceptance
import CameraStreamer.Lib.CondVar
import CameraStreamer.RingQueue.Pop
import CameraStreamer.RingQueue.Waiting
import CameraStreamer.Lib.Strided
import CameraStreamer.RingQueue.Layout
import CameraStreamer.Lib.Binary32
import CameraStreamer.TlsClient.Backoff
import CameraStreamer.Client.Args
import CameraStreamer.Lib.CharBuffer
import CameraStreamer.Log
import CameraStreamer.Lib.Simulation
import CameraStreamer.Lib.Writes
import CameraStreamer.RingQueue.Linear
import CameraStreamer.RingQueue.Progress
import CameraStreamer.Client.Delivery
import CameraStreamer.Server.Archive
import CameraStreamer.Receipts
import CameraStreamer.Client.Process
import CameraStreamer.Client.Steps
import CameraStreamer.Client.Invariant
import CameraStreamer.Client.Lifecycle
import CameraStreamer.Client.Work
import CameraStreamer.Client.Stopping
import CameraStreamer.Server.Process
import CameraStreamer.Server.Descriptors
import CameraStreamer.Server.Serving
import CameraStreamer.Server.Stopping
import CameraStreamer.LogFile
import CameraStreamer.Client.Offering
import CameraStreamer.Server.Finishing
import CameraStreamer.Server.Args
import CameraStreamer.System
