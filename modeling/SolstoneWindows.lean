import SolstoneWindows.Proofs.CaptureEngine.Pause
import SolstoneWindows.Proofs.CaptureEngine.Restarts
import SolstoneWindows.Proofs.CaptureEngine.Rows
import SolstoneWindows.Proofs.DesktopActivity
import SolstoneWindows.Proofs.JournalLink
import SolstoneWindows.Proofs.ObserverLog.Format
import SolstoneWindows.Proofs.ObserverPl.Ingest
import SolstoneWindows.Proofs.ObserverRecovery
import SolstoneWindows.Proofs.ObserverUpdate
import SolstoneWindows.Proofs.PlTransportWin.Merged
import SolstoneWindows.Proofs.PlTransportWin.Migration
import SolstoneWindows.Proofs.PlTransportWin.RelayRevocation
import SolstoneWindows.Proofs.PlTransportWin.SegmentKey
import SolstoneWindows.Proofs.PlTransportWin.SetAside
import SolstoneWindows.Proofs.PlatformWin.DesktopActivity
import SolstoneWindows.Proofs.PlatformWin.Recording
import SolstoneWindows.Proofs.PlatformWin.SetupOver
import SolstoneWindows.Proofs.Redaction
import SolstoneWindows.Proofs.Setup
import SolstoneWindows.Proofs.Xtask.TransparencyPublisher
import SolstoneWindows.Proofs.BrowserHost.Hub
import SolstoneWindows.Proofs.PlTransportWin.Answer
import SolstoneWindows.Proofs.SampleTiming
