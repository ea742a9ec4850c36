import Chip8Frame.Browser.Frame
import Chip8Frame.Browser.Page
import Chip8Frame.Control.Recording
import Chip8Frame.Json.Reader
import Chip8Frame.Json.Writer
import Chip8Frame.Proofs.Attempt
import Chip8Frame.Surface.Keys
import Chip8Frame.Proofs.Lifecycle
import Chip8Frame.Proofs.RestartTarget
import Chip8Frame.Proofs.LaunchOrder
import Chip8Frame.Proofs.StaleHooks
import Chip8Frame.Proofs.ExitVerdict
import Chip8Frame.Proofs.SurfaceLog
import Chip8Frame.Proofs.FailedEntry
import Chip8Frame.Proofs.RestartSize
import Chip8Frame.Proofs.Reworded
import Chip8Frame.Proofs.Renewal
import Chip8Frame.Proofs.Dropped
import Chip8Frame.Proofs.FrameAttributes
import Chip8Frame.Proofs.Recreated
import Chip8Frame.Proofs.Acceptance
import Chip8Frame.Proofs.Transports
import Chip8Frame.Proofs.Uncaught
import Chip8Frame.Proofs.FirstSignal
import Chip8Frame.Proofs.Depicted
import Chip8Frame.Proofs.Residue
import Chip8Frame.Proofs.Operator
import Chip8Frame.Proofs.SoleBridge
import Chip8Frame.Proofs.ExitCalls
import Chip8Frame.Proofs.Attentive
import Chip8Frame.Proofs.RunEnds
import Chip8Frame.Proofs.ExitValues
import Chip8Frame.Proofs.Rebuilding
import Chip8Frame.Proofs.DisplaySize
import Chip8Frame.Proofs.Canvases
import Chip8Frame.Proofs.Diagnosis
import Chip8Frame.Proofs.Themes
import Chip8Frame.Proofs.Requests
import Chip8Frame.Proofs.Positional
import Chip8Frame.Proofs.ConsoleLines
import Chip8Frame.Proofs.Rehearsed
