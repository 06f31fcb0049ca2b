import Chip8.Console
import Chip8.Main
import Chip8.Terminal.Playback
import Chip8.Proofs.Cycle
import Chip8.Proofs.Runs
import Chip8.Proofs.Bounds
import Chip8.Proofs.Calls
import Chip8.Proofs.ControlFlow
import Chip8.Proofs.Decoding
import Chip8.Proofs.Faults
import Chip8.Proofs.Frames
import Chip8.Proofs.Halting
import Chip8.Proofs.Receivers
import Chip8.Proofs.TimerIndependence
import Chip8.Proofs.Footprint
import Chip8.Proofs.Drawing
import Chip8.Proofs.Guarded
import Chip8.Proofs.ReceiverIndependence
import Chip8.Proofs.Safety
import Chip8.Proofs.Glyphs
import Chip8.Proofs.UnreadMemory
import Chip8.Proofs.Sprites
import Chip8.Proofs.Counters
import Chip8.Proofs.Playback
import Chip8.Proofs.Transfers
import Chip8.Proofs.SpriteBounds
import Chip8.Proofs.Stamps
import Chip8.Proofs.Loading
import Chip8.Proofs.Shutdown
import Chip8.Proofs.Waiting
import Chip8.Proofs.UnknownOpcodes
import Chip8.Proofs.Pairing
import Chip8.Proofs.Pins
import Chip8.Proofs.Rendering
import Chip8.Proofs.CommandLine
import Chip8.Proofs.Messages
import Chip8.Proofs.Dispatch
