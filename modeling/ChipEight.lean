import ChipEight.Machine.Operation
import ChipEight.Main
import ChipEight.Text.HexBytes
import ChipEight.Text.Line
import ChipEight.Proofs.CallDiscipline
import ChipEight.Proofs.Reset
import ChipEight.Proofs.Encoding
import ChipEight.Proofs.SoundEdges
import ChipEight.Proofs.Frames
import ChipEight.Proofs.FrameRefinement
import ChipEight.Proofs.DirtyFlag
import ChipEight.Proofs.Rendering
import ChipEight.Proofs.Painting
import ChipEight.Proofs.Window
import ChipEight.Proofs.Footprint
import ChipEight.Proofs.Halting
import ChipEight.Proofs.FontArea
import ChipEight.Proofs.Audio
import ChipEight.Proofs.EventLog
import ChipEight.Proofs.Tally
import ChipEight.Proofs.CycleHistory
import ChipEight.Proofs.UnknownOpcodes
import ChipEight.Proofs.Trace
import ChipEight.Proofs.KeyStrokes
import ChipEight.Proofs.ProgramStart
import ChipEight.Proofs.ControlFlow
import ChipEight.Proofs.Drawing
import ChipEight.Proofs.Intake
import ChipEight.Proofs.UnreadMemory
import ChipEight.Proofs.RandomSource
import ChipEight.Proofs.Inputs
import ChipEight.Proofs.Arithmetic
import ChipEight.Proofs.BlockAccess
import ChipEight.Proofs.RomLoading
import ChipEight.Proofs.KeyWait
import ChipEight.Proofs.BoundedStack
import ChipEight.Proofs.Torus
import ChipEight.Proofs.StoreLoad
import ChipEight.Proofs.DrawOrder
import ChipEight.Proofs.Countdown
import ChipEight.Proofs.Picture
import ChipEight.Proofs.WaveLoop
import ChipEight.Proofs.SquareWave
