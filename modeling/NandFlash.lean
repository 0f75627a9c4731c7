import NandFlash.Block
import NandFlash.Buffer
import NandFlash.Bus
import NandFlash.Bus.Memory
import NandFlash.Bus.Monitor
import NandFlash.Bytes
import NandFlash.Checksum
import NandFlash.Command
import NandFlash.CommandLine.Arguments
import NandFlash.CommandLine.Files
import NandFlash.CommandLine.Run
import NandFlash.Controller.Framing
import NandFlash.Controller.Operations
import NandFlash.Controller.Probe
import NandFlash.Controller.Request
import NandFlash.Crash
import NandFlash.Ecc.Correction
import NandFlash.Ecc.FieldStatus
import NandFlash.Ecc.Location
import NandFlash.Error
import NandFlash.Geometry.Basic
import NandFlash.Geometry.PowerOn
import NandFlash.Geometry.Selection
import NandFlash.Geometry.SpareLayout
import NandFlash.Geometry.Strength
import NandFlash.Identity
import NandFlash.Image
import NandFlash.Main
import NandFlash.Poll
import NandFlash.Proofs.AnyBus.Access
import NandFlash.Proofs.AnyBus.Correction
import NandFlash.Proofs.AnyBus.Operations
import NandFlash.Proofs.AnyBus.PageRanges
import NandFlash.Proofs.AnyBus.Programming
import NandFlash.Proofs.AnyBus.Recording
import NandFlash.Proofs.AnyBus.Session
import NandFlash.Proofs.AnyBus.Transfer
import NandFlash.Proofs.Backends
import NandFlash.Proofs.BadBlocks
import NandFlash.Proofs.Bits
import NandFlash.Proofs.BlockBounds
import NandFlash.Proofs.BlockPrograms
import NandFlash.Proofs.Codeword
import NandFlash.Proofs.EarlyFailure
import NandFlash.Proofs.Image.Arrival
import NandFlash.Proofs.Image.Dumping
import NandFlash.Proofs.Image.GivingUp
import NandFlash.Proofs.Image.Placing
import NandFlash.Proofs.Image.Rewriting
import NandFlash.Proofs.Image.RoundTrip
import NandFlash.Proofs.Image.Summary
import NandFlash.Proofs.Image.Writing
import NandFlash.Proofs.Image.Written
import NandFlash.Proofs.Layers
import NandFlash.Proofs.Polling
import NandFlash.Proofs.Profile
import NandFlash.Proofs.Program
import NandFlash.Proofs.Selecting
import NandFlash.Proofs.SideBySide.Operations
import NandFlash.Proofs.SideBySide.Recording
import NandFlash.Proofs.SideBySide.Steps
import NandFlash.Proofs.SideBySide.Surface
import NandFlash.Proofs.SideBySide.Trail
import NandFlash.Proofs.SideBySide.Transfer
import NandFlash.Proofs.Sim.Accesses
import NandFlash.Proofs.Sim.Addressing
import NandFlash.Proofs.Sim.Aftermath
import NandFlash.Proofs.Sim.Agreement
import NandFlash.Proofs.Sim.AllOrNothing
import NandFlash.Proofs.Sim.BlockMarks
import NandFlash.Proofs.Sim.BlockReads
import NandFlash.Proofs.Sim.BlockWrites
import NandFlash.Proofs.Sim.Blocks
import NandFlash.Proofs.Sim.Cells
import NandFlash.Proofs.Sim.Channel
import NandFlash.Proofs.Sim.CleanReads
import NandFlash.Proofs.Sim.CorrectionCalls
import NandFlash.Proofs.Sim.Cycles
import NandFlash.Proofs.Sim.Damage
import NandFlash.Proofs.Sim.DataPort
import NandFlash.Proofs.Sim.Drive
import NandFlash.Proofs.Sim.Effect
import NandFlash.Proofs.Sim.ErrorAddresses
import NandFlash.Proofs.Sim.Flash
import NandFlash.Proofs.Sim.Flipping
import NandFlash.Proofs.Sim.Framing
import NandFlash.Proofs.Sim.Genuine
import NandFlash.Proofs.Sim.History
import NandFlash.Proofs.Sim.InUse
import NandFlash.Proofs.Sim.Independence
import NandFlash.Proofs.Sim.Lawful
import NandFlash.Proofs.Sim.Loading
import NandFlash.Proofs.Sim.Marks
import NandFlash.Proofs.Sim.Mending
import NandFlash.Proofs.Sim.Mirrors
import NandFlash.Proofs.Sim.Planning
import NandFlash.Proofs.Sim.Ports
import NandFlash.Proofs.Sim.Presenting
import NandFlash.Proofs.Sim.Probing
import NandFlash.Proofs.Sim.Protocol
import NandFlash.Proofs.Sim.Queue
import NandFlash.Proofs.Sim.Reachable
import NandFlash.Proofs.Sim.ReadBack
import NandFlash.Proofs.Sim.ReadTransfer
import NandFlash.Proofs.Sim.References
import NandFlash.Proofs.Sim.Registers
import NandFlash.Proofs.Sim.Reloading
import NandFlash.Proofs.Sim.Repair
import NandFlash.Proofs.Sim.Restoring
import NandFlash.Proofs.Sim.RowAddress
import NandFlash.Proofs.Sim.Saving
import NandFlash.Proofs.Sim.Serving
import NandFlash.Proofs.Sim.Session
import NandFlash.Proofs.Sim.Syndrome
import NandFlash.Proofs.Sim.Tracing
import NandFlash.Proofs.Sim.Transfers
import NandFlash.Proofs.Sim.Unconditional
import NandFlash.Proofs.Sim.UsedPages
import NandFlash.Proofs.Sim.Waiting
import NandFlash.Proofs.Sim.Whole
import NandFlash.Proofs.Sim.Window
import NandFlash.Proofs.StepOrder
import NandFlash.Proofs.Stream
import NandFlash.Proofs.Timeouts
import NandFlash.Register
import NandFlash.Sim.Chip
import NandFlash.Sim.Device
import NandFlash.Sim.Engine
import NandFlash.Sim.FlashArray
import NandFlash.Sim.Latches
import NandFlash.Staging
import NandFlash.Stream.Source
import NandFlash.Text
import NandFlash.Transfer
