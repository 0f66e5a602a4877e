import HostDrive.Bytes
import HostDrive.Calendar
import HostDrive.CommandLine.Arguments
import HostDrive.CommandLine.Help
import HostDrive.CommandLine.Listing
import HostDrive.CommandLine.Response
import HostDrive.CommandLine.Session
import HostDrive.Drive.Basic
import HostDrive.Drive.EntryPoint
import HostDrive.Drive.Guard
import HostDrive.Drive.Mount
import HostDrive.Drive.Reply
import HostDrive.Entry
import HostDrive.Guest.Basic
import HostDrive.Guest.Flat
import HostDrive.Guest.Memory
import HostDrive.GuestPath
import HostDrive.Host.Basic
import HostDrive.Host.Catalog
import HostDrive.Host.FileTree
import HostDrive.Host.Native
import HostDrive.Host.Resolve
import HostDrive.HostPath
import HostDrive.InfoBlock
import HostDrive.Json.Quoted
import HostDrive.Json.Token
import HostDrive.Json.Value
import HostDrive.Machine.Basic
import HostDrive.Machine.MemoryMap
import HostDrive.Machine.Program
import HostDrive.Machine.Run
import HostDrive.Main
import HostDrive.Proofs.Bytes
import HostDrive.Proofs.Drive.Calls
import HostDrive.Proofs.Drive.Confinement
import HostDrive.Proofs.Drive.CurrentDirectory
import HostDrive.Proofs.Drive.Enumeration
import HostDrive.Proofs.Drive.Frame
import HostDrive.Proofs.Drive.Guard
import HostDrive.Proofs.Drive.Interleaving
import HostDrive.Proofs.Drive.Outcome
import HostDrive.Proofs.Drive.Selection
import HostDrive.Proofs.Drive.Snapshots
import HostDrive.Proofs.Guest.Memory
import HostDrive.Proofs.Guest.Text
import HostDrive.Proofs.GuestPath
import HostDrive.Proofs.Host.Native
import HostDrive.Proofs.Host.Resolve
import HostDrive.Proofs.InfoBlock
import HostDrive.Proofs.Machine.Busy
import HostDrive.Proofs.Machine.Devices
import HostDrive.Proofs.Machine.Identity
import HostDrive.Proofs.Machine.Layout
import HostDrive.Proofs.Machine.Memory
import HostDrive.Proofs.Machine.Reachable
import HostDrive.Proofs.Machine.Requests
import HostDrive.Proofs.Machine.Termination
import HostDrive.Proofs.Machine.Turns
import HostDrive.Proofs.ShortName
import HostDrive.Proofs.Timestamp
import HostDrive.Proofs.Z80.Bus
import HostDrive.SearchTable
import HostDrive.Settings.Basic
import HostDrive.Settings.Text
import HostDrive.Settings.UserFolders
import HostDrive.SetupError
import HostDrive.ShortName
import HostDrive.Text.Ascii
import HostDrive.Text.Blank
import HostDrive.Text.CodePoints
import HostDrive.Text.Number
import HostDrive.Text.Pieces
import HostDrive.Text.Quoted
import HostDrive.Timestamp
import HostDrive.Wildcard
import HostDrive.Z80.Arithmetic
import HostDrive.Z80.Decode
import HostDrive.Z80.Instruction
import HostDrive.Z80.Registers
import HostDrive.Z80.Step
import HostDrive.Proofs.NameCase
import HostDrive.Proofs.SearchPath
import HostDrive.Proofs.Wildcard
import HostDrive.Proofs.Drive.SearchedDirectory
import HostDrive.Proofs.Drive.Naming
import HostDrive.Proofs.Machine.FlatMap
import HostDrive.Proofs.Machine.Operations
import HostDrive.Proofs.Drive.Footprint
import HostDrive.Proofs.Machine.DirectCalls
import HostDrive.Proofs.Machine.Installed
import HostDrive.Proofs.CommandLine.Session
import HostDrive.Proofs.CommandLine.Listing
import HostDrive.Proofs.CommandLine.Directory
import HostDrive.Proofs.Machine.Detached
import HostDrive.Proofs.Machine.Cells
import HostDrive.Proofs.Machine.MappedMemory
import HostDrive.Proofs.Machine.SegmentRegisters
import HostDrive.Proofs.Wildcard.Grammar
import HostDrive.Proofs.Wildcard.Cursors
import HostDrive.Proofs.Host.Catalog
import HostDrive.Proofs.Host.Descent
import HostDrive.Proofs.InfoBlock.Edits
import HostDrive.Proofs.Drive.Reentry
import HostDrive.Proofs.Timestamp.Order
import HostDrive.Proofs.Host.Modified
import HostDrive.Proofs.Drive.VolumeLabel
import HostDrive.Proofs.Machine.Clock
import HostDrive.Proofs.Text.Runs
import HostDrive.Proofs.ShortName.Grammar
import HostDrive.Proofs.Settings.BaseDirectory
import HostDrive.Proofs.Json.Strings
import HostDrive.Proofs.Json.Tokens
import HostDrive.Proofs.Json.Values
import HostDrive.Proofs.Settings.Text
import HostDrive.Proofs.Json.Accepted
import HostDrive.Proofs.Machine.Limits
import HostDrive.Proofs.Machine.SetupPrograms
import HostDrive.Proofs.Machine.Loaders
import HostDrive.Proofs.Host.Tree
import HostDrive.Proofs.Guest.ReadBack
