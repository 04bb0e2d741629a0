import CargoUnikernel.Library.Transition
import CargoUnikernel.Library.Bytes
import CargoUnikernel.Library.Netlink
import CargoUnikernel.Library.NfTables
import CargoUnikernel.Library.Fallible
import CargoUnikernel.Library.Text
import CargoUnikernel.Library.Numeral
import CargoUnikernel.Schema.Config
import CargoUnikernel.Schema.Ipv6
import CargoUnikernel.Schema.Validate
import CargoUnikernel.Guest.BuildScript
import CargoUnikernel.Guest.Firewall.NlBuf
import CargoUnikernel.Guest.Firewall.Batch
import CargoUnikernel.Guest.Firewall.Policy
import CargoUnikernel.Guest.Shutdown.Trigger
import CargoUnikernel.Guest.Shutdown.Supervision
import CargoUnikernel.Guest.Shutdown.WipeInterlock
import CargoUnikernel.Guest.Shutdown.SecondEntry
import CargoUnikernel.Guest.Shutdown.Watchdog
import CargoUnikernel.Pipeline.GuestInitScript
import CargoUnikernel.Agreement.Directives
import CargoUnikernel.Guest.Baked
import CargoUnikernel.Agreement.Constants
import CargoUnikernel.Library.Interference
import CargoUnikernel.Pipeline.Script
import CargoUnikernel.Pipeline.Container
import CargoUnikernel.Pipeline.Build
import CargoUnikernel.Agreement.Encodings
import CargoUnikernel.Guest.Firewall.Framing
import CargoUnikernel.Guest.Firewall.Transport
import CargoUnikernel.Guest.Firewall.Splitting
import CargoUnikernel.Library.Words
import CargoUnikernel.Guest.EtcFiles
import CargoUnikernel.Agreement.Lists
import CargoUnikernel.Library.Hex
import CargoUnikernel.Guest.Network
import CargoUnikernel.Agreement.Addresses
import CargoUnikernel.Library.Streams
import CargoUnikernel.Library.Calls
import CargoUnikernel.Guest.WriteZeros
import CargoUnikernel.Guest.Shutdown.Scrub
import CargoUnikernel.Guest.Shutdown.ScrubConfinement
import CargoUnikernel.Guest.Shutdown.ScrubTree
import CargoUnikernel.Guest.Shutdown.ScrubCompleteness
import CargoUnikernel.Guest.Storage
import CargoUnikernel.Pipeline.Storage
import CargoUnikernel.Command.Dispatch
import CargoUnikernel.Guest.Landlock
import CargoUnikernel.Command.Assets
import CargoUnikernel.Pipeline.Artifacts
import CargoUnikernel.Pipeline.History
import CargoUnikernel.Pipeline.Release
import CargoUnikernel.Pipeline.Firmware
import CargoUnikernel.Pipeline.Measurement
import CargoUnikernel.Pipeline.Remeasure
import CargoUnikernel.Library.FileTree
import CargoUnikernel.Pipeline.Needs
import CargoUnikernel.Pipeline.Confinement
import CargoUnikernel.Pipeline.Concurrent
import CargoUnikernel.BuildKernel.Fragments
import CargoUnikernel.BuildKernel.Verification
import CargoUnikernel.BuildKernel.Script
import CargoUnikernel.BuildKernel.Soundness
import CargoUnikernel.Library.Shell
import CargoUnikernel.Library.ShellTemplate
import CargoUnikernel.Pipeline.ScriptText
import CargoUnikernel.Library.ShellCommands
import CargoUnikernel.Pipeline.ScriptData
import CargoUnikernel.Guest.ZeroWriter
import CargoUnikernel.Agreement.Sysctls
import CargoUnikernel.Guest.Seccomp
import CargoUnikernel.Guest.Firewall.RoundTrip
import CargoUnikernel.Command.Fingerprint
import CargoUnikernel.Library.Utf8
import CargoUnikernel.Pipeline.OutputDirectory
import CargoUnikernel.Library.BytePaths
import CargoUnikernel.Pipeline.AppPath
import CargoUnikernel.Pipeline.HostPlaces
import CargoUnikernel.BuildKernel.Repair
import CargoUnikernel.Guest.Privileges
import CargoUnikernel.Library.MountTable
import CargoUnikernel.Library.Procedures
import CargoUnikernel.Guest.Interfaces
import CargoUnikernel.Guest.HardeningCategories
import CargoUnikernel.Guest.Accounts
import CargoUnikernel.Guest.Boot.Machine
import CargoUnikernel.Guest.Boot.Mounting
import CargoUnikernel.Guest.Boot.Services
import CargoUnikernel.Guest.Boot.Main
import CargoUnikernel.Guest.Boot.Stages
import CargoUnikernel.Guest.Boot.Obligations
import CargoUnikernel.Guest.Boot.Mounted
import CargoUnikernel.Guest.Boot.Served
import CargoUnikernel.Guest.Boot.Sealing
import CargoUnikernel.Guest.Boot.Outcomes
import CargoUnikernel.Guest.Boot.Kernel
import CargoUnikernel.Guest.Boot.Guarantees
import CargoUnikernel.Agreement.Booted
import CargoUnikernel.Guest.Boot.Links
import CargoUnikernel.Guest.Boot.StaticAddress
import CargoUnikernel.Guest.Boot.Sysctls
import CargoUnikernel.Agreement.KernelConfig
