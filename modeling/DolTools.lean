import DolTools.Library.AlignedBlock
import DolTools.Library.Runs
import DolTools.Library.BigEndian
import DolTools.Mem.Host
import DolTools.Mmio.Exits
import DolTools.Mmio.DspRegisters
import DolTools.Mmio.DspDma
import DolTools.Library.FirstMatch
import DolTools.Emu.State
import DolTools.Mem.Bat
import DolTools.Mem.Translation
import DolTools.Mem.Inverse
import DolTools.Mem.Reload
import DolTools.Mem.ReloadPass
import DolTools.Cpu.Msr
import DolTools.Cpu.Spr
import DolTools.Emu.Decode
import DolTools.Mmio.Chipset
import DolTools.Emu.AccessWidth
import DolTools.Emu.Emulation
import DolTools.Mem.Fixups
import DolTools.Emu.Boot
import DolTools.Emu.MapMode
import DolTools.Mem.Init
import DolTools.Mem.Soundness
import DolTools.Emu.SoundRuns
import DolTools.Mem.Coverage
import DolTools.Emu.CoverRuns
import DolTools.Cpu.SprFile
import DolTools.Emu.RegisterRuns
import DolTools.Mem.RamBounds
import DolTools.Mmio.ReadBack
import DolTools.Mmio.Unimplemented
import DolTools.Mem.Slots
import DolTools.Mem.PassStart
import DolTools.Mem.RoundTrip
import DolTools.Emu.RoundTrips
import DolTools.Emu.SlotTruth
import DolTools.Library.ByteOrder
import DolTools.Dol.Header
import DolTools.Library.CText
import DolTools.Dol.Patch
import DolTools.Mem.DefaultMap
import DolTools.Emu.Loader
import DolTools.Mmio.DspRuns
import DolTools.Mmio.DspTransfer
import DolTools.Emu.HighBats
import DolTools.Emu.ChipsetCalls
import DolTools.Emu.DataTranslation
import DolTools.Emu.LoadStore
import DolTools.Mem.Devices
import DolTools.Emu.SigillFrame
import DolTools.Emu.Detection
import DolTools.Emu.ForwardWindows
import DolTools.Mem.InstrSlots
import DolTools.Mem.Lookups
import DolTools.Emu.SprCells
import DolTools.Mem.QuietPass
import DolTools.Mem.FixupErrors
import DolTools.Mem.ConsolePaths
import DolTools.Mem.ConsoleTables
import DolTools.Mem.Refresh
import DolTools.Mem.SettledTables
import DolTools.Mmio.DspSetup
import DolTools.Emu.FailedAccess
import DolTools.Dol.Grammar
import DolTools.Emu.FileReads
import DolTools.Library.Views
import DolTools.Mmio.Errors
import DolTools.Emu.Timer
import DolTools.Emu.Core
import DolTools.Emu.Machine
import DolTools.Emu.FailStop
import DolTools.Emu.Ticks
import DolTools.Emu.ChipsetRuns
import DolTools.Emu.GuestAccess
import DolTools.Emu.MachineRegisters
import DolTools.Mmio.DspIram
import DolTools.Mmio.DspMail
import DolTools.Emu.DspFromBoot
import DolTools.Library.CFormat
import DolTools.Dol.Info
import DolTools.Dol.PatchRuns
import DolTools.Dol.Script
import DolTools.Library.StoreThrough
import DolTools.Emu.LoadOrder
import DolTools.Library.MapLog
import DolTools.Emu.HostLog
import DolTools.Library.BitMask
import DolTools.Emu.Program
import DolTools.Emu.SearchedWords
import DolTools.Emu.PatchedStart
import DolTools.Emu.BootAlarms
import DolTools.Emu.ErrorCauses
