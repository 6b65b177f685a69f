import DrMingw.Machine
import DrMingw.CommandLine
import DrMingw.ReportQueue
import DrMingw.DebugLoop
import DrMingw.LiveProcesses
import DrMingw.ProcessIsolation
import DrMingw.ModalDialogTrap
import DrMingw.PeImage
import DrMingw.Kernel
import DrMingw.DwarfPe
import DrMingw.ModuleRegistry
import DrMingw.DbgHelp
import DrMingw.MgwHelp
import DrMingw.RegistryInvariant
import DrMingw.ResourceBalance
import DrMingw.MappedModules
import DrMingw.LineHistory
import DrMingw.DbgHelpFallback
import DrMingw.FilterActivations
import DrMingw.InstanceHistory
import DrMingw.ReportDestination
import DrMingw.ContinueStatus
import DrMingw.Minidumps
import DrMingw.RecordUse
import DrMingw.SymbolScan
import DrMingw.NearestSymbol
import DrMingw.SymbolTableCheck
import DrMingw.ImageReferences
import DrMingw.Chain
import DrMingw.DebugLinks
import DrMingw.SectionNames
import DrMingw.SectionlessSymbols
import DrMingw.Undecoration
import DrMingw.SymbolNames
import DrMingw.SourcePaths
import DrMingw.DebugStrings
import DrMingw.DefaultReport
import DrMingw.TimeOutTicks
import DrMingw.BackTrace
import DrMingw.DwarfResources
import DrMingw.Utf
import DrMingw.DevicePaths
import DrMingw.ReportText
import DrMingw.SourceContext
import DrMingw.CNumbers
import DrMingw.CatchSegv
import DrMingw.JitDebugger
import DrMingw.ExceptionReport
import DrMingw.Addr2line
import DrMingw.ReportFile
import DrMingw.AttachEvent
