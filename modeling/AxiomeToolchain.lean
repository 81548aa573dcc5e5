import AxiomeToolchain.Library.ByteMemory
import AxiomeToolchain.Library.TerminatedString
import AxiomeToolchain.Library.CInt
import AxiomeToolchain.Library.Tiling
import AxiomeToolchain.Library.Occupancy
import AxiomeToolchain.Library.FirstFit
import AxiomeToolchain.Library.Runs
import AxiomeToolchain.Library.Sink
import AxiomeToolchain.Library.Parts
import AxiomeToolchain.Library.Gregorian
import AxiomeToolchain.Library.OptionList
import AxiomeToolchain.Library.Segments
import AxiomeToolchain.Library.Separated
import AxiomeToolchain.Library.LinearSearch
import AxiomeToolchain.Library.ByteOrder
import AxiomeToolchain.Library.SignedTrace
import AxiomeToolchain.Library.Lines
import AxiomeToolchain.Library.Prefixes
import AxiomeToolchain.Library.Amd64
import AxiomeToolchain.Source.StringCopy
import AxiomeToolchain.Source.StringBuild
import AxiomeToolchain.Source.Heap
import AxiomeToolchain.Source.HeapLayout
import AxiomeToolchain.Source.HeapSpec
import AxiomeToolchain.Source.HeapRuns
import AxiomeToolchain.Source.HeapClient
import AxiomeToolchain.Source.HeapCalls
import AxiomeToolchain.Source.HeapRequests
import AxiomeToolchain.Source.HeapLedger
import AxiomeToolchain.Source.HeapStrings
import AxiomeToolchain.Source.HeapContainment
import AxiomeToolchain.Source.Stdio
import AxiomeToolchain.Source.StdioOutput
import AxiomeToolchain.Source.StdioInput
import AxiomeToolchain.Source.StdioLines
import AxiomeToolchain.Source.Format
import AxiomeToolchain.Source.FormatGrammar
import AxiomeToolchain.Source.FormatText
import AxiomeToolchain.Source.FormatNumeral
import AxiomeToolchain.Source.FormatStores
import AxiomeToolchain.Source.FormatWidth
import AxiomeToolchain.Source.FormatTrace
import AxiomeToolchain.Source.FormatScratch
import AxiomeToolchain.Source.FormatComposition
import AxiomeToolchain.Source.StdlibNumbers
import AxiomeToolchain.Source.StdioCalls
import AxiomeToolchain.Source.Syscall
import AxiomeToolchain.Source.StdioFiles
import AxiomeToolchain.Source.StdioProcess
import AxiomeToolchain.Source.StdioRuns
import AxiomeToolchain.Source.Time
import AxiomeToolchain.Source.StringToken
import AxiomeToolchain.Source.StringScan
import AxiomeToolchain.Source.Environment
import AxiomeToolchain.Source.Util
import AxiomeToolchain.Source.PathMemory
import AxiomeToolchain.Source.ProgramStart
import AxiomeToolchain.Source.Driver
import AxiomeToolchain.Source.DriverReading
import AxiomeToolchain.Source.DriverRuns
import AxiomeToolchain.Source.DriverModes
import AxiomeToolchain.Source.Linker
import AxiomeToolchain.Guarantees.HeapInvariant
import AxiomeToolchain.Guarantees.HeapIsolation
import AxiomeToolchain.Guarantees.HeapFirstFit
import AxiomeToolchain.Guarantees.HeapCanonical
import AxiomeToolchain.Guarantees.HeapCapacity
import AxiomeToolchain.Guarantees.HeapAlignment
import AxiomeToolchain.Guarantees.HeapCoalescing
import AxiomeToolchain.Guarantees.HeapFragmentation
import AxiomeToolchain.Guarantees.HeapStrings
import AxiomeToolchain.Guarantees.PrintfSprintf
import AxiomeToolchain.Guarantees.BoundedFormatting
import AxiomeToolchain.Guarantees.ScannerAgreement
import AxiomeToolchain.Guarantees.IntegerRendering
import AxiomeToolchain.Guarantees.DecimalRoundTrip
import AxiomeToolchain.Guarantees.SignedOverflow
import AxiomeToolchain.Guarantees.DigitLoops
import AxiomeToolchain.Guarantees.FormatComposition
import AxiomeToolchain.Guarantees.NumberGrammar
import AxiomeToolchain.Guarantees.FprintfText
import AxiomeToolchain.Guarantees.StdoutOrder
import AxiomeToolchain.Guarantees.OutputLoss
import AxiomeToolchain.Guarantees.ShortInput
import AxiomeToolchain.Guarantees.LineReassembly
import AxiomeToolchain.Guarantees.SystemCalls
import AxiomeToolchain.Guarantees.FileLifecycle
import AxiomeToolchain.Guarantees.StreamHistory
import AxiomeToolchain.Guarantees.StreamRefinement
import AxiomeToolchain.Guarantees.TokenRuns
import AxiomeToolchain.Guarantees.SpanFunctions
import AxiomeToolchain.Guarantees.OverlappingCopy
import AxiomeToolchain.Guarantees.StringCopies
import AxiomeToolchain.Guarantees.StringBuilding
import AxiomeToolchain.Guarantees.SubstringSearch
import AxiomeToolchain.Guarantees.StringOrder
import AxiomeToolchain.Guarantees.CharacterSearch
import AxiomeToolchain.Guarantees.EnvironmentLookup
import AxiomeToolchain.Guarantees.PathJoining
import AxiomeToolchain.Guarantees.ModeText
import AxiomeToolchain.Guarantees.ProgramEntry
import AxiomeToolchain.Guarantees.Calendar
import AxiomeToolchain.Guarantees.CtimeRange
import AxiomeToolchain.Guarantees.CtimeText
import AxiomeToolchain.Guarantees.CalendarOrder
import AxiomeToolchain.Guarantees.DriverRouting
import AxiomeToolchain.Guarantees.DriverAgreement
import AxiomeToolchain.Guarantees.DriverObjects
import AxiomeToolchain.Guarantees.DriverAccounts
import AxiomeToolchain.Guarantees.SeparateCompilation
import AxiomeToolchain.Guarantees.LinkerDefaults
import AxiomeToolchain.Guarantees.LinkerLibrary
import AxiomeToolchain.Guarantees.WrappedLink
import AxiomeToolchain.Guarantees.IoConservation
import AxiomeToolchain.Guarantees.ProgramLife
import AxiomeToolchain.Guarantees.PathBuilding
import AxiomeToolchain.Guarantees.EnvironmentStability
