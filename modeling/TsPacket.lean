import TsPacket.Bpf.VlanOffload
import TsPacket.Bpf.TcxChain
import TsPacket.Testbed.BpfMaps
import TsPacket.EndToEnd.LossAccounting
import TsPacket.EndToEnd.CsvRoundTrip
import TsPacket.Bpf.Extension
import TsPacket.Bpf.Fragments
import TsPacket.Bpf.Idempotence
import TsPacket.Bpf.MarkSafety
import TsPacket.EndToEnd.DscpObserved
import TsPacket.Analysis.Stats
import TsPacket.Analysis.Report
import TsPacket.EndToEnd.LossAgreement
import TsPacket.Lib.Raise
import TsPacket.Analysis.Columns
import TsPacket.Analysis.CellErrors
import TsPacket.Lib.OrderedDict
import TsPacket.Lib.Numpy
import TsPacket.Analysis.Bootstrap
import TsPacket.Analysis.Dataset
import TsPacket.Analysis.Summarised
import TsPacket.Lib.Pacing
import TsPacket.Workload.BeFlood
import TsPacket.Analysis.RunNames
import TsPacket.Lib.StableSort
import TsPacket.Analysis.Grouping
import TsPacket.Analysis.DscpPooling
import TsPacket.Analysis.Chunking
import TsPacket.Analysis.Intervals
import TsPacket.Lib.PyData
import TsPacket.Analysis.SanitizeJson
import TsPacket.Lib.Quantile
import TsPacket.Lib.JsonText
import TsPacket.Analysis.ReportJson
import TsPacket.Testbed.MapTexts
import TsPacket.Testbed.RunScript
import TsPacket.Testbed.RunMeta
import TsPacket.EndToEnd.TestMatrix
import TsPacket.Bpf.TcxRuns
import TsPacket.Workload.TalkerPacing
import TsPacket.Bpf.HarnessFrames
import TsPacket.Bpf.HarnessRun
import TsPacket.Analysis.Reclocked
import TsPacket.Analysis.LatencyShift
import TsPacket.EndToEnd.ClockOffset
import TsPacket.Analysis.Coherence
import TsPacket.EndToEnd.PacedJitter
import TsPacket.Analysis.Markdown
import TsPacket.EndToEnd.MatrixReport
