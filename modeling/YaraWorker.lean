import YaraWorker.FallibleRuns
import YaraWorker.Columnar
import YaraWorker.RenderMatched
import YaraWorker.ScanViews
import YaraWorker.ArrowIo
import YaraWorker.RuleCache
import YaraWorker.Matches
import YaraWorker.BatchScan
import YaraWorker.Check
import YaraWorker.Producers
import YaraWorker.Pull
import YaraWorker.TableScan
import YaraWorker.TableStringMatches
import YaraWorker.RoundTrip
import YaraWorker.HitRanges
import YaraWorker.OutputCapacity
import YaraWorker.ScalarTable
import YaraWorker.RuleErrors
import YaraWorker.NullCells
import YaraWorker.OperandPaths
import YaraWorker.JsonGrammar
import YaraWorker.Keywords
import YaraWorker.CacheRuns
import YaraWorker.LogicalRows
import YaraWorker.Selections
import YaraWorker.Outcomes
import YaraWorker.Chunks
import YaraWorker.EngineEvents
import YaraWorker.CompileCost
import YaraWorker.KeywordLists
import YaraWorker.Modules
import YaraWorker.CheckColumns
