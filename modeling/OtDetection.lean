import OtDetection.Octets
import OtDetection.LengthFraming
import OtDetection.ShiftRegister
import OtDetection.Dnp3Builder
import OtDetection.Dnp3ErrorDetection
import OtDetection.Utf8Lossy
import OtDetection.Dnp3Application
import OtDetection.S7comm
import OtDetection.OpcuaMessage
import OtDetection.DecoderStreams
import OtDetection.JsonText
import OtDetection.PyLines
import OtDetection.PyText
import OtDetection.Delimiters
import OtDetection.OpcuaJsonLine
import OtDetection.TriagePrompt
import OtDetection.SlidingWindow
import OtDetection.FieldLookup
import OtDetection.CorrelationWindows
import OtDetection.RateLimiter
import OtDetection.OpcuaEncoder
import OtDetection.ConcurrentLimiter
import OtDetection.PyNumber
import OtDetection.RequestGuard
import OtDetection.RuleFields
import OtDetection.IpAddress
import OtDetection.ConduitPolicy
import OtDetection.ShortCircuit
import OtDetection.Matcher
import OtDetection.NumberText
import OtDetection.TextEvents
import OtDetection.JsonDumps
import OtDetection.Steps
import OtDetection.BehaviourBaseline
import OtDetection.EvaluatorErrors
import OtDetection.KeyedMaps
import OtDetection.Logfmt
import OtDetection.LokiSink
import OtDetection.LokiRouting
import OtDetection.DependencyOrder
import OtDetection.ConversionOrder
import OtDetection.Bundles
import OtDetection.BundleStems
import OtDetection.Dnp3Message
import OtDetection.Dnp3Control
import OtDetection.S7commMessage
import OtDetection.ConsecutivePieces
import OtDetection.WildcardText
import OtDetection.BaselineFacts
import OtDetection.CorrelationSilence
import OtDetection.CorrelationEnds
import OtDetection.CorrelationMoments
import OtDetection.IsoTime
import OtDetection.CorrelationTime
import OtDetection.TelemetrySchema
import OtDetection.TimestampRenderings
import OtDetection.SplitText
import OtDetection.ZeekLog
import OtDetection.ContractEvent
import OtDetection.ZeekEvents
import OtDetection.ZeekOmission
import OtDetection.ZeekSides
import OtDetection.Netflow
import OtDetection.FlowAgreement
import OtDetection.StubTriage
import OtDetection.JsonNumber
import OtDetection.PromptNumbers
import OtDetection.PromptBound
import OtDetection.EmulationScore
import OtDetection.OpcuaCiphertext
import OtDetection.ConduitDrift
import OtDetection.SuricataRules
import OtDetection.LogicalLines
import OtDetection.InvertedIndex
import OtDetection.RuleFamilies
import OtDetection.DetectedTechniques
import OtDetection.CoverageReport
import OtDetection.TechniqueAgreement
import OtDetection.PlanValidation
import OtDetection.LabelBuckets
import OtDetection.HeldoutMetrics
import OtDetection.LabelCounts
import OtDetection.DeployTree
import OtDetection.BundleChecks
import OtDetection.BenignCorpus
import OtDetection.CorpusOverlap
import OtDetection.TcpFlow
import OtDetection.CaptureSessions
import OtDetection.CaptureDecoding
import OtDetection.HexText
import OtDetection.DecoderCli
import OtDetection.EventLines
import OtDetection.JsonValues
import OtDetection.DecoderCheck
import OtDetection.PyJson
import OtDetection.JsonLines
import OtDetection.CorpusFile
import OtDetection.IngestService
import OtDetection.IngestStub
import OtDetection.LokiDetection
import OtDetection.FormulaBounds
import OtDetection.SigmaRuleset
import OtDetection.BenignSilence
import OtDetection.SensorRecords
import OtDetection.CollectedEvents
import OtDetection.Collector
import OtDetection.NativeBundle
