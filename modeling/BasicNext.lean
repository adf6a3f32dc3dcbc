import BasicNext.Ir.ConsumedReads
import BasicNext.Rt.ArcLedger
import BasicNext.Dispatch.Join
import BasicNext.Dispatch.Wakeups
import BasicNext.Data.Operations
import BasicNext.Compress.Extraction
import BasicNext.Frontend.LexerTurns
import BasicNext.Semantic.NarrowingConditions
import BasicNext.Semantic.ConstantFolding
import BasicNext.Native.ForLoop
import BasicNext.Native.FoldedBlocks
import BasicNext.Native.Phis
import BasicNext.Dap.Sequence
import BasicNext.Dap.Protocol
import BasicNext.Web.RefusedRequests
import BasicNext.Native.SymbolClashes
import BasicNext.Lsp.Answers
import BasicNext.Frontend.ExpressionCorrect
import BasicNext.Ir.MustDefinedComplete
import BasicNext.Data.CsvRecords
import BasicNext.Data.JoinRelation
import BasicNext.Json.Writes
import BasicNext.Rt.PolicyNarrows
import BasicNext.Dispatch.BarrierAgreement
import BasicNext.Log.OneLine
import BasicNext.Text.LocalTime
import BasicNext.Text.Forms
import BasicNext.Web.HttpDate
import BasicNext.Web.TargetSegments
import BasicNext.Web.RedirectReferences
import BasicNext.Web.SessionRotation
import BasicNext.Net.CidrBlocks
import BasicNext.Semantic.Returns
import BasicNext.Semantic.FloatLiterals
import BasicNext.Ir.EscapePaths
import BasicNext.Frontend.ModuleLoading
import BasicNext.Frontend.ClassifiedTokens
import BasicNext.Frontend.SessionAccumulator
import BasicNext.Frontend.AssignmentPlaces
import BasicNext.Web.CookieJar
import BasicNext.Web.SessionStore
import BasicNext.Web.RateLimits
import BasicNext.Web.Connections
import BasicNext.Native.VectorNest
import BasicNext.Native.StringAgreement
import BasicNext.Dap.Breakpoints
import BasicNext.Semantic.NominalTypes
