import EffectScript.Effect.Processor
import EffectScript.Effect.Rack
import EffectScript.Language.Tree.Listing
import EffectScript.Library
import EffectScript.Script.Report
import EffectScript.Proofs.ArenaLayout
import EffectScript.Proofs.GrammarLaw
import EffectScript.Proofs.ByName
import EffectScript.Proofs.Requests
import EffectScript.Proofs.InstalledScript
import EffectScript.Proofs.SectionBoundary
import EffectScript.Proofs.SectionIndependence
import EffectScript.Proofs.Printing
import EffectScript.Proofs.PieceReading
import EffectScript.Proofs.PrimaryReading
import EffectScript.Proofs.RoundTrip
import EffectScript.Proofs.PendingValues
import EffectScript.Proofs.SlotInterleaving
import EffectScript.Proofs.SliderHistory
import EffectScript.Proofs.PhraseSource
import EffectScript.Proofs.TreeHeight
import EffectScript.Proofs.SteepSource
import EffectScript.Proofs.Reinitialization
import EffectScript.Proofs.NameCells
import EffectScript.Proofs.ScriptTraffic
import EffectScript.Proofs.NewestScript
import EffectScript.Proofs.InterpreterCustody
import EffectScript.Proofs.HostFrame
import EffectScript.Proofs.HotSwap
import EffectScript.Effect.Metering
import EffectScript.Proofs.InactiveEffects
import EffectScript.Proofs.DeadCode
import EffectScript.Proofs.BufferGrid
import EffectScript.Proofs.BufferEdits
import EffectScript.Proofs.PoolCustody
import EffectScript.Proofs.BlockLayout
import EffectScript.Proofs.StereoProcessor
import EffectScript.Proofs.BlockSplitting
import EffectScript.Proofs.TokenCover
import EffectScript.Proofs.Rendering
import EffectScript.Proofs.RefusalPlace
import EffectScript.Proofs.HeaderLines
import EffectScript.Proofs.Diagnostics
import EffectScript.Proofs.LoopCap
import EffectScript.Proofs.WriteFrame
import EffectScript.Proofs.ParserHistory
import EffectScript.Proofs.ParserTotality
import EffectScript.Proofs.NestingBalance
import EffectScript.Proofs.RefusalCost
import EffectScript.Proofs.BlockFrames
import EffectScript.Proofs.HeaderEnd
import EffectScript.Proofs.ArenaStore
import EffectScript.Proofs.PoolPolicy
import EffectScript.Proofs.SliderLines
import EffectScript.Proofs.DeclaredSliders
import EffectScript.Proofs.SliderPattern
import EffectScript.Proofs.WrittenSliders
import EffectScript.Proofs.ChainEdits
import EffectScript.Proofs.NumberScanning
import EffectScript.Proofs.ReportSpans
