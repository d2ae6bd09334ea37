import CilLint.Bytecode.Decode
import CilLint.Bytecode.Instruction
import CilLint.Bytecode.Opcode
import CilLint.Bytecode.OpcodeTable
import CilLint.Bytecode.Profile
import CilLint.Bytecode.Score
import CilLint.Bytecode.Throws
import CilLint.Category
import CilLint.CommandLine.Arguments
import CilLint.CommandLine.Run
import CilLint.CommandLine.Verbosity
import CilLint.Config.Basic
import CilLint.Config.Reader
import CilLint.Decimal.Binary
import CilLint.Decimal.Format
import CilLint.Decimal.Nearest
import CilLint.Decimal.Shortest
import CilLint.Document.Basic
import CilLint.Document.Json
import CilLint.Document.JsonText
import CilLint.Document.Nesting
import CilLint.Document.Plain
import CilLint.Document.Read
import CilLint.Document.Yaml
import CilLint.Document.Yaml.Cursor
import CilLint.Document.Yaml.Lexeme
import CilLint.Document.Yaml.Node
import CilLint.Document.Yaml.Scalar
import CilLint.Duration
import CilLint.FileTree
import CilLint.Glob.Basic
import CilLint.Glob.Expression
import CilLint.Glob.Parse
import CilLint.Main
import CilLint.Manifest.Basic
import CilLint.Manifest.Load
import CilLint.Manifest.Reader
import CilLint.Manifest.Writer
import CilLint.Member
import CilLint.Module
import CilLint.Naming
import CilLint.Path
import CilLint.Progress
import CilLint.Proofs.Accounting
import CilLint.Proofs.Building
import CilLint.Proofs.Categories
import CilLint.Proofs.Checkpoints
import CilLint.Proofs.Concatenation
import CilLint.Proofs.DeadAgreement
import CilLint.Proofs.DeadVerdict
import CilLint.Proofs.Digits
import CilLint.Proofs.Encoding
import CilLint.Proofs.Findings
import CilLint.Proofs.Flattening
import CilLint.Proofs.Growth
import CilLint.Proofs.Insertion
import CilLint.Proofs.Interleaving
import CilLint.Proofs.KeyLookup
import CilLint.Proofs.LastConstruction
import CilLint.Proofs.LittleEndian
import CilLint.Proofs.ManifestFormat
import CilLint.Proofs.Marking
import CilLint.Proofs.ModuleOrder
import CilLint.Proofs.NamePatterns
import CilLint.Proofs.Noninterference
import CilLint.Proofs.OneByOne
import CilLint.Proofs.Outline
import CilLint.Proofs.Padding
import CilLint.Proofs.Pass
import CilLint.Proofs.Place
import CilLint.Proofs.PrintedReport
import CilLint.Proofs.PropertyVerdict
import CilLint.Proofs.Provenance
import CilLint.Proofs.Reference
import CilLint.Proofs.Registration
import CilLint.Proofs.Relocation
import CilLint.Proofs.Reporters
import CilLint.Proofs.Resolution
import CilLint.Proofs.Schedule
import CilLint.Proofs.ScoreFactors
import CilLint.Proofs.ShapeGrammar
import CilLint.Proofs.ShuttleWindows
import CilLint.Proofs.Site
import CilLint.Proofs.StableSort
import CilLint.Proofs.StressAgreement
import CilLint.Proofs.StubExclusion
import CilLint.Proofs.TableShape
import CilLint.Proofs.Tally
import CilLint.Proofs.Tiling
import CilLint.Proofs.TokenText
import CilLint.Proofs.ViolationKeys
import CilLint.Proofs.Words
import CilLint.Render.Json
import CilLint.Render.Pretty
import CilLint.Render.Style
import CilLint.Report
import CilLint.Report.Document
import CilLint.Rule.Basic
import CilLint.Rule.Registry
import CilLint.Rule.Structure
import CilLint.Rule.Stub
import CilLint.Rule.Telltale
import CilLint.Rule.Unused
import CilLint.Stress.Metrics
import CilLint.Stress.Run
import CilLint.Symbol.Basic
import CilLint.Symbol.Skip
import CilLint.Symbol.Table
import CilLint.Text.DecimalDigit
import CilLint.Text.Hex
import CilLint.Text.Numeral
import CilLint.Text.Quoted
import CilLint.Text.Search
import CilLint.Text.Unprintable
import CilLint.Text.Utf8
import CilLint.Text.White
import CilLint.Token
import CilLint.TypeDef
import CilLint.Usage.Dead
import CilLint.Usage.Exclusion
import CilLint.Usage.Index
import CilLint.Validator
import CilLint.Violation
