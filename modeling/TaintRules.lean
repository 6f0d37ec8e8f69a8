import TaintRules.Config.Basic
import TaintRules.Config.Document
import TaintRules.Config.Error
import TaintRules.Config.Preset
import TaintRules.Config.Sections
import TaintRules.Decimal
import TaintRules.Entity.Basic
import TaintRules.Entity.ConstFlags
import TaintRules.Entity.Fingerprint
import TaintRules.Entity.Json
import TaintRules.Hash.Blake3
import TaintRules.Index.Basic
import TaintRules.Index.Cache
import TaintRules.Json.Basic
import TaintRules.Json.Reader
import TaintRules.Pattern.Automaton
import TaintRules.Pattern.Basic
import TaintRules.Pattern.Matcher
import TaintRules.Pattern.Shape
import TaintRules.Proofs.ArgumentChecks
import TaintRules.Proofs.BatchEncoding
import TaintRules.Proofs.BatchIndependence
import TaintRules.Proofs.BoundedRuns
import TaintRules.Proofs.ByteEncoding
import TaintRules.Proofs.CandidateAccounts
import TaintRules.Proofs.Candidates
import TaintRules.Proofs.CaseFolding
import TaintRules.Proofs.CaseRelaxed
import TaintRules.Proofs.CatalogArrangement
import TaintRules.Proofs.CatalogOutcomes
import TaintRules.Proofs.CompiledRules
import TaintRules.Proofs.ConfigGroups
import TaintRules.Proofs.DeclaredChecks
import TaintRules.Proofs.DocumentOverrides
import TaintRules.Proofs.EntityRecords
import TaintRules.Proofs.EntryPoints
import TaintRules.Proofs.ExportedConfigs
import TaintRules.Proofs.FoldedPatterns
import TaintRules.Proofs.Glob
import TaintRules.Proofs.IndexContents
import TaintRules.Proofs.IndexRequests
import TaintRules.Proofs.IndexReuse
import TaintRules.Proofs.IndexTables
import TaintRules.Proofs.JsonText
import TaintRules.Proofs.LiteralAnchors
import TaintRules.Proofs.MatchCap
import TaintRules.Proofs.MatcherCache
import TaintRules.Proofs.PassedOver
import TaintRules.Proofs.PlainRun
import TaintRules.Proofs.PlanAgreement
import TaintRules.Proofs.PlanChoice
import TaintRules.Proofs.ReadPatterns
import TaintRules.Proofs.RecentlyUsed
import TaintRules.Proofs.RuleIdentities
import TaintRules.Proofs.RuleMeaning
import TaintRules.Proofs.RuleNames
import TaintRules.Proofs.RuleOrder
import TaintRules.Proofs.RuleRuns
import TaintRules.Proofs.RunCounts
import TaintRules.Proofs.Selectivity
import TaintRules.Proofs.SettingGroups
import TaintRules.Proofs.SpelledNames
import TaintRules.Proofs.Wildcards
import TaintRules.Rule.Atom
import TaintRules.Rule.AtomJson
import TaintRules.Rule.AtomYaml
import TaintRules.Rule.Basic
import TaintRules.Rule.Compile
import TaintRules.Rule.Error
import TaintRules.Rule.Generator
import TaintRules.Rule.Json
import TaintRules.Rule.Patterns
import TaintRules.Rule.Predicate
import TaintRules.Rule.Score
import TaintRules.Run.Basic
import TaintRules.Run.Candidates
import TaintRules.Run.Check
import TaintRules.Run.Executor
import TaintRules.Run.Json
import TaintRules.Run.MatchSet
import TaintRules.Schema.Error
import TaintRules.Schema.Record
import TaintRules.Text.Characters
import TaintRules.Text.Lowercase
import TaintRules.Text.Quoted
import TaintRules.Total
import TaintRules.Yaml.Cursor
import TaintRules.Yaml.Grammar
import TaintRules.Yaml.Lexer
import TaintRules.Yaml.Names
import TaintRules.Yaml.Node
import TaintRules.Yaml.Resolve
import TaintRules.Yaml.Scalar
import TaintRules.Yaml.ScalarText
import TaintRules.Yaml.Section
import TaintRules.Yaml.Token
import TaintRules.Yaml.Value
