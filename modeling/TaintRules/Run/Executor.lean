import TaintRules.Index.Cache
import TaintRules.Run.Basic
import TaintRules.Text.Quoted

/-!
# Executors

An executor runs one set of rules under one configuration over batch after batch. It keeps a matcher
and the last index, neither of which changes a result.
-/

namespace TaintRules

/-- The rules, the configuration, and what is kept from batch to batch. -/
structure Executor where
  rules : RuleSet
  config : ValidConfig
  matcher : Matcher
  cache : IndexCache

namespace Executor

/-- An executor that ran over no batch yet. -/
def new (rules : RuleSet) (config : ValidConfig) : Executor where
  rules := rules
  config := config
  matcher := .new config.runtime.patternCacheSize.toNat
  cache := { window := config.runtime.indexCacheTtlMs.toNat }

/-- The case mode of the configuration. -/
def mode (executor : Executor) : CaseMode := .ofBool executor.config.runtime.caseSensitive

/-- Does something with the matcher. -/
def withMatcher (action : StateM Matcher α) : StateM Executor α := fun executor ↦
  let (value, matcher) := action.run executor.matcher
  (value, { executor with matcher })

/-- Does something with the index cache. -/
def withCache (action : StateM IndexCache α) : StateM Executor α := fun executor ↦
  let (value, cache) := action.run executor.cache
  (value, { executor with cache })

/-- Runs the rules over an index by a clock. -/
def executeIndexBy (clock : Clock) (index : Index) : StateM Executor MatchSet := do
  let executor ← get
  withMatcher (executor.rules.run .cached executor.config.toConfig clock index)

/-- Runs the rules over an index while the clock stands still. -/
def executeIndex (index : Index) : StateM Executor MatchSet := fun executor ↦
  executeIndexBy executor.config.clock index executor

/-- The diagnostics of entities that cannot be indexed. -/
def screen (batch : List Entity) : List Diagnostic :=
  batch.filterMap fun entity ↦
    match entity.validate with
    | .ok _ => none
    | .error error => some (.malformed error)

/-- Runs the rules over a batch. Entities that cannot be indexed are left out and reported. -/
def execute (batch : List Entity) : StateM Executor MatchSet := do
  let mode := (← get).mode
  let (index, hit) ← withCache (IndexCache.getOrBuild (batch.filter (·.isValid)) mode)
  let set ← executeIndex index
  return MatchSet.precede (screen batch) { set with stats := { set.stats with cacheHit := hit } }

/-- Runs the rules over a batch with an index that is not kept. -/
def executeOnce (batch : List Entity) : StateM Executor MatchSet := do
  let mode := (← get).mode
  let set ← executeIndex (Index.build (batch.filter (·.isValid)) mode)
  return set.precede (screen batch)

/-- Runs the rules over batches that have nothing to do with each other. -/
def executeBatches (batches : List (List Entity)) : StateM Executor (List MatchSet) :=
  batches.mapM executeOnce

/-- The diagnostics of records that describe no entity. -/
def screenRecords (records : List EntityRecord) : List Diagnostic :=
  records.filterMap fun record ↦
    match record.toEntity with
    | .ok _ => none
    | .error error => some (.malformed error)

/-- Runs the rules over records. Those that describe no entity are left out and reported. -/
def executeRecords (records : List EntityRecord) : StateM Executor MatchSet := do
  let mode := (← get).mode
  let set ← executeIndex (Index.build (records.filterMap (·.toEntity.toOption)) mode)
  return set.precede (screenRecords records)

/-- Forgets the kept index. -/
def invalidate (executor : Executor) : Executor :=
  { executor with cache := executor.cache.invalidate }

/-- A one-line account of the executor. -/
def describe (executor : Executor) : String :=
  "TaintRuleExecutor \x7b rules: " ++ toString executor.rules.size
    ++ ", config: " ++ Text.quote executor.config.describe
    ++ ", matcher: " ++ executor.matcher.describe
    ++ ", index_cache: " ++ executor.cache.describe ++ " \x7d"

end Executor

end TaintRules
