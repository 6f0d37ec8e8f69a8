import TaintRules.Proofs.MatcherCache
import TaintRules.Run.Executor

/-!
# Runs through the cache are plain runs

Every step of a run that asks the matcher gives, through its cache, what it gives without one. The
steps are followed from the scan of keys up to the run of a rule set; an executor's result is then
a function of its rules, its configuration and the index alone.
-/

namespace TaintRules

open Matcher

variable {κ : Type}

/-! ### Candidates -/

/-- Scanning keys. -/
theorem gives_scanKeys {test : κ → StateM Matcher Bool} {plain : κ → Bool}
    (ht : ∀ key, Gives (test key) (plain key)) (timer : Timer) (entries : List (κ × List Nat)) :
    Gives (scanKeys test timer entries) (scanKeys (m := Id) plain timer entries) := by
  induction entries generalizing timer with
  | nil => exact .pure _
  | cons entry rest ih =>
    obtain ⟨key, positions⟩ := entry
    unfold scanKeys
    split
    · exact .pure _
    · exact (ht key).bind fun _ ↦ (ih _).bind fun _ ↦ .pure _

/-- Scanning a table. -/
theorem gives_scan {test : κ → StateM Matcher Bool} {plain : κ → Bool}
    (ht : ∀ key, Gives (test key) (plain key)) (postings : Postings κ) (timer : Timer) :
    Gives (postings.scan timer test) (postings.scan (m := Id) timer plain) :=
  gives_scanKeys ht timer postings.entries

private theorem gives_cached (p : Pattern) (mode : CaseMode) (text : String) :
    Gives (Decider.cached p mode text) (Decider.plain p mode text) :=
  gives_acceptsFolded p mode text

/-- Testing the name of a call. -/
theorem gives_acceptsName (mode : CaseMode) (patterns : RulePatterns) (lookup : Lookup)
    (name : String) :
    Gives (acceptsName .cached mode patterns lookup name)
      (acceptsName .plain mode patterns lookup name) := by
  unfold acceptsName
  split
  · exact gives_cached _ _ _
  · exact .pure _

/-- Testing a type and a name. -/
theorem gives_acceptsTypedKey (mode : CaseMode) (patterns : RulePatterns) (plan : GeneratorPlan)
    (key : TypedKey) :
    Gives (acceptsTypedKey .cached mode patterns plan key)
      (acceptsTypedKey .plain mode patterns plan key) := by
  unfold acceptsTypedKey
  split
  · split
    · next type _ =>
      refine (gives_cached type mode key.baseType).bind fun passed ↦ ?_
      cases passed with
      | true => exact gives_cached _ _ _
      | false => exact .pure _
    · exact gives_cached _ _ _
  · exact .pure _

/-- Finding positions by a plan. -/
theorem gives_find (index : Index) (patterns : RulePatterns) (timer : Timer)
    (plan : GeneratorPlan) :
    Gives (plan.find .cached index patterns timer) (plan.find .plain index patterns timer) := by
  unfold GeneratorPlan.find
  split
  · exact .pure _
  · exact .pure _
  · exact .pure _
  · exact gives_scan (gives_acceptsName _ _ _) _ _
  · exact gives_scan (gives_acceptsTypedKey _ _ _) _ _
  · exact gives_scan (gives_acceptsTypedKey _ _ _) _ _

/-- Finding candidates by a plan. -/
theorem gives_candidates (index : Index) (patterns : RulePatterns) (timer : Timer)
    (plan : GeneratorPlan) :
    Gives (plan.candidates .cached index patterns timer)
      (plan.candidates .plain index patterns timer) :=
  (gives_find index patterns timer plan).bind fun _ ↦ .pure _

/-! ### Checks -/

/-- Deciding a pattern for a text that may be missing. -/
theorem gives_decideText (mode : CaseMode) (pattern : Pattern) (text : Option String) :
    Gives (decideText .cached mode pattern text) (decideText .plain mode pattern text) := by
  cases text with
  | none => exact .pure _
  | some text => exact (gives_cached _ _ _).map _

/-- Making one check. -/
theorem gives_check (mode : CaseMode) (entity : Entity) (check : Predicate) :
    Gives (check.check .cached mode entity) (check.check .plain mode entity) := by
  unfold Predicate.check
  split
  · exact gives_decideText _ _ _
  · exact .pure _
  · exact .pure _
  · split <;> exact .pure _
  · exact gives_decideText _ _ _

/-- Making the checks of a plan. -/
theorem gives_evaluateFrom (mode : CaseMode) (entity : Entity) (step : Nat) (guarded : Bool)
    (checks : List Predicate) :
    Gives (evaluateFrom .cached mode entity step guarded checks)
      (evaluateFrom .plain mode entity step guarded checks) := by
  induction checks generalizing step guarded with
  | nil => exact .pure _
  | cons check rest ih =>
    refine (gives_check mode entity check).bind fun verdict ↦ ?_
    cases verdict with
    | pass => exact ih _ _
    | guarded => exact ih _ _
    | fail => exact .pure _

/-! ### Runs -/

/-- Judging a candidate. -/
theorem gives_judge (config : Config) (mode : CaseMode) (rule : CompiledRule) (count : Nat)
    (entity : Entity) :
    Gives (rule.judge .cached config mode count entity)
      (rule.judge .plain config mode count entity) := by
  unfold CompiledRule.judge
  split
  · exact .pure _
  · refine (gives_evaluateFrom mode entity 0 false rule.predicates.steps).bind fun outcome ↦ ?_
    cases outcome with
    | fail step => exact .pure _
    | pass guarded => exact .pure _

/-- Judging candidates one after the other. -/
theorem gives_judgeAll (config : Config) (index : Index) (rule : CompiledRule) (timer : Timer)
    (progress : Progress) (positions : List Nat) :
    Gives (rule.judgeAll .cached config index timer progress positions)
      (rule.judgeAll .plain config index timer progress positions) := by
  induction positions generalizing timer progress with
  | nil => exact .pure _
  | cons position rest ih =>
    unfold CompiledRule.judgeAll
    split
    · exact .pure _
    · split
      · exact ih _ _
      · exact (gives_judge _ _ _ _ _).bind fun _ ↦ (ih _ _).bind fun _ ↦ .pure _

/-- Running a rule. -/
theorem gives_run (config : Config) (index : Index) (timer : Timer) (progress : Progress)
    (rule : CompiledRule) :
    Gives (rule.run .cached config index timer progress)
      (rule.run .plain config index timer progress) := by
  unfold CompiledRule.run
  refine (gives_candidates index rule.patterns timer rule.generator).bind fun _ ↦ ?_
  dsimp only
  split
  · exact .pure _
  · exact (gives_judgeAll _ _ _ _ _ _).bind fun _ ↦ .pure _

/-- Running rules one after the other. -/
theorem gives_runRules (config : Config) (index : Index) (clock : Clock) (progress : Progress)
    (rules : List CompiledRule) :
    Gives (runRules .cached config index clock progress rules)
      (runRules .plain config index clock progress rules) := by
  induction rules generalizing clock progress with
  | nil => exact .pure _
  | cons rule rest ih =>
    unfold runRules
    split
    · exact (gives_run _ _ _ _ rule).bind fun _ ↦ (ih _ _).bind fun _ ↦ .pure _
    · exact ih _ _

/-- Running a set of rules over an index. -/
theorem gives_runSet (config : Config) (clock : Clock) (index : Index) (set : RuleSet) :
    Gives (set.run .cached config clock index) (set.run .plain config clock index) :=
  (gives_runRules _ _ _ _ _).bind fun _ ↦ .pure _

/-! ### Executors -/

namespace Executor

variable {executor : Executor}

/-- Running over an index changes nothing but the matcher. -/
theorem executeIndexBy_apply (clock : Clock) (index : Index) (executor : Executor) :
    executeIndexBy clock index executor =
      let run := executor.rules.run .cached executor.config.toConfig clock index executor.matcher
      (run.1, { executor with matcher := run.2 }) := rfl

/-- While the clock stands still, the time of each rule is over at once or never. -/
theorem executeIndex_apply (index : Index) (executor : Executor) :
    executeIndex index executor = executeIndexBy executor.config.clock index executor := rfl

/-- An executor with a faithful matcher gives the plain result over an index. -/
theorem executeIndexBy_eq (hm : executor.matcher.Faithful) (clock : Clock) (index : Index) :
    (executeIndexBy clock index executor).1 =
      executor.rules.run (m := Id) .plain executor.config.toConfig clock index := by
  rw [executeIndexBy_apply]
  exact (gives_runSet executor.config.toConfig clock index executor.rules _ hm).1

/-- The same while the clock stands still. -/
theorem executeIndex_eq (hm : executor.matcher.Faithful) (index : Index) :
    (executeIndex index executor).1 =
      executor.rules.run (m := Id) .plain executor.config.toConfig executor.config.clock index := by
  rw [executeIndex_apply, executeIndexBy_eq hm]

/-- The matcher stays faithful. -/
theorem executeIndex_state (hm : executor.matcher.Faithful) (index : Index) :
    ∃ matcher : Matcher, matcher.Faithful ∧
      (executeIndex index executor).2 = { executor with matcher } := by
  rw [executeIndex_apply, executeIndexBy_apply]
  exact ⟨_, (gives_runSet executor.config.toConfig executor.config.clock index executor.rules
    _ hm).2, rfl⟩

end Executor

end TaintRules
