import TaintRules.Proofs.RuleMeaning

/-!
# When the plans for a rule agree

Calls with a type can be asked for by type and name, or by name with the type checked afterwards.
The table of names has the qualified names of calls too, and the table of types and names does not.
So the two plans agree exactly where every call of the type that has an accepted qualified name has
an accepted simple name as well; where case does not matter, the literals of their scans must not
tell them apart either.
-/

namespace TaintRules

/-! ### Candidates of the type -/

section Selected

variable {m : Type → Type} [Monad m]

/-- The positions of the entities that pass some checks. -/
def keepPassing (decide : Decider m) (index : Index) (checks : PredicatePlan) :
    List Nat → m (List Nat)
  | [] => return []
  | position :: rest => do
    match index.entities[position]? with
    | none => keepPassing decide index checks rest
    | some e =>
      let outcome ← checks.evaluate decide index.mode e
      let kept ← keepPassing decide index checks rest
      return if outcome.guarded?.isSome then position :: kept else kept

/-- The candidates of a plan that pass the check of the type, if the plan leaves it. -/
def GeneratorPlan.selected (decide : Decider m) (index : Index) (patterns : RulePatterns)
    (plan : GeneratorPlan) : m (List Nat) := do
  let found ← plan.candidates decide index patterns .endless
  keepPassing decide index (.ofSteps (PredicatePlan.typeSteps patterns plan)) found.positions

end Selected

/-- Keeping entities that pass checks. -/
theorem gives_keepPassing (index : Index) (checks : PredicatePlan) (positions : List Nat) :
    Matcher.Gives (keepPassing .cached index checks positions)
      (keepPassing .plain index checks positions) := by
  induction positions with
  | nil => exact .pure _
  | cons position rest ih =>
    unfold keepPassing
    split
    · exact ih
    · next e _ =>
      have he := gives_evaluateFrom index.mode e 0 false checks.steps
      exact he.bind fun _ ↦ ih.bind fun _ ↦ .pure _

/-- Selecting candidates by a plan. -/
theorem gives_selected (index : Index) (patterns : RulePatterns) (plan : GeneratorPlan) :
    Matcher.Gives (plan.selected .cached index patterns)
      (plan.selected .plain index patterns) :=
  (gives_candidates index patterns .endless plan).bind fun _ ↦ gives_keepPassing _ _ _

private theorem isSome_guarded?_evaluate (mode : CaseMode) (e : Entity) (checks : PredicatePlan) :
    (Id.run (checks.evaluate .plain mode e)).guarded?.isSome =
      checks.steps.all (·.verdict mode e ≠ .fail) := by
  rw [PredicatePlan.evaluate, guarded?_evaluateFrom, Option.isSome_map, Verdict.conclude]
  split
  · next h =>
    obtain ⟨check, hm, hv⟩ := List.mem_map.mp h
    symm
    rw [Option.isSome_none, List.all_eq_false]
    exact ⟨check, hm, by simp [hv]⟩
  · next h =>
    symm
    rw [Option.isSome_some, List.all_eq_true]
    intro check hm
    simp only [decide_eq_true_eq]
    exact fun hv ↦ h (List.mem_map.mpr ⟨check, hm, hv⟩)

/-- The kept positions are those of the entities that fail no check. -/
theorem run_keepPassing (index : Index) (checks : PredicatePlan) (positions : List Nat) :
    Id.run (keepPassing .plain index checks positions) =
      positions.filter fun i ↦ index.entities[i]?.any fun e ↦
        checks.steps.all (·.verdict index.mode e ≠ .fail) := by
  induction positions with
  | nil => rfl
  | cons position rest ih =>
    unfold keepPassing
    rw [List.filter_cons]
    cases he : index.entities[position]? with
    | none => simpa using ih
    | some e =>
      simp only [Id.run_bind, Id.run_pure, ih, isSome_guarded?_evaluate, Option.any_some]

private theorem filter_findIdxs {α : Type} (items : List α) (test other : α → Bool) :
    (items.findIdxs test).filter (fun i ↦ items[i]?.any other) =
      items.findIdxs fun item ↦ test item && other item := by
  refine (List.pairwise_findIdxs.filter _).eq_of_mem_iff List.pairwise_findIdxs fun i ↦ ?_
  simp only [List.mem_filter, List.mem_findIdxs_iff_exists_getElem_pos, Bool.and_eq_true]
  constructor
  · rintro ⟨⟨hi, ht⟩, ho⟩
    exact ⟨hi, ht, by simpa [hi] using ho⟩
  · rintro ⟨hi, ht, ho⟩
    exact ⟨⟨hi, ht⟩, by simpa [hi] using ho⟩

/-- Whatever the matcher was asked before, a plan selects the entities that it takes and that fail
no check of the type. -/
theorem selected_eq_findIdxs {matcher : Matcher} (hm : matcher.Reached) (patterns : RulePatterns)
    (plan : GeneratorPlan) (mode : CaseMode) (batch : List Entity) :
    (plan.selected .cached (Index.build batch mode) patterns matcher).1 =
      batch.findIdxs fun e ↦ plan.takes mode patterns e
        && (PredicatePlan.typeSteps patterns plan).all (·.verdict mode e ≠ .fail) := by
  have hs : Id.run (plan.selected .plain (Index.build batch mode) patterns) =
      Id.run (keepPassing .plain (Index.build batch mode)
        (.ofSteps (PredicatePlan.typeSteps patterns plan))
        (Id.run (plan.candidates .plain (Index.build batch mode) patterns
          .endless)).positions) := rfl
  have hc : Id.run (plan.candidates .plain (Index.build batch mode) patterns .endless) =
      ⟨batch.findIdxs (plan.takes mode patterns), false, .endless⟩ :=
    GeneratorPlan.candidates_eq_takes patterns plan mode batch
  calc (plan.selected .cached (Index.build batch mode) patterns matcher).1
    _ = Id.run (plan.selected .plain (Index.build batch mode) patterns) :=
      (gives_selected (Index.build batch mode) patterns plan matcher hm.faithful).1
    _ = _ := by
      rw [hs, hc, run_keepPassing]
      exact filter_findIdxs batch _ _

/-! ### The two plans for calls of a type -/

/-- Whether a text contains the literal that a lookup wants in a part of the key. -/
def Lookup.admits (lookup : Lookup) (mode : CaseMode) (field : KeyField) (text : String) : Bool :=
  containsAnchor (lookup.anchorFor mode field) (mode.fold text)

/-- Whether a plan finds a call of a type: the type is accepted and one of the names that the table
of the plan has, and both contain the literal of the plan. -/
def GeneratorPlan.picks (mode : CaseMode) (type member : Pattern) (plan : GeneratorPlan)
    (e : Entity) : Bool :=
  e.asCall?.any fun site ↦
    site.baseType.any (fun text ↦ plan.lookup.admits mode .baseType text && type.accepts mode text)
      && (site.call :: if plan.target = .call then site.qualifiedCall.toList else []).any
        fun name ↦ plan.lookup.admits mode .member name && member.accepts mode name

namespace GeneratorPlan

variable {type member : Pattern} {plan : GeneratorPlan}

/-- The entities that a plan selects are the calls that it picks. -/
theorem takes_and_typeSteps (hr : RulePatterns.AreRead ⟨.call, some type, member⟩)
    (hp : plan ∈ options ⟨.call, some type, member⟩) (mode : CaseMode) (e : Entity) :
    (plan.takes mode ⟨.call, some type, member⟩ e
      && (PredicatePlan.typeSteps ⟨.call, some type, member⟩ plan).all
        (·.verdict mode e ≠ .fail)) = plan.picks mode type member e := by
  rcases List.mem_pair.mp hp with h | h
  · have ht : plan.target = .typeCall := by rw [h]; rfl
    have hk : plan.takesKey mode ⟨.call, some type, member⟩ = _ :=
      funext (takesKey_eq hr hp (by rw [ht]; nofun) mode)
    rw [typeSteps_eq_nil (by rw [h]; rfl), List.all_nil, Bool.and_true, takes, ht, picks, ht]
    dsimp only
    rw [hk]
    cases e with
    | read access => rfl
    | call site =>
      cases hb : site.baseType with
      | none => simp [Entity.typedCallKeys, Entity.asCall?, hb]
      | some text =>
        simp [Entity.typedCallKeys, Entity.asCall?, hb, TypedKey.fold, RulePatterns.acceptsKey,
          Lookup.admits, Pattern.accepts_eq_acceptsFolded, Bool.and_assoc, Bool.and_left_comm]
  · have ht : plan.target = .call := by rw [h]; rfl
    have hn : plan.takesName mode ⟨.call, some type, member⟩ = _ :=
      funext (takesName_eq hr hp mode)
    rw [all_typeSteps (by rw [h]; rfl), takes, ht, picks, ht]
    dsimp only
    rw [hn]
    cases e with
    | read access => rfl
    | call site =>
      have hb (text : String) : plan.lookup.admits mode .baseType text = true := by
        rw [Lookup.admits, anchorFor_baseType_of_call hp ht]
        rfl
      rw [Bool.and_comm]
      simp only [Entity.callKeys, CallSite.any_names, Entity.asCall?, Option.any_some, hb,
        Bool.true_and, if_true, List.any_cons, ← Pattern.accepts_eq_acceptsFolded]
      cases site.qualifiedCall with
      | none =>
        simp only [Option.any_none, Option.toList_none, List.any_nil]
        rfl
      | some name =>
        simp only [Option.any_some, Option.toList_some, List.any_cons, List.any_nil, Bool.or_false]
        rfl

/-- Texts that are accepted contain the literal of a plan, unless case does not matter. -/
theorem admits_of_accepts (hr : RulePatterns.AreRead ⟨.call, some type, member⟩)
    (hp : plan ∈ options ⟨.call, some type, member⟩) {mode : CaseMode}
    (hm : mode = .sensitive ∨ plan.lookup.HasNoAnchor) {text name : String}
    (ht : type.accepts mode text = true) (hn : member.accepts mode name = true) :
    plan.lookup.admits mode .baseType text = true ∧
      plan.lookup.admits mode .member name = true := by
  have ha := containsAnchor_of_mem_options hr hp hm (TypedKey.fold mode text name).part
  have hc : ∀ c ∈ components ⟨.call, some type, member⟩ plan.target,
      c.2.acceptsFolded mode ((TypedKey.fold mode text name).part c.1) = true := by
    intro c hc
    have hc : c ∈ [(KeyField.baseType, type), (.member, member)] := by
      cases htarget : plan.target with
      | call =>
        rw [htarget] at hc
        exact List.mem_cons_of_mem _ hc
      | typeCall | typeRead =>
        rw [htarget] at hc
        exact hc
    rw [Pattern.accepts_eq_acceptsFolded] at ht hn
    rcases List.mem_pair.mp hc with rfl | rfl
    · exact ht
    · exact hn
  exact ⟨ha hc .baseType, ha hc .member⟩

/-- Where no literal narrows a plan, it picks the calls of an accepted type that have an accepted
name in its table. -/
theorem picks_iff (hr : RulePatterns.AreRead ⟨.call, some type, member⟩)
    (hp : plan ∈ options ⟨.call, some type, member⟩) {mode : CaseMode}
    (hm : mode = .sensitive ∨ plan.lookup.HasNoAnchor) (e : Entity) :
    plan.picks mode type member e = true ↔
      ∃ site, e = .call site ∧ site.baseType.any (type.accepts mode) = true ∧
        (member.accepts mode site.call = true ∨
          plan.target = .call ∧ site.qualifiedCall.any (member.accepts mode) = true) := by
  have hnames (site : CallSite) (name : String) :
      (name ∈ site.call :: if plan.target = .call then site.qualifiedCall.toList else []) ↔
        name = site.call ∨ plan.target = .call ∧ site.qualifiedCall = some name := by
    split <;> simp [*]
  cases e with
  | read access => simp [picks, Entity.asCall?]
  | call site =>
    simp only [picks, Entity.asCall?, Option.any_some, Bool.and_eq_true, Option.any_eq_true,
      List.any_eq_true, hnames, Entity.call.injEq, exists_eq_left']
    constructor
    · rintro ⟨⟨text, hb, -, ht⟩, name, hname, -, hn⟩
      refine ⟨⟨text, hb, ht⟩, ?_⟩
      rcases hname with rfl | ⟨htarget, hq⟩
      · exact .inl hn
      · exact .inr ⟨htarget, name, hq, hn⟩
    · rintro ⟨⟨text, hb, ht⟩, hn | ⟨htarget, name, hq, hn⟩⟩
      · obtain ⟨hat, han⟩ := admits_of_accepts hr hp hm ht hn
        exact ⟨⟨text, hb, hat, ht⟩, site.call, .inl rfl, han, hn⟩
      · obtain ⟨hat, han⟩ := admits_of_accepts hr hp hm ht hn
        exact ⟨⟨text, hb, hat, ht⟩, name, .inr ⟨htarget, hq⟩, han, hn⟩

/-- The plans pick the same calls of a batch exactly if no call of the type is found by its
qualified name alone: the table of types and names does not have it. -/
theorem picks_agree_iff (hr : RulePatterns.AreRead ⟨.call, some type, member⟩) {mode : CaseMode}
    (ha : mode = .sensitive ∨
      ∀ plan ∈ options ⟨.call, some type, member⟩, plan.lookup.HasNoAnchor)
    (batch : List Entity) :
    (∀ plan ∈ options ⟨.call, some type, member⟩, ∀ other ∈ options ⟨.call, some type, member⟩,
        ∀ e ∈ batch, plan.picks mode type member e = other.picks mode type member e) ↔
      ∀ site, .call site ∈ batch → site.baseType.any (type.accepts mode) = true →
        site.qualifiedCall.any (member.accepts mode) = true →
          member.accepts mode site.call = true := by
  have hpick (plan : GeneratorPlan) (hp : plan ∈ options ⟨.call, some type, member⟩) :=
    picks_iff hr hp (ha.imp_right fun h ↦ h plan hp)
  constructor
  · intro hagree site hsite hb hq
    have typed : make .typeCall [(.baseType, type), (.member, member)] true none ∈
        options ⟨.call, some type, member⟩ := List.mem_cons_self
    have named : make .call [(.member, member)] false (some type) ∈
        options ⟨.call, some type, member⟩ := List.mem_cons_of_mem _ List.mem_cons_self
    -- the plan by name picks the call, so the other one does, which is only by its simple name
    have hpicked := (hpick _ named (.call site)).mpr ⟨site, rfl, hb, .inr ⟨rfl, hq⟩⟩
    rw [← hagree _ typed _ named _ hsite] at hpicked
    obtain ⟨_, he, -, hname | ⟨htarget, -⟩⟩ := (hpick _ typed _).mp hpicked
    · cases he
      exact hname
    · cases htarget
  · intro hnames
    have simple (plan : GeneratorPlan) (hp : plan ∈ options ⟨.call, some type, member⟩)
        (e : Entity) (he : e ∈ batch) :
        plan.picks mode type member e = true ↔
          ∃ site, e = .call site ∧ site.baseType.any (type.accepts mode) = true ∧
            member.accepts mode site.call = true := by
      rw [hpick plan hp]
      constructor
      · rintro ⟨site, rfl, hb, hname | ⟨-, hq⟩⟩
        · exact ⟨site, rfl, hb, hname⟩
        · exact ⟨site, rfl, hb, hnames site he hb hq⟩
      · rintro ⟨site, rfl, hb, hname⟩
        exact ⟨site, rfl, hb, .inl hname⟩
    intro plan hp other ho e he
    rw [Bool.eq_iff_iff, simple plan hp e he, simple other ho e he]

end GeneratorPlan

/-- Whatever the matcher was asked before, each plan for the calls of a type selects the calls that
it picks. Where no literal tells the plans apart, they select the same calls exactly if every call
of the type with an accepted qualified name has an accepted simple name as well: the table of types
and names does not have the qualified names. -/
theorem selected_plans_agree_iff {matcher : Matcher} (hm : matcher.Reached)
    {rawType rawMember : String} {type member : Pattern} (ht : Pattern.parse rawType = .ok type)
    (hn : Pattern.parse rawMember = .ok member) (mode : CaseMode) (batch : List Entity) :
    let patterns : RulePatterns := ⟨.call, some type, member⟩
    let plans := GeneratorPlan.options patterns
    let selected (plan : GeneratorPlan) : List Nat :=
      (plan.selected .cached (Index.build batch mode) patterns matcher).1
    (∀ plan ∈ plans, selected plan = batch.findIdxs (plan.picks mode type member)) ∧
      ((mode = .sensitive ∨ ∀ plan ∈ plans, plan.lookup.HasNoAnchor) →
        ((∀ plan ∈ plans, ∀ other ∈ plans, selected plan = selected other) ↔
          ∀ site, .call site ∈ batch → site.baseType.any (type.accepts mode) = true →
            site.qualifiedCall.any (member.accepts mode) = true →
              member.accepts mode site.call = true)) := by
  intro patterns plans selected
  have hr : patterns.AreRead := by
    intro p hp
    have hp : p = type ∨ p = member := by simpa [patterns, RulePatterns.all] using hp
    rcases hp with rfl | rfl
    · exact Pattern.isRead_of_parse ht
    · exact Pattern.isRead_of_parse hn
  have hs : ∀ plan ∈ plans, selected plan = batch.findIdxs (plan.picks mode type member) := by
    intro plan hp
    have hpick : plan.picks mode type member = _ :=
      funext fun e ↦ (GeneratorPlan.takes_and_typeSteps hr hp mode e).symm
    rw [hpick]
    exact selected_eq_findIdxs hm patterns plan mode batch
  refine ⟨hs, fun ha ↦ ?_⟩
  rw [← GeneratorPlan.picks_agree_iff hr ha batch]
  refine forall₂_congr fun plan hp ↦ forall₂_congr fun other ho ↦ ?_
  rw [hs plan hp, hs other ho, findIdxs_eq_findIdxs_iff]

/-! ### A call that the plans tell apart -/

/-- Patterns for a type and a qualified name. -/
def shellPatterns : RulePatterns := ⟨.call, some (.ofText "lib.Shell"), .ofText "os.system"⟩

/-- The plan by type and name misses the call that the plan by name selects, although the call is of
the type and has the name. -/
theorem selected_plans_differ_on_qualified_name :
    ((GeneratorPlan.options shellPatterns).map fun plan ↦
      (plan.target,
        (plan.selected .cached (Index.build [shellCall] .sensitive) shellPatterns (.new 1)).1)) =
      [(.typeCall, []), (.call, [0])] := by
  have ht : Pattern.parse "lib.Shell" = .ok (.ofText "lib.Shell") := rfl
  have hn : Pattern.parse "os.system" = .ok (.ofText "os.system") := rfl
  have hs : ∀ plan ∈ GeneratorPlan.options shellPatterns,
      (plan.selected .cached (Index.build [shellCall] .sensitive) shellPatterns (.new 1)).1 = _ :=
    (selected_plans_agree_iff (.new 1) ht hn .sensitive [shellCall]).1
  rw [List.map_congr_left fun plan hp ↦ congrArg (plan.target, ·) (hs plan hp)]
  decide +kernel

end TaintRules
