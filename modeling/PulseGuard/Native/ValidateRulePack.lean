import PulseGuard.Native.Rule

/-!
# Rule pack validation

`ValidateRulePackUseCase`, the gate in front of publishing and of promotion to shadow
(`app/application/use_cases/validate_rule_pack.py`).
-/

namespace PulseGuard

/-- `ValidationResult` -/
structure ValidationResult where
  isValid : Bool
  errors : List String
deriving DecidableEq

namespace ValidateRulePackUseCase

/-- The error of the conditions tree: `specificity` must not raise. -/
def treeErrors (rule : Rule) : List String :=
  match rule.conditions.specificity with
  | .ok _ => []
  | .error e => [rule.ruleCode ++ " has a malformed conditions tree: " ++ e.text]

/-- `by_code.get(code)`: the last rule of the pack with the code. -/
def byCode (rules : List Rule) (code : String) : Option Rule :=
  rules.reverse.find? fun r => r.ruleCode == code

/-- `shares_group`: both rules name the same non-empty conflict group. -/
def sharesGroup (rule other : Rule) : Bool :=
  match rule.conflictGroup with
  | none => false
  | some group => group != "" && other.conflictGroup == some group

/-- `either_resolves_it` -/
def eitherResolvesIt (rule other : Rule) : Bool :=
  rule.nonSuppressible || other.nonSuppressible || rule.isSuppressor || other.isSuppressor

/-- The error of one code that a rule declares a conflict with. -/
def conflictErrors (rules : List Rule) (rule : Rule) (otherCode : String) : List String :=
  match byCode rules otherCode with
  | none => [rule.ruleCode ++ " declares conflictsWith '" ++ otherCode ++
      "', which does not exist in this rule pack"]
  | some other =>
    if sharesGroup rule other && !eitherResolvesIt rule other then
      [rule.ruleCode ++ " and " ++ otherCode ++ " share conflict_group '" ++
        rule.conflictGroup.getD "" ++ "' and are declared as conflicting, but neither is a " ++
        "suppressor nor non_suppressible -- resolution would fall through to an unexplained " ++
        "weight/specificity tiebreak"]
    else []

/-- The errors of one round of the loop over the rules. -/
def ruleErrors (rules : List Rule) (rule : Rule) : List String :=
  treeErrors rule ++ rule.conflictsWith.flatMap (conflictErrors rules rule)

/-- `ValidateRulePackUseCase.execute`, on the rules of the pack, which is all it reads. -/
def executeOn (rules : List Rule) : ValidationResult :=
  let errors :=
    (if rules.isEmpty then ["Rule pack has zero rules -- cannot activate an empty pack"] else []) ++
      rules.flatMap (ruleErrors rules)
  { isValid := errors.isEmpty, errors }

/-- `ValidateRulePackUseCase.execute` -/
def execute (pack : RulePack) : ValidationResult := executeOn pack.rules

/-- What the gate lets through: at least one rule, every conditions tree countable, and
    every declared conflict known and resolved by a suppressor or a non-suppressible rule. -/
theorem executeOn_isValid_iff (rules : List Rule) :
    (executeOn rules).isValid = true ↔
      rules ≠ [] ∧ ∀ rule ∈ rules,
        (∃ n, rule.conditions.specificity = .ok n) ∧
        ∀ code ∈ rule.conflictsWith, ∃ other, byCode rules code = some other ∧
          (sharesGroup rule other = true → eitherResolvesIt rule other = true) := by
  have htree (rule : Rule) :
      treeErrors rule = [] ↔ ∃ n, rule.conditions.specificity = .ok n := by
    unfold treeErrors
    cases rule.conditions.specificity <;> simp
  have hconflict (rule : Rule) (code : String) :
      conflictErrors rules rule code = [] ↔ ∃ other, byCode rules code = some other ∧
        (sharesGroup rule other = true → eitherResolvesIt rule other = true) := by
    unfold conflictErrors
    cases byCode rules code with
    | none => simp
    | some other => simp
  simp only [executeOn, List.isEmpty_iff, List.append_eq_nil_iff, List.flatMap_eq_nil_iff,
    ruleErrors, htree, hconflict]
  constructor
  · intro ⟨hne, hrules⟩
    refine ⟨?_, hrules⟩
    intro hnil
    rw [if_pos hnil] at hne
    exact List.cons_ne_nil _ _ hne
  · intro ⟨hne, hrules⟩
    exact ⟨if_neg hne, hrules⟩

end ValidateRulePackUseCase

end PulseGuard
