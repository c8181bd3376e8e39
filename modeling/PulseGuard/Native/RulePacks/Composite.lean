import PulseGuard.Native.RulePacks.HistoricalPattern
import PulseGuard.Native.RulePacks.IndustrySop
import PulseGuard.Native.RulePacks.NetInf
import PulseGuard.Native.RulePacks.Sla
import PulseGuard.Native.RulePacks.Vast

/-!
# The shipped composite pack

The static rule repository of the composition root: the base rules and the six further
rule groups in one pack (`app/interfaces/api/dependencies.py`,
`app/infrastructure/repositories/composite_rule_repository.py`).
-/

namespace PulseGuard

/-- The pack of `CompositeRuleRepository`. -/
def CompositeRuleRepository.getActive (name : String) (version : Int) (region : Option String)
    (ruleGroups : List (List Rule)) : RulePack where
  name := name
  version := version
  status := .active
  region := region
  rules := ruleGroups.flatten
  parentVersion := none
  id := none
  tenantId := none
  createdBy := "system"
  lockVersion := 1

/-- `_static_rule_repository`; a loader that raises stops the start of the application. -/
def staticRuleRepository : Except PyError RulePack := do
  let basePack := InMemoryRuleRepository.getActive
  let slaRules ← SlaRulePack.loadSlaRules
  let vastRules ← VastRulePack.loadVastRules
  return CompositeRuleRepository.getActive basePack.name (basePack.version + 1) basePack.region
    [basePack.rules, slaRules, vastRules, CsrSlaRulePack.loadCsrSlaRules,
      HistoricalPatternRulePack.loadHistoricalPatternRules, NetInfRulePack.loadNetInfRules,
      IndustrySop.loadIndustrySopRules]

end PulseGuard
