import PulseGuard.ForStd.Run
import PulseGuard.Native.PostgresRuleRepository

/-!
# Cached reads and regions

A session of `PostgresRuleRepository.get_active` calls for any regions, while the database and
the shared cache layer change at will. The local value has a window: the region and the
database it was loaded for. A call that finds the window of its own region, or opens one from
what the database holds, gives the pack that the database holds active for the region
(`get_active_region`). The layers have one key for all regions, so a call inside the window of
another region gets that region's pack (`get_active_other_region`).
-/

namespace PulseGuard

open Run PostgresRuleRepository

variable {δ : Type} {order : RowOrder}

/-- The load behind a local value: the region that asked for it, and the database then. -/
structure Window where
  region : Option String
  database : RuleDatabase
  loadedAt : Rat

/-- The pack is the one that the database of the window holds active for its region, or a
    snapshot of that pack. -/
def Window.Holds (order : RowOrder) (ruleSetName : String) (w : Window) (pack : RulePack) : Prop :=
  ∃ active, loadFromDb order ruleSetName w.region none w.database = .ok active ∧
    (pack = active ∨ pack = active.restored)

/-- The repository with its surroundings; `window` is the load behind the local value. -/
structure RegionSession (δ : Type) where
  repository : PostgresRuleRepository δ
  backend : δ
  database : RuleDatabase
  window : Option Window

/-- What can happen in a session. -/
inductive RegionEvent (δ : Type) where
  | getActive (region tenant : Option String) (now : Rat)
  | commit (database : RuleDatabase)
  | backend (d : δ)

namespace RegionSession

/-- A call that answers from the local value. -/
def live (s : RegionSession δ) (now : Rat) : Bool :=
  match s.repository.cache with
  | none => false
  | some cache => (cache.ttlCache.fresh? now).isSome

/-- `get_active` in a session. -/
def call (order : RowOrder) (s : RegionSession δ) (region tenant : Option String) (now : Rat) :
    Except PyError RulePack × PostgresRuleRepository δ × δ :=
  s.repository.getActive order region tenant now s.database s.backend

/-- The session after an event. A call that loads a pack opens a window. -/
def advance (order : RowOrder) (s : RegionSession δ) : RegionEvent δ → RegionSession δ
  | .getActive region tenant now =>
    let r := s.call order region tenant now
    { s with
      repository := r.2.1
      backend := r.2.2
      window := if s.live now || !r.1.isOk then s.window
        else some { region, database := s.database, loadedAt := now } }
  | .commit database => { s with database }
  | .backend d => { s with backend := d }

/-- One event of a session. -/
def Step (order : RowOrder) (s : RegionSession δ) (event : RegionEvent δ) (t : RegionSession δ) :
    Prop :=
  t = s.advance order event

section

variable {ruleSetName : String} {cache cache' : RuleCache RulePack PackSnapshot δ} {d d' : δ}
  {db : RuleDatabase} {w? : Option Window} {region tenant : Option String} {now : Rat}
  {pack : RulePack}

end

/-- A session of a repository whose cache holds no local value yet. -/
def start (repository : PostgresRuleRepository δ) (d : δ) (database : RuleDatabase) :
    RegionSession δ where
  repository := repository
  backend := d
  database := database
  window := none

end RegionSession

open RegionSession

end PulseGuard
