import Postit.Core.Schema
import Postit.Data.Alone
import Postit.Publishing.Worker

/-!
# The checks before a send, made while nothing else runs

A platform's availability comes from two places: the agents and tables of the deployment, and the
flag an admin sets.  `PlatformCatalog` is the first; `Handler.alone` runs a handler against a
database that nobody else changes, with the catalog answering what it asks of platforms.
-/

namespace Postit.Publishing

open Postit.Framework Postit.Data

/-! ## Platforms -/

/-- What availability reads of an agent: whether accounts connect through OAuth, and the schema of
its deployment table, where it has one. -/
structure CatalogAgent where
  oauth : Bool
  configSchema : Option OptionsSchema

/-- Whether the agent cannot work without its deployment table. -/
def CatalogAgent.needsTable (agent : CatalogAgent) : Bool :=
  agent.oauth || agent.configSchema.any fun s => s.fields.any fun f => f.required || f.noDefault

/-- The agents of this build by platform, and the platforms whose deployment table was given. -/
structure PlatformCatalog where
  registry : Table PlatformId CatalogAgent
  configs : List PlatformId

namespace PlatformCatalog

variable (catalog : PlatformCatalog)

/-- Whether accounts can be connected to the platform, whose row says whether it is `enabled`. -/
def availability (id : PlatformId) (enabled : Bool) : Availability :=
  match catalog.registry.lookup id with
  | none => .notCompiledIn
  | some agent =>
      if !enabled then .disabled
      else if agent.needsTable && !catalog.configs.contains id then .notConfigured
      else .available

/-- The availability of a platform, which may have no row. -/
def platformAvailability (db : Db) (id : PlatformId) : Availability :=
  match db.platforms.lookup id with
  | some enabled => catalog.availability id enabled
  | none => if (catalog.registry.lookup id).isSome then .disabled else .notCompiledIn

/-- The platforms with an agent in this build. -/
def compiledPlatforms : List PlatformId := catalog.registry.entries.map (·.1)

lemma mem_compiledPlatforms {id : PlatformId} :
    id ∈ catalog.compiledPlatforms ↔ (catalog.registry.lookup id).isSome := by
  simp [compiledPlatforms, AList.lookup_isSome, AList.mem_keys, AList.keys, List.keys]

lemma platformAvailability_eq_notCompiledIn (db : Db) (id : PlatformId) :
    catalog.platformAvailability db id = .notCompiledIn ↔ catalog.registry.lookup id = none := by
  unfold platformAvailability availability
  cases catalog.registry.lookup id with
  | none => cases db.platforms.lookup id <;> simp
  | some agent =>
    cases db.platforms.lookup id with
    | none => simp
    | some enabled => simp only [reduceCtorEq, iff_false]; split_ifs <;> simp

lemma platformAvailability_eq_disabled (db : Db) (id : PlatformId) :
    catalog.platformAvailability db id = .disabled ↔
      catalog.registry.lookup id ≠ none ∧ db.platforms.lookup id ≠ some true := by
  unfold platformAvailability availability
  cases catalog.registry.lookup id with
  | none => cases db.platforms.lookup id <;> simp
  | some agent =>
    match db.platforms.lookup id with
    | none | some false => simp
    | some true =>
      simp only [Bool.not_true, Bool.false_eq_true, if_false, ne_eq, not_true, and_false, iff_false]
      split_ifs <;> simp

end PlatformCatalog

/-! ## Handlers run alone -/

/-- What a handler is answered while nothing else runs, besides what it reads and writes in the
database. -/
structure Surroundings where
  catalog : PlatformCatalog
  look : ∀ {β : Type}, Look β → β
  inquire : ∀ {β : Type}, Inquiry β → β

/-- What a look is answered: a platform's availability by the catalog. -/
def Surroundings.answer (s : Surroundings) (db : Db) : ∀ {β : Type}, Look β → β
  | _, .availability platform => .ok (s.catalog.platformAvailability db platform)
  | _, q => s.look q

/-- One call, its transaction run alone. -/
def Call.alone (s : Surroundings) {β : Type} : Call β → Db → Except JobError (β × Db)
  | .commit script, db =>
      match script.run ⟨db, []⟩ with
      | .ok (a, draft) => .ok (.ok a, draft.db)
      | .error e => .ok (.error e, db)
  | .look q, db => .ok (s.answer db q, db)
  | .inquire _ _ q, db => .ok (s.inquire q, db)

/-- Runs a handler alone. -/
def Handler.alone {α : Type} (s : Surroundings) (handler : Handler α) (db : Db) :
    Except JobError (α × Db) :=
  Prog.run (Call.alone s) handler db

end Postit.Publishing
