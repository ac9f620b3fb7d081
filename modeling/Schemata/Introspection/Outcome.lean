import Schemata.Introspection.Session
import Schemata.Settings.Introspection

/-!
# Outcomes of an introspection

An introspection ends with a graph or a failure, and with the warnings that it gave
until then.
-/

namespace Schemata

/-- How an introspection ends. -/
structure Introspected where
  graph : Except Error TypeGraph
  warnings : List String

/-- Carry a step out in a fresh session with a memory, and take the graph of the root
that it gives, and the memory that it leaves. -/
def Session.introspect {δ μ : Type} (memory : μ) (step : Session.Step δ μ TypeRef) :
    Introspected × μ :=
  match step.run { memory } with
  | (.ok root, session) =>
    ({ graph := .ok (session.graph root), warnings := session.log }, session.memory)
  | (.error error, session) => ({ graph := .error error, warnings := session.log }, session.memory)

/-- The discriminator of polymorphic types with the given mapping. -/
def IntrospectionSettings.discriminator (settings : IntrospectionSettings)
    (mapping : Table String TypeId) : Discriminator :=
  { propertyName := settings.discriminatorProperty
    required := settings.discriminatorRequired
    mapping := some mapping }

end Schemata
