import Schemata.Graph.Basic

/-!
# Validation of type graphs

A type graph is valid when every reference by name, wherever it occurs, names a node
of the table, and no node that needs a name stands where it is used.

References are checked from the last to the first, and a reference before the
references inside its node.
-/

namespace Schemata

namespace TypeRef

mutual

/-- Check a reference that a node holds, and the references inside it. -/
def check (graph : TypeGraph) (owner : Option TypeId) : TypeRef → Except Error Unit
  | .named id _ => do discard (graph.node id owner)
  | .inline node _ => checkNode graph owner node

/-- Check a node that stands where it is used. -/
def checkNode (graph : TypeGraph) (owner : Option TypeId) : NodeOf TypeRef → Except Error Unit
  | .object _ => .error (.invalidGraph (.inlinedNode "ObjectNode") owner)
  | .enumeration _ => .error (.invalidGraph (.inlinedNode "EnumNode") owner)
  | .polymorphic _ => .error (.invalidGraph (.inlinedNode "PolymorphicNode") owner)
  | .list element _ => check graph owner element
  | .map key value _ => do
    check graph owner value
    check graph owner key
  | _ => .ok ()

end

end TypeRef

/-- Check that references resolve and that named nodes are not inlined. -/
def TypeGraph.validate (graph : TypeGraph) : Except Error Unit :=
  graph.references.reverse.forM fun (ref, owner) => ref.check graph owner

end Schemata
