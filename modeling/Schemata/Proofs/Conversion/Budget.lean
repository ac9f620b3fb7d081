import Schemata.Proofs.Conversion.Nesting
import Schemata.Proofs.Graph.Containers

/-!
# The budget of a conversion

No object and no polymorphic type is converted inside itself, and between two of them
lies a chain of lists and maps.  A chain that ends is short, and an endless one fails
with any budget.  So the budget of a conversion is never what a conversion fails for:
with a larger one, it runs alike.

Main results:

- Theorem {lit}`run_reference_of_isEndless`: with any budget, an endless chain of lists
  and maps fails and leaves the state.
- Definition {lit}`Fits`: a part of a conversion has budget for all that is left.
- Theorem {lit}`run_reference_of_le`: with a budget that a reference fits, a larger one makes
  no difference.
- Theorem {lit}`run_root_eq_convert`, {lit}`run_body_eq_convert`: with all of its budget but
  one, or with more, a conversion runs as it does.
-/

namespace Schemata.Conversion

variable {c : Conversion} {owner : Option TypeId} {state : ConversionState}

/-! ## Chains of lists and maps -/

/-- The conversion of a list or map is that of its contents, put into a fragment. -/
theorem layer_of_contents {ref contents : TypeRef} (h : c.graph.contents? ref = some contents)
    (owner : Option TypeId) :
    ∃ (inner : Option TypeId) (enclose : Definition → Definition), ∀ below : ConvertRef,
      c.layer below ref owner = below contents inner >>= fun part => pure (enclose part) := by
  cases ref with
  | inline node nullable =>
      cases node with
      | list element description =>
          cases h
          exact ⟨none, _, fun below => rfl⟩
      | map key value description =>
          cases h
          exact ⟨none, _, fun below => rfl⟩
      | primitive | object | enumeration | polymorphic | other => cases h
  | named id nullable =>
      rcases Option.bind_eq_some_iff.mp h with ⟨node, found, hcontents⟩
      have hnode : c.graph.node id owner = .ok node := TypeGraph.node_eq_ok_iff.mpr found
      simp only [layer, hnode, Attempt.ofExcept_ok_bind]
      cases node with
      | list element description =>
          cases hcontents
          exact ⟨some id, _, fun below => rfl⟩
      | map key value description =>
          cases hcontents
          exact ⟨some id, _, fun below => rfl⟩
      | primitive | object | enumeration | polymorphic | other => cases hcontents

/-- With any budget, an endless chain of lists and maps fails and leaves the state. -/
theorem run_reference_of_isEndless {ref : TypeRef} (h : c.graph.IsEndless ref) (budget : Nat) :
    (c.reference budget ref owner).run state = (.error .endless, state) := by
  induction budget generalizing ref owner with
  | zero => rfl
  | succ budget ih =>
      rcases h.contents with ⟨contents, hstep, hrest⟩
      rcases layer_of_contents hstep owner with ⟨inner, enclose, hlayer⟩
      rw [reference, hlayer, Attempt.run_bind_error (ih hrest)]

/-! ## Enough budget for what is left -/

/-- How many identifiers of the table are not among the given ones. -/
def room (c : Conversion) (inProgress : List TypeId) : Nat :=
  (c.graph.nodes.keys.filter fun id => !inProgress.contains id).length

/-- Another node of the table under way takes room. -/
theorem room_cons_lt {inProgress : List TypeId} {id : TypeId} (known : id ∈ c.graph.nodes.keys)
    (outside : id ∉ inProgress) : c.room (id :: inProgress) < c.room inProgress := by
  have hsplit : (c.graph.nodes.keys.filter fun other => !(id :: inProgress).contains other) =
      (c.graph.nodes.keys.filter fun other => !inProgress.contains other).filter
        fun other => other != id := by
    rw [List.filter_filter]
    refine List.filter_congr fun other _ => ?_
    by_cases h : other = id <;> simp [h, List.contains_eq_mem]
  rw [room, room, hsplit, List.length_filter_lt_length_iff_exists]
  exact ⟨id, List.mem_filter.mpr ⟨known, by simpa using outside⟩, by simp⟩

/-- There is never more room than the table has entries. -/
theorem room_le (c : Conversion) (inProgress : List TypeId) :
    c.room inProgress ≤ c.graph.nodes.length := by
  have hlength := List.length_filter_le (fun id => !inProgress.contains id) c.graph.nodes.keys
  rwa [Table.keys, List.length_map] at hlength

/-- How long a chain of lists and maps can be when the references of the graph hold so
many nodes one inside the other. -/
def reach (c : Conversion) (depth : Nat) : Nat :=
  (c.graph.nodes.length + 1) * (depth + 1)

/-- The budget has a chain of lists and maps for every identifier that can still be begun, and
for a reference also the rest of the chain that it is in, when that chain ends. -/
def Fits (c : Conversion) (depth budget : Nat) : Task → ConversionState → Prop
  | .fragment ref, state => ref.depth ≤ depth ∧ ∀ length, c.graph.Lasts length ref →
      c.room state.inProgress * c.reach depth + length < budget
  | .body id type, state => c.graph.nodes.find? id = some (.object type) ∧
      id ∉ state.inProgress ∧ c.room state.inProgress * c.reach depth ≤ budget
  | .properties properties, state => (∀ property ∈ properties, property.type.depth ≤ depth) ∧
      (c.room state.inProgress + 1) * c.reach depth ≤ budget
  | .variants _, state => (c.room state.inProgress + 1) * c.reach depth ≤ budget

variable {depth budget : Nat} {task inner : Task} {inside : ConversionState} {begun : List TypeId}

/-- Once an identifier is begun there is a whole chain of budget for what it holds. -/
theorem room_start_le {id : TypeId} (known : id ∈ c.graph.nodes.keys)
    (outside : id ∉ state.inProgress)
    (hbudget : c.room state.inProgress * c.reach depth ≤ budget) :
    (c.room (state.start (some id)).inProgress + 1) * c.reach depth ≤ budget := by
  rw [ConversionState.start_inProgress _ _ outside]
  exact (Nat.mul_le_mul_right _ (room_cons_lt known outside)).trans hbudget

/-- A whole chain of budget is enough for any reference that is held. -/
theorem fits_fragment (bound : c.graph.IsDepthBound depth) {ref : TypeRef}
    (hdepth : ref.depth ≤ depth)
    (hbudget : (c.room state.inProgress + 1) * c.reach depth ≤ budget) :
    c.Fits depth budget (.fragment ref) state := by
  refine ⟨hdepth, fun length hlasts => ?_⟩
  have hlength : length < c.reach depth := hlasts.length_lt bound hdepth
  rw [Nat.succ_mul] at hbudget
  omega

/-- What fits has parts that fit, one case for each way to open a part that is no reference. -/
theorem Fits.within (bound : c.graph.IsDepthBound depth) (part : task.isFragment = false)
    (h : c.Fits depth budget task state) (opens : c.Opens task state begun inner inside) :
    c.Fits depth budget inner inside := by
  cases opens with
  | element | value | object | choice => cases part
  | body =>
      rcases h with ⟨found, outside, hbudget⟩
      refine ⟨fun property hproperty => ?_, room_start_le (Table.mem_keys_of_find? found) outside hbudget⟩
      exact bound.child found (List.mem_map_of_mem hproperty)
  | property => exact fits_fragment bound (h.1 _ (List.mem_cons_self ..)) h.2
  | nextProperty head =>
      rw [Fits, head.inProgress_eq]
      exact ⟨(List.forall_mem_cons.mp h.1).2, h.2⟩
  | variantObject new outside found =>
      rw [Fits, Nat.succ_mul] at h
      exact ⟨found, outside, by omega⟩
  | variantOther => exact fits_fragment bound (Nat.zero_le _) h
  | nextVariant head =>
      rw [Fits, head.inProgress_eq]
      exact h

/-- The contents of a list or map are a step nearer to the end of the chain. -/
theorem Fits.contents (bound : c.graph.IsDepthBound depth) {ref contents : TypeRef} {node : Node}
    (leads : c.graph.Leads ref node) (hcontents : node.contents? = some contents)
    (h : c.Fits depth (budget + 1) (.fragment ref) state) :
    c.Fits depth budget (.fragment contents) state := by
  have hstep : c.graph.contents? ref = some contents := by
    cases leads with
    | inline unnamed => exact hcontents
    | named found => rwa [TypeGraph.contents?, found]
  have hless : contents.depth ≤ depth := by
    cases leads with
    | inline unnamed => exact (TypeGraph.depth_contents hcontents).le.trans h.1
    | named found => exact bound.child found (TypeGraph.mem_children_of_contents hcontents)
  refine ⟨hless, fun length hlasts => ?_⟩
  have hlonger := h.2 (length + 1) (.more hstep hlasts)
  omega

/-- What a reference opens fits with one less. -/
theorem Fits.opened (bound : c.graph.IsDepthBound depth) {ref : TypeRef}
    (h : c.Fits depth (budget + 1) (.fragment ref) state)
    (opens : c.Opens (.fragment ref) state begun inner inside) :
    c.Fits depth budget inner inside := by
  have hroom : c.graph.contents? ref = none → c.room state.inProgress * c.reach depth ≤ budget :=
    fun hend => Nat.le_of_lt_succ (h.2 0 (.last hend))
  cases opens with
  | element leads => exact h.contents bound leads rfl
  | value leads => exact h.contents bound leads rfl
  | object found outside new =>
      refine ⟨found, outside, hroom ?_⟩
      rw [TypeGraph.contents?, found]
      rfl
  | choice found outside =>
      refine room_start_le (Table.mem_keys_of_find? found) outside (hroom ?_)
      rw [TypeGraph.contents?, found]
      rfl

/-- What a part asks for fits, when the part fits and is no reference. -/
theorem Fits.asked_within (bound : c.graph.IsDepthBound depth) {ref : TypeRef}
    (asks : c.Asks task state ref inside) (part : task.isFragment = false)
    (h : c.Fits depth budget task state) : c.Fits depth budget (.fragment ref) inside := by
  induction asks with
  | call opens => exact h.within bound part opens
  | through opens next _ ih => exact ih next (h.within bound part opens)

/-- What a reference asks for fits with one less. -/
theorem Fits.asked (bound : c.graph.IsDepthBound depth) {ref contents : TypeRef}
    (h : c.Fits depth (budget + 1) (.fragment ref) state)
    (asks : c.Asks (.fragment ref) state contents inside) :
    c.Fits depth budget (.fragment contents) inside := by
  cases asks with
  | call opens => exact h.opened bound opens
  | through opens part asks => exact (h.opened bound opens).asked_within bound asks part

/-- With a budget that a reference fits, one more makes no difference.  Each reference that is
asked for inside fits with one less, and at the end only endless chains fit. -/
theorem run_reference_succ (bound : c.graph.IsDepthBound depth) {ref : TypeRef}
    (h : c.Fits depth budget (.fragment ref) state) (owner : Option TypeId) :
    (c.reference budget ref owner).run state = (c.reference (budget + 1) ref owner).run state := by
  induction budget generalizing ref owner state with
  | zero =>
      have hendless : c.graph.IsEndless ref := fun length hlasts => Nat.not_lt_zero _ (h.2 length hlasts)
      rw [run_reference_of_isEndless hendless, run_reference_of_isEndless hendless]
  | succ budget ih =>
      exact layer_congr (runs_of_reference budget) (fun _ _ asks other => ih (h.asked bound asks) other)
        owner

/-- What fits a budget fits a larger one. -/
theorem Fits.mono {ref : TypeRef} {larger : Nat} (h : c.Fits depth budget (.fragment ref) state)
    (more : budget ≤ larger) : c.Fits depth larger (.fragment ref) state :=
  ⟨h.1, fun length hlasts => (h.2 length hlasts).trans_le more⟩

/-- With a budget that a reference fits, any larger one makes no difference. -/
theorem run_reference_of_le (bound : c.graph.IsDepthBound depth) {ref : TypeRef}
    (h : c.Fits depth budget (.fragment ref) state) {larger : Nat} (more : budget ≤ larger)
    (owner : Option TypeId) :
    (c.reference budget ref owner).run state = (c.reference larger ref owner).run state := by
  induction larger, more using Nat.le_induction with
  | base => rfl
  | succ larger more ih => rw [ih, run_reference_succ bound (h.mono more) owner]

/-! ## The budget of a graph -/

/-- A fold that takes the greater number of two is no less than any of the numbers. -/
theorem le_foldl_max {numbers : List Nat} {n first : Nat} (h : n ∈ first :: numbers) :
    n ≤ numbers.foldl max first := by
  induction numbers generalizing first n with
  | nil => exact Nat.le_of_eq (List.mem_singleton.mp h)
  | cons second rest ih =>
      rw [List.foldl_cons]
      rcases List.mem_cons.mp h with rfl | h
      · exact (Nat.le_max_left _ _).trans (ih (List.mem_cons_self ..))
      · rcases List.mem_cons.mp h with rfl | h
        · exact (Nat.le_max_right _ _).trans (ih (List.mem_cons_self ..))
        · exact ih (List.mem_cons_of_mem _ h)

/-- The budget of a conversion leaves more than one beside what is enough. -/
theorem exists_budget_bound (c : Conversion) : ∃ depth, c.graph.IsDepthBound depth ∧
    (c.graph.nodes.length + 1) * c.reach depth < c.budget := by
  let depth := (c.graph.references.map fun ref => ref.1.depth).foldl max 0
  refine ⟨depth, ?_, ?_⟩
  · intro entry hentry
    exact le_foldl_max (List.mem_cons_of_mem _ (List.mem_map_of_mem hentry))
  · have hbudget : c.budget = (c.graph.nodes.length + 1) * (c.graph.nodes.length + 1) * (depth + 2) :=
      rfl
    rw [hbudget, reach, ← Nat.mul_assoc]
    exact Nat.mul_lt_mul_of_pos_left (by omega) (Nat.mul_pos (Nat.succ_pos _) (Nat.succ_pos _))

/-- At the start the root fits the budget of a conversion, also without the last unit. -/
theorem exists_fits_root (c : Conversion) : ∃ depth, c.graph.IsDepthBound depth ∧
    ∀ budget, c.budget ≤ budget + 1 → c.Fits depth budget (.fragment c.graph.root) {} := by
  rcases c.exists_budget_bound with ⟨depth, bound, hless⟩
  have hroot : c.graph.root.depth ≤ depth := bound (c.graph.root, none) (List.mem_cons_self ..)
  refine ⟨depth, bound, fun budget hbudget => fits_fragment bound hroot ?_⟩
  calc
    (c.room [] + 1) * c.reach depth
    _ ≤ (c.graph.nodes.length + 1) * c.reach depth :=
      Nat.mul_le_mul_right _ (Nat.add_le_add_right (c.room_le []) 1)
    _ ≤ budget := Nat.le_of_lt_succ (hless.trans_le hbudget)

/-- So does any object of the table. -/
theorem exists_fits_body {id : TypeId} {type : ObjectType TypeRef}
    (found : c.graph.nodes.find? id = some (.object type)) :
    ∃ depth, c.graph.IsDepthBound depth ∧
      ∀ budget, c.budget ≤ budget + 1 → c.Fits depth budget (.body id type) {} := by
  rcases c.exists_budget_bound with ⟨depth, bound, hless⟩
  refine ⟨depth, bound, fun budget hbudget => ⟨found, List.not_mem_nil, ?_⟩⟩
  calc
    c.room [] * c.reach depth
    _ ≤ (c.graph.nodes.length + 1) * c.reach depth :=
      Nat.mul_le_mul_right _ ((c.room_le []).trans (Nat.le_succ _))
    _ ≤ budget := Nat.le_of_lt_succ (hless.trans_le hbudget)

/-- With all of its budget but one, or with more, a conversion runs as it does, at every
reference that fits: the budget is never what it fails for. -/
theorem run_reference_eq_convert {ref : TypeRef} (bound : c.graph.IsDepthBound depth)
    (h : c.Fits depth (c.budget - 1) (.fragment ref) state) (hbudget : c.budget ≤ budget + 1)
    (owner : Option TypeId) :
    (c.reference budget ref owner).run state = (c.convert ref owner).run state := by
  calc
    (c.reference budget ref owner).run state
    _ = (c.reference (c.budget - 1) ref owner).run state :=
      (run_reference_of_le bound h (by omega) owner).symm
    _ = (c.convert ref owner).run state := run_reference_of_le bound h (by omega) owner

/-- So the root is converted alike. -/
theorem run_root_eq_convert (hbudget : c.budget ≤ budget + 1) (owner : Option TypeId) :
    (c.reference budget c.graph.root owner).run {} = (c.convert c.graph.root owner).run {} := by
  rcases c.exists_fits_root with ⟨depth, bound, fits⟩
  exact run_reference_eq_convert bound (fits _ (by omega)) hbudget owner

/-- And so is the body of any object of the table. -/
theorem run_body_eq_convert {id : TypeId} {type : ObjectType TypeRef}
    (found : c.graph.nodes.find? id = some (.object type)) (hbudget : c.budget ≤ budget + 1) :
    (c.objectBody (c.reference budget) type (some id)).run {} =
      (c.objectBody c.convert type (some id)).run {} := by
  rcases exists_fits_body found with ⟨depth, bound, fits⟩
  have hfits := fits (c.budget - 1) (by omega)
  exact objectBody_congr (runs_of_reference budget) List.not_mem_nil fun _ _ asks owner =>
    run_reference_eq_convert bound (hfits.asked_within bound asks rfl) hbudget owner

end Schemata.Conversion
