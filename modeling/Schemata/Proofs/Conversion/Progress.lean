import Schemata.Proofs.Conversion.Run

/-!
# The state along a run

A run leaves the nodes under way as it found them, and it only adds to the shared
definitions and to the promised ones.  A node that is under way is not shared before its
own conversion ends.

Main results:

- Theorem {lit}`Runs.inProgress_eq`: the nodes under way are the same before and after.
- Theorem {lit}`Runs.keys_subset`, {lit}`Runs.pending_subset`: shared definitions stay,
  and so do promises.
- Theorem {lit}`Runs.mem_keys_of_inProgress`: what is under way is shared only if it was
  before.
-/

namespace Schemata

namespace ConversionState

variable (state : ConversionState) (id other : TypeId) (definition : Definition)

/-! ## The parts of a state after one change -/

@[simp] theorem start_defs : (state.start (some id)).defs = state.defs := by
  by_cases inside : id ∈ state.inProgress <;> simp [start, inside]

@[simp] theorem start_pending : (state.start (some id)).pending = state.pending := by
  by_cases inside : id ∈ state.inProgress <;> simp [start, inside]

@[simp] theorem mem_start_inProgress :
    other ∈ (state.start (some id)).inProgress ↔ other = id ∨ other ∈ state.inProgress := by
  by_cases inside : id ∈ state.inProgress
  · have hstart : state.start (some id) = state := by simp [start, inside]
    rw [hstart]
    constructor
    · exact Or.inr
    · rintro (rfl | h)
      · exact inside
      · exact h
  · simp [start, inside]

/-- A node that is not under way is put on top of what is. -/
theorem start_inProgress (outside : id ∉ state.inProgress) :
    (state.start (some id)).inProgress = id :: state.inProgress := by
  simp [start, outside]

/-- Starting a node that is not under way and stopping it again changes nothing. -/
theorem stop_start_inProgress {last : ConversionState} (outside : id ∉ state.inProgress)
    (h : last.inProgress = (state.start (some id)).inProgress) :
    (last.stop (some id)).inProgress = state.inProgress := by
  have hkeep : state.inProgress.filter (· != id) = state.inProgress := by
    rw [List.filter_eq_self]
    intro other hother
    rw [bne_iff_ne]
    rintro rfl
    exact outside hother
  rw [stop, h, start_inProgress _ _ outside, List.filter_cons_of_neg (by simp), hkeep]

@[simp] theorem stop_defs : (state.stop (some id)).defs = state.defs := rfl

@[simp] theorem stop_pending : (state.stop (some id)).pending = state.pending := rfl

@[simp] theorem mem_stop_inProgress :
    other ∈ (state.stop (some id)).inProgress ↔ other ∈ state.inProgress ∧ other ≠ id := by
  simp [stop]

@[simp] theorem promise_defs : (state.promise id).defs = state.defs := by
  unfold promise
  split <;> rfl

@[simp] theorem promise_inProgress : (state.promise id).inProgress = state.inProgress := by
  unfold promise
  split <;> rfl

@[simp] theorem mem_promise_pending :
    other ∈ (state.promise id).pending ↔ other = id ∨ other ∈ state.pending := by
  unfold promise
  split
  · rename_i known
    rw [List.contains_iff_mem] at known
    constructor
    · exact Or.inr
    · rintro (rfl | h)
      · exact known
      · exact h
  · simp

@[simp] theorem share_inProgress :
    (state.share id definition).inProgress = state.inProgress := rfl

@[simp] theorem share_pending : (state.share id definition).pending = state.pending := rfl

@[simp] theorem mem_share_keys :
    other ∈ (state.share id definition).defs.keys ↔ other = id ∨ other ∈ state.defs.keys :=
  Table.mem_keys_put ..

/-- An entry of the shared definitions is the new one or an old one. -/
theorem mem_share_defs {entry : TypeId × Definition}
    (h : entry ∈ (state.share id definition).defs) :
    entry = (id, definition) ∨ entry ∈ state.defs :=
  Table.mem_put h

/-! ## Growing states -/

/-- Another state shares, promises and has under way at least as much. -/
structure Extends (state after : ConversionState) : Prop where
  keys : state.defs.keys ⊆ after.defs.keys
  pending : state.pending ⊆ after.pending
  inProgress : state.inProgress ⊆ after.inProgress

theorem Extends.start : state.Extends (state.start (some id)) where
  keys := by simp
  pending := by simp
  inProgress _ h := (mem_start_inProgress ..).mpr (Or.inr h)

theorem Extends.promise : state.Extends (state.promise id) where
  keys := by simp
  pending _ h := (mem_promise_pending ..).mpr (Or.inr h)
  inProgress := by simp

theorem Extends.share : state.Extends (state.share id definition) where
  keys _ h := (mem_share_keys ..).mpr (Or.inr h)
  pending := List.Subset.refl _
  inProgress := List.Subset.refl _

end ConversionState

namespace Conversion

variable {c : Conversion} {job : Job} {state after : ConversionState}

/-! ## What a run keeps -/

/-- The body of an object is converted only when the object is not under way. -/
theorem Runs.outside {id : TypeId} {type : ObjectType TypeRef} {fragments : List Definition}
    (h : c.Runs (.body id type fragments) state after) : id ∉ state.inProgress := by
  cases h with
  | body _ outside _ => exact outside

/-- The nodes under way are the same before and after a run. -/
theorem Runs.inProgress_eq (h : c.Runs job state after) :
    after.inProgress = state.inProgress := by
  induction h with
  | primitive | enumeration | rootInside | objectShared | choiceInside | noProperties
  | noVariants => rfl
  | list _ _ element => exact element
  | map _ _ value => exact value
  | objectInside => exact ConversionState.promise_inProgress ..
  | objectInPlace _ _ _ _ body => exact body
  | objectPromised _ _ _ _ _ body => exact body
  | rootPromised _ _ _ _ _ body => exact body
  | choice _ outside _ variants =>
      exact ConversionState.stop_start_inProgress _ _ outside variants
  | body _ outside _ properties =>
      exact ConversionState.stop_start_inProgress _ _ outside properties
  | property _ _ head tail => exact tail.trans head
  | variantShared _ _ tail => exact tail
  | variantInside _ _ tail => rw [tail, ConversionState.promise_inProgress]
  | variantObject _ _ _ _ body tail => rw [tail, ConversionState.share_inProgress, body]
  | variantOther _ _ _ _ _ _ written tail =>
      rw [tail, ConversionState.share_inProgress, written]

/-- What is shared stays shared. -/
theorem Runs.keys_subset (h : c.Runs job state after) :
    state.defs.keys ⊆ after.defs.keys := by
  induction h with
  | primitive | enumeration | rootInside | objectShared | choiceInside | noProperties
  | noVariants => exact List.Subset.refl _
  | list _ _ element => exact element
  | map _ _ value => exact value
  | objectInside => rw [ConversionState.promise_defs]; exact List.Subset.refl _
  | objectInPlace _ _ _ _ body => exact body
  | objectPromised _ _ _ _ _ body =>
      intro id hid
      exact (ConversionState.mem_share_keys ..).mpr (Or.inr (body hid))
  | rootPromised _ _ _ _ _ body =>
      intro id hid
      exact (ConversionState.mem_share_keys ..).mpr (Or.inr (body hid))
  | choice _ _ _ variants => simpa using variants
  | body _ _ _ properties => simpa using properties
  | property _ _ head tail => exact List.Subset.trans head tail
  | variantShared _ _ tail => exact tail
  | variantInside _ _ tail => simpa using tail
  | variantObject _ _ _ _ body tail =>
      intro id hid
      exact tail ((ConversionState.mem_share_keys ..).mpr (Or.inr (body hid)))
  | variantOther _ _ _ _ _ _ written tail =>
      intro id hid
      exact tail ((ConversionState.mem_share_keys ..).mpr (Or.inr (written hid)))

/-- What is promised stays promised. -/
theorem Runs.pending_subset (h : c.Runs job state after) : state.pending ⊆ after.pending := by
  induction h with
  | primitive | enumeration | rootInside | objectShared | choiceInside | noProperties
  | noVariants => exact List.Subset.refl _
  | list _ _ element => exact element
  | map _ _ value => exact value
  | objectInside =>
      intro id hid
      exact (ConversionState.mem_promise_pending ..).mpr (Or.inr hid)
  | objectInPlace _ _ _ _ body => exact body
  | objectPromised _ _ _ _ _ body => exact body
  | rootPromised _ _ _ _ _ body => exact body
  | choice _ _ _ variants => simpa using variants
  | body _ _ _ properties => simpa using properties
  | property _ _ head tail => exact List.Subset.trans head tail
  | variantShared _ _ tail => exact tail
  | variantInside _ _ tail =>
      intro id hid
      exact tail ((ConversionState.mem_promise_pending ..).mpr (Or.inr hid))
  | variantObject _ _ _ _ body tail => exact List.Subset.trans body tail
  | variantOther _ _ _ _ _ _ written tail => exact List.Subset.trans written tail

/-- A run shares one definition under each name. -/
theorem Runs.nodup_keys (h : c.Runs job state after) (before : state.defs.keys.Nodup) :
    after.defs.keys.Nodup := by
  induction h with
  | primitive | enumeration | rootInside | objectShared | choiceInside | noProperties
  | noVariants => exact before
  | list _ _ element => exact element before
  | map _ _ value => exact value before
  | objectInside => simpa using before
  | objectInPlace _ _ _ _ body => exact body before
  | objectPromised _ _ _ _ _ body => exact Table.nodup_keys_put (body before) ..
  | rootPromised _ _ _ _ _ body => exact Table.nodup_keys_put (body before) ..
  | choice _ _ _ variants => exact variants (by simpa using before)
  | body _ _ _ properties => exact properties (by simpa using before)
  | property _ _ head tail => exact tail (head before)
  | variantShared _ _ tail => exact tail before
  | variantInside _ _ tail => exact tail (by simpa using before)
  | variantObject _ _ _ _ body tail => exact tail (Table.nodup_keys_put (body before) ..)
  | variantOther _ _ _ _ _ _ written tail => exact tail (Table.nodup_keys_put (written before) ..)

/-- A run only adds to what a state has. -/
theorem Runs.extends (h : c.Runs job state after) : state.Extends after where
  keys := h.keys_subset
  pending := h.pending_subset
  inProgress := by
    rw [h.inProgress_eq]
    exact List.Subset.refl _

/-- A node that is under way is shared after a run only if it was shared before.  Only
nodes that are not under way are shared, and the nodes under way do not change. -/
theorem Runs.mem_keys_of_inProgress (h : c.Runs job state after) {id : TypeId}
    (inside : id ∈ state.inProgress) (shared : id ∈ after.defs.keys) :
    id ∈ state.defs.keys := by
  induction h with
  | primitive | enumeration | rootInside | objectShared | choiceInside | noProperties
  | noVariants => exact shared
  | list _ _ element => exact element inside shared
  | map _ _ value => exact value inside shared
  | objectInside => simpa using shared
  | objectInPlace _ _ _ _ body => exact body inside shared
  | objectPromised _ _ run _ _ body =>
      rcases (ConversionState.mem_share_keys ..).mp shared with rfl | shared
      · exact absurd inside run.outside
      · exact body inside shared
  | rootPromised _ _ run _ _ body =>
      rcases (ConversionState.mem_share_keys ..).mp shared with rfl | shared
      · exact absurd inside run.outside
      · exact body inside shared
  | choice _ _ _ variants =>
      simpa using variants ((ConversionState.mem_start_inProgress ..).mpr (Or.inr inside)) shared
  | body _ _ _ properties =>
      simpa using properties ((ConversionState.mem_start_inProgress ..).mpr (Or.inr inside)) shared
  | property run _ head tail =>
      exact head inside (tail (run.inProgress_eq ▸ inside) shared)
  | variantShared _ _ tail => exact tail inside shared
  | variantInside _ _ tail => simpa using tail (by simpa using inside) shared
  | variantObject _ _ run _ body tail =>
      have later := tail (by simpa [run.inProgress_eq] using inside) shared
      rcases (ConversionState.mem_share_keys ..).mp later with rfl | later
      · exact absurd inside run.outside
      · exact body inside later
  | variantOther _ outside _ _ run _ written tail =>
      have later := tail (by simpa [run.inProgress_eq] using inside) shared
      rcases (ConversionState.mem_share_keys ..).mp later with rfl | later
      · exact absurd inside outside
      · exact written inside later

end Conversion

end Schemata
