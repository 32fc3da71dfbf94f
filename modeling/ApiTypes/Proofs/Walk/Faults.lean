import ApiTypes.Proofs.Walk.Reach

/-!
# Schemas for which nothing can be demanded

A demand is a fault for one of three reasons (`Resolver.faulty_of_demand`): the rule that wins for
the schema has no target, the schema is an array that says nothing of its items, or no rule wins and
the type of the schema is not built in. The demand of a use is one for the first two reasons alone
(`Resolver.faulty_of_useDemand`). The error tells the type of the rule, or the schema itself.
-/

set_option autoImplicit false

namespace ApiTypes

/-- An error that is neither a cycle nor a walk that got too deep. -/
def Error.Plain : Error → Prop
  | cyclicReference _ => False
  | tooDeep _ => False
  | _ => True

/-- An array that does not say what its items are. -/
structure SchemaNode.LacksItems (n : SchemaNode) : Prop where
  /-- It is an array. -/
  type_eq : n.type = some "array"
  /-- Nothing is said of its items. -/
  items_eq : n.items = none

/-- A schema whose type is not built in, and how the type is told. -/
inductive SchemaNode.Unknown (n : SchemaNode) : String → Prop
  | untyped : n.type = none → Unknown n "<none>"
  | typed {type : String} : n.type = some type → Primitive.ofSchema? type n.format = none →
      Unknown n (Resolver.typeLabel type n.format)

namespace Resolver

/-- Why nothing can be demanded for a schema: its rule has no target, it has no items, or it has no
rule and no type that is known. -/
inductive Faulty (r : Resolver) (path : Option String) (v : Visit) : Error → Prop
  | noTarget {rule : Rule} : Lookup.typeRule? r.mappings path .schema v.features = some rule →
      rule.target = none → Faulty r path v (.noTarget rule.source.type)
  | noItems : v.node.LacksItems → Faulty r path v (.invalidItem v.node.key.text)
  | unknown {type : String} : Lookup.typeRule? r.mappings path .schema v.features = none →
      v.node.Unknown type → Faulty r path v (.unknownSchemaType type v.node.key.text)

/-- Why nothing can be demanded for a use: a rule for it has no target, or the schema no items. -/
inductive UseFaulty (r : Resolver) (path : Option String) (use : Use) (v : Visit) : Error → Prop
  | noTarget {rule : Rule} : Lookup.useRule? r.mappings path use = some rule ∨
      Lookup.usageTypeRule? r.mappings path use v.features = some rule →
      rule.target = none → UseFaulty r path use v (.noTarget rule.source.type)
  | noItems : v.node.LacksItems → UseFaulty r path use v (.invalidItem v.node.key.text)

variable {r : Resolver} {path : Option String} {v : Visit} {e : Error}

/-- A rule is of no use only if it has no target. -/
theorem ruleTarget_error {rule : Rule} (h : r.ruleTarget rule = .error e) :
    rule.target = none ∧ e = .noTarget rule.source.type := by
  unfold ruleTarget at h
  split at h
  · cases h
  · rename_i hnone
    cases h
    exact ⟨Option.map_eq_none_iff.mp hnone, rfl⟩

theorem fault_of_demandOfRule {n : SchemaNode} {name : String} {rule : Rule}
    (h : r.demandOfRule n name rule = .fault e) :
    (rule.target = none ∧ e = .noTarget rule.source.type) ∨
    (n.LacksItems ∧ e = .invalidItem n.key.text) := by
  unfold demandOfRule at h
  split at h
  · rename_i e' he
    cases h
    exact Or.inl (ruleTarget_error he)
  · split at h
    · rename_i harray
      split at h
      · cases h
      · rename_i hitems
        cases h
        exact Or.inr ⟨⟨harray.2.1, hitems⟩, rfl⟩
    · cases h

theorem unknown_of_demandOfPrimitive {n : SchemaNode} {type : String} (htype : n.type = some type)
    (h : demandOfPrimitive n type = .fault e) :
    ∃ told, n.Unknown told ∧ e = .unknownSchemaType told n.key.text := by
  unfold demandOfPrimitive at h
  split at h
  · cases h
  · rename_i hnone
    cases h
    exact ⟨_, .typed htype hnone, rfl⟩

theorem demandOfFreeForm_ne_fault (n : SchemaNode) (name : String) (e : Error) :
    ¬ demandOfFreeForm n name = .fault e := by
  intro h
  unfold demandOfFreeForm at h
  split at h
  · cases h
  · cases h
  · cases h

theorem fault_of_demandOfType {n : SchemaNode} {name : String}
    (h : r.demandOfType n name = .fault e) :
    (n.LacksItems ∧ e = .invalidItem n.key.text) ∨
    ∃ type, n.Unknown type ∧ e = .unknownSchemaType type n.key.text := by
  unfold demandOfType at h
  split at h
  · rename_i htype
    split at h
    · rename_i hitems
      cases h
      exact Or.inl ⟨⟨htype, hitems⟩, rfl⟩
    · cases h
  · split at h
    · exact absurd h (demandOfFreeForm_ne_fault n name e)
    · cases h
  · rename_i htype
    split at h
    · exact Or.inr (unknown_of_demandOfPrimitive htype h)
    · cases h
  · rename_i htype
    exact Or.inr (unknown_of_demandOfPrimitive htype h)
  · rename_i htype
    split at h
    · cases h
      exact Or.inr ⟨_, .untyped htype, rfl⟩
    · cases h

theorem fault_of_demandOfShape {n : SchemaNode} {name : String}
    (h : r.demandOfShape n name = .fault e) :
    (n.LacksItems ∧ e = .invalidItem n.key.text) ∨
    ∃ type, n.Unknown type ∧ e = .unknownSchemaType type n.key.text := by
  unfold demandOfShape at h
  split at h
  · cases h
  · split at h
    · cases h
    · split at h
      · cases h
      · exact fault_of_demandOfType h

/-- What makes a demand impossible. -/
theorem faulty_of_demand (h : r.demand path v = .fault e) : r.Faulty path v e := by
  unfold demand at h
  split at h
  · rename_i rule hrule
    rcases fault_of_demandOfRule h with ⟨hnone, rfl⟩ | ⟨hitems, rfl⟩
    · exact .noTarget hrule hnone
    · exact .noItems hitems
  · rename_i hrule
    rcases fault_of_demandOfShape h with ⟨hitems, rfl⟩ | ⟨type, hunknown, rfl⟩
    · exact .noItems hitems
    · exact .unknown hrule hunknown

/-- What makes the demand of a use impossible. -/
theorem faulty_of_useDemand {use : Use} (h : r.useDemand path use v = some (.fault e)) :
    r.UseFaulty path use v e := by
  unfold useDemand at h
  split at h
  · rename_i rule hrule
    split at h
    · rename_i e' he
      cases h
      obtain ⟨hnone, rfl⟩ := ruleTarget_error he
      exact .noTarget (Or.inl hrule) hnone
    · cases h
  · split at h
    · rename_i rule hrule
      rcases fault_of_demandOfRule (Option.some.inj h) with ⟨hnone, rfl⟩ | ⟨hitems, rfl⟩
      · exact .noTarget (Or.inr hrule) hnone
      · exact .noItems hitems
    · cases h

/-- **A schema that nothing can be demanded for is neither a cycle nor too deep.** -/
theorem plain_of_demand (h : r.demand path v = .fault e) : e.Plain := by
  cases faulty_of_demand h with
  | _ => trivial

theorem plain_of_useDemand {use : Use} (h : r.useDemand path use v = some (.fault e)) :
    e.Plain := by
  cases faulty_of_useDemand h with
  | _ => trivial

end Resolver

end ApiTypes
