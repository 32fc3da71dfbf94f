import ApiTypes.Proofs.Walk.Settled

/-!
# Schemas that components lead to

A schema that is no component is reached through the one schema that it is right below of, and gets
its name there. So all ways from the components to a schema give it the same name
(`Reached.unique`).
-/

set_option autoImplicit false

namespace ApiTypes

namespace Resolver

variable {r : Resolver} {path : Option String} {v w : Visit} {n : SchemaNode} {name : String}
  {c c' : Child}

/-! ## Names of schemas below another one -/

theorem exists_of_mem_listedChildren {label : String} {index : Nat} {ns : List SchemaNode}
    (h : c ∈ listedChildren name label index ns) :
    ∃ i, ns[i]? = some c.node ∧ c.name = name ++ label ++ toString (index + i) := by
  induction ns generalizing index with
  | nil => cases h
  | cons n rest ih =>
      rw [listedChildren] at h
      rcases List.mem_cons.mp h with rfl | h
      · exact ⟨0, rfl, rfl⟩
      · obtain ⟨i, hi, hname⟩ := ih h
        refine ⟨i + 1, hi, ?_⟩
        rw [hname, Nat.add_assoc, Nat.add_comm 1 i]

theorem name_eq_of_mem_listedChildren {label keyword : String} {schemas : List Schema}
    (h : c ∈ listedChildren name label 0 (n.listed keyword schemas))
    (h' : c' ∈ listedChildren name label 0 (n.listed keyword schemas))
    (hkey : c.node.key = c'.node.key) : c.name = c'.name := by
  obtain ⟨i, hi, hname⟩ := exists_of_mem_listedChildren h
  obtain ⟨j, hj, hname'⟩ := exists_of_mem_listedChildren h'
  rw [SchemaNode.key_of_getElem?_listed hi, SchemaNode.key_of_getElem?_listed hj] at hkey
  have hindex : toString i = toString j := (SchemaKey.child_inj hkey).2
  rw [hname, hname', Nat.zero_add, Nat.zero_add, hindex]

theorem key_of_mem_properties {entry : String × SchemaNode} (h : entry ∈ n.properties) :
    entry.2.key = (n.key.child "properties").child entry.1 := by
  unfold SchemaNode.properties at h
  split at h
  · cases h
  · obtain ⟨⟨property, schema⟩, _, rfl⟩ := List.mem_map.mp h
    rfl

theorem name_eq_of_mem_propertyChildren (h : c ∈ propertyChildren name n.properties)
    (h' : c' ∈ propertyChildren name n.properties) (hkey : c.node.key = c'.node.key) :
    c.name = c'.name := by
  obtain ⟨entry, hentry, rfl⟩ := List.mem_map.mp h
  obtain ⟨entry', hentry', rfl⟩ := List.mem_map.mp h'
  have hkeys : entry.2.key = entry'.2.key := hkey
  rw [key_of_mem_properties hentry, key_of_mem_properties hentry'] at hkeys
  have hproperty : entry.1 = entry'.1 := (SchemaKey.child_inj hkeys).2
  show Text.upperCamel (name ++ " " ++ entry.1) = Text.upperCamel (name ++ " " ++ entry'.1)
  rw [hproperty]

theorem exists_listed_allOf (n : SchemaNode) : ∃ schemas, n.allOf = n.listed "allOf" schemas := by
  unfold SchemaNode.allOf
  split
  · exact ⟨[], rfl⟩
  · exact ⟨_, rfl⟩

theorem exists_listed_oneOf (n : SchemaNode) : ∃ schemas, n.oneOf = n.listed "oneOf" schemas := by
  unfold SchemaNode.oneOf
  split
  · exact ⟨[], rfl⟩
  · exact ⟨_, rfl⟩

theorem exists_listed_anyOf (n : SchemaNode) : ∃ schemas, n.anyOf = n.listed "anyOf" schemas := by
  unfold SchemaNode.anyOf
  split
  · exact ⟨[], rfl⟩
  · exact ⟨_, rfl⟩

end Resolver

/-- The key of a schema of a demand tells the name that it gets there. -/
def Demand.Distinct (demand : Demand) : Prop :=
  ∀ c ∈ demand.children, ∀ c' ∈ demand.children, c.node.key = c'.node.key → c.name = c'.name

theorem Demand.distinct_of_children_eq_nil {demand : Demand} (h : demand.children = []) :
    demand.Distinct := by
  intro c hc
  rw [h] at hc
  cases hc

theorem Demand.distinct_wrapper (item : Child) (shape : ModelType) :
    (wrapper item shape).Distinct := by
  intro c hc c' hc' _
  rw [List.mem_singleton.mp hc, List.mem_singleton.mp hc']

namespace Resolver

variable (r : Resolver) (n : SchemaNode) (name : String)

theorem distinct_demandOfRule (rule : Rule) : (r.demandOfRule n name rule).Distinct :=
  demandOfRule_cases (fun _ => Demand.distinct_of_children_eq_nil rfl)
    (fun _ _ _ => Demand.distinct_wrapper _ _) fun _ => Demand.distinct_of_children_eq_nil rfl

theorem distinct_demandOfType : (r.demandOfType n name).Distinct :=
  demandOfType_cases (fun _ => Demand.distinct_of_children_eq_nil rfl)
    (fun _ _ => Demand.distinct_of_children_eq_nil rfl) (fun _ _ => Demand.distinct_wrapper _ _)
    (Demand.distinct_of_children_eq_nil rfl) (fun _ _ => Demand.distinct_wrapper _ _)
    fun _ hc _ hc' hkey => name_eq_of_mem_propertyChildren hc hc' hkey

theorem distinct_demandOfShape : (r.demandOfShape n name).Distinct := by
  refine demandOfShape_cases (fun _ => ?_) (fun label alternatives halternatives => ?_)
    (distinct_demandOfType r n name)
  · obtain ⟨schemas, hschemas⟩ := exists_listed_allOf n
    intro c hc c' hc' hkey
    rw [Demand.children, hschemas] at hc hc'
    exact name_eq_of_mem_listedChildren hc hc' hkey
  · have hlisted : ∃ keyword schemas, alternatives = n.listed keyword schemas := by
      rcases halternatives with rfl | rfl
      · exact ⟨_, exists_listed_oneOf n⟩
      · exact ⟨_, exists_listed_anyOf n⟩
    obtain ⟨keyword, schemas, hschemas⟩ := hlisted
    intro c hc c' hc' hkey
    rw [demandOfOneOf, Demand.children, hschemas] at hc hc'
    exact name_eq_of_mem_listedChildren hc hc' hkey

/-- **The key of a schema that another one demands tells the name that it gets there.** -/
theorem distinct_demand (path : Option String) (v : Visit) : (r.demand path v).Distinct := by
  unfold demand
  split
  · exact distinct_demandOfRule r v.node v.name _
  · exact distinct_demandOfShape r v.node v.name

end Resolver

/-! ## Schemas that components lead to -/

namespace Resolver

variable {r : Resolver} {v w : Visit}

/-- A schema that a component is or leads to. -/
inductive Reached (r : Resolver) : Visit → Prop
  | component {name : String} {n : SchemaNode} {w : Visit} :
      (name, n) ∈ r.description.components → r.enter ⟨n, name, true⟩ = .ok w → Reached r w
  | step {v w : Visit} : Reached r v → r.Leads none v w → Reached r w

theorem isNamed_of_enter {n : SchemaNode} {name : String}
    (h : r.enter ⟨n, name, true⟩ = .ok w) : w.isNamed = true := by
  rcases enter_cases h with ⟨_, rfl⟩ | ⟨hnamed, _⟩
  · rfl
  · exact hnamed

theorem Reached.proper (hd : r.description.Tidy) (h : r.Reached v) :
    v.Proper r.description := by
  induction h with
  | component hmem hin => exact proper_of_enter (Visit.proper_component hd hmem) hin
  | step _ hlead ih => exact hlead.proper hd ih

theorem ranges_reached (hd : r.description.Tidy) : r.Ranges none r.Reached where
  proper _ h := h.proper hd
  leads _ _ h hlead := h.step hlead

/-- **All ways from the components to a schema give it the same name.** -/
theorem Reached.unique (hd : r.description.Tidy) (hv : r.Reached v) (hw : r.Reached w)
    (hkey : v.node.key = w.node.key) : v = w := by
  induction hv generalizing w with
  | component hmem hin =>
      have hproper := proper_of_enter (Visit.proper_component hd hmem) hin
      exact (hproper.eq_of_key_eq (hw.proper hd) hkey).2.2 (isNamed_of_enter hin)
  | @step p v hp hlead ih =>
      have hvp : v.Proper r.description := hlead.proper hd (hp.proper hd)
      have hsame := hvp.eq_of_key_eq (hw.proper hd) hkey
      cases hnamed : v.isNamed with
      | true => exact hsame.2.2 hnamed
      | false =>
          have hwNamed : w.isNamed = false := by
            rw [← hsame.2.1]
            exact hnamed
          cases hw with
          | component hmem hin =>
              rw [isNamed_of_enter hin] at hwNamed
              cases hwNamed
          | @step q _ hq hlead' =>
              have hparent := hlead.parent_unique hd hlead' (hp.proper hd) (hq.proper hd) hkey
                hnamed hwNamed
              have hpq : p = q := ih hq (congrArg SchemaNode.key hparent)
              subst hpq
              obtain ⟨c, hc, hin⟩ := hlead
              obtain ⟨c', hc', hin'⟩ := hlead'
              rcases enter_cases hin with ⟨_, rfl⟩ | ⟨hn, _⟩
              · rcases enter_cases hin' with ⟨_, rfl⟩ | ⟨hn', _⟩
                · have hname := distinct_demand r none p c hc c' hc' hkey
                  have hnode : c.node = c'.node := hsame.1
                  rw [Child.visit, Child.visit, hname, hnode]
                · rw [hwNamed] at hn'
                  cases hn'
              · rw [hnamed] at hn
                cases hn

end Resolver

end ApiTypes
