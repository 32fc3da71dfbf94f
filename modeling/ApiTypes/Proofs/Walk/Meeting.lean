import ApiTypes.Proofs.Walk.Demand
import Mathlib.Data.List.Basic
import Mathlib.Data.List.GetD

/-!
# The walk meets demands

The type of a node is built by meeting its demand (`build_eq_meet`): the three loops over
constituents, alternatives and properties are one loop over the children of the demand, and each
way of building a type is meeting a demand of its kind.
-/

set_option autoImplicit false

namespace ApiTypes

namespace Walk

variable {α β : Type}

/-- Looking at the state without using it does nothing. -/
theorem get_bind_const (w : Walk α) : ((get : Walk WalkState) >>= fun _ => w) = w :=
  ext_outcome fun s => outcome_get_bind (fun _ => w) s

/-- What follows a walk need only agree on what the walk can end with. -/
theorem bind_congr_outcome {w : Walk α} {f g : α → Walk β}
    (h : ∀ s s' a, w.outcome s = (.ok a, s') → f a = g a) : w >>= f = w >>= g := by
  apply ext_outcome
  intro s
  cases hw : w.outcome s with
  | mk result s' =>
      cases result with
      | ok a => rw [outcome_bind_ok hw, outcome_bind_ok hw, h s s' a hw]
      | error e => rw [outcome_bind_error hw, outcome_bind_error hw]

end Walk

/-! ## Places and what stands in them -/

theorem map_getD_range {α : Type} (a : α) (l : List α) :
    (List.range l.length).map (fun i => l.getD i a) = l := by
  induction l with
  | nil => rfl
  | cons b l ih =>
      rw [List.length_cons, List.range_succ_eq_map, List.map_cons, List.map_map]
      simpa [Function.comp_def] using ih

/-- Choosing places by a mark and looking them up is choosing what is marked. -/
theorem map_getD_filter_range (found : List (TypeId × Bool)) :
    ((List.range found.length).filter fun i => (found.map Prod.snd).getD i false).map
        (fun i => (found.map Prod.fst).getD i 0)
      = (found.filter Prod.snd).map Prod.fst := by
  induction found with
  | nil => rfl
  | cons entry found ih =>
      obtain ⟨id, marked⟩ := entry
      rw [List.length_cons, List.range_succ_eq_map, List.filter_cons, List.filter_map]
      cases marked with
      | true => simpa [Function.comp_def] using ih
      | false => simpa [Function.comp_def] using ih

namespace Demand

theorem filled_allOf (name : TypeName) (package : String) (d : Bool)
    (found : List (TypeId × Bool)) :
    filled (.allOf name package (List.range found.length) d) found
      = .allOf name package ((found.filter Prod.snd).map Prod.fst) d := by
  rw [filled, ModelType.keepItems, ModelType.rename, map_getD_filter_range]

theorem filled_oneOf (name : TypeName) (package : String) (isInterface d : Bool)
    (found : List (TypeId × Bool)) :
    filled (.oneOf name package (List.range found.length) isInterface d) found
      = .oneOf name package (found.map Prod.fst) isInterface d := by
  have h := map_getD_range 0 (found.map Prod.fst)
  rw [List.length_map] at h
  rw [filled, ModelType.keepItems, ModelType.rename, h]
  · intro _ _ _ _ e
    cases e

theorem filled_object (name : TypeName) (package : String) (names required : List String)
    (c : Constraints) (d : Bool) (found : List (TypeId × Bool)) :
    filled (.object name package (.ofList (names.zip (List.range found.length))) required c d)
        found
      = .object name package (.ofList (names.zip (found.map Prod.fst))) required c d := by
  have h := map_getD_range 0 (found.map Prod.fst)
  rw [List.length_map] at h
  have hzip : (names.zip (List.range found.length)).map
      (fun entry => (entry.1, (found.map Prod.fst).getD entry.2 0))
      = names.zip (found.map Prod.fst) := by
    conv_rhs => rw [← h]
    rw [List.zip_map_right]
    rfl
  rw [filled, ModelType.keepItems, ModelType.rename, ← OrderedMap.ofList_map, hzip]
  · intro _ _ _ _ e
    cases e

end Demand

namespace Resolver

variable {recur : SchemaNode → String → Walk TypeId}

/-- Every child is told of once. -/
theorem length_of_resolveEach {cs : List Child} {s s' : WalkState}
    {found : List (TypeId × Bool)} (h : (resolveEach recur cs).outcome s = (.ok found, s')) :
    found.length = cs.length := by
  induction cs generalizing s found with
  | nil =>
      cases h
      rfl
  | cons c rest ih =>
      rw [resolveEach] at h
      cases hc : (recur c.node c.name).outcome s with
      | mk result s₁ =>
          cases result with
          | error e =>
              rw [Walk.outcome_bind_error hc] at h
              cases h
          | ok id =>
              rw [Walk.outcome_bind_ok hc, Walk.outcome_get_bind] at h
              cases hr : (resolveEach recur rest).outcome s₁ with
              | mk result s₂ =>
                  cases result with
                  | error e =>
                      rw [Walk.outcome_bind_error hr] at h
                      cases h
                  | ok others =>
                      rw [Walk.outcome_bind_ok hr] at h
                      cases h
                      rw [List.length_cons, List.length_cons, ih hr]

theorem length_listedChildren (name label : String) (index : Nat) (ns : List SchemaNode) :
    (listedChildren name label index ns).length = ns.length := by
  induction ns generalizing index with
  | nil => rfl
  | cons n rest ih => rw [listedChildren, List.length_cons, List.length_cons, ih]

theorem length_propertyChildren (name : String) (ps : List (String × SchemaNode)) :
    (propertyChildren name ps).length = ps.length :=
  List.length_map _

/-! ## The loops -/

theorem resolveConstituents_eq (name : String) (index : Nat) (ns : List SchemaNode) :
    resolveConstituents recur name index ns
      = resolveEach recur (listedChildren name "AllOf" index ns) >>= fun found =>
          pure ((found.filter Prod.snd).map Prod.fst) := by
  induction ns generalizing index with
  | nil =>
      rw [resolveConstituents, listedChildren, resolveEach, pure_bind]
      rfl
  | cons n rest ih =>
      rw [resolveConstituents, listedChildren, resolveEach]
      simp only [ih, bind_assoc, pure_bind]
      congr 1
      funext id
      congr 1
      funext s
      congr 1
      funext others
      cases h : isConstituent (s.types.get? id) with
      | true => simp
      | false => simp

theorem resolveAlternatives_eq (name label : String) (index : Nat) (ns : List SchemaNode) :
    resolveAlternatives recur name label index ns
      = resolveEach recur (listedChildren name label index ns) >>= fun found =>
          pure (found.map Prod.fst) := by
  induction ns generalizing index with
  | nil =>
      rw [resolveAlternatives, listedChildren, resolveEach, pure_bind]
      rfl
  | cons n rest ih =>
      rw [resolveAlternatives, listedChildren, resolveEach]
      simp only [ih, bind_assoc, pure_bind, List.map_cons, Walk.get_bind_const]

theorem resolveProperties_eq (name : String) (ps : List (String × SchemaNode)) :
    resolveProperties recur name ps
      = resolveEach recur (propertyChildren name ps) >>= fun found =>
          pure ((ps.map Prod.fst).zip (found.map Prod.fst)) := by
  induction ps with
  | nil =>
      rw [resolveProperties, propertyChildren, List.map_nil, resolveEach, pure_bind]
      rfl
  | cons p rest ih =>
      obtain ⟨property, n⟩ := p
      have hcons : propertyChildren name ((property, n) :: rest)
          = ⟨n, Text.upperCamel (name ++ " " ++ property)⟩ :: propertyChildren name rest := rfl
      rw [resolveProperties, hcons, resolveEach]
      simp only [ih, bind_assoc, pure_bind, List.map_cons, List.zip_cons_cons,
        Walk.get_bind_const]

/-! ## The builders -/

variable (r : Resolver) (n : SchemaNode) (name : String) (key : MemoKey)

theorem buildFromRule_eq_meet (rule : Rule) :
    r.buildFromRule recur n name rule = meet recur key (r.demandOfRule n name rule) := by
  unfold buildFromRule demandOfRule
  cases r.ruleTarget rule with
  | error e => rfl
  | ok target =>
      simp only [Walk.ofExcept, pure_bind]
      split
      · cases n.items with
        | none => rfl
        | some items => rfl
      · apply Walk.ext_outcome
        intro s
        rw [Walk.outcome_bind, Walk.outcome_onTypes]
        simp only [Walk.outcome_onTypes, Target.addTargets_eq, meet, TypeStore.addBlock]
        rw [List.map_append, TypeStore.addAll_append,
          ← Target.allTypesFrom_add s.types.size 0 target.args, Nat.add_zero]
        have hplaces : Target.places s.types.size target.args
            = (Target.places 0 target.args).map (s.types.size + ·) :=
          Target.places_add s.types.size 0 target.args
        rw [hplaces]
        simp only [TypeStore.add_fst, TypeStore.size_addAll, Target.length_allTypesFrom]
        rfl

theorem buildAllOf_eq_meet :
    r.buildAllOf recur n name key
      = meet recur key (.composite (listedChildren name "AllOf" 0 n.allOf)
          (.allOf (r.typeName name) r.options.modelPackage (List.range n.allOf.length)
            n.deprecated)) := by
  rw [buildAllOf, meet, resolveConstituents_eq, bind_assoc]
  simp only [pure_bind]
  congr 1
  apply Walk.bind_congr_outcome
  intro s s' found h
  have hlen := length_of_resolveEach h
  rw [length_listedChildren] at hlen
  rw [← hlen, Demand.filled_allOf]

theorem buildOneOf_eq_meet (label : String) (alternatives : List SchemaNode) :
    r.buildOneOf recur n name key label alternatives
      = meet recur key (r.demandOfOneOf n name label alternatives) := by
  rw [buildOneOf, demandOfOneOf, meet, resolveAlternatives_eq, bind_assoc]
  simp only [pure_bind]
  congr 1
  apply Walk.bind_congr_outcome
  intro s s' found h
  have hlen := length_of_resolveEach h
  rw [length_listedChildren] at hlen
  rw [← hlen, Demand.filled_oneOf]

theorem buildObject_eq_meet :
    r.buildObject recur n name key = meet recur key (r.demandOfObject n name) := by
  rw [buildObject, demandOfObject, meet, resolveProperties_eq, bind_assoc]
  simp only [pure_bind]
  congr 1
  apply Walk.bind_congr_outcome
  intro s s' found h
  have hlen := length_of_resolveEach h
  rw [length_propertyChildren] at hlen
  rw [← hlen, Demand.filled_object]

theorem onTypes_add_eq (t : ModelType) (h : ∀ f, t.rename f = t) :
    Walk.onTypes (fun s => s.add t) = Walk.onTypes fun s => s.addBlock [] t := by
  apply Walk.ext_outcome
  intro s
  simp only [Walk.outcome_onTypes, TypeStore.addBlock, List.nil_append, List.map_cons,
    List.map_nil, h, TypeStore.addAll_cons, TypeStore.addAll_nil]
  rfl

theorem buildFreeForm_eq_meet :
    buildFreeForm recur n name = meet recur key (demandOfFreeForm n name) := by
  unfold buildFreeForm demandOfFreeForm
  cases n.additional with
  | none => exact onTypes_add_eq _ fun _ => rfl
  | any =>
      apply Walk.ext_outcome
      intro s
      rw [Walk.outcome_bind, Walk.outcome_onTypes]
      simp only [Walk.outcome_onTypes, TypeStore.add_fst, TypeStore.size_add]
      rfl
  | described schema => rfl

theorem buildPrimitive_eq_meet (type : String) :
    buildPrimitive n type = meet recur key (demandOfPrimitive n type) := by
  unfold buildPrimitive demandOfPrimitive
  cases Primitive.ofSchema? type n.format with
  | none => rfl
  | some kind => exact onTypes_add_eq _ fun _ => rfl

theorem buildByType_eq_meet :
    r.buildByType recur n name key = meet recur key (r.demandOfType n name) := by
  unfold buildByType
  split
  · rename_i htype
    rw [demandOfType, htype]
    unfold buildArray
    cases n.items with
    | none => rfl
    | some items => rfl
  · rename_i htype
    rw [demandOfType, htype]
    cases hp : n.properties.isEmpty with
    | true => exact buildFreeForm_eq_meet n name key
    | false => exact buildObject_eq_meet r n name key
  · rename_i htype
    rw [demandOfType, htype]
    cases he : n.enum.isEmpty with
    | true => exact buildPrimitive_eq_meet n key "string"
    | false => exact onTypes_add_eq _ fun _ => rfl
  · rename_i type hne₁ hne₂ hne₃ htype
    rw [demandOfType_of_ne htype hne₁ hne₂ hne₃]
    exact buildPrimitive_eq_meet n key type
  · rename_i htype
    rw [demandOfType, htype]
    cases hp : n.properties.isEmpty with
    | true => rfl
    | false => exact buildObject_eq_meet r n name key

theorem buildByShape_eq_meet :
    r.buildByShape recur n name key = meet recur key (r.demandOfShape n name) := by
  unfold buildByShape demandOfShape
  split
  · exact buildAllOf_eq_meet r n name key
  · split
    · exact buildOneOf_eq_meet r n name key "OneOf" n.oneOf
    · split
      · exact buildOneOf_eq_meet r n name key "AnyOf" n.anyOf
      · exact buildByType_eq_meet r n name key

/-- **The type of a node is built by meeting its demand.** -/
theorem build_eq_meet (path : Option String) (v : Visit) :
    r.build path recur v.node v.name v.features key = meet recur key (r.demand path v) := by
  unfold build demand
  cases Lookup.typeRule? r.mappings path .schema v.features with
  | some rule => exact buildFromRule_eq_meet r v.node v.name key rule
  | none => exact buildByShape_eq_meet r v.node v.name key

end Resolver

end ApiTypes
