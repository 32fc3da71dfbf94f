import ApiTypes.Proofs.Store.Likeness
import ApiTypes.Proofs.Walk.Lockstep

/-!
# Walks that differ in what they write

Two resolvers write alike if they decide in the same way and what they write may stand against each
other: the names of generated types, the mark of alternatives, and the annotations of a slot
(`Resolver.Writes`). Schemas may have different names too where rules do not look at them
(`Visit.Like`). Then they demand alike (`Resolver.Writes.demand`), and from stores that are alike
they go alongside (`Resolver.Writes.alongside_resolveVisit`): they fail with the same error or find
the same slot, and leave stores behind that are alike. Nothing that is written is read again but the
number of a slot, and whether its type may be a constituent.
-/

set_option autoImplicit false

namespace ApiTypes

/-! ## Schemas under different names -/

/-- Names of schemas that are the same, or need not be. -/
def SameName (keeps : Prop) (name name' : String) : Prop := keeps → name' = name

namespace SameName

variable {keeps : Prop} {name name' : String}

theorem append (h : SameName keeps name name') (rest : String) :
    SameName keeps (name ++ rest) (name' ++ rest) :=
  fun hkeeps => by rw [h hkeeps]

theorem upperCamel (h : SameName keeps name name') :
    SameName keeps (Text.upperCamel name) (Text.upperCamel name') :=
  fun hkeeps => by rw [h hkeeps]

end SameName

/-- A schema that is visited under two names, which are the same if rules may look at them. -/
structure Visit.Like (keeps : Prop) (v v' : Visit) : Prop where
  /-- The schema is the same. -/
  node_eq : v'.node = v.node
  /-- Rules may look at both names or at none. -/
  isNamed_eq : v'.isNamed = v.isNamed
  /-- A name that rules may look at is the same. -/
  name_eq : v.isNamed = true → v'.name = v.name
  /-- Other names are the same if names are kept. -/
  sameName : SameName keeps v.name v'.name

namespace Visit.Like

variable {keeps : Prop} {v v' : Visit}

theorem refl (v : Visit) : Visit.Like keeps v v := ⟨rfl, rfl, fun _ => rfl, fun _ => rfl⟩

/-- Rules look at the same. -/
theorem features_eq (h : Visit.Like keeps v v') : v'.features = v.features := by
  rw [Visit.features, Visit.features, SchemaNode.features, SchemaNode.features, h.node_eq,
    h.isNamed_eq]
  by_cases hnamed : v.isNamed = true
  · rw [h.name_eq hnamed]
  · rw [if_neg hnamed, if_neg hnamed]

end Visit.Like

/-- A schema below another one under two names. -/
structure Child.Like (keeps : Prop) (c c' : Child) : Prop where
  /-- The schema is the same. -/
  node_eq : c'.node = c.node
  /-- The names are the same if names are kept. -/
  sameName : SameName keeps c.name c'.name

theorem Child.Like.visit {keeps : Prop} {c c' : Child} (h : Child.Like keeps c c') :
    Visit.Like keeps c.visit c'.visit :=
  ⟨h.node_eq, rfl, nofun, h.sameName⟩

/-- Demands for the same schemas with types that are alike. -/
inductive Demand.Like (L : Likeness) (keeps : Prop) : Demand → Demand → Prop
  | fault (e : Error) : Like L keeps (.fault e) (.fault e)
  | block {inner inner' : List ModelType} {last last' : ModelType} :
      List.Forall₂ (ModelType.Like L.names L.marks) inner inner' →
      last.Like L.names L.marks last' → Like L keeps (.block inner last) (.block inner' last')
  | wrapper {item item' : Child} {shape shape' : ModelType} :
      item.Like keeps item' → shape.Like L.names L.marks shape' →
      Like L keeps (.wrapper item shape) (.wrapper item' shape')
  | composite {children children' : List Child} {shape shape' : ModelType} :
      List.Forall₂ (Child.Like keeps) children children' → shape.Like L.names L.marks shape' →
      Like L keeps (.composite children shape) (.composite children' shape')

namespace Target

variable {names : TypeName → TypeName → Prop} {marks : Bool → Bool → Prop}

mutual

theorem like_of_mem_typesFrom (start : Nat) : ∀ (t : Target) (m : ModelType),
    m ∈ typesFrom start t → m.Like names marks m
  | ⟨name, args⟩, m, hm => by
      rw [typesFrom, List.mem_append, List.mem_singleton] at hm
      rcases hm with hm | rfl
      · exact like_of_mem_allTypesFrom start args m hm
      · exact .mapped _ _ _ _ _ _

/-- Type arguments have no names that may differ. -/
theorem like_of_mem_allTypesFrom (start : Nat) : ∀ (ts : List Target) (m : ModelType),
    m ∈ allTypesFrom start ts → m.Like names marks m
  | [], m, hm => by cases hm
  | t :: rest, m, hm => by
      rw [allTypesFrom, List.mem_append] at hm
      rcases hm with hm | hm
      · exact like_of_mem_typesFrom start t m hm
      · exact like_of_mem_allTypesFrom _ rest m hm

end

end Target

/-! ## Resolvers that write alike -/

/-- Resolvers that decide in the same way and write what may stand against each other. -/
structure Resolver.Writes (L : Likeness) (keeps : Prop) (r r' : Resolver) : Prop where
  /-- The description is the same. -/
  description_eq : r'.description = r.description
  /-- So are the mapping documents. -/
  mappings_eq : r'.mappings = r.mappings
  /-- So is the root package. -/
  packageName_eq : r'.options.packageName = r.options.packageName
  /-- The names that types get for names of schemas may stand against each other. -/
  typeName : ∀ name name', SameName keeps name name' →
    L.names (r.typeName name) (r'.typeName name')
  /-- So may the marks of alternatives. -/
  mark : L.marks r.options.oneOfInterface r'.options.oneOfInterface
  /-- So may the annotations of a slot that rules annotate in the same way. -/
  annotations : ∀ (given : List Annotation) (c : Constraints),
    L.annotations ((given ++ c.annotations r.options.validation).foldl TypeStore.addAnnotation [])
      ((given ++ c.annotations r'.options.validation).foldl TypeStore.addAnnotation [])

namespace Resolver.Writes

variable {L : Likeness} {keeps : Prop} {r r' : Resolver} (h : r.Writes L keeps r')

include h in
theorem modelPackage_eq : r'.options.modelPackage = r.options.modelPackage := by
  rw [Options.modelPackage, Options.modelPackage, h.packageName_eq]

include h in
theorem ruleTarget_eq (rule : Rule) : r'.ruleTarget rule = r.ruleTarget rule := by
  rw [ruleTarget, ruleTarget, h.packageName_eq]

include h in
theorem depthFor_eq (n : SchemaNode) : r'.depthFor n = r.depthFor n := by
  rw [depthFor, depthFor, h.description_eq]

include h in
theorem keyOf_eq {path : Option String} {v v' : Visit} (hv : v.Like keeps v') :
    r'.keyOf path v' = r.keyOf path v := by
  rw [keyOf, keyOf, memoKey, memoKey, h.mappings_eq, hv.node_eq]

include h in
/-- Visits of a schema under two names lead to the same schema, or to the same error. -/
theorem enter {v v' : Visit} (hv : v.Like keeps v') :
    (∃ e, r.enter v = .error e ∧ r'.enter v' = .error e) ∨
      ∃ w w', r.enter v = .ok w ∧ r'.enter v' = .ok w' ∧ w.Like keeps w' := by
  unfold Resolver.enter
  rw [h.description_eq, hv.node_eq]
  cases r.description.dereference v.node with
  | error e => exact Or.inl ⟨e, rfl, rfl⟩
  | ok followed =>
      cases followed with
      | none => exact Or.inr ⟨v, v', rfl, rfl, hv⟩
      | some target => exact Or.inr ⟨_, _, rfl, rfl, .refl _⟩

/-! ## Demands -/

section Demands

variable {n : SchemaNode} {name name' : String} (hname : SameName keeps name name')

include h hname in
theorem demandOfRule (rule : Rule) :
    Demand.Like L keeps (r.demandOfRule n name rule) (r'.demandOfRule n name' rule) := by
  unfold Resolver.demandOfRule
  rw [h.ruleTarget_eq]
  split
  · exact .fault _
  · split
    · split
      · exact .wrapper ⟨rfl, hname.append "Item"⟩ (.mapped _ _ _ _ _ _)
      · exact .fault _
    · exact .block (List.forall₂_same.mpr (Target.like_of_mem_allTypesFrom 0 _))
        (.mapped _ _ _ _ _ _)

include hname in
theorem listedChildren (label : String) (index : Nat) (ns : List SchemaNode) :
    List.Forall₂ (Child.Like keeps) (Resolver.listedChildren name label index ns)
      (Resolver.listedChildren name' label index ns) := by
  induction ns generalizing index with
  | nil => exact .nil
  | cons n rest ih =>
      exact .cons ⟨rfl, (hname.append label).append (toString index)⟩ (ih (index + 1))

include hname in
theorem propertyChildren (properties : List (String × SchemaNode)) :
    List.Forall₂ (Child.Like keeps) (Resolver.propertyChildren name properties)
      (Resolver.propertyChildren name' properties) := by
  induction properties with
  | nil => exact .nil
  | cons entry rest ih =>
      exact .cons ⟨rfl, ((hname.append " ").append entry.1).upperCamel⟩ ih

include h hname in
theorem demandOfOneOf (label : String) (alternatives : List SchemaNode) :
    Demand.Like L keeps (r.demandOfOneOf n name label alternatives)
      (r'.demandOfOneOf n name' label alternatives) := by
  rw [Resolver.demandOfOneOf, Resolver.demandOfOneOf, h.modelPackage_eq]
  exact .composite (listedChildren hname label 0 alternatives)
    (.oneOf _ _ _ (h.typeName name name' hname) h.mark)

include h hname in
theorem demandOfObject :
    Demand.Like L keeps (r.demandOfObject n name) (r'.demandOfObject n name') := by
  rw [Resolver.demandOfObject, Resolver.demandOfObject, h.modelPackage_eq]
  exact .composite (propertyChildren hname n.properties)
    (.object _ _ _ _ _ (h.typeName name name' hname))

include hname in
theorem demandOfFreeForm :
    Demand.Like L keeps (Resolver.demandOfFreeForm n name) (Resolver.demandOfFreeForm n name') := by
  unfold Resolver.demandOfFreeForm
  cases n.additional with
  | none => exact .block .nil (.primitive _ _ _)
  | any => exact .block (.cons (.primitive _ _ _) .nil) (.map _ _ _)
  | described schema => exact .wrapper ⟨rfl, hname.append "Value"⟩ (.map _ _ _)

theorem demandOfPrimitive (type : String) :
    Demand.Like L keeps (Resolver.demandOfPrimitive n type) (Resolver.demandOfPrimitive n type) := by
  unfold Resolver.demandOfPrimitive
  split
  · exact .block .nil (.primitive _ _ _)
  · exact .fault _

include h hname in
theorem demandOfType :
    Demand.Like L keeps (r.demandOfType n name) (r'.demandOfType n name') := by
  unfold Resolver.demandOfType
  split
  · cases n.items with
    | none => exact .fault _
    | some items => exact .wrapper ⟨rfl, hname.append "Item"⟩ (.array _ _ _)
  · cases n.properties.isEmpty with
    | true => exact demandOfFreeForm hname
    | false => exact h.demandOfObject hname
  · cases n.enum.isEmpty with
    | true => exact demandOfPrimitive "string"
    | false =>
        rw [if_neg (by decide), if_neg (by decide), enumType, enumType, h.modelPackage_eq]
        exact .block .nil (.enum _ _ _ _ (h.typeName name name' hname))
  · exact demandOfPrimitive _
  · cases n.properties.isEmpty with
    | true => exact .fault _
    | false => exact h.demandOfObject hname

include h hname in
theorem demandOfShape :
    Demand.Like L keeps (r.demandOfShape n name) (r'.demandOfShape n name') := by
  unfold Resolver.demandOfShape
  split
  · rw [h.modelPackage_eq]
    exact .composite (listedChildren hname _ 0 n.allOf) (.allOf _ _ _ (h.typeName name name' hname))
  · split
    · exact h.demandOfOneOf hname _ _
    · split
      · exact h.demandOfOneOf hname _ _
      · exact h.demandOfType hname

include h in
/-- **A schema demands alike under two names**, whichever resolver it is demanded of. -/
theorem demand (path : Option String) {v v' : Visit} (hv : v.Like keeps v') :
    Demand.Like L keeps (r.demand path v) (r'.demand path v') := by
  unfold Resolver.demand
  rw [h.mappings_eq, hv.features_eq, hv.node_eq]
  split
  · exact h.demandOfRule hv.sameName _
  · exact h.demandOfShape hv.sameName

include h in
/-- So does a use of it. -/
theorem useDemand (path : Option String) (use : Use) {v v' : Visit} (hv : v.Like keeps v') :
    Option.Rel (Demand.Like L keeps) (r.useDemand path use v) (r'.useDemand path use v') := by
  unfold Resolver.useDemand
  rw [h.mappings_eq, hv.features_eq, hv.node_eq]
  split
  · rw [h.ruleTarget_eq]
    split
    · exact .some (.fault _)
    · exact .some (.block .nil (.mapped _ _ _ _ _ _))
  · split
    · exact .some (h.demandOfRule hv.sameName _)
    · exact .none

include h in
theorem nodeAnnotations (path : Option String) {v v' : Visit} (hv : v.Like keeps v') :
    L.annotations
      ((r.nodeAnnotations path v.node v.features).foldl TypeStore.addAnnotation [])
      ((r'.nodeAnnotations path v'.node v'.features).foldl TypeStore.addAnnotation []) := by
  rw [Resolver.nodeAnnotations, Resolver.nodeAnnotations, h.mappings_eq, hv.features_eq, hv.node_eq]
  exact h.annotations _ _

include h in
theorem answer_eq (path : Option String) (use : Use) {v v' : Visit} (hv : v.Like keeps v')
    (id : TypeId) : r'.answer path use v' id = r.answer path use v id := by
  rw [answer, answer, usageAnnotations, usageAnnotations, h.mappings_eq, hv.features_eq]

end Demands

end Resolver.Writes

/-! ## Slots without annotations -/

namespace Resolver

variable {recur : SchemaNode → String → Walk TypeId}

/-- A loop over schemas only extends the store if each of its calls does. -/
theorem grows_resolveEach
    (hrecur : ∀ n name s, Grows s.types ((recur n name).outcome s).2.types) (cs : List Child)
    (s : WalkState) : Grows s.types ((resolveEach recur cs).outcome s).2.types := by
  induction cs generalizing s with
  | nil => exact Grows.refl _
  | cons c rest ih =>
      have hhead := hrecur c.node c.name s
      rw [outcome_resolveEach_cons]
      cases hc : (recur c.node c.name).outcome s with
      | mk result s₁ =>
          rw [hc] at hhead
          cases result with
          | error e => exact hhead
          | ok id =>
              have htail := ih s₁
              cases hr : (resolveEach recur rest).outcome s₁ with
              | mk result s₂ =>
                  rw [hr] at htail
                  cases result with
                  | error e =>
                      simp only [hr]
                      exact hhead.trans htail
                  | ok others =>
                      simp only [hr]
                      exact hhead.trans htail

/-- **The slot that a demand is met with has no annotations yet.** -/
theorem annotations_of_meet
    (hrecur : ∀ n name s, Grows s.types ((recur n name).outcome s).2.types) {key : MemoKey}
    {demand : Demand} {s s₁ : WalkState} {id : TypeId}
    (h : (meet recur key demand).outcome s = (.ok id, s₁)) : s₁.types.annotations id = [] := by
  cases demand with
  | fault e => cases h
  | block inner last =>
      cases h
      show (s.types.addAll _).annotations _ = []
      rw [TypeStore.annotations_addAll]
      exact s.types.annotations_eq_nil_of_size_le (Nat.le_add_right _ _)
  | wrapper item shape =>
      rw [outcome_meet_wrapper] at h
      cases ho : (recur item.node item.name).outcome s with
      | mk result s₂ =>
          rw [ho] at h
          cases result with
          | error e => cases h
          | ok found =>
              cases h
              rw [WalkState.types_withTypes, TypeStore.annotations_add]
              exact s₂.types.annotations_eq_nil_of_size_le (Nat.le_refl _)
  | composite children shape =>
      -- The slot was reserved without annotations, and the calls below left it so.
      rw [meet, outcome_reserving, Walk.outcome_bind] at h
      have hgrows := grows_resolveEach hrecur children
        (s.withTypes (s.types.reserve.2.remember key s.types.size))
      cases ho : (resolveEach recur children).outcome
          (s.withTypes (s.types.reserve.2.remember key s.types.size)) with
      | mk result s₂ =>
          rw [ho] at h hgrows
          cases result with
          | error e => cases h
          | ok found =>
              cases h
              have hlt : s.types.size < s.types.reserve.2.size := by
                rw [TypeStore.size_reserve]
                exact Nat.lt_succ_self _
              rw [WalkState.types_withTypes, TypeStore.annotations_fill,
                hgrows.annotations_eq _ hlt, WalkState.types_withTypes,
                TypeStore.annotations_remember, TypeStore.annotations_reserve]
              exact s.types.annotations_eq_nil_of_size_le (Nat.le_refl _)

end Resolver

/-! ## Walks -/

/-- States with the same schemas being resolved, and stores that are alike. -/
structure WalkState.Like (L : Likeness) (s s' : WalkState) : Prop where
  /-- The stores are alike. -/
  types : s.types.Like L s'.types
  /-- The same schemas are being resolved. -/
  pending_eq : s'.pending = s.pending

theorem TypeStore.Like.isConstituent_eq {L : Likeness} {s s' : TypeStore} (h : s.Like L s')
    (i : Nat) : Resolver.isConstituent (s'.get? i) = Resolver.isConstituent (s.get? i) := by
  have hrel := h.get?_rel i
  generalize s.get? i = found at hrel ⊢
  generalize s'.get? i = found' at hrel ⊢
  cases hrel with
  | none => rfl
  | some ht =>
      cases ht with
      | _ => rfl

theorem TypeStore.Like.addBlock {L : Likeness} {s s' : TypeStore} (h : s.Like L s')
    {inner inner' : List ModelType} {last last' : ModelType}
    (hinner : List.Forall₂ (ModelType.Like L.names L.marks) inner inner')
    (hlast : last.Like L.names L.marks last') :
    (s'.addBlock inner' last').1 = (s.addBlock inner last).1 ∧
      (s.addBlock inner last).2.Like L (s'.addBlock inner' last').2 := by
  refine ⟨?_, h.addAll ?_⟩
  · rw [TypeStore.addBlock, TypeStore.addBlock, h.size_eq, hinner.length_eq]
  · rw [h.size_eq, List.forall₂_map_left_iff, List.forall₂_map_right_iff]
    have hall : List.Forall₂ (ModelType.Like L.names L.marks) (inner ++ [last])
        (inner' ++ [last']) := List.rel_append hinner (.cons hlast .nil)
    exact hall.imp fun t t' ht => ht.rename _

namespace Alongside

variable {L : Likeness} {α : Type}

theorem throw (T : WalkState → WalkState → Prop) (f : α → α) (e : Error) :
    Alongside T f (MonadExcept.throw e : Walk α) (MonadExcept.throw e) := by
  intro s s' out s₁ ht h
  cases h
  exact ⟨s', rfl, ht⟩

theorem get_bind {T : WalkState → WalkState → Prop} {f : α → α} {next next' : WalkState → Walk α}
    (h : ∀ s s', T s s' → Alongside T f (next s) (next' s')) :
    Alongside T f (get >>= next) (get >>= next') := by
  intro s s' out s₁ ht ho
  rw [Walk.outcome_get_bind] at ho
  obtain ⟨s₁', ho', ht₁⟩ := h s s' ht s s' out s₁ ht ho
  exact ⟨s₁', (Walk.outcome_get_bind next' s').trans ho', ht₁⟩

theorem ofExcept (T : WalkState → WalkState → Prop) (result : Except Error α) :
    Alongside T id (Walk.ofExcept result) (Walk.ofExcept result) := by
  cases result with
  | ok a => exact .pure id a
  | error e => exact .throw T id e

/-- Changes of stores that are alike go alongside if they tell the same and keep them alike. -/
theorem onTypes {f f' : TypeStore → α × TypeStore}
    (h : ∀ types types', types.Like L types' →
      (f' types').1 = (f types).1 ∧ (f types).2.Like L (f' types').2) :
    Alongside (WalkState.Like L) id (Walk.onTypes f) (Walk.onTypes f') := by
  intro s s' out s₁ ht ho
  cases ho
  obtain ⟨htold, htypes⟩ := h s.types s'.types ht.types
  refine ⟨s'.withTypes (f' s'.types).2, ?_, htypes, ht.pending_eq⟩
  rw [Walk.outcome_onTypes, htold]
  rfl

theorem modifyTypes {f f' : TypeStore → TypeStore}
    (h : ∀ types types', types.Like L types' → (f types).Like L (f' types')) :
    Alongside (WalkState.Like L) id (Walk.modifyTypes f) (Walk.modifyTypes f') := by
  intro s s' out s₁ ht ho
  cases ho
  exact ⟨_, rfl, h _ _ ht.types, ht.pending_eq⟩

end Alongside

namespace WalkState.Like

variable {L : Likeness} {s s' : WalkState}

theorem push (h : s.Like L s') (key : MemoKey) : (s.push key).Like L (s'.push key) :=
  ⟨h.types, by rw [pending_push, pending_push, h.pending_eq]⟩

theorem pop (h : s.Like L s') (key : MemoKey) : (s.pop key).Like L (s'.pop key) :=
  ⟨h.types, by rw [pending_pop, pending_pop, h.pending_eq]⟩

end WalkState.Like

namespace Resolver

variable {L : Likeness} {keeps : Prop} {r r' : Resolver}

section Meeting

variable {recur recur' : SchemaNode → String → Walk TypeId}
  (hrecur : ∀ c c' : Child, c.Like keeps c' → Alongside (WalkState.Like L) id
    (recur c.node c.name) (recur' c'.node c'.name))

include hrecur in
theorem alongside_resolveEach {cs cs' : List Child} (hcs : List.Forall₂ (Child.Like keeps) cs cs') :
    Alongside (WalkState.Like L) id (resolveEach recur cs) (resolveEach recur' cs') := by
  induction hcs with
  | nil => exact .pure id []
  | @cons c c' rest rest' hc _ ih =>
      rw [resolveEach, resolveEach]
      refine (hrecur c c' hc).bind fun found => .get_bind fun t t' ht => ?_
      refine ih.bind fun others => ?_
      show Alongside _ _ _ (pure ((found, isConstituent (t'.types.get? found)) :: others))
      rw [ht.types.isConstituent_eq found]
      exact .pure id _

include hrecur in
/-- Demands that are alike are met alongside. -/
theorem alongside_meet (key : MemoKey) {demand demand' : Demand}
    (hd : demand.Like L keeps demand') :
    Alongside (WalkState.Like L) id (meet recur key demand) (meet recur' key demand') := by
  cases hd with
  | fault e => exact .throw _ id e
  | block hinner hlast => exact .onTypes fun types types' h => h.addBlock hinner hlast
  | wrapper hitem hshape =>
      refine (hrecur _ _ hitem).bind fun found => .onTypes fun types types' h => ?_
      exact ⟨h.size_eq, h.add (hshape.rename _)⟩
  | composite hchildren hshape =>
      rw [meet, meet, reserving, reserving]
      simp only [bind_assoc, pure_bind]
      refine (Alongside.onTypes fun types types' h => ⟨h.size_eq, h.reserve⟩).bind fun slot => ?_
      refine (Alongside.modifyTypes fun types types' h => h.remember key slot).bind fun _ => ?_
      refine (alongside_resolveEach hrecur hchildren).bind fun found => ?_
      refine (Alongside.modifyTypes fun types types' h => ?_).bind fun _ => .pure id slot
      exact h.fill slot ((hshape.keepItems _).rename _)

end Meeting

theorem grows_resolveVisit (r : Resolver) (path : Option String) (depth : Nat) (v : Visit)
    (s : WalkState) : Grows s.types ((r.resolveVisit path depth v).outcome s).2.types :=
  (walked_resolveVisit depth v s).grows

namespace Writes

variable (h : r.Writes L keeps r') {path : Option String} {v v' w w' : Visit}

include h in
theorem settled (hw : w.Like keeps w') {s s' : WalkState} (ht : s.Like L s') {id : TypeId}
    (hid : s.types.annotations id = []) (hid' : s'.types.annotations id = []) :
    (r.settled path w id s).Like L (r'.settled path w' id s') where
  types := by
    rw [types_settled, types_settled, settle, settle, h.keyOf_eq hw]
    exact (ht.types.remember _ id).annotateAll hid hid' (h.nodeAnnotations path hw)
  pending_eq := by
    rw [pending_settled, pending_settled, h.keyOf_eq hw, ht.pending_eq]

include h in
theorem alongside_resolveNew (path : Option String)
    {recur recur' : SchemaNode → String → Walk TypeId}
    (hrecur : ∀ c c' : Child, c.Like keeps c' → Alongside (WalkState.Like L) id
      (recur c.node c.name) (recur' c'.node c'.name))
    (hgrows : ∀ n name s, Grows s.types ((recur n name).outcome s).2.types)
    (hgrows' : ∀ n name s, Grows s.types ((recur' n name).outcome s).2.types)
    (hw : w.Like keeps w') :
    Alongside (WalkState.Like L) id
      (r.resolveNew path recur w.node w.name w.isNamed (r.keyOf path w))
      (r'.resolveNew path recur' w'.node w'.name w'.isNamed (r'.keyOf path w')) := by
  intro s s' out s₁ ht ho
  rw [outcome_resolveNew] at ho ⊢
  rw [h.keyOf_eq hw, ht.pending_eq, hw.node_eq]
  by_cases hp : r.keyOf path w ∈ s.pending
  · rw [if_pos hp] at ho ⊢
    cases ho
    exact ⟨s', rfl, ht⟩
  · rw [if_neg hp] at ho ⊢
    cases hm : (meet recur (r.keyOf path w) (r.demand path w)).outcome
        (s.push (r.keyOf path w)) with
    | mk told s₂ =>
        obtain ⟨s₂', hm', ht₂⟩ := alongside_meet hrecur (r.keyOf path w) (h.demand path hw) _ _ _ _
          (ht.push (r.keyOf path w)) hm
        rw [hm] at ho
        rw [hm']
        cases told with
        | error e =>
            cases ho
            exact ⟨_, rfl, ht₂.pop _⟩
        | ok found =>
            cases ho
            exact ⟨_, rfl, h.settled hw ht₂ (annotations_of_meet hgrows hm)
              (annotations_of_meet hgrows' hm')⟩

include h in
/-- **A schema is resolved alongside under two names.** -/
theorem alongside_resolveVisit (path : Option String) (depth : Nat) (hv : v.Like keeps v') :
    Alongside (WalkState.Like L) id (r.resolveVisit path depth v) (r'.resolveVisit path depth v') := by
  induction depth generalizing v v' with
  | zero =>
      intro s s' out s₁ ht ho
      rw [outcome_zero] at ho ⊢
      cases ho
      exact ⟨s', by rw [hv.node_eq]; rfl, ht⟩
  | succ depth ih =>
      intro s s' out s₁ ht ho
      rw [outcome_succ] at ho ⊢
      rcases h.enter hv with ⟨e, he, he'⟩ | ⟨w, w', hw, hw', hlike⟩
      · rw [he] at ho
        rw [he']
        cases ho
        exact ⟨s', rfl, ht⟩
      · rw [hw] at ho
        rw [hw']
        simp only [h.keyOf_eq hlike, ht.types.lookup_eq]
        simp only at ho
        cases hl : s.types.lookup (r.keyOf path w) with
        | some id =>
            rw [hl] at ho
            cases ho
            exact ⟨s', rfl, ht⟩
        | none =>
            rw [hl] at ho
            have hnew := h.alongside_resolveNew path (fun c c' hc => ih hc.visit)
              (fun n name => grows_resolveVisit r path depth ⟨n, name, false⟩)
              (fun n name => grows_resolveVisit r' path depth ⟨n, name, false⟩) hlike
            rw [h.keyOf_eq hlike] at hnew
            exact hnew s s' out s₁ ht ho

/-! ## Requests and runs -/

include h in
theorem alongside_belowUse {c c' : Child} (hc : c.Like keeps c') :
    Alongside (WalkState.Like L) id (r.belowUse path c.node c.name)
      (r'.belowUse path c'.node c'.name) := by
  have hbelow := h.alongside_resolveVisit path (r.depthFor c.node) hc.visit
  have hvisit : c'.visit = ⟨c.node, c'.name, false⟩ := by rw [Child.visit, hc.node_eq]
  rw [hvisit] at hbelow
  rw [belowUse, belowUse, resolve, resolve, h.depthFor_eq, hc.node_eq]
  exact hbelow

include h in
/-- A use is served alongside under two names. -/
theorem alongside_serve (use : Use) (hw : w.Like keeps w') :
    Alongside (WalkState.Like L) id (r.serve path use w) (r'.serve path use w') := by
  have hdemand := h.useDemand path use hw
  unfold serve
  generalize r.useDemand path use w = own at hdemand ⊢
  generalize r'.useDemand path use w' = own' at hdemand ⊢
  cases hdemand with
  | none =>
      rw [h.depthFor_eq, hw.node_eq]
      refine (h.alongside_resolveVisit path _ hw).bind fun found => ?_
      rw [id, h.answer_eq path use hw]
      exact .pure id _
  | @some demand demand' hd =>
      intro s s' out s₁ ht ho
      rw [Walk.outcome_bind] at ho ⊢
      rw [h.keyOf_eq hw]
      cases hm : (meet (r.belowUse path) (r.keyOf path w) demand).outcome s with
      | mk told s₂ =>
          obtain ⟨s₂', hm', ht₂⟩ := alongside_meet (fun _ _ hc => h.alongside_belowUse hc) _ hd
            s s' told s₂ ht hm
          rw [hm] at ho
          rw [hm']
          cases told with
          | error e =>
              cases ho
              exact ⟨s₂', rfl, ht₂⟩
          | ok found =>
              have hfresh := annotations_of_meet
                (fun n name => grows_resolveVisit r path _ ⟨n, name, false⟩) hm
              have hfresh' := annotations_of_meet
                (fun n name => grows_resolveVisit r' path _ ⟨n, name, false⟩) hm'
              cases ho
              refine ⟨r'.owned path w' found s₂', ?_, ?_, ht₂.pending_eq⟩
              · exact congrArg (fun a => (Except.ok a, r'.owned path w' found s₂'))
                  (h.answer_eq path use hw found)
              · exact ht₂.types.annotateAll hfresh hfresh' (h.nodeAnnotations path hw)

include h in
/-- **A schema is resolved for a use alongside under two names.** -/
theorem alongside_resolveUse (path : Option String) (use : Use) (n : SchemaNode)
    {name name' : String} (hname : SameName keeps name name') :
    Alongside (WalkState.Like L) id (r.resolveUse path use n name)
      (r'.resolveUse path use n name') := by
  show Alongside (WalkState.Like L) id (r.ask (.use path use n name)) (r'.ask (.use path use n name'))
  rw [ask_use_eq, ask_use_eq]
  have hv : Visit.Like keeps ⟨n, name, false⟩ ⟨n, name', false⟩ := ⟨rfl, rfl, nofun, hname⟩
  rcases h.enter hv with ⟨e, he, he'⟩ | ⟨w, w', hw, hw', hlike⟩
  · rw [he, he']
    intro s s' out s₁ ht ho
    rw [Walk.outcome_bind, Walk.outcome_ofExcept] at ho ⊢
    cases ho
    exact ⟨s', rfl, ht⟩
  · rw [hw, hw']
    intro s s' out s₁ ht ho
    rw [Walk.outcome_bind, Walk.outcome_ofExcept] at ho ⊢
    exact h.alongside_serve use hlike s s' out s₁ ht ho

include h in
theorem alongside_resolveComponents (components : List (String × SchemaNode)) :
    Alongside (WalkState.Like L) id (r.resolveComponents components)
      (r'.resolveComponents components) := by
  induction components with
  | nil => exact .pure id []
  | cons entry rest ih =>
      obtain ⟨name, n⟩ := entry
      have hn : Alongside (WalkState.Like L) id (r.resolveComponent n name)
          (r'.resolveComponent n name) := by
        rw [resolveComponent, resolveComponent, resolve, resolve, h.depthFor_eq]
        exact h.alongside_resolveVisit none (r.depthFor n) (.refl ⟨n, name, true⟩)
      rw [resolveComponents, resolveComponents]
      exact hn.bind fun found => ih.bind fun others => .pure id ((name, found) :: others)

/-- **A description is resolved alongside.** -/
theorem alongside_resolveAll (h : r.Writes L keeps r') :
    Alongside (WalkState.Like L) id r.resolveAll r'.resolveAll := by
  have huse : ∀ path use n name, Alongside (WalkState.Like L) (Resolved.renamed id)
      (r.resolveUse path use n name) (r'.resolveUse path use n name) :=
    fun path use n name => h.alongside_resolveUse path use n fun _ => rfl
  have hoperations := alongside_resolveEndpoints huse h.mappings_eq
  rw [ResolvedEndpoint.renamed_id, List.map_id_fun] at hoperations
  rw [resolveAll, resolveAll, h.description_eq]
  refine (h.alongside_resolveComponents _).bind fun models => ?_
  refine (Alongside.ofExcept _ _).bind fun es => ?_
  exact (hoperations es).bind fun resolved => .pure id (models, resolved)

end Writes

end Resolver

end ApiTypes
