import ApiTypes.Resolve.Api

/-!
# Descriptions with the same references

A walk over schemas reads two things of a description: where references lead, and how many schemas
its components have. Descriptions that agree on these resolve every schema, every list of components
and every list of operations in the same walk, whatever else they differ in.
-/

set_option autoImplicit false

namespace ApiTypes

/-- References lead to the same schemas in both descriptions, whose components have as many
schemas. -/
structure Description.SameReferences (d d' : Description) : Prop where
  /-- Every node stands for the same schema. -/
  dereference_eq : ∀ n, d'.dereference n = d.dereference n
  /-- There are as many schemas. -/
  schemaCount_eq : d'.schemaCount = d.schemaCount

namespace Description.SameReferences

variable {d d' : Description}

/-- A walk from a schema is the same. -/
theorem resolveWithin_eq (h : d.SameReferences d') (options : Options) (path : Option String)
    (depth : Nat) (n : SchemaNode) (name : String) (isNamed : Bool) :
    (Resolver.mk d' options).resolveWithin path depth n name isNamed
      = (Resolver.mk d options).resolveWithin path depth n name isNamed := by
  induction depth generalizing n name isNamed with
  | zero => rfl
  | succ depth ih =>
      have hrecur : (fun below belowName =>
            (Resolver.mk d' options).resolveWithin path depth below belowName false)
          = fun below belowName =>
            (Resolver.mk d options).resolveWithin path depth below belowName false := by
        funext below belowName
        exact ih below belowName false
      rw [Resolver.resolveWithin, Resolver.resolveWithin, hrecur, Resolver.resolveStep,
        Resolver.resolveStep, h.dereference_eq]
      rfl

theorem resolve_eq (h : d.SameReferences d') (options : Options) (path : Option String)
    (n : SchemaNode) (name : String) (isNamed : Bool) :
    (Resolver.mk d' options).resolve path n name isNamed
      = (Resolver.mk d options).resolve path n name isNamed := by
  rw [Resolver.resolve, Resolver.resolve, Resolver.depthFor, Resolver.depthFor, h.schemaCount_eq,
    h.resolveWithin_eq]

theorem resolveComponents_eq (h : d.SameReferences d') (options : Options)
    (components : List (String × SchemaNode)) :
    (Resolver.mk d' options).resolveComponents components
      = (Resolver.mk d options).resolveComponents components := by
  induction components with
  | nil => rfl
  | cons entry rest ih =>
      obtain ⟨name, n⟩ := entry
      rw [Resolver.resolveComponents, Resolver.resolveComponents, ih, Resolver.resolveComponent,
        Resolver.resolveComponent, h.resolve_eq]

/-- A schema is resolved for a use in the same way. -/
theorem resolveUse_eq (h : d.SameReferences d') (options : Options) (path : Option String)
    (use : Use) (n : SchemaNode) (name : String) :
    (Resolver.mk d' options).resolveUse path use n name
      = (Resolver.mk d options).resolveUse path use n name := by
  have hresolve : (Resolver.mk d' options).resolve path = (Resolver.mk d options).resolve path := by
    funext n name isNamed
    exact h.resolve_eq options path n name isNamed
  rw [Resolver.resolveUse, Resolver.resolveUse, h.dereference_eq, hresolve]
  rfl

theorem resolveParameters_eq (h : d.SameReferences d') (options : Options)
    (path operation : String) (ps : List Parameter) :
    (Resolver.mk d' options).resolveParameters path operation ps
      = (Resolver.mk d options).resolveParameters path operation ps := by
  induction ps with
  | nil => rfl
  | cons p rest ih =>
      rw [Resolver.resolveParameters, Resolver.resolveParameters, ih, h.resolveUse_eq]

theorem resolveContents_eq (h : d.SameReferences d') (options : Options) (path name : String)
    (use : String → Use) (contents : List Content) :
    (Resolver.mk d' options).resolveContents path name use contents
      = (Resolver.mk d options).resolveContents path name use contents := by
  induction contents with
  | nil => rfl
  | cons content rest ih =>
      rw [Resolver.resolveContents, Resolver.resolveContents, ih]
      cases content.schema with
      | none => rfl
      | some schema =>
          simp only
          rw [h.resolveUse_eq]

theorem resolveResponses_eq (h : d.SameReferences d') (options : Options)
    (path operation : String) (responses : List (String × List Content)) :
    (Resolver.mk d' options).resolveResponses path operation responses
      = (Resolver.mk d options).resolveResponses path operation responses := by
  induction responses with
  | nil => rfl
  | cons entry rest ih =>
      obtain ⟨status, contents⟩ := entry
      rw [Resolver.resolveResponses, Resolver.resolveResponses, ih, h.resolveContents_eq]

/-- Operations are resolved in the same way. -/
theorem resolveEndpoints_eq (h : d.SameReferences d') (options : Options) (es : List Endpoint) :
    (Resolver.mk d' options).resolveEndpoints es
      = (Resolver.mk d options).resolveEndpoints es := by
  induction es with
  | nil => rfl
  | cons e rest ih =>
      rw [Resolver.resolveEndpoints, Resolver.resolveEndpoints, ih, Resolver.resolveEndpoint,
        Resolver.resolveEndpoint, h.resolveParameters_eq, h.resolveContents_eq,
        h.resolveResponses_eq]
      rfl

end Description.SameReferences

end ApiTypes
