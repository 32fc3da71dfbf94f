import ApiTypes.Proofs.Walk.Cycles

/-!
# Where errors arise

An error of a run arises in few places (`Resolver.Raises`): at a reference that cannot be followed,
at a schema that is met again while it is being resolved, at a schema or a use for which nothing can
be demanded, or at the depth of the walk. If it arises in none of these, the operations are not
known (`Resolver.raises_of_run`).

From this follows what the location of an error leads to (`located_of_resolveText`). A reference
that leads nowhere is told with the place where it stands: while a chain of references is followed,
the location moves on with the reference. A schema without items or without a type that is known is
told with its own place.
-/

set_option autoImplicit false

namespace ApiTypes

/-- The path that a request is about. -/
def Request.path : Request → Option String
  | component _ _ => none
  | use path _ _ _ => path

namespace Resolver

/-- Where an error arises while schemas are resolved on a path. -/
inductive Raises (r : Resolver) (path : Option String) : Error → Prop
  | deep (text : String) : Raises r path (.tooDeep text)
  | cyclic (key : SchemaKey) : Raises r path (.cyclicReference key.text)
  | strayed {v : Visit} {e : Error} : v.Proper r.description → r.enter v = .error e →
      Raises r path e
  | demand {v : Visit} {e : Error} : v.Proper r.description → v.node.reference? = none →
      r.demand path v = .fault e → Raises r path e
  | use {use : Use} {v : Visit} {e : Error} : v.Proper r.description → v.node.reference? = none →
      r.useDemand path use v = some (.fault e) → Raises r path e

variable {r : Resolver} {path : Option String} {e : Error}

/-- A call that fails raises its error in one of these places. -/
theorem Fails.raises (hd : r.description.Tidy) {stack : List Visit} {c : Call}
    (hc : ∀ v ∈ c.visits, v.Proper r.description)
    (h : r.Fails path (Visit.Proper r.description) stack c e) : r.Raises path e := by
  cases h with
  | strayed hv he =>
      rcases hv with hmem | ⟨u, hu, child, hchild, rfl⟩
      · exact .strayed (hc _ hmem) he
      · exact .strayed (hu.child hd (node_mem_of_demand hchild)) he
  | fault hv hr hdemand => exact .demand hv hr hdemand
  | cyclic _ _ _ _ => exact .cyclic _
  | deep => exact .deep _

end Resolver

/-- A request that fails raises its error in one of these places. -/
theorem Answered.raises {r : Resolver} (hd : r.description.Tidy) {q : Request} {e : Error}
    {s s' : WalkState} (h : Answered r q s (.error e) s') (hq : q.Proper r.description)
    (hs : r.Settled (Visit.Proper r.description) s) : r.Raises q.path e := by
  have hv : q.visit.Proper r.description := hq.visit hd
  have hcall : ∀ {path : Option String} {depth : Nat} {x : Visit}, x.Proper r.description →
      Walked r path depth (.one x) s (.error e) s' → r.Raises path e := by
    intro path depth x hx hw
    refine (hs.fails hd hx hw).raises hd fun y hy => ?_
    rw [List.mem_singleton.mp hy]
    exact hx
  cases h with
  | componentFails h => exact hcall hv h
  | strayed hin => exact .strayed hv hin
  | sharedFails hin _ h => exact hcall (Resolver.proper_of_enter hv hin) h
  | fault hin hdemand =>
      exact .use (Resolver.proper_of_enter hv hin) (Resolver.reference?_of_enter hin) hdemand
  | wrapperFails hin hdemand h =>
      refine hcall ((Resolver.proper_of_enter hv hin).child hd ?_) h
      exact SchemaNode.mem_children_items
        (Resolver.node_mem_of_useDemand hdemand List.mem_cons_self)

namespace Resolver

variable {r : Resolver} {path : Option String} {e : Error}

/-- **Where the error of a run arises.** -/
theorem raises_of_run (hd : r.description.Tidy) (h : r.run = .error e) :
    r.description.FailsWith e ∨
    ∃ q s s', r.Asks q ∧ Answered r q s (.error e) s' ∧ r.Raises q.path e := by
  refine (answered_of_run_error hd h).imp_right ?_
  rintro ⟨q, s, s', hq, hs, hans⟩
  exact ⟨q, s, s', hq, hans, hans.raises hd (hq.proper hd) hs⟩

/-! ## What a location leads to -/

/-- Entering ends nowhere only at a reference that dangles. -/
theorem dangles_of_enter {v : Visit} (hv : v.Proper r.description) {reference location : String}
    (h : r.enter v = .error (.unresolvableReference reference location)) :
    ∃ key, r.description.Dangles reference key ∧ location = key.text := by
  obtain ⟨first, hr, hf⟩ := exists_follow_of_enter h
  obtain ⟨m, hstrays, htext, hm⟩ := Description.stray_of_follow hr hf
  refine ⟨m.key, .schema ?_ hstrays, htext⟩
  rcases hm with rfl | hroot
  · exact hv.inPlace
  · exact hroot.inPlace

/-- **A reference that leads nowhere is told with the place where it stands.** -/
theorem dangles_of_run (hd : r.description.Tidy) {reference location : String}
    (h : r.run = .error (.unresolvableReference reference location)) :
    ∃ key, r.description.Dangles reference key ∧ location = key.text := by
  rcases raises_of_run hd h with hfails | ⟨q, s, s', _, _, hraises⟩
  · cases hfails with
    | dangling hdangles => exact ⟨_, hdangles, rfl⟩
  · cases hraises with
    | strayed hv he => exact dangles_of_enter hv he
    | demand _ _ hdemand => cases faulty_of_demand hdemand
    | use _ _ hdemand => cases faulty_of_useDemand hdemand

/-- **Items are missed at an array that says nothing of them.** -/
theorem lacksItems_of_run (hd : r.description.Tidy) {location : String}
    (h : r.run = .error (.invalidItem location)) :
    ∃ n, r.description.InPlace n ∧ n.reference? = none ∧ n.LacksItems ∧ location = n.key.text := by
  rcases raises_of_run hd h with hfails | ⟨q, s, s', _, _, hraises⟩
  · cases hfails
  · cases hraises with
    | strayed _ he => exact absurd (ofReference_of_enter he) id
    | demand hv hr hdemand =>
        cases faulty_of_demand hdemand with
        | noItems hitems => exact ⟨_, hv.inPlace, hr, hitems, rfl⟩
    | use hv hr hdemand =>
        cases faulty_of_useDemand hdemand with
        | noItems hitems => exact ⟨_, hv.inPlace, hr, hitems, rfl⟩

/-- **A type is told to be unknown at a schema of that type, if no rule for the request that fails
gives it another one.** -/
theorem unknown_of_run (hd : r.description.Tidy) {type location : String}
    (h : r.run = .error (.unknownSchemaType type location)) :
    ∃ (q : Request) (s s' : WalkState) (v : Visit), r.Asks q ∧
      Answered r q s (.error (.unknownSchemaType type location)) s' ∧ v.Proper r.description ∧
      v.node.reference? = none ∧ v.node.Unknown type ∧
      ¬ Lookup.HasTypeRule r.mappings q.path v.features ∧ location = v.node.key.text := by
  rcases raises_of_run hd h with hfails | ⟨q, s, s', hq, hans, hraises⟩
  · cases hfails
  · cases hraises with
    | strayed _ he => exact absurd (ofReference_of_enter he) id
    | demand hv hr hdemand =>
        cases faulty_of_demand hdemand with
        | unknown hrule hunknown =>
            exact ⟨q, s, s', _, hq, hans, hv, hr, hunknown, Lookup.typeRule?_eq_none_iff.mp hrule,
              rfl⟩
    | use _ _ hdemand => cases faulty_of_useDemand hdemand

end Resolver

/-- **What the location of an error leads to.** If a reference leads nowhere, the location is the
pointer to a schema, a parameter, a request body, a response or a path that is this very reference,
and what is looked up for it there is not found; for a path nothing is looked up. If items are
missing, it leads to an array that says nothing of its items. If a type is unknown, it leads to a
schema that is no reference and has this type and format, or none: the type is not built in, and no
rule matches the schema on the path of the request that fails. -/
theorem located_of_resolveText {text : String} {options : Options} {d : Description}
    (hload : Description.load text = .ok d) :
    (∀ reference location,
      resolveText text options = .error (.unresolvableReference reference location) →
      ∃ key, d.Dangles reference key ∧ location = key.text) ∧
    (∀ location, resolveText text options = .error (.invalidItem location) →
      ∃ n, d.InPlace n ∧ n.reference? = none ∧ n.LacksItems ∧ location = n.key.text) ∧
    ∀ type location, resolveText text options = .error (.unknownSchemaType type location) →
      ∃ (q : Request) (s s' : WalkState) (v : Visit), (Resolver.mk d options).Asks q ∧
        Answered (Resolver.mk d options) q s (.error (.unknownSchemaType type location)) s' ∧
        v.Proper d ∧ v.node.reference? = none ∧ v.node.Unknown type ∧
        ¬ Lookup.HasTypeRule options.mappings q.path v.features ∧
        location = v.node.key.text := by
  have hd : d.Tidy := Description.tidy_of_load hload
  have hrun : resolveText text options = (Resolver.mk d options).run := by
    rw [resolveText, hload]
  rw [hrun]
  exact ⟨fun _ _ h => Resolver.dangles_of_run hd h, fun _ h => Resolver.lacksItems_of_run hd h,
    fun _ _ h => Resolver.unknown_of_run hd h⟩

/-- A description of a schema of the type of null alone. -/
def nullText : String :=
  "openapi: 3.1.0\ninfo:\n  title: a\n  version: b\npaths: \x7b\x7d\ncomponents:\n  schemas:\n"
    ++ "    Nothing:\n      type: 'null'\n"

/-- Null is no type by which a schema is resolved, so the schema is told to have none. -/
theorem located_of_nullText :
    ∃ d, Description.load nullText = .ok d ∧
      (d.components.map fun entry => (entry.1, entry.2.type)) = [("Nothing", none)] ∧
      resolveText nullText {} = .error (.unknownSchemaType "<none>" "#/components/schemas/Nothing") ∧
      ∃ v : Visit, v.Proper d ∧ v.node.Unknown "<none>" ∧
        v.node.key.text = "#/components/schemas/Nothing" := by
  have hchars : nullText = String.ofList _ := Text.append_eq_ofList rfl rfl
  obtain ⟨d, hload, htypes⟩ := exists_of_map_toOption
    (show (Description.load nullText).toOption.map (fun d =>
        d.components.map fun entry => (entry.1, entry.2.type)) = some [("Nothing", none)] by
      rw [Description.load, Yaml.read?_ofList hchars]
      decide +kernel)
  have hrun : resolveText nullText {}
      = .error (.unknownSchemaType "<none>" "#/components/schemas/Nothing") := by
    refine failure?_eq_some_iff.mp ?_
    rw [resolveText, Description.load, Yaml.read?_ofList hchars]
    decide +kernel
  obtain ⟨q, s, s', v, _, _, hv, _, hunknown, _, hkey⟩ :=
    (located_of_resolveText hload).2.2 _ _ hrun
  exact ⟨d, hload, htypes, hrun, v, hv, hunknown, hkey.symm⟩

end ApiTypes
