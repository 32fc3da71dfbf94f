import ApiTypes.Proofs.OpenApi.Obtained
import ApiTypes.Proofs.Resolve.Reference

/-!
# References that dangle

A reference dangles if what is looked up for it is not there: a component for a schema, a shared
declaration for a parameter, a request body or a response. What a path refers to is not looked up
at all. `Description.Dangles` tells where such a reference stands. The operations of a description
are not known only for a reference that dangles, or for a parameter that says too little
(`Description.failsWith_of_endpoints`); in the first case the error tells the reference and the
pointer to where it stands.
-/

set_option autoImplicit false

namespace ApiTypes

namespace Description

/-- What stands at a key refers to something that is not there. -/
inductive Dangles (d : Description) (reference : String) : SchemaKey → Prop
  | schema {n : SchemaNode} : d.InPlace n → d.Strays n reference → Dangles d reference n.key
  | parameter {site : ParameterSite} {p : ParameterDecl} :
      d.parameterAt? site = some p → p.reference = some reference →
      d.parameter? reference = none → Dangles d reference site.key
  | requestBody {path : String} {method : Method} {b : Body} :
      d.bodyAt? (.requestBody path method) = some b → b.reference = some reference →
      d.body? "requestBodies" d.requestBodies reference = none →
      Dangles d reference (BodySite.requestBody path method).key
  | response {path : String} {method : Method} {status : String} {b : Body} :
      d.bodyAt? (.response path method status) = some b → b.reference = some reference →
      d.body? "responses" d.responses reference = none →
      Dangles d reference (BodySite.response path method status).key
  | path {path : String} {item : PathItem} :
      findValue? path d.paths = some item → item.reference = some reference →
      Dangles d reference (SchemaKey.child ⟨"#/paths"⟩ path)

/-- Why the operations of a description are not known. -/
inductive FailsWith (d : Description) : Error → Prop
  | dangling {reference : String} {key : SchemaKey} :
      d.Dangles reference key → FailsWith d (.unresolvableReference reference key.text)
  | parameter (fault : DescriptionFault) : FailsWith d (.description fault)

variable {d : Description} {e : Error}

/-! ## Declarations that cannot be read -/

/-- The contents of a body are not known only if it refers to one that is not there. -/
theorem exists_reference_of_contents {section_ : String} {bodies : List (String × Body)}
    {key : SchemaKey} {b : Body} (h : d.contents section_ bodies key b = .error e) :
    ∃ reference, b.reference = some reference ∧ d.body? section_ bodies reference = none ∧
      e = .unresolvableReference reference key.text := by
  rcases d.contents_cases section_ bodies key b with ⟨reference, hr, hf, heq⟩ | ⟨_, _, heq⟩
  · rw [heq] at h
    cases h
    exact ⟨reference, hr, hf, rfl⟩
  · rw [heq] at h
    cases h

/-- A declaration that is read says too little if it is not a parameter. -/
theorem exists_fault_of_readParameter {key : SchemaKey} {p : ParameterDecl}
    (h : readParameter key p = .error e) : ∃ fault, e = .description fault := by
  unfold readParameter at h
  split at h
  · split at h
    · cases h
    · cases h
      exact ⟨_, rfl⟩
  · cases h
    exact ⟨_, rfl⟩

theorem failsWith_of_parameter {site : ParameterSite} {p : ParameterDecl}
    (hat : d.parameterAt? site = some p) (h : d.parameter site.key p = .error e) :
    d.FailsWith e := by
  rcases d.parameter_cases site.key p with ⟨reference, hr, hf, heq⟩ | ⟨found, _, heq⟩
  · rw [heq] at h
    cases h
    exact .dangling (.parameter hat hr hf)
  · rw [heq] at h
    obtain ⟨fault, rfl⟩ := exists_fault_of_readParameter h
    exact .parameter fault

/-! ## Operations that cannot be read -/

section Operation

variable {path : String} {method : Method} {item : PathItem} {op : Operation}

theorem failsWith_of_parametersOf (hitem : findValue? path d.paths = some item)
    (hop : findValue? method.val item.operations = some op)
    (h : d.parametersOf (SchemaKey.child ⟨"#/paths"⟩ path) (operationKey path method) item op
      = .error e) : d.FailsWith e := by
  unfold parametersOf at h
  rcases error_of_bind h with h | ⟨found, h⟩
  · rw [declared_eq] at h
    obtain ⟨entry, hentry, hread⟩ := error_of_mapM h
    obtain ⟨⟨site, p⟩, hsite, rfl⟩ := List.mem_map.mp hentry
    exact failsWith_of_parameter (parameterAt?_of_mem_declaredSites hitem hop hsite) hread
  · cases h

theorem failsWith_of_requestBodyOf (hop : d.operation? path method = some op)
    (h : d.requestBodyOf (operationKey path method) op = .error e) : d.FailsWith e := by
  unfold requestBodyOf at h
  split at h
  · cases h
  · rename_i b hb
    obtain ⟨reference, hr, hf, rfl⟩ := exists_reference_of_contents h
    have hat : d.bodyAt? (.requestBody path method) = some b := by
      rw [bodyAt?, hop]
      exact hb
    exact .dangling (.requestBody hat hr hf)

theorem failsWith_of_responsesOf (hd : d.Tidy) (hop : d.operation? path method = some op)
    (h : d.responsesOf (operationKey path method) op = .error e) : d.FailsWith e := by
  unfold responsesOf at h
  obtain ⟨⟨status, b⟩, hmem, hread⟩ := error_of_mapM h
  rcases error_of_bind hread with hcontents | ⟨contents, hpure⟩
  · obtain ⟨reference, hr, hf, rfl⟩ := exists_reference_of_contents hcontents
    have hat : d.bodyAt? (.response path method status) = some b := by
      rw [bodyAt?, hop]
      exact findValue?_of_mem (tidy_of_operation? hd hop).nodup hmem
    exact .dangling (.response hat hr hf)
  · cases hpure

theorem failsWith_of_endpoint (hd : d.Tidy) (hitem : findValue? path d.paths = some item)
    (hop : findValue? method.val item.operations = some op)
    (h : d.endpoint path item method.val op = .error e) : d.FailsWith e := by
  have hoperation : d.operation? path method = some op := by
    rw [operation?, hitem]
    exact hop
  -- Whichever part is read first, each of them fails for its own reasons.
  unfold endpoint at h
  split at h
  · rcases error_of_bind h with h | ⟨responses, h⟩
    · exact failsWith_of_responsesOf hd hoperation h
    · rcases error_of_bind h with h | ⟨parameters, h⟩
      · exact failsWith_of_parametersOf hitem hop h
      · rcases error_of_bind h with h | ⟨requestBody, h⟩
        · exact failsWith_of_requestBodyOf hoperation h
        · cases h
  · rcases error_of_bind h with h | ⟨requestBody, h⟩
    · exact failsWith_of_requestBodyOf hoperation h
    · rcases error_of_bind h with h | ⟨responses, h⟩
      · exact failsWith_of_responsesOf hd hoperation h
      · rcases error_of_bind h with h | ⟨parameters, h⟩
        · exact failsWith_of_parametersOf hitem hop h
        · cases h

end Operation

/-- **The operations are not known only for a reference that dangles, or a parameter that says too
little.** -/
theorem failsWith_of_endpoints (hd : d.Tidy) (h : d.endpoints = .error e) : d.FailsWith e := by
  unfold endpoints at h
  rcases error_of_bind h with h | ⟨found, h⟩
  · obtain ⟨⟨path, item⟩, hmem, hpath⟩ := error_of_mapM h
    have hitem : findValue? path d.paths = some item := findValue?_of_mem hd.nodup_paths hmem
    simp only [pathEndpoints] at hpath
    split at hpath
    · rename_i reference hr
      cases hpath
      exact .dangling (.path hitem hr)
    · obtain ⟨⟨method, op⟩, hop, hendpoint⟩ := error_of_mapM hpath
      obtain ⟨method', hmethod, heq⟩ := List.mem_filterMap.mp hop
      obtain ⟨op', hfind, heq⟩ := Option.map_eq_some_iff.mp heq
      cases heq
      have hop : findValue? (⟨method, hmethod⟩ : Method).val item.operations = some op := hfind
      exact failsWith_of_endpoint hd hitem hop hendpoint
  · cases h

end Description

end ApiTypes
