import ApiTypes.Proofs.OpenApi.Loading
import ApiTypes.Proofs.OpenApi.Location
import ApiTypes.Proofs.OpenApi.Reordered

/-!
# Documents with other paths

The paths of a document stand in one of its members, and nothing else is read from that member. So
if what is put in its place is read as well, the document is, and its description differs in the
paths alone (`Description.ofValue_mapPaths`).
-/

set_option autoImplicit false

namespace ApiTypes

namespace Value

/-- The members of a document, with something put in the place of its paths. -/
def membersMapPaths (f : Value → Value) (members : List (String × Value)) :
    List (String × Value) :=
  members.map fun entry => (entry.1, if entry.1 = "paths" then f entry.2 else entry.2)

/-- A document with something put in the place of its paths. -/
def mapPaths (f : Value → Value) : Value → Value
  | object members => object (membersMapPaths f members)
  | v => v

variable {f : Value → Value} {members : List (String × Value)}

theorem findValue?_membersMapPaths (name : String) :
    findValue? name (membersMapPaths f members)
      = (findValue? name members).map fun v => if name = "paths" then f v else v :=
  SchemaNode.findValue?_map (fun name v => if name = "paths" then f v else v) name members

/-- Other members are as they were. -/
theorem findValue?_membersMapPaths_of_ne {name : String} (h : ¬ name = "paths") :
    findValue? name (membersMapPaths f members) = findValue? name members := by
  rw [findValue?_membersMapPaths]
  simp only [if_neg h, Option.map_id']

@[simp] theorem record?_object (names : List String) (members : List (String × Value)) :
    (object members).record? names = some ⟨names, object members⟩ := rfl

end Value

namespace Record

variable {α : Type} {names : List String} {members members' : List (String × Value)}

theorem optional?_eq {other : String} (h : findValue? other members' = findValue? other members)
    (read : Value → Option α) :
    optional? ⟨names, .object members'⟩ other read
      = optional? ⟨names, .object members⟩ other read := by
  rw [optional?, optional?, entry_eq h]

/-- What is put in the place of paths is read as something that is put in the place of what they
are read as, and where there are none, there are none. -/
structure Replaces (f : Value → Value) (g : List (String × α) → List (String × α))
    (read : Value → Option (List (String × α))) : Prop where
  /-- Nothing is put in the place of nothing. -/
  nil : g [] = []
  /-- Whatever can be read is read as what is put in its place. -/
  read_eq : ∀ v found, read v = some found → read (f v) = some (g found)

variable {f : Value → Value} {g : List (String × α) → List (String × α)}
  {read : Value → Option (List (String × α))} {found : List (String × α)}

theorem Replaces.required? (hread : Replaces f g read)
    (h : required? ⟨names, .object members⟩ "paths" read = some found) :
    Record.required? ⟨names, .object (Value.membersMapPaths f members)⟩ "paths" read
      = some (g found) := by
  simp only [Record.required?, entry, Value.findValue?_membersMapPaths] at h ⊢
  cases hfind : findValue? "paths" members with
  | none =>
      rw [hfind] at h
      cases h
  | some v =>
      rw [hfind] at h
      exact hread.read_eq v found h

theorem Replaces.orElse? (hread : Replaces f g read)
    (h : orElse? ⟨names, .object members⟩ "paths" [] read = some found) :
    Record.orElse? ⟨names, .object (Value.membersMapPaths f members)⟩ "paths" [] read
      = some (g found) := by
  simp only [Record.orElse?, entry, Value.findValue?_membersMapPaths] at h ⊢
  cases hfind : findValue? "paths" members with
  | none =>
      rw [hfind] at h
      cases h
      exact congrArg some hread.nil.symm
  | some v =>
      rw [hfind] at h
      exact hread.read_eq v found h

end Record

namespace Description

/-- The description with something put in the place of its paths. -/
def mapPaths (g : List (String × PathItem) → List (String × PathItem)) (d : Description) :
    Description :=
  { d with paths := g d.paths }

/-- How the paths of a document are read. -/
def paths? : Dialect → Value → Option (List (String × PathItem))
  | .early => Version30.paths?
  | .late => Version31.paths?

end Description

section Replaced

variable {f : Value → Value} {g : List (String × PathItem) → List (String × PathItem)}
  {members : List (String × Value)} {d : Description}

theorem Version30.description?_mapPaths (hreplaces : Record.Replaces f g paths?)
    (h : description? (.object members) = some d) :
    description? ((Value.object members).mapPaths f) = some (d.mapPaths g) := by
  have hothers : ∀ name, ¬ name = "paths" →
      findValue? name (Value.membersMapPaths f members) = findValue? name members :=
    fun _ => Value.findValue?_membersMapPaths_of_ne
  unfold description? at h ⊢
  simp only [Value.mapPaths, object?, Option.bind_eq_bind, Option.bind_some] at h ⊢
  rw [Record.required?_eq (hothers "openapi" (by decide)),
    Record.required?_eq (hothers "info" (by decide)),
    Record.orElse?_eq (hothers "servers" (by decide)),
    Record.optional?_eq (hothers "components" (by decide))]
  simp only [Option.bind_eq_some_iff] at h ⊢
  obtain ⟨version, hversion, info, hinfo, servers, hservers, paths, hpaths, components,
    hcomponents, heq⟩ := h
  cases heq
  refine ⟨version, hversion, info, hinfo, servers, hservers, _, ?_, components, hcomponents, rfl⟩
  exact hreplaces.required? hpaths

theorem Version31.description_mapPaths (hreplaces : Record.Replaces f g paths?)
    (h : description (.object members) = .ok d) :
    description ((Value.object members).mapPaths f) = .ok (d.mapPaths g) := by
  have hothers : ∀ name, ¬ name = "paths" →
      findValue? name (Value.membersMapPaths f members) = findValue? name members :=
    fun _ => Value.findValue?_membersMapPaths_of_ne
  obtain ⟨shared, root, hread, hshared, hparameters, hbodies, hroot, hversion, hpaths, hdialect⟩ :=
    description_ok_iff.mp h
  cases hroot
  refine description_ok_iff.mpr ⟨shared, _, ?_, ?_, hparameters, hbodies, rfl, ?_, ?_, hdialect⟩
  · simp only [Value.mapPaths, Value.get?, hothers "components" (by decide)]
    exact hread
  · simp only [Value.mapPaths, Value.get?, hothers "components" (by decide)]
    exact hshared
  · exact (Record.required?_eq (hothers "openapi" (by decide)) _).trans hversion
  · exact hreplaces.orElse? hpaths

/-- **A document that can be read can be read with other paths**, and differs in them alone. -/
theorem Description.ofValue_mapPaths {dialect : Dialect}
    (hreplaces : Record.Replaces f g (paths? dialect))
    (h : ofValue dialect (.object members) = .ok d) :
    ofValue dialect ((Value.object members).mapPaths f) = .ok (d.mapPaths g) := by
  cases dialect with
  | late => exact Version31.description_mapPaths hreplaces h
  | early =>
      unfold ofValue at h ⊢
      simp only at h ⊢
      cases hd : Version30.description? (.object members) with
      | none =>
          rw [hd] at h
          cases h
      | some found =>
          rw [hd] at h
          cases h
          rw [Version30.description?_mapPaths hreplaces hd]

end Replaced

end ApiTypes
