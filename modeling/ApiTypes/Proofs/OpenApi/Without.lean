import ApiTypes.Proofs.OpenApi.Endpoints
import ApiTypes.Proofs.OpenApi.Paths

/-!
# Documents without a path

A document may be read with one of its paths deleted (`Value.withoutPath`). Where the whole document
can be read, so can the rest of it, and the description lacks this path and nothing else
(`Description.ofValue_withoutPath`). References lead where they led, and the operations are those of
the other paths. Whether they are known is another matter: a path whose operations cannot be told
hides those of all others, and deleting it may bring them back.
-/

set_option autoImplicit false

namespace ApiTypes

/-! ## Lists without some entries -/

section Entries

variable {α β : Type}

/-- What is read of the entries under other names is what is read of all of them, but for that
name. -/
theorem mapM_filter_ne {read : α → Option β} {entries : List (String × α)}
    {found : List (String × β)} (name : String)
    (h : (entries.mapM fun entry => (read entry.2).map fun b => (entry.1, b)) = some found) :
    ((entries.filter fun entry => entry.1 ≠ name).mapM fun entry =>
        (read entry.2).map fun b => (entry.1, b))
      = some (found.filter fun entry => entry.1 ≠ name) := by
  induction entries generalizing found with
  | nil =>
      cases h
      rfl
  | cons entry rest ih =>
      rw [List.mapM_cons] at h
      simp only [Option.bind_eq_bind, Option.bind_eq_some_iff, Option.map_eq_some_iff] at h
      obtain ⟨first, ⟨b, hb, rfl⟩, others, hothers, heq⟩ := h
      cases heq
      by_cases hname : entry.1 = name
      · simpa [List.filter_cons, hname] using ih hothers
      · have hrest := ih hothers
        simp only [List.filter_cons, hname, ne_eq, not_false_eq_true, decide_true, if_true,
          List.mapM_cons, hb] at hrest ⊢
        rw [hrest]
        rfl

end Entries

namespace Value

/-- An object without its member of a name. -/
def withoutMember (name : String) : Value → Value
  | object members => object (members.filter fun entry => entry.1 ≠ name)
  | v => v

/-- A document without a path. -/
def withoutPath (path : String) : Value → Value := mapPaths (withoutMember path)

end Value

namespace Description

/-- The description without a path. -/
def without (d : Description) (path : String) : Description :=
  d.mapPaths fun paths => paths.filter fun entry => entry.1 ≠ path

variable {d : Description} {path : String}

/-- A reading of paths does not need any of them. -/
theorem replaces_withoutMember {wanted : String × Value → Bool}
    {pathItem? : Value → Option PathItem} {read : Value → Option (List (String × PathItem))}
    (hread : ∀ members, read (.object members)
      = (members.filter wanted).mapM fun entry => (pathItem? entry.2).map fun item =>
          (entry.1, item))
    (hothers : ∀ v found, read v = some found → ∃ members, v = .object members) :
    Record.Replaces (Value.withoutMember path)
      (fun paths => paths.filter fun entry => entry.1 ≠ path) read where
  nil := rfl
  read_eq := by
    intro v found h
    obtain ⟨members, rfl⟩ := hothers v found h
    rw [hread] at h
    refine Eq.trans ?_ (mapM_filter_ne path h)
    -- It makes no difference which members are left out first.
    simp only [Value.withoutMember, hread, List.filter_filter, Bool.and_comm]

theorem exists_members_of_paths? {dialect : Dialect} {v : Value}
    {found : List (String × PathItem)} (h : paths? dialect v = some found) :
    ∃ members, v = .object members := by
  cases v with
  | object members => exact ⟨members, rfl⟩
  | _ => cases dialect <;> cases h

/-- **A document that can be read can be read without any of its paths.** -/
theorem ofValue_withoutPath {dialect : Dialect} {members : List (String × Value)}
    (h : ofValue dialect (.object members) = .ok d) :
    ofValue dialect ((Value.object members).withoutPath path) = .ok (d.without path) := by
  refine ofValue_mapPaths ?_ h
  cases dialect with
  | early => exact replaces_withoutMember (fun _ => rfl) fun _ _ => exists_members_of_paths?
  | late => exact replaces_withoutMember (fun _ => rfl) fun _ _ => exists_members_of_paths?

/-! ## References and operations -/

theorem dereference_without (n : SchemaNode) :
    (d.without path).dereference n = d.dereference n := by
  have hfollow : ∀ budget followed reference location,
      (d.without path).followFrom budget followed reference location
        = d.followFrom budget followed reference location := by
    intro budget
    induction budget with
    | zero => exact fun _ _ _ => rfl
    | succ budget ih =>
        intro followed reference location
        rw [followFrom, followFrom]
        simp only [ih]
        rfl
  rw [dereference, dereference]
  cases n.reference? with
  | none => rfl
  | some reference =>
      simp only
      rw [follow, follow, hfollow]
      rfl

/-- **Walks are the same without a path.** -/
theorem sameReferences_without (d : Description) (path : String) :
    d.SameReferences (d.without path) :=
  ⟨dereference_without, rfl⟩

theorem path_of_pathEndpoints {item : PathItem} {es : List Endpoint}
    (h : d.pathEndpoints path item = .ok es) : ∀ e ∈ es, e.path = path := by
  unfold pathEndpoints at h
  split at h
  · cases h
  · intro e he
    obtain ⟨⟨method, op⟩, _, hop⟩ := exists_of_mem_mapM h he
    exact (endpoint_ok_iff.mp hop).path_eq

/-- The operations of all paths, told path by path. -/
theorem endpoints_eq (d : Description) :
    d.endpoints
      = (d.paths.mapM fun entry => d.pathEndpoints entry.1 entry.2).map List.flatten := by
  unfold endpoints
  cases d.paths.mapM fun entry => d.pathEndpoints entry.1 entry.2 with
  | error e => rfl
  | ok found => rfl

/-- What is told of the other paths. -/
theorem exists_mapM_without (path : String) {paths : List (String × PathItem)}
    {found : List (List Endpoint)}
    (h : (paths.mapM fun entry => d.pathEndpoints entry.1 entry.2) = .ok found) :
    ∃ left, (paths.filter fun entry => entry.1 ≠ path).mapM
        (fun entry => d.pathEndpoints entry.1 entry.2) = .ok left ∧
      left.flatten = found.flatten.filter fun e => e.path ≠ path := by
  induction paths generalizing found with
  | nil =>
      cases h
      exact ⟨[], rfl, rfl⟩
  | cons entry rest ih =>
      rw [List.mapM_cons] at h
      obtain ⟨first, hfirst, h⟩ := exists_of_bind_ok h
      obtain ⟨others, hothers, h⟩ := exists_of_bind_ok h
      cases h
      obtain ⟨left, hleft, hflat⟩ := ih hothers
      rw [List.flatten_cons, List.filter_append, ← hflat]
      by_cases hpath : entry.1 = path
      · have hnone : (first.filter fun e => e.path ≠ path) = [] := by
          refine List.filter_eq_nil_iff.mpr fun e he => ?_
          simp [path_of_pathEndpoints hfirst e he, hpath]
        refine ⟨left, ?_, by rw [hnone]; rfl⟩
        rw [List.filter_cons_of_neg (by simp [hpath])]
        exact hleft
      · have hall : (first.filter fun e => e.path ≠ path) = first := by
          refine List.filter_eq_self.mpr fun e he => ?_
          simp [path_of_pathEndpoints hfirst e he, hpath]
        refine ⟨first :: left, ?_, by rw [hall]; rfl⟩
        rw [List.filter_cons_of_pos (by simp [hpath]), List.mapM_cons, hfirst, hleft]
        rfl

/-- **Where the operations are known, those of the other paths are left.** -/
theorem endpoints_without {es : List Endpoint} (h : d.endpoints = .ok es) :
    (d.without path).endpoints = .ok (es.filter fun e => e.path ≠ path) := by
  rw [endpoints_eq] at h
  cases hfound : d.paths.mapM fun entry => d.pathEndpoints entry.1 entry.2 with
  | error e =>
      rw [hfound] at h
      cases h
  | ok found =>
      rw [hfound] at h
      cases h
      obtain ⟨left, hleft, hflat⟩ := exists_mapM_without path hfound
      rw [← hflat]
      exact (endpoints_eq (d.without path)).trans (congrArg (Except.map List.flatten) hleft)

/-- **Where the operations are not known, they are not known without a path either, unless it is
this path that hides them.** -/
theorem endpoints_without_error (path : String) {e : Error} (h : d.endpoints = .error e) :
    (d.without path).endpoints = .error e ∨
    ∃ item, (path, item) ∈ d.paths ∧ d.pathEndpoints path item = .error e := by
  rw [endpoints_eq] at h
  cases hfound : d.paths.mapM fun entry => d.pathEndpoints entry.1 entry.2 with
  | ok found =>
      rw [hfound] at h
      cases h
  | error e' =>
      rw [hfound] at h
      cases h
      rcases mapM_filter_error (fun entry => decide (entry.1 ≠ path)) hfound
        with hleft | ⟨⟨_, item⟩, hmem, hname, hfails⟩
      · exact Or.inl
          ((endpoints_eq (d.without path)).trans (congrArg (Except.map List.flatten) hleft))
      · obtain rfl := Decidable.not_not.mp (of_decide_eq_false hname)
        exact Or.inr ⟨item, hmem, hfails⟩

/-- A path whose operations cannot be told hides those of all paths. -/
theorem endpoints_fails {item : PathItem} {e : Error} (hmem : (path, item) ∈ d.paths)
    (h : d.pathEndpoints path item = .error e) : ∃ e', d.endpoints = .error e' := by
  rw [endpoints_eq]
  cases hfound : d.paths.mapM fun entry => d.pathEndpoints entry.1 entry.2 with
  | error e' => exact ⟨e', rfl⟩
  | ok found =>
      obtain ⟨es, hes⟩ := exists_ok_of_mapM hfound hmem
      exact absurd (h.symm.trans hes) nofun

end Description

end ApiTypes
