import ApiTypes.Proofs.OpenApi.Followed
import ApiTypes.Proofs.OpenApi.Loading
import ApiTypes.Proofs.Store.Appending
import ApiTypes.Proofs.Walk.Operations
import ApiTypes.Report
import Mathlib.Data.List.Nodup

/-!
# The order of responses

The responses of an operation are told under their statuses, in an order that the document decides
(`Dialect.statuses`): in the late dialect they are told as they are written, in the early one the
default is told last, wherever it is written. So both dialects tell the same responses object in the
same order exactly if the default is written last (`Dialect.statuses_eq_keys_iff`). Resolving and
reporting an operation keep the order (`statuses_of_ofValue`).
-/

set_option autoImplicit false

namespace ApiTypes

/-! ## Where responses are written -/

namespace Value

variable {v w : Value} {names : List String} {name path method : String}

/-- What is written for a field of a record: under its name in an object, at its position in a
list. -/
def field? (names : List String) (name : String) : Value → Option Value
  | object members => findValue? name members
  | list items => items[names.idxOf name]?
  | _ => none

/-- The operation that a document has for a path and a method. -/
def operationAt? (v : Value) (path method : String) : Option Value := do
  let paths ← v.field? ["openapi", "paths"] "paths"
  let item ← paths.get? path
  item.field? ("parameters" :: Description.methods) method

/-- The responses of an operation as they are written. -/
def writtenResponses (operation : Value) : List (String × Value) :=
  ((operation.field? ["operationId", "deprecated", "parameters", "requestBody", "responses"]
    "responses").bind members?).getD []

/-- The responses that a document has for a path and a method. -/
def responsesAt (v : Value) (path method : String) : List (String × Value) :=
  ((v.operationAt? path method).map writtenResponses).getD []

theorem Tidy.field? (hv : v.Tidy) (h : v.field? names name = some w) : w.Tidy := by
  cases hv with
  | object hnodup hmembers => exact hmembers _ (mem_of_findValue? h)
  | list hitems => exact hitems w (List.mem_of_getElem? h)
  | _ => cases h

/-- The responses of a tidy document have different names. -/
theorem Tidy.nodup_responsesAt (hv : v.Tidy) (path method : String) :
    ((v.responsesAt path method).map Prod.fst).Nodup := by
  unfold responsesAt
  cases hop : v.operationAt? path method with
  | none => exact List.nodup_nil
  | some operation =>
      simp only [operationAt?, Option.bind_eq_bind, Option.bind_eq_some_iff] at hop
      obtain ⟨paths, hpaths, item, hitem, hoperation⟩ := hop
      have htidy : operation.Tidy := ((hv.field? hpaths).get? hitem).field? hoperation
      simp only [Option.map_some, Option.getD_some, writtenResponses]
      cases hresponses : operation.field? _ "responses" with
      | none => exact List.nodup_nil
      | some responses =>
          cases htidy.field? hresponses with
          | object hnodup _ => exact hnodup
          | _ => exact List.nodup_nil

theorem record_of_record? {r : Record} (h : v.record? names = some r) : r = ⟨names, v⟩ := by
  unfold record? at h
  split at h
  · exact (Option.some.inj h).symm
  · split at h
    · exact (Option.some.inj h).symm
    · cases h
  · cases h

end Value

namespace Record

variable {α : Type} {r : Record} {name : String} {read : Value → Option α}

theorem field?_value (r : Record) (name : String) :
    r.value.field? r.names name =
      match r.entry name with
      | .present w => some w
      | _ => none := by
  obtain ⟨names, v⟩ := r
  unfold entry
  cases v with
  | object members =>
      simp only [Value.field?]
      cases findValue? name members with
      | none => rfl
      | some w => rfl
  | list items =>
      simp only [Value.field?]
      cases items[names.idxOf name]? with
      | none => rfl
      | some w => rfl
  | _ => rfl

theorem exists_field_of_optional? {a : α} (h : r.optional? name read = some (some a)) :
    ∃ w, r.value.field? r.names name = some w ∧ read w = some a := by
  rw [field?_value]
  unfold optional? at h
  cases hentry : r.entry name with
  | absent => rw [hentry] at h; cases h
  | missing => rw [hentry] at h; cases h
  | present w =>
      rw [hentry] at h
      refine ⟨w, rfl, ?_⟩
      cases w with
      | null => cases h
      | _ =>
          obtain ⟨b, hb, heq⟩ := Option.map_eq_some_iff.mp h
          cases heq
          exact hb

theorem exists_field_of_required? {a : α} (h : r.required? name read = some a) :
    ∃ w, r.value.field? r.names name = some w ∧ read w = some a := by
  rw [field?_value]
  unfold required? at h
  cases hentry : r.entry name with
  | present w =>
      rw [hentry] at h
      exact ⟨w, rfl, h⟩
  | _ => rw [hentry] at h; cases h

theorem field_cases_of_orElse? {a default : α} (h : r.orElse? name default read = some a) :
    (∃ w, r.value.field? r.names name = some w ∧ read w = some a) ∨
      (r.value.field? r.names name = none ∧ a = default) := by
  rw [field?_value]
  unfold orElse? at h
  cases hentry : r.entry name with
  | present w =>
      rw [hentry] at h
      exact Or.inl ⟨w, rfl, h⟩
  | _ =>
      rw [hentry] at h
      exact Or.inr ⟨rfl, (Option.some.inj h).symm⟩

end Record

/-! ## The statuses that are told -/

namespace Dialect

/-- Whether a default is written, and is not null. -/
def hasDefault (members : List (String × Value)) : Bool :=
  match findValue? "default" members with
  | none => false
  | some .null => false
  | some _ => true

/-- The statuses under which the members of a responses object are told: in the late dialect all of
them as they are written, in the early one those that are numbers or ranges of numbers, and then the
default. -/
def statuses (dialect : Dialect) (members : List (String × Value)) : List String :=
  match dialect with
  | .late => members.map Prod.fst
  | .early => ((members.map Prod.fst).filterMap Version30.status?).eraseDups
      ++ if hasDefault members then ["default"] else []

/-- A member of a responses object that is told as it is written: a number, a range of numbers, or a
default that is not null. -/
def IsResponse (entry : String × Value) : Prop :=
  Version30.status? entry.1 = some entry.1 ∨ (entry.1 = "default" ∧ ¬ entry.2 = .null)

/-- Nothing is written after the default. -/
def DefaultLast (keys : List String) : Prop := "default" ∉ keys.dropLast

theorem hasDefault_iff {members : List (String × Value)} (h : ∀ entry ∈ members, IsResponse entry) :
    hasDefault members = true ↔ "default" ∈ members.map Prod.fst := by
  rw [← findValue?_isSome_iff, hasDefault]
  cases hfind : findValue? "default" members with
  | none => exact ⟨nofun, nofun⟩
  | some v =>
      -- `default` is no number and no range, so it is told for its value, which is not null.
      rcases h _ (mem_of_findValue? hfind) with hstatus | ⟨_, hnull⟩
      · exact absurd rfl (Version30.ne_default_of_status? hstatus)
      · refine iff_of_true ?_ rfl
        cases v with
        | null => exact absurd rfl hnull
        | _ => rfl

/-- The numbers and ranges are all that is not the default. -/
theorem filterMap_status? {members : List (String × Value)}
    (h : ∀ entry ∈ members, IsResponse entry) :
    (members.map Prod.fst).filterMap Version30.status?
      = (members.map Prod.fst).filter fun key => !key == "default" := by
  rw [← List.filterMap_eq_filter]
  refine List.filterMap_congr fun key hkey => ?_
  obtain ⟨entry, hentry, rfl⟩ := List.mem_map.mp hkey
  rcases h entry hentry with hstatus | ⟨hdefault, _⟩
  · have hne := Version30.ne_default_of_status? hstatus
    rw [hstatus, Option.guard, if_pos (by simpa using hne)]
  · rw [hdefault]
    rfl

theorem filter_ne_default {keys : List String} (h : "default" ∉ keys) :
    (keys.filter fun key => !key == "default") = keys := by
  refine List.filter_eq_self.mpr fun key hkey => ?_
  rw [Bool.not_eq_true', beq_eq_false_iff_ne]
  rintro rfl
  exact h hkey

/-- Putting the default last changes nothing exactly if it is last. -/
theorem append_default_iff {keys : List String} (hnodup : keys.Nodup) :
    (keys.filter fun key => !key == "default")
        ++ (if "default" ∈ keys then ["default"] else []) = keys ↔ DefaultLast keys := by
  by_cases hmem : "default" ∈ keys
  · obtain ⟨before, after, rfl⟩ := List.append_of_mem hmem
    have hapart := List.nodup_middle.mp hnodup
    rw [List.nodup_cons] at hapart
    have hfilter := filter_ne_default hapart.1
    rw [List.filter_append] at hfilter
    rw [if_pos hmem, List.filter_append, List.filter_cons_of_neg (by simp), hfilter,
      List.append_assoc, List.append_right_inj, DefaultLast, List.dropLast_append_cons]
    cases after with
    | nil =>
        rw [List.dropLast_singleton, List.append_nil]
        exact iff_of_true rfl fun hbefore => hapart.1 (List.mem_append_left _ hbefore)
    | cons first rest =>
        refine iff_of_false (fun heq => hapart.1 ?_) fun hlast => hlast ?_
        · -- The first one after the default would be a default again.
          rw [(List.cons.inj heq).1]
          exact List.mem_append_right _ List.mem_cons_self
        · rw [List.dropLast_cons_cons]
          exact List.mem_append_right _ List.mem_cons_self
  · rw [if_neg hmem, filter_ne_default hmem, List.append_nil]
    exact iff_of_true rfl fun hlast => hmem (List.dropLast_subset _ hlast)

/-- **Responses are told in the order in which they are written exactly if the default is written
last**, or if the dialect is the late one. -/
theorem statuses_eq_keys_iff (dialect : Dialect) {members : List (String × Value)}
    (hnodup : (members.map Prod.fst).Nodup) (h : ∀ entry ∈ members, IsResponse entry) :
    dialect.statuses members = members.map Prod.fst ↔
      dialect = .late ∨ DefaultLast (members.map Prod.fst) := by
  cases dialect with
  | late => exact iff_of_true rfl (Or.inl rfl)
  | early =>
      rw [statuses, filterMap_status? h, eraseDups_of_nodup (hnodup.filter _),
        or_iff_right (nofun : ¬ Dialect.early = .late), ← append_default_iff hnodup]
      simp only [hasDefault_iff h]

end Dialect

/-! ## Responses that are read -/

/-- An operation that is read under a method is written there. -/
theorem exists_field_of_operations {r : Record} {operation? : Value → Option Operation}
    {found : List (String × Option Operation)}
    (h : Description.methods.mapM (fun method =>
      (r.optional? method operation?).map fun op => (method, op)) = some found)
    {method : String} {op : Operation}
    (hop : findValue? method (found.filterMap fun (method, op) => op.map fun op => (method, op))
      = some op) :
    ∃ w, r.value.field? r.names method = some w ∧ operation? w = some op := by
  obtain ⟨⟨method', op'⟩, hmem, hmap⟩ := List.mem_filterMap.mp (mem_of_findValue? hop)
  obtain ⟨op'', rfl, heq⟩ := Option.map_eq_some_iff.mp hmap
  cases heq
  obtain ⟨method'', _, hread⟩ := exists_of_mem_mapM_option h hmem
  obtain ⟨op', hop', heq⟩ := Option.map_eq_some_iff.mp hread
  cases heq
  exact Record.exists_field_of_optional? hop'

/-- A path that is read is written under its name. -/
theorem exists_member_of_paths {v : Value} (hv : v.Tidy) {pathItem? : Value → Option PathItem}
    {members : List (String × Value)} (hmembers : v.members? = some members)
    {wanted : String × Value → Bool} {found : List (String × PathItem)}
    (h : (members.filter wanted).mapM (fun (path, v) =>
      (pathItem? v).map fun item => (path, item)) = some found)
    {path : String} {item : PathItem} (hitem : findValue? path found = some item) :
    ∃ w, v.get? path = some w ∧ pathItem? w = some item := by
  obtain ⟨⟨path', w⟩, hmem, hread⟩ := exists_of_mem_mapM_option h (mem_of_findValue? hitem)
  obtain ⟨item', hitem', heq⟩ := Option.map_eq_some_iff.mp hread
  cases heq
  cases hv with
  | object hnodup _ =>
      cases hmembers
      exact ⟨w, findValue?_of_mem hnodup (List.mem_of_mem_filter hmem), hitem'⟩
  | _ => cases hmembers

namespace Version31

theorem map_fst_responses {w : Value} {op : Operation} (h : operation? w = some op) :
    op.responses.map Prod.fst = Dialect.late.statuses w.writtenResponses := by
  unfold operation? at h
  simp only [Option.bind_eq_bind, Option.bind_eq_some_iff] at h
  obtain ⟨r, hr, _, _, _, _, _, _, _, _, responses, hresponses, heq⟩ := h
  cases heq
  obtain rfl := Value.record_of_record? hr
  rw [Dialect.statuses, Value.writtenResponses]
  rcases Record.field_cases_of_orElse? hresponses with ⟨x, hx, hread⟩ | ⟨hnone, rfl⟩
  · cases x with
    | object members =>
        rw [show w.field? _ "responses" = _ from hx]
        exact map_fst_mapM hread
    | _ => cases hread
  · rw [show w.field? _ "responses" = _ from hnone]
    rfl

theorem exists_operationAt? {v : Value} (hv : v.Tidy) {d : Description}
    (h : description v = .ok d) {path method : String} {item : PathItem} {op : Operation}
    (hitem : findValue? path d.paths = some item)
    (hop : findValue? method item.operations = some op) :
    ∃ w, v.operationAt? path method = some w ∧ operation? w = some op := by
  obtain ⟨_, root, _, _, _, _, hroot, _, hpaths, _⟩ := description_ok_iff.mp h
  obtain rfl := Value.record_of_record? hroot
  rcases Record.field_cases_of_orElse? hpaths with ⟨paths, hwritten, hread⟩ | ⟨-, hnone⟩
  · obtain ⟨members, hmembers, hread⟩ := Option.bind_eq_some_iff.mp hread
    obtain ⟨x, hx, hread⟩ := exists_member_of_paths (hv.field? hwritten) hmembers hread hitem
    unfold pathItem? at hread
    simp only [Option.bind_eq_bind, Option.bind_eq_some_iff] at hread
    obtain ⟨r, hr, _, _, operations, hoperations, heq⟩ := hread
    cases heq
    obtain rfl := Value.record_of_record? hr
    obtain ⟨w, hw, hread⟩ := exists_field_of_operations hoperations hop
    refine ⟨w, ?_, hread⟩
    simp only [Value.operationAt?, Option.bind_eq_bind, Option.bind_eq_some_iff]
    exact ⟨paths, hwritten, x, hx, hw⟩
  · rw [hnone] at hitem
    cases hitem

end Version31

namespace Version30

theorem exists_object_of_object? {v : Value} {r : Record} (h : object? v = some r) :
    ∃ members, v = .object members ∧ r = ⟨[], .object members⟩ := by
  unfold object? at h
  split at h
  · exact ⟨_, rfl, (Option.some.inj h).symm⟩
  · cases h

/-- A default is read exactly if it is written and not null. -/
theorem hasDefault_of_optional? {members : List (String × Value)} {default : Option Body}
    (h : Record.optional? ⟨[], .object members⟩ "default" response? = some default) :
    Dialect.hasDefault members = default.isSome := by
  simp only [Record.optional?, Record.entry] at h
  rw [Dialect.hasDefault]
  cases hfind : findValue? "default" members with
  | none =>
      simp only [hfind] at h
      cases h
      rfl
  | some v =>
      simp only [hfind] at h
      cases v with
      | null =>
          cases h
          rfl
      | _ =>
          obtain ⟨b, _, heq⟩ := Option.map_eq_some_iff.mp h
          cases heq
          rfl

theorem map_fst_responses? {members : List (String × Value)} {found : List (String × Body)}
    (h : responses? (.object members) = some found) :
    found.map Prod.fst = Dialect.early.statuses members := by
  unfold responses? at h
  simp only [Option.bind_eq_bind, Option.bind_eq_some_iff] at h
  obtain ⟨r, hr, members', hmembers, default, hdefault, read, hread, heq⟩ := h
  cases heq
  cases hr
  cases hmembers
  -- Numbers and ranges are collected in a map, where each of them stands where it came first.
  have hknown : (OrderedMap.ofList read).entries.map Prod.fst
      = ((members.map Prod.fst).filterMap status?).eraseDups := by
    refine (OrderedMap.keys_ofList read).trans ?_
    rw [map_fst_mapM hread, List.map_filterMap, List.filterMap_map]
    refine congrArg _ (List.filterMap_congr fun entry _ => ?_)
    rw [Function.comp_apply]
    cases status? entry.1 with
    | none => rfl
    | some status => rfl
  rw [List.map_append, hknown, Dialect.statuses, hasDefault_of_optional? hdefault]
  cases default with
  | none => rfl
  | some b => rfl

theorem map_fst_responses {w : Value} {op : Operation} (h : operation? w = some op) :
    op.responses.map Prod.fst = Dialect.early.statuses w.writtenResponses := by
  unfold operation? at h
  simp only [Option.bind_eq_bind, Option.bind_eq_some_iff] at h
  obtain ⟨r, hr, _, _, _, _, _, _, _, _, _, _, _, _, _, _, _, _, _, _, responses, hresponses,
    heq⟩ := h
  cases heq
  obtain ⟨members, rfl, rfl⟩ := exists_object_of_object? hr
  obtain ⟨x, hx, hread⟩ := Record.exists_field_of_required? hresponses
  have hx : findValue? "responses" members = some x := hx
  rw [Value.writtenResponses, Value.field?, hx]
  cases x with
  | object written => exact map_fst_responses? hread
  | _ => cases hread

theorem exists_operationAt? {v : Value} (hv : v.Tidy) {d : Description}
    (h : description? v = some d) {path method : String} {item : PathItem} {op : Operation}
    (hitem : findValue? path d.paths = some item)
    (hop : findValue? method item.operations = some op) :
    ∃ w, v.operationAt? path method = some w ∧ operation? w = some op := by
  unfold description? at h
  simp only [Option.bind_eq_bind, Option.bind_eq_some_iff] at h
  obtain ⟨root, hroot, _, _, _, _, _, _, found, hpaths, _, _, heq⟩ := h
  cases heq
  obtain ⟨members, rfl, rfl⟩ := exists_object_of_object? hroot
  obtain ⟨paths, hwritten, hread⟩ := Record.exists_field_of_required? hpaths
  obtain ⟨pathMembers, hmembers, hread⟩ := Option.bind_eq_some_iff.mp hread
  obtain ⟨x, hx, hread⟩ := exists_member_of_paths (hv.field? hwritten) hmembers hread hitem
  unfold pathItem? orReference? at hread
  split at hread
  · -- A path that is a reference has no operations.
    cases hread
    cases hop
  · simp only [Option.bind_eq_bind, Option.bind_eq_some_iff] at hread
    obtain ⟨r, hr, _, _, _, _, _, _, _, _, operations, hoperations, heq⟩ := hread
    cases heq
    obtain ⟨itemMembers, rfl, rfl⟩ := exists_object_of_object? hr
    obtain ⟨w, hw, hread⟩ := exists_field_of_operations hoperations hop
    refine ⟨w, ?_, hread⟩
    simp only [Value.operationAt?, Option.bind_eq_bind, Option.bind_eq_some_iff]
    exact ⟨paths, hwritten, _, hx, hw⟩

end Version30

/-! ## From the document to the report -/

namespace Description

variable {dialect : Dialect} {v : Value} {d : Description}

/-- The responses of an operation are read under the statuses of its dialect. -/
theorem statuses_of_operation (hv : v.Tidy) (hread : ofValue dialect v = .ok d)
    {path method : String} {item : PathItem} {op : Operation}
    (hitem : findValue? path d.paths = some item)
    (hop : findValue? method item.operations = some op) :
    op.responses.map Prod.fst = dialect.statuses (v.responsesAt path method) := by
  rw [Value.responsesAt]
  cases dialect with
  | early =>
      unfold ofValue at hread
      simp only at hread
      split at hread
      · rename_i d' hd
        cases hread
        obtain ⟨w, hw, hoperation⟩ := Version30.exists_operationAt? hv hd hitem hop
        rw [hw]
        exact Version30.map_fst_responses hoperation
      · cases hread
  | late =>
      obtain ⟨w, hw, hoperation⟩ := Version31.exists_operationAt? hv hread hitem hop
      rw [hw]
      exact Version31.map_fst_responses hoperation

theorem statuses_of_endpoints (hv : v.Tidy) (hread : ofValue dialect v = .ok d)
    {es : List Endpoint} (hes : d.endpoints = .ok es) {e : Endpoint} (he : e ∈ es) :
    e.responses.map Prod.fst = dialect.statuses (v.responsesAt e.path e.method) := by
  obtain ⟨path, item, method, op, hitem, _, hop, hendpoint⟩ :=
    exists_operation_of_endpoints (tidy_of_ofValue hv hread) hes he
  have hdescribes := endpoint_ok_iff_describes.mp hendpoint
  rw [hdescribes.path_eq, hdescribes.method_eq, ← statuses_of_operation hv hread hitem hop]
  exact (map_eq_map_of_forall₂ hdescribes.responses fun _ _ h => h.1.symm).symm

end Description

/-- A run that succeeds tells the responses of its operations under their statuses. -/
theorem Resolver.statuses_of_run {r : Resolver} {api : ResolvedApi} (h : r.run = .ok api) :
    ∃ es, r.description.endpoints = .ok es ∧ ∀ found ∈ api.endpoints, ∃ e ∈ es,
      found.path = e.path ∧ found.method = e.method ∧
      found.responses.map (·.status) = e.responses.map Prod.fst := by
  obtain ⟨es, hes, htold⟩ := told_of_run (P := fun _ _ _ _ => True)
    (fun _ _ _ _ _ _ _ _ _ => ⟨trivial, trivial⟩) h
  refine ⟨es, hes, fun found hfound => ?_⟩
  obtain ⟨e, he, hsame⟩ := exists_of_mem_forall₂ htold hfound
  refine ⟨e, List.mem_of_mem_filter he, hsame.path_eq, hsame.method_eq, ?_⟩
  exact (map_eq_map_of_forall₂ hsame.responses fun _ _ h => h.status_eq.symm).symm

/-- A report tells the responses of an operation under their statuses. -/
theorem EndpointReport.statuses_ofEndpoint (types : TypeStore) (e : ResolvedEndpoint) :
    (ofEndpoint types e).responses.map (·.status) = e.responses.map (·.status) := by
  rw [ofEndpoint, List.map_map]
  rfl

/-- **The order in which responses are told.** The responses of every operation of a document are
told under the statuses of its dialect. Where they are all told as they are written, they are told
in the order in which they are written exactly if the dialect is the late one or the default is
written last. In a run that succeeds, the operations and the report tell them in the same order. -/
theorem statuses_of_ofValue {dialect : Dialect} {v : Value} {d : Description} (hv : v.Tidy)
    (hread : Description.ofValue dialect v = .ok d) :
    (∀ es, d.endpoints = .ok es → ∀ e ∈ es,
      e.responses.map Prod.fst = dialect.statuses (v.responsesAt e.path e.method) ∧
      ((∀ entry ∈ v.responsesAt e.path e.method, Dialect.IsResponse entry) →
        (e.responses.map Prod.fst = (v.responsesAt e.path e.method).map Prod.fst ↔
          dialect = .late ∨
            Dialect.DefaultLast ((v.responsesAt e.path e.method).map Prod.fst)))) ∧
    ∀ options api, (Resolver.mk d options).run = .ok api →
      (∀ e ∈ api.endpoints, e.responses.map (·.status)
        = dialect.statuses (v.responsesAt e.path e.method)) ∧
      ∀ e ∈ (Report.ofApi api).endpoints, e.responses.map (·.status)
        = dialect.statuses (v.responsesAt e.path e.method) := by
  refine ⟨fun es hes e he => ?_, fun options api hrun => ?_⟩
  · have heq := Description.statuses_of_endpoints hv hread hes he
    refine ⟨heq, fun hresponses => ?_⟩
    rw [heq]
    exact Dialect.statuses_eq_keys_iff dialect (hv.nodup_responsesAt _ _) hresponses
  · obtain ⟨es, hes, htold⟩ := Resolver.statuses_of_run hrun
    have hendpoints : ∀ e ∈ api.endpoints, e.responses.map (·.status)
        = dialect.statuses (v.responsesAt e.path e.method) := by
      intro found hfound
      obtain ⟨e, he, hpath, hmethod, hstatuses⟩ := htold found hfound
      rw [hstatuses, hpath, hmethod]
      exact Description.statuses_of_endpoints hv hread hes he
    refine ⟨hendpoints, fun reported hreported => ?_⟩
    obtain ⟨e, he, rfl⟩ := List.mem_map.mp hreported
    rw [EndpointReport.statuses_ofEndpoint]
    exact hendpoints e he

/-- A document with an operation whose default is written first. -/
def defaultFirst : Value :=
  .object [("openapi", .str "3.0.0"),
    ("info", .object [("title", .str "a"), ("version", .str "b")]),
    ("paths", .object [("/a", .object [("get", .object [("responses", .object [
      ("default", .object [("description", .str "")]),
      ("200", .object [("description", .str "")])])])])])]

/-- The early dialect tells the default last, and so does the report; the late one tells it
first. -/
theorem statuses_of_defaultFirst :
    defaultFirst.Tidy ∧ ∃ d d' api, Description.ofValue .early defaultFirst = .ok d ∧
      Description.ofValue .late defaultFirst = .ok d' ∧ (Resolver.mk d {}).run = .ok api ∧
      (defaultFirst.responsesAt "/a" "get").map Prod.fst = ["default", "200"] ∧
      (∀ es, d.endpoints = .ok es → ∀ e ∈ es, e.path = "/a" → e.method = "get" →
        e.responses.map Prod.fst = ["200", "default"]) ∧
      (∀ es, d'.endpoints = .ok es → ∀ e ∈ es, e.path = "/a" → e.method = "get" →
        e.responses.map Prod.fst = ["default", "200"]) ∧
      ∀ e ∈ (Report.ofApi api).endpoints, e.path = "/a" → e.method = "get" →
        e.responses.map (·.status) = ["200", "default"] := by
  have htidy : defaultFirst.Tidy := by decide +kernel
  obtain ⟨d, hread, hrun⟩ := exists_of_map_toOption
    (show (Description.ofValue .early defaultFirst).toOption.map (fun d =>
        (Resolver.mk d {}).run.toOption.map fun api => api.endpoints.map (·.path))
      = some (some ["/a"]) by decide +kernel)
  obtain ⟨api, hrun, -⟩ := exists_of_map_toOption hrun
  obtain ⟨d', hread', -⟩ := exists_of_map_toOption
    (show (Description.ofValue .late defaultFirst).toOption.map (fun d => d.paths.map Prod.fst)
      = some ["/a"] by decide +kernel)
  have hearly : Dialect.early.statuses (defaultFirst.responsesAt "/a" "get")
      = ["200", "default"] := by decide +kernel
  have hlate : Dialect.late.statuses (defaultFirst.responsesAt "/a" "get")
      = ["default", "200"] := by decide +kernel
  obtain ⟨hendpoints, hruns⟩ := statuses_of_ofValue htidy hread
  refine ⟨htidy, d, d', api, hread, hread', hrun, hlate, ?_, ?_, ?_⟩
  · intro es hes e he hpath hmethod
    rw [(hendpoints es hes e he).1, hpath, hmethod, hearly]
  · intro es hes e he hpath hmethod
    rw [((statuses_of_ofValue htidy hread').1 es hes e he).1, hpath, hmethod, hlate]
  · intro e he hpath hmethod
    rw [(hruns {} api hrun).2 e he, hpath, hmethod, hearly]

end ApiTypes
