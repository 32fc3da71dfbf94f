import ApiTypes.Proofs.Walk.Components

/-!
# Two orders of the components

When the components are resolved in two orders, the slots of the two stores can be matched: those
made for one schema in one store with those made for it in the other one (`exists_matching`). The
types in matched slots are the same but for the numbers of slots, and annotated alike. Only a
composed type one of whose constituents leads back to it may keep other constituents of
alternatives in the other store (`Similar`).
-/

set_option autoImplicit false

namespace ApiTypes

/-! ## Shapes that are filled with other slots -/

namespace Demand

/-- A shape that is filled with renamed slots. -/
theorem filled_rename (σ : Nat → Nat) {shape : ModelType} {found : List (Nat × Bool)}
    (hplaced : ∀ i : Nat, i ∈ shape.references → i < found.length) :
    (filled shape found).rename σ
      = filled shape (found.map fun entry => (σ entry.1, entry.2)) := by
  have hmarks : (found.map fun entry : Nat × Bool => (σ entry.1, entry.2)).map Prod.snd
      = found.map Prod.snd := by
    rw [List.map_map]
    rfl
  have hids : (found.map fun entry : Nat × Bool => (σ entry.1, entry.2)).map Prod.fst
      = (found.map Prod.fst).map σ := by
    rw [List.map_map, List.map_map]
    rfl
  rw [filled, filled, ModelType.rename_rename, hmarks, hids]
  refine ModelType.rename_congr fun i hi => ?_
  have hlt : i < found.length :=
    hplaced i (ModelType.references_keepItems_subset _ shape hi)
  rw [List.getD_eq_getElem _ _ (by rw [List.length_map]; exact hlt),
    List.getD_eq_getElem _ _ (by rw [List.length_map, List.length_map]; exact hlt),
    List.getElem_map, List.getElem_map, List.getElem_map]

/-- Marks count for composed types alone. -/
theorem filled_congr {shape : ModelType} {found found' : List (Nat × Bool)}
    (hshape : ∀ name package items deprecated,
      ¬ shape = .allOf name package items deprecated)
    (hids : found.map Prod.fst = found'.map Prod.fst) :
    filled shape found = filled shape found' := by
  have hkeep : ∀ p : Nat → Bool, shape.keepItems p = shape := by
    intro p
    cases shape with
    | allOf name package items deprecated =>
        exact absurd rfl (hshape name package items deprecated)
    | _ => rfl
  rw [filled, filled, hkeep, hkeep, hids]

/-- The constituents that are kept and may be one are those that may be one. -/
theorem filter_filled_allOf {places : List Nat} {found : List (Nat × Bool)} {p b : Nat → Bool}
    (hp : ∀ i ∈ places, p ((found.map Prod.fst).getD i 0) = b i)
    (hmark : ∀ i ∈ places, b i = true → (found.map Prod.snd).getD i false = true) :
    (((places.filter fun i => (found.map Prod.snd).getD i false).map
      fun i => (found.map Prod.fst).getD i 0).filter p)
      = (places.filter b).map fun i => (found.map Prod.fst).getD i 0 := by
  rw [List.filter_map, List.filter_filter]
  refine congrArg _ (List.filter_congr fun i hi => ?_)
  rw [Function.comp_apply, hp i hi]
  cases hb : b i with
  | false => rfl
  | true => rw [hmark i hi hb, Bool.and_true]

end Demand

theorem forall₂_of_forall₂ {α β γ : Type} {R : α → β → Prop} {R' : α → γ → Prop} {as : List α}
    {bs : List β} {cs : List γ} (h : List.Forall₂ R as bs) (h' : List.Forall₂ R' as cs) :
    List.Forall₂ (fun b c => ∃ a ∈ as, R a b ∧ R' a c) bs cs := by
  induction h generalizing cs with
  | nil =>
      cases h'
      exact List.Forall₂.nil
  | @cons a b as bs hab _ ih =>
      cases h' with
      | cons hac hrest =>
          refine List.Forall₂.cons ⟨a, List.mem_cons_self, hab, hac⟩ ?_
          refine (ih hrest).imp ?_
          rintro b' c' ⟨a', ha', hr⟩
          exact ⟨a', List.mem_cons_of_mem _ ha', hr⟩

namespace Resolver

/-! ## Matched slots -/

/-- Slots are matched that are made for the same schema. -/
def Matching (r : Resolver) (σ : Nat → Nat) (s s' : TypeStore) : Prop :=
  ∀ (key : MemoKey) (back i : Nat), r.Tile none s key back i → r.Tile none s' key back (σ i)

variable {r : Resolver} {s s' : WalkState} {σ : Nat → Nat} {v w : Visit}

/-- The block of a schema is in the store. -/
theorem Meets.span_le {path : Option String} {types : TypeStore} {id : Nat}
    (h : r.Meets path types v id) : (r.demand path v).span ≤ id := by
  cases hd : r.demand path v with
  | fault e => exact Nat.zero_le _
  | block inner last =>
      obtain ⟨base, hid, _⟩ := h.of_block hd
      rw [hid]
      exact Nat.le_add_left _ _
  | wrapper item shape => exact Nat.zero_le _
  | composite children shape => exact Nat.zero_le _

theorem exists_tile (hd : r.description.Tidy) (h : r.Complete s) (h' : r.Complete s')
    {key : MemoKey} {back i : Nat} (htile : r.Tile none s.types key back i) :
    ∃ i', r.Tile none s'.types key back i' := by
  obtain ⟨v, hv, hkey, _⟩ := h.known htile.lookup_eq
  obtain ⟨id, hl⟩ := h'.lookup_some v hv
  obtain ⟨u, hu, hukey, hle⟩ := htile.le_span
  rw [span_eq_of_key_eq r none hu (hv.proper hd) (hukey.trans hkey)] at hle
  have hspan := (h'.meets hd hv hl).1.span_le
  have hback : id - back + back = id := Nat.sub_add_cancel (Nat.le_trans hle hspan)
  refine ⟨id - back, ?_, v, hv.proper hd, hkey.symm, hle⟩
  rw [hkey, hl, hback]

/-- **The slots of two orders can be matched.** -/
theorem exists_matching (hd : r.description.Tidy) (h : r.Complete s) (h' : r.Complete s') :
    ∃ σ, r.Matching σ s.types s'.types := by
  have hall : ∀ i, ∃ i', ∀ key back, r.Tile none s.types key back i →
      r.Tile none s'.types key back i' := by
    intro i
    by_cases hex : ∃ key back, r.Tile none s.types key back i
    · obtain ⟨key, back, htile⟩ := hex
      obtain ⟨i', htile'⟩ := exists_tile hd h h' htile
      refine ⟨i', fun key' back' hother => ?_⟩
      obtain ⟨rfl, rfl⟩ := h.tiled.unique _ _ _ _ _ htile hother
      exact htile'
    · exact ⟨0, fun key back htile => absurd ⟨key, back, htile⟩ hex⟩
  choose σ hσ using hall
  exact ⟨σ, fun key back i htile => hσ i key back htile⟩

namespace Matching

variable (hd : r.description.Tidy) (h : r.Complete s) (h' : r.Complete s')
  (hσ : r.Matching σ s.types s'.types)

include h hσ in
/-- What is remembered is matched. -/
theorem lookup_some {key : MemoKey} {id : Nat} (hk : s.types.lookup key = some id) :
    s'.types.lookup key = some (σ id) := by
  obtain ⟨u, hu, hkey⟩ := h.tiled.key_eq key id hk
  exact (hσ key 0 id ⟨hk, u, hu, hkey, Nat.zero_le _⟩).lookup_eq

include h h' hσ in
theorem lookup_eq (key : MemoKey) :
    s'.types.lookup key = (s.types.lookup key).map σ := by
  cases hk : s.types.lookup key with
  | some id => exact lookup_some h hσ hk
  | none =>
      cases hk' : s'.types.lookup key with
      | none => rfl
      | some id =>
          obtain ⟨v, hv, hkey, _⟩ := h'.known hk'
          obtain ⟨id', hl⟩ := h.lookup_some v hv
          rw [← hkey, hk] at hl
          cases hl

include h h' hσ in
theorem lt_size {i : Nat} (hi : i < s.types.size) : σ i < s'.types.size := by
  obtain ⟨key, back, htile⟩ := h.tiled.cover i hi
  have := h'.settled.closed.lookup_lt _ _ (hσ key back i htile).lookup_eq
  omega

include h h' hσ in
/-- Different slots are matched with different slots. -/
theorem injective {i j : Nat} (hi : i < s.types.size) (hj : j < s.types.size)
    (heq : σ i = σ j) : i = j := by
  obtain ⟨key, back, htile⟩ := h.tiled.cover i hi
  obtain ⟨key', back', htile'⟩ := h.tiled.cover j hj
  have himage := hσ key back i htile
  rw [heq] at himage
  obtain ⟨rfl, rfl⟩ := h'.tiled.unique _ _ _ _ _ himage (hσ key' back' j htile')
  have hsame := htile.lookup_eq.symm.trans htile'.lookup_eq
  have hsum : i + back = j + back := Option.some.inj hsame
  omega

include hd h h' hσ in
/-- Every slot is matched. -/
theorem surjective {i' : Nat} (hi' : i' < s'.types.size) : ∃ i, i < s.types.size ∧ σ i = i' := by
  obtain ⟨key, back, htile'⟩ := h'.tiled.cover i' hi'
  obtain ⟨i, htile⟩ := exists_tile hd h' h htile'
  refine ⟨i, ?_, ?_⟩
  · have := h.settled.closed.lookup_lt _ _ htile.lookup_eq
    omega
  · have hsame := (hσ key back i htile).lookup_eq.symm.trans htile'.lookup_eq
    have hsum : σ i + back = i' + back := Option.some.inj hsame
    omega

include hd h h' hσ in
/-- Matched slots have the same annotations. -/
theorem annotations_eq {i : Nat} (hi : i < s.types.size) :
    s'.types.annotations (σ i) = s.types.annotations i := by
  by_cases hex : ∃ key, s.types.lookup key = some i
  · obtain ⟨key, hk⟩ := hex
    obtain ⟨v, hv, rfl, _, hannotations⟩ := h.known hk
    rw [hannotations, (h'.meets hd hv (lookup_some h hσ hk)).2]
  · have hnone : ∀ key, ¬ s.types.lookup key = some i := fun key hk => hex ⟨key, hk⟩
    rw [h.tiled.annotations_eq i hnone]
    refine h'.tiled.annotations_eq (σ i) fun key hk => ?_
    rw [lookup_eq h h' hσ] at hk
    obtain ⟨j, hj, hij⟩ := Option.map_eq_some_iff.mp hk
    have hji := injective h h' hσ (h.settled.closed.lookup_lt _ _ hj) hi hij
    rw [hji] at hj
    exact hnone key hj

include h hσ in
/-- What is found below a schema is matched. -/
theorem finds_eq {c : Child} {id id' : Nat} (hf : r.Finds none s.types c id)
    (hf' : r.Finds none s'.types c id') : id' = σ id := by
  obtain ⟨w, hin, hl⟩ := hf
  obtain ⟨w', hin', hl'⟩ := hf'
  rw [hin] at hin'
  cases hin'
  rw [lookup_some h hσ hl] at hl'
  exact (Option.some.inj hl').symm

end Matching

/-! ## Types in matched slots -/

/-- Two composed types of one name that keep the same constituents, those of alternatives apart. -/
def Similar (σ : Nat → Nat) (s s' : TypeStore) (t t' : ModelType) : Prop :=
  ∃ name package items items' deprecated,
    t = .allOf name package items deprecated ∧ t' = .allOf name package items' deprecated ∧
    (items.filter fun i => isConstituent (s.get? i)).map σ
      = items'.filter fun i => isConstituent (s'.get? i)

/-- What was found for a schema below another one in two orders. -/
structure SameFound (r : Resolver) (σ : Nat → Nat) (s s' : TypeStore) (v : Visit) (c : Child)
    (entry entry' : Nat × Bool) : Prop where
  /-- The slots are matched. -/
  id_eq : entry'.1 = σ entry.1
  /-- The slots may be constituents alike. -/
  makes_eq : isConstituent (s'.get? entry'.1) = isConstituent (s.get? entry.1)
  /-- What may be a constituent is marked. -/
  marked : isConstituent (s.get? entry.1) = true → entry.2 = true ∧ entry'.2 = true
  /-- The marks are the same unless the schema leads back. -/
  mark_eq : ¬ r.LeadsBack v c → entry.2 = entry'.2

namespace Matching

variable (hd : r.description.Tidy) (h : r.Complete s) (h' : r.Complete s')
  (hσ : r.Matching σ s.types s'.types)

include hd h h' hσ in
theorem sameFound (hv : r.Reached v) {c : Child} (hc : c ∈ (r.demand none v).children)
    {entry entry' : Nat × Bool} (hf : r.Finds none s.types c entry.1)
    (hm : r.Marked none s.types v c entry) (hf' : r.Finds none s'.types c entry'.1)
    (hm' : r.Marked none s'.types v c entry') :
    r.SameFound σ s.types s'.types v c entry entry' := by
  have hmakes : isConstituent (s'.types.get? entry'.1) = isConstituent (s.types.get? entry.1) := by
    obtain ⟨w, hin, hl⟩ := hf
    obtain ⟨w', hin', hl'⟩ := hf'
    rw [hin] at hin'
    cases hin'
    have hw : r.Reached w := hv.step ⟨c, hc, hin⟩
    rw [(h.meets hd hw hl).1.isConstituent_get?, (h'.meets hd hw hl').1.isConstituent_get?]
  have hmark := h.mark_eq hd hv hc hf hm
  have hmark' := h'.mark_eq hd hv hc hf' hm'
  rw [hmakes] at hmark'
  refine ⟨finds_eq h hσ hf hf', hmakes, fun htrue => ?_, fun hback => ?_⟩
  · rw [htrue] at hmark hmark'
    exact ⟨hmark.elim id fun e => e.1, hmark'.elim id fun e => e.1⟩
  · rcases hmark with hmark | ⟨_, _, hlead⟩
    · rcases hmark' with hmark' | ⟨_, _, hlead⟩
      · exact hmark.trans hmark'.symm
      · exact absurd hlead hback
    · exact absurd hlead hback

/-- In two orders a composed type keeps the same constituents among those that may be one. -/
theorem filter_eq {types types' : TypeStore} {found found' : List (Nat × Bool)}
    {children : List Child} {places : List Nat} (hsame : List.Forall₂ (fun entry entry' =>
      ∃ c ∈ children, r.SameFound σ types types' v c entry entry') found found')
    (hplaced : ∀ i ∈ places, i < found.length) :
    (((places.filter fun i => (found.map Prod.snd).getD i false).map
        fun i => (found.map Prod.fst).getD i 0).filter
        fun i => isConstituent (types.get? i)).map σ
      = ((places.filter fun i => (found'.map Prod.snd).getD i false).map
          fun i => (found'.map Prod.fst).getD i 0).filter
          fun i => isConstituent (types'.get? i) := by
  have hat : ∀ i (hi : i < found.length), ∃ c ∈ children, ∃ hi' : i < found'.length,
      r.SameFound σ types types' v c found[i] found'[i] := by
    intro i hi
    have hi' : i < found'.length := by
      rw [← hsame.length_eq]
      exact hi
    obtain ⟨c, hc, he⟩ := hsame.get hi hi'
    exact ⟨c, hc, hi', he⟩
  have hget : ∀ (l : List (Nat × Bool)) (i : Nat) (hi : i < l.length),
      (l.map Prod.fst).getD i 0 = l[i].1 ∧ (l.map Prod.snd).getD i false = l[i].2 := by
    intro l i hi
    rw [List.getD_eq_getElem _ _ (by rw [List.length_map]; exact hi),
      List.getD_eq_getElem _ _ (by rw [List.length_map]; exact hi), List.getElem_map,
      List.getElem_map]
    exact ⟨rfl, rfl⟩
  have hb : ∀ i ∈ places, isConstituent (types'.get? ((found'.map Prod.fst).getD i 0))
      = isConstituent (types.get? ((found.map Prod.fst).getD i 0)) := by
    intro i hi
    obtain ⟨c, _, hi', he⟩ := hat i (hplaced i hi)
    rw [(hget found' i hi').1, (hget found i (hplaced i hi)).1]
    exact he.makes_eq
  have hkept : ∀ i ∈ places, isConstituent (types.get? ((found.map Prod.fst).getD i 0)) = true →
      (found.map Prod.snd).getD i false = true ∧ (found'.map Prod.snd).getD i false = true := by
    intro i hi hmakes
    have hlt := hplaced i hi
    obtain ⟨c, _, hi', he⟩ := hat i hlt
    rw [(hget found i hlt).1] at hmakes
    rw [(hget found i hlt).2, (hget found' i hi').2]
    exact he.marked hmakes
  rw [Demand.filter_filled_allOf (fun i _ => rfl) fun i hi hmakes => (hkept i hi hmakes).1,
    Demand.filter_filled_allOf hb fun i hi hmakes => (hkept i hi hmakes).2, List.map_map]
  refine List.map_congr_left fun i hi => ?_
  have hlt := hplaced i (List.mem_of_mem_filter hi)
  obtain ⟨c, _, hi', he⟩ := hat i hlt
  rw [Function.comp_apply, (hget found' i hi').1, (hget found i hlt).1]
  exact he.id_eq.symm

include hd h h' hσ in
/-- Matched slots of a schema that reserves its slot. -/
theorem composite_eq (hv : r.Reached v) {id id' : Nat} {children : List Child}
    {shape : ModelType} (hdemand : r.demand none v = .composite children shape)
    (hm : r.Meets none s.types v id) (hm' : r.Meets none s'.types v id') :
    ∃ t t', s.types.get? id = some t ∧ s'.types.get? id' = some t' ∧
      (t' = t.rename σ ∨ (r.TurnsBack v ∧ Similar σ s.types s'.types t t')) := by
  obtain ⟨found, hfound, hget⟩ := hm.of_composite hdemand
  obtain ⟨found', hfound', hget'⟩ := hm'.of_composite hdemand
  refine ⟨_, _, hget, hget', ?_⟩
  have hsame : List.Forall₂ (fun entry entry' => ∃ c ∈ children,
      r.SameFound σ s.types s'.types v c entry entry') found found' := by
    refine (forall₂_of_forall₂ hfound hfound').imp ?_
    rintro entry entry' ⟨c, hc, ⟨hf, hmark⟩, hf', hmark'⟩
    refine ⟨c, hc, sameFound hd h h' hσ hv ?_ hf hmark hf' hmark'⟩
    rw [hdemand]
    exact hc
  have hplaced : ∀ i : Nat, i ∈ shape.references → i < found.length := by
    intro i hi
    have hp : (Demand.composite children shape).Placed := hdemand ▸ r.placed_demand none v
    rw [← hfound.length_eq]
    exact hp i hi
  have hids : (found.map fun entry : Nat × Bool => (σ entry.1, entry.2)).map Prod.fst
      = found'.map Prod.fst := by
    have hall : List.Forall₂ (· = ·) (found.map fun entry => σ entry.1)
        (found'.map Prod.fst) := by
      rw [List.forall₂_map_left_iff, List.forall₂_map_right_iff]
      exact hsame.imp fun entry entry' ⟨_, _, he⟩ => he.id_eq.symm
    rw [List.forall₂_eq_eq_eq] at hall
    rw [List.map_map]
    exact hall
  by_cases hallOf : ∃ name package items deprecated, shape = .allOf name package items deprecated
  · obtain ⟨name, package, places, deprecated, rfl⟩ := hallOf
    by_cases hback : r.TurnsBack v
    · refine Or.inr ⟨hback, name, package, _, _, deprecated, rfl, rfl, ?_⟩
      exact filter_eq hsame hplaced
    · refine Or.inl ?_
      have hfound'' : found' = found.map fun entry => (σ entry.1, entry.2) := by
        have hall : List.Forall₂ (· = ·) found'
            (found.map fun entry => (σ entry.1, entry.2)) := by
          rw [List.forall₂_map_right_iff]
          refine (hsame.imp ?_).flip
          rintro entry entry' ⟨c, hc, he⟩
          have hmark := he.mark_eq fun hlead =>
            hback ⟨children, name, package, places, deprecated, hdemand, c, hc, hlead⟩
          exact Prod.ext he.id_eq hmark.symm
        rw [List.forall₂_eq_eq_eq] at hall
        exact hall
      rw [Demand.filled_rename σ hplaced, hfound'']
  · refine Or.inl ?_
    rw [Demand.filled_rename σ hplaced]
    refine Demand.filled_congr (fun name package items deprecated hshape => ?_) hids.symm
    exact hallOf ⟨name, package, items, deprecated, hshape⟩

include hd h h' hσ in
/-- Matched slots of a block. -/
theorem block_eq (hv : r.Reached v) {inner : List ModelType} {last : ModelType}
    (hdemand : r.demand none v = .block inner last) {id id' : Nat}
    (hl : s.types.lookup (r.keyOf none v) = some id)
    (hl' : s'.types.lookup (r.keyOf none v) = some id') {back : Nat} (hback : back ≤ inner.length) :
    ∃ t, s.types.get? (id - back : Nat) = some t ∧
      s'.types.get? (id' - back : Nat) = some (t.rename σ) := by
  obtain ⟨base, hid, hinner⟩ := (h.meets hd hv hl).1.of_block hdemand
  obtain ⟨base', hid', hinner'⟩ := (h'.meets hd hv hl').1.of_block hdemand
  have hlt : inner.length - back < (inner ++ [last]).length := by
    rw [List.length_append, List.length_singleton]
    omega
  have ht := List.getElem?_eq_getElem hlt
  have hi : id - back = base + (inner.length - back) := by omega
  have hi' : id' - back = base' + (inner.length - back) := by omega
  refine ⟨_, by rw [hi]; exact hinner _ _ ht, ?_⟩
  rw [hi', hinner' _ _ ht, ModelType.rename_rename]
  refine congrArg some (ModelType.rename_congr fun (place : Nat) hplace => ?_)
  have hplaced : (Demand.block inner last).Placed := hdemand ▸ r.placed_demand none v
  have hlt' : place < inner.length := hplaced _ (List.getElem_mem hlt) place hplace
  -- Every place of the block is matched with the same place.
  have htile : r.Tile none s.types (r.keyOf none v) (inner.length - place) (base + place) := by
    refine ⟨?_, v, hv.proper hd, rfl, ?_⟩
    · rw [hl, hid]
      exact congrArg some (by omega)
    · rw [hdemand]
      exact Nat.sub_le _ _
  have himage := (hσ _ _ _ htile).lookup_eq
  rw [hl', hid'] at himage
  have hsum : base' + inner.length = σ (base + place) + (inner.length - place) :=
    Option.some.inj himage
  have hgoal : base' + place = σ (base + place) := by omega
  exact hgoal

include hd h h' hσ in
/-- **The types in matched slots are the same but for the numbers of slots.** A composed type one of
whose constituents leads back may keep other constituents of alternatives. -/
theorem types_eq {i : Nat} (hi : i < s.types.size) :
    ∃ t t', s.types.get? i = some t ∧ s'.types.get? (σ i) = some t' ∧
      (t' = t.rename σ ∨ ∃ v, r.Reached v ∧ r.TurnsBack v ∧
        s.types.lookup (r.keyOf none v) = some i ∧ Similar σ s.types s'.types t t') := by
  obtain ⟨key, back, htile⟩ := h.tiled.cover i hi
  obtain ⟨v, hv, rfl, hm, _⟩ := h.known htile.lookup_eq
  have hl := htile.lookup_eq
  have hl' := (hσ _ _ _ htile).lookup_eq
  obtain ⟨u, hu, hukey, hle⟩ := htile.le_span
  rw [span_eq_of_key_eq r none hu (hv.proper hd) hukey] at hle
  have hm' := (h'.meets hd hv hl').1
  cases hdemand : r.demand none v with
  | fault e => exact absurd hdemand hm.not_fault
  | block inner last =>
      rw [hdemand] at hle
      obtain ⟨t, ht, ht'⟩ := block_eq hd h h' hσ hv hdemand hl hl' hle
      rw [Nat.add_sub_cancel] at ht ht'
      exact ⟨t, _, ht, ht', Or.inl rfl⟩
  | wrapper item shape =>
      rw [hdemand] at hle
      have hzero : back = 0 := Nat.le_zero.mp hle
      subst hzero
      obtain ⟨itemId, hf, _, hget⟩ := hm.of_wrapper hdemand
      obtain ⟨itemId', hf', _, hget'⟩ := hm'.of_wrapper hdemand
      refine ⟨_, _, hget, hget', Or.inl ?_⟩
      rw [ModelType.rename_rename, finds_eq h hσ hf hf']
  | composite children shape =>
      rw [hdemand] at hle
      have hzero : back = 0 := Nat.le_zero.mp hle
      subst hzero
      obtain ⟨t, t', hget, hget', hsame⟩ := composite_eq hd h h' hσ hv hdemand hm hm'
      exact ⟨t, t', hget, hget', hsame.imp_right fun ⟨hback, hsimilar⟩ =>
        ⟨v, hv, hback, hl, hsimilar⟩⟩

end Matching

end Resolver

end ApiTypes
