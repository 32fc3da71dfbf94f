import ApiTypes.Proofs.Store.Renaming
import ApiTypes.Proofs.Store.View
import Mathlib.Data.List.Forall2
import Mathlib.Data.Option.Basic

/-!
# Stores that are alike

Two types are alike if they are the same but for the names of generated types and for the mark that
makes alternatives an interface (`ModelType.Like`). Two stores are alike if their slots are, and if
they remember the same (`TypeStore.Like`). Which names, which marks and which lists of annotations
may stand against each other is what a `Likeness` says.

Every operation of the store keeps stores alike. Annotations are compared where all of a slot are
added at once: the list of a slot tells which annotations are added and which are there already, so
lists that differ need not stay alike under one more annotation.
-/

set_option autoImplicit false

namespace ApiTypes

/-- What two stores may differ in. -/
structure Likeness where
  /-- The names of a generated type that may stand against each other. -/
  names : TypeName → TypeName → Prop
  /-- The marks of alternatives that may stand against each other. -/
  marks : Bool → Bool → Prop
  /-- The lists of annotations that may stand against each other. -/
  annotations : List Annotation → List Annotation → Prop
  /-- Slots without annotations may. -/
  annotations_nil : annotations [] []

/-! ## Types -/

/-- Types that are the same but for the names of generated types and the mark of alternatives. -/
inductive ModelType.Like (names : TypeName → TypeName → Prop) (marks : Bool → Bool → Prop) :
    ModelType → ModelType → Prop
  | primitive (kind : Primitive) (c : Constraints) (d : Bool) :
      Like names marks (.primitive kind c d) (.primitive kind c d)
  | array (item : TypeId) (c : Constraints) (d : Bool) :
      Like names marks (.array item c d) (.array item c d)
  | map (item : TypeId) (c : Constraints) (d : Bool) :
      Like names marks (.map item c d) (.map item c d)
  | object {name name' : TypeName} (package : String) (properties : OrderedMap TypeId)
      (required : List String) (c : Constraints) (d : Bool) : names name name' →
      Like names marks (.object name package properties required c d)
        (.object name' package properties required c d)
  | allOf {name name' : TypeName} (package : String) (items : List TypeId) (d : Bool) :
      names name name' →
      Like names marks (.allOf name package items d) (.allOf name' package items d)
  | oneOf {name name' : TypeName} {mark mark' : Bool} (package : String) (items : List TypeId)
      (d : Bool) : names name name' → marks mark mark' →
      Like names marks (.oneOf name package items mark d) (.oneOf name' package items mark' d)
  | enum {name name' : TypeName} (package : String) (values : List String) (c : Constraints)
      (d : Bool) : names name name' →
      Like names marks (.enum name package values c d) (.enum name' package values c d)
  | mapped (name package : String) (generics : List TypeId) (isArray : Bool) (c : Constraints)
      (d : Bool) :
      Like names marks (.mapped name package generics isArray c d)
        (.mapped name package generics isArray c d)

namespace ModelType.Like

variable {names : TypeName → TypeName → Prop} {marks : Bool → Bool → Prop} {t t' : ModelType}

/-- A type is like itself if its name and its mark may stand against themselves. -/
theorem refl (hnames : ∀ name, names name name) (hmarks : ∀ mark, marks mark mark)
    (t : ModelType) : Like names marks t t := by
  cases t with
  | primitive kind c d => exact .primitive kind c d
  | array item c d => exact .array item c d
  | map item c d => exact .map item c d
  | object name package properties required c d =>
      exact .object package properties required c d (hnames name)
  | allOf name package items d => exact .allOf package items d (hnames name)
  | oneOf name package items mark d => exact .oneOf package items d (hnames name) (hmarks mark)
  | enum name package values c d => exact .enum package values c d (hnames name)
  | mapped name package generics isArray c d => exact .mapped name package generics isArray c d

theorem rename (h : Like names marks t t') (f : TypeId → TypeId) :
    Like names marks (t.rename f) (t'.rename f) := by
  cases h with
  | primitive kind c d => exact .primitive kind c d
  | array item c d => exact .array _ c d
  | map item c d => exact .map _ c d
  | object package properties required c d hname => exact .object package _ required c d hname
  | allOf package items d hname => exact .allOf package _ d hname
  | oneOf package items d hname hmark => exact .oneOf package _ d hname hmark
  | enum package values c d hname => exact .enum package values c d hname
  | mapped name package generics isArray c d => exact .mapped name package _ isArray c d

theorem keepItems (h : Like names marks t t') (p : TypeId → Bool) :
    Like names marks (t.keepItems p) (t'.keepItems p) := by
  cases h with
  | primitive kind c d => exact .primitive kind c d
  | array item c d => exact .array item c d
  | map item c d => exact .map item c d
  | object package properties required c d hname =>
      exact .object package properties required c d hname
  | allOf package items d hname => exact .allOf package _ d hname
  | oneOf package items d hname hmark => exact .oneOf package items d hname hmark
  | enum package values c d hname => exact .enum package values c d hname
  | mapped name package generics isArray c d => exact .mapped name package generics isArray c d

end ModelType.Like

/-! ## Stores -/

/-- Elements of lists that are related one by one are related at every position. -/
theorem rel_getElem?_of_forall₂ {α β : Type} {R : α → β → Prop} {l : List α} {l' : List β}
    (h : List.Forall₂ R l l') (i : Nat) : Option.Rel R l[i]? l'[i]? := by
  induction h generalizing i with
  | nil => exact .none
  | cons hhead _ ih =>
      cases i with
      | zero => exact .some hhead
      | succ i =>
          rw [List.getElem?_cons_succ, List.getElem?_cons_succ]
          exact ih i

/-- Stores that remember the same and whose slots are alike. -/
structure TypeStore.Like (L : Likeness) (s s' : TypeStore) : Prop where
  /-- There are as many slots. -/
  size_eq : s'.size = s.size
  /-- The same is remembered. -/
  lookup_eq : ∀ key, s'.lookup key = s.lookup key
  /-- The same slots are reserved, and the types in the others are alike. -/
  get?_rel : ∀ i : Nat, Option.Rel (ModelType.Like L.names L.marks) (s.get? i) (s'.get? i)
  /-- The annotations of slots are alike. -/
  annotations_rel : ∀ i : Nat, L.annotations (s.annotations i) (s'.annotations i)

namespace TypeStore.Like

variable {L : Likeness} {s s' : TypeStore}

/-- A store is like itself if everything in it may stand against itself. -/
theorem refl (hnames : ∀ name, L.names name name) (hmarks : ∀ mark, L.marks mark mark)
    (hannotations : ∀ found, L.annotations found found) (s : TypeStore) : s.Like L s where
  size_eq := rfl
  lookup_eq _ := rfl
  get?_rel i := by
    cases s.get? i with
    | none => exact .none
    | some t => exact .some (.refl hnames hmarks t)
  annotations_rel _ := hannotations _

/-- Empty stores are alike. -/
theorem empty : TypeStore.Like L {} {} where
  size_eq := rfl
  lookup_eq _ := rfl
  get?_rel _ := .none
  annotations_rel _ := L.annotations_nil

theorem addAll (h : s.Like L s') {ts ts' : List ModelType}
    (hts : List.Forall₂ (ModelType.Like L.names L.marks) ts ts') :
    (s.addAll ts).Like L (s'.addAll ts') where
  size_eq := by rw [size_addAll, size_addAll, h.size_eq, hts.length_eq]
  lookup_eq key := by rw [lookup_addAll, lookup_addAll, h.lookup_eq]
  get?_rel i := by
    rw [get?_addAll, get?_addAll, h.size_eq]
    split
    · exact h.get?_rel i
    · exact rel_getElem?_of_forall₂ hts _
  annotations_rel i := by
    rw [annotations_addAll, annotations_addAll]
    exact h.annotations_rel i

theorem add (h : s.Like L s') {t t' : ModelType} (ht : t.Like L.names L.marks t') :
    (s.add t).2.Like L (s'.add t').2 :=
  h.addAll (.cons ht .nil)

theorem reserve (h : s.Like L s') : s.reserve.2.Like L s'.reserve.2 where
  size_eq := by rw [size_reserve, size_reserve, h.size_eq]
  lookup_eq key := by rw [lookup_reserve, lookup_reserve, h.lookup_eq]
  get?_rel i := by
    rw [get?_reserve, get?_reserve]
    exact h.get?_rel i
  annotations_rel i := by
    rw [annotations_reserve, annotations_reserve]
    exact h.annotations_rel i

theorem remember (h : s.Like L s') (key : MemoKey) (id : Nat) :
    (s.remember key id).Like L (s'.remember key id) where
  size_eq := h.size_eq
  lookup_eq other := by rw [lookup_remember, lookup_remember, h.lookup_eq]
  get?_rel := h.get?_rel
  annotations_rel := h.annotations_rel

theorem fill (h : s.Like L s') (id : Nat) {t t' : ModelType} (ht : t.Like L.names L.marks t') :
    (s.fill id t).Like L (s'.fill id t') where
  size_eq := by rw [size_fill, size_fill, h.size_eq]
  lookup_eq key := by rw [lookup_fill, lookup_fill, h.lookup_eq]
  get?_rel i := by
    rw [get?_fill, get?_fill, h.size_eq]
    split
    · exact .some ht
    · exact h.get?_rel i
  annotations_rel i := by
    rw [annotations_fill, annotations_fill]
    exact h.annotations_rel i

/-- Slots that have no annotations yet stay alike if the lists that they get are alike. -/
theorem annotateAll (h : s.Like L s') {id : Nat} (hid : s.annotations id = [])
    (hid' : s'.annotations id = []) {found found' : List Annotation}
    (hfound : L.annotations (found.foldl addAnnotation []) (found'.foldl addAnnotation [])) :
    (s.annotateAll id found).Like L (s'.annotateAll id found') where
  size_eq := by rw [size_annotateAll, size_annotateAll, h.size_eq]
  lookup_eq key := by rw [lookup_annotateAll, lookup_annotateAll, h.lookup_eq]
  get?_rel i := by
    rw [get?_annotateAll, get?_annotateAll]
    exact h.get?_rel i
  annotations_rel i := by
    rw [annotations_annotateAll, annotations_annotateAll, h.size_eq]
    split
    · rename_i hi
      rw [hi.1, hid, hid']
      exact hfound
    · exact h.annotations_rel i

end TypeStore.Like

end ApiTypes
