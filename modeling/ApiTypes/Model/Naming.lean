import ApiTypes.Model.TypeStore

/-!
# Names and imports of resolved types

How a type in a store is written in source text, which package it belongs to, and which qualified
names it needs. Items and type arguments are written out, so the text of a type follows them; the
walks are bounded by the number of slots, which is enough for every store in which no type is
written inside itself.
-/

set_option autoImplicit false

namespace ApiTypes

/-- The texts of a list in byte order, each of them once. -/
def sortedSet (texts : List String) : List String :=
  (texts.mergeSort fun a b => !decide (b < a)).eraseReps

/-- Whether a text uses the names of schemas or those of generated types. -/
inductive NameForm where
  | schema
  | generated
  deriving DecidableEq

/-- The name of a type in a form. -/
def TypeName.inForm (name : TypeName) : NameForm → String
  | .schema => name.schema
  | .generated => name.generated

/-- A name in a package; the empty package is not written. -/
def qualify (package name : String) : String :=
  if package.isEmpty then name else package ++ "." ++ name

namespace TypeStore

/-- A type in source text, up to a depth. Type arguments of rule types always use the names of
generated types. -/
def textWithin (s : TypeStore) : Nat → NameForm → TypeId → String
  | 0, _, _ => ""
  | depth + 1, form, id =>
      match s.get? id with
      | none => ""
      | some (.primitive kind _ _) => kind.name
      | some (.array item _ _) => s.textWithin depth form item ++ "[]"
      | some (.map item _ _) => "Map<String, " ++ s.textWithin depth form item ++ ">"
      | some (.object name _ _ _ _ _) => name.inForm form
      | some (.allOf name _ _ _) => name.inForm form
      | some (.enum name _ _ _ _) => name.inForm form
      | some (.oneOf name _ _ isInterface _) =>
          if isInterface then name.inForm form else Primitive.object.name
      | some (.mapped name _ generics isArray _ _) =>
          name
            ++ (if generics.isEmpty then ""
              else "<" ++ ", ".intercalate (generics.map (s.textWithin depth .generated)) ++ ">")
            ++ (if isArray then "[]" else "")

/-- A type in source text with the names of schemas. -/
def name (s : TypeStore) (id : TypeId) : String := s.textWithin (s.size + 1) .schema id

/-- A type in source text with the names of generated types. -/
def typeName (s : TypeStore) (id : TypeId) : String := s.textWithin (s.size + 1) .generated id

/-- The package of a type, up to a depth. -/
def packageWithin (s : TypeStore) : Nat → TypeId → String
  | 0, _ => ""
  | depth + 1, id =>
      match s.get? id with
      | none => ""
      | some (.primitive kind _ _) => kind.package
      | some (.array item _ _) => s.packageWithin depth item
      | some (.map _ _ _) => "java.util"
      | some (.object _ package _ _ _ _) => package
      | some (.allOf _ package _ _) => package
      | some (.enum _ package _ _ _) => package
      | some (.oneOf _ package _ isInterface _) =>
          if isInterface then package else Primitive.object.package
      | some (.mapped _ package _ _ _ _) => package

/-- The package of a type; that of its items for an array. -/
def package (s : TypeStore) (id : TypeId) : String := s.packageWithin (s.size + 1) id

end TypeStore

/-- The qualified names that a type needs for itself, without its parts. -/
def ModelType.ownImports : ModelType → List String
  | primitive kind _ _ => [kind.qualifiedName]
  | array .. => []
  | map .. => []
  | object name package _ _ _ _ => [qualify package name.generated]
  | allOf name package _ _ => [qualify package name.generated]
  | enum name package _ _ _ => [qualify package name.generated]
  | oneOf name package _ isInterface _ =>
      if isInterface then [qualify package name.generated] else [Primitive.object.qualifiedName]
  | mapped name package _ _ _ _ => if package.isEmpty then [] else [qualify package name]

namespace TypeStore

/-- Adds the imports of a type and of its parts to those found, unless the type was visited. -/
def visitImports (s : TypeStore) :
    Nat → TypeId → List TypeId × List String → List TypeId × List String
  | 0, _, found => found
  | depth + 1, id, (visited, out) =>
      if id ∈ visited then (visited, out)
      else
        match s.get? id with
        | none => (id :: visited, out)
        | some t =>
            t.parts.foldl (fun found part => s.visitImports depth part found)
              (id :: visited, out ++ t.ownImports)

/-- The qualified names that a type and its parts need, in whatever order. -/
def importList (s : TypeStore) (id : TypeId) : List String :=
  (s.visitImports (s.size + 1) id ([], [])).2

/-- The qualified names that a type and its parts need. -/
def imports (s : TypeStore) (id : TypeId) : List String := sortedSet (s.importList id)

/-- The qualified names that the annotations of a type need. -/
def annotationImports (s : TypeStore) (id : TypeId) : List String :=
  (s.annotations id).flatMap Annotation.imports

/-- Adds the properties of a type, or of its constituents, to those found, unless the type was
visited. -/
def visitProperties (s : TypeStore) :
    Nat → TypeId → List TypeId × OrderedMap TypeId → List TypeId × OrderedMap TypeId
  | 0, _, found => found
  | depth + 1, id, (visited, out) =>
      if id ∈ visited then (visited, out)
      else
        match s.get? id with
        | some (.object _ _ properties _ _ _) => (id :: visited, out.append properties)
        | some (.allOf _ _ items _) =>
            items.foldl (fun found item => s.visitProperties depth item found)
              (id :: visited, out)
        | _ => (id :: visited, out)

/-- The properties of a type: its own, or those of its constituents. -/
def properties (s : TypeStore) (id : TypeId) : OrderedMap TypeId :=
  (s.visitProperties (s.size + 1) id ([], .empty)).2

/-- Adds a text to a list unless it is there. -/
def addText (texts : List String) (text : String) : List String :=
  if texts.contains text then texts else texts ++ [text]

/-- The required properties of a type, up to a depth of constituents. -/
def requiredWithin (s : TypeStore) : Nat → TypeId → List String
  | 0, _ => []
  | depth + 1, id =>
      match s.get? id with
      | some (.object _ _ _ required _ _) => required
      | some (.allOf _ _ items _) =>
          (items.flatMap (s.requiredWithin depth)).foldl addText []
      | _ => []

/-- The required properties of a type: its own, or those of its constituents, each once. -/
def required (s : TypeStore) (id : TypeId) : List String := s.requiredWithin (s.size + 1) id

/-- The qualified names that what a type refers to needs, up to a depth of items. -/
def referencedWithin (s : TypeStore) : Nat → TypeId → List String
  | 0, id => s.annotationImports id
  | depth + 1, id =>
      s.annotationImports id ++
        match s.get? id with
        | none => []
        | some (.primitive ..) => []
        | some (.enum ..) => []
        | some (.array item _ _) => s.referencedWithin depth item
        | some (.map item _ _) => s.referencedWithin depth item ++ ["java.util.Map"]
        | some (.object ..) =>
            (s.properties id).values.flatMap fun property =>
              s.importList property ++ s.annotationImports property
        | some (.allOf ..) =>
            (s.properties id).values.flatMap fun property =>
              s.importList property ++ s.annotationImports property
        | some (.oneOf _ _ items isInterface _) =>
            if isInterface then items.flatMap s.importList else []
        | some (.mapped _ _ generics _ _ _) => generics.flatMap s.importList

/-- The qualified names that what a type refers to needs, those of annotations included. -/
def referencedImports (s : TypeStore) (id : TypeId) : List String :=
  sortedSet (s.referencedWithin (s.size + 1) id)

end TypeStore

end ApiTypes
