import ApiTypes.Mapping.Rule

/-!
# Targets

The target of a rule once the root package of the run is known: every placeholder of the package
is replaced by it, in the target and in its type arguments.
-/

set_option autoImplicit false

namespace ApiTypes

/-- A qualified name with type arguments. -/
structure Target where
  /-- The qualified name, with the square brackets of an array. -/
  qualifiedName : String
  /-- The type arguments in order. -/
  args : List Target

namespace Target

instance : Inhabited Target := ⟨⟨"", []⟩⟩

/-- What stands for the root package in a target. -/
def placeholder : List Char := "\x7bpackage-name\x7d".toList

/-- Replaces every placeholder of a text, from left to right; `skip` counts the characters of a
placeholder that are still to be left out. -/
def replaceFrom (package : List Char) (skip : Nat) : List Char → List Char
  | [] => []
  | c :: rest =>
      match skip with
      | left + 1 => replaceFrom package left rest
      | 0 =>
          if placeholder.isPrefixOf (c :: rest) then
            package ++ replaceFrom package (placeholder.length - 1) rest
          else c :: replaceFrom package 0 rest

/-- Puts the root package into a name. -/
def substitute (package name : String) : String :=
  String.ofList (replaceFrom package.toList 0 name.toList)

mutual

/-- The target of a type expression. -/
def ofTypeExpr (package : String) : TypeExpr → Target
  | ⟨name, isArray, args⟩ =>
      ⟨substitute package (TypeExpr.label ⟨name, isArray, args⟩), ofTypeExprs package args⟩

/-- The targets of type arguments. -/
def ofTypeExprs (package : String) : List TypeExpr → List Target
  | [] => []
  | t :: rest => ofTypeExpr package t :: ofTypeExprs package rest

end

/-- The target of a rule, if it has one. -/
def ofRule? (package : String) (rule : Rule) : Option Target :=
  rule.target.map fun name => ⟨substitute package name, ofTypeExprs package rule.generics⟩

/-- The name without package. -/
def name (t : Target) : String := simpleName t.qualifiedName

/-- The package, empty for a name without one. -/
def package (t : Target) : String := packageOf t.qualifiedName

end Target

end ApiTypes
