import ApiTypes.Model.TypeStore
import ApiTypes.Proofs.OpenApi.Tidy
import ApiTypes.Proofs.Store.Appending
import ApiTypes.Proofs.Store.Distinct
import Mathlib.Data.List.Perm.Subperm

/-!
# Annotations that are the same

Annotations are compared by their types and by what is under each name of an argument
(`Annotation.same_iff`), so being the same is an equivalence, and a slot to which annotations are
added one by one has the list of them without repetitions (`TypeStore.foldl_addAnnotation`).
-/

set_option autoImplicit false

namespace ApiTypes

namespace OrderedMap

variable {α : Type} [BEq α] [LawfulBEq α] {m n : OrderedMap α}

/-- **Maps are the same if they have the same values under the same names.** -/
theorem same_iff : m.same n = true ↔ ∀ name, m.get? name = n.get? name := by
  rw [same, Bool.and_eq_true, beq_iff_eq, List.all_eq_true]
  constructor
  · rintro ⟨hsize, hentries⟩ name
    have hsubset : m.keys ⊆ n.keys := by
      intro name hname
      obtain ⟨entry, hentry, rfl⟩ := List.mem_map.mp hname
      rw [mem_keys_iff, beq_iff_eq.mp (hentries entry hentry)]
      rfl
    cases hfound : m.get? name with
    | some a =>
        have hentry := mem_of_findValue? hfound
        exact (beq_iff_eq.mp (hentries _ hentry)).symm
    | none =>
        -- As many names without repetitions, so there are no others.
        have hperm : m.keys.Perm n.keys := by
          apply (List.subperm_of_subset m.nodup_keys hsubset).perm_of_length_le
          simpa [keys, size] using Nat.le_of_eq hsize.symm
        have hname : name ∉ n.keys := by
          rw [← hperm.mem_iff, mem_keys_iff, hfound]
          nofun
        rw [mem_keys_iff, Bool.not_eq_true, Option.isSome_eq_false_iff,
          Option.isNone_iff_eq_none] at hname
        exact hname.symm
  · intro hget
    have hkeys : ∀ name, name ∈ m.keys ↔ name ∈ n.keys := by
      intro name
      rw [mem_keys_iff, mem_keys_iff, hget]
    constructor
    · have hperm : m.keys.Perm n.keys :=
        (List.perm_ext_iff_of_nodup m.nodup_keys n.nodup_keys).mpr hkeys
      simpa [keys, size] using hperm.length_eq
    · intro entry hentry
      have hfound : m.get? entry.1 = some entry.2 := findValue?_of_mem m.nodup_keys hentry
      rw [← hget, hfound]
      exact beq_self_eq_true _

end OrderedMap

namespace Annotation

/-- **Annotations are the same if their types are, and what is under each name.** -/
theorem same_iff {a b : Annotation} :
    a.same b = true ↔
      a.typeName = b.typeName ∧ ∀ name, a.arguments.get? name = b.arguments.get? name := by
  rw [same, Bool.and_eq_true, beq_iff_eq, OrderedMap.same_iff]

theorem same_equivalence : Equivalence fun a b : Annotation => a.same b = true where
  refl a := same_iff.mpr ⟨rfl, fun _ => rfl⟩
  symm {a b} h := by
    obtain ⟨htype, harguments⟩ := same_iff.mp h
    exact same_iff.mpr ⟨htype.symm, fun name => (harguments name).symm⟩
  trans {a b c} hab hbc := by
    obtain ⟨htype, harguments⟩ := same_iff.mp hab
    obtain ⟨htype', harguments'⟩ := same_iff.mp hbc
    exact same_iff.mpr
      ⟨htype.trans htype', fun name => (harguments name).trans (harguments' name)⟩

theorem same_comm (a b : Annotation) : a.same b = b.same a :=
  Bool.eq_iff_iff.mpr ⟨same_equivalence.symm, same_equivalence.symm⟩

end Annotation

/-- **A slot has the annotations that are added to it without repetitions.** -/
theorem TypeStore.foldl_addAnnotation (l : List Annotation) :
    l.foldl addAnnotation [] = l.eraseDupsBy Annotation.same :=
  foldl_addNew_eq_eraseDupsBy (fun _ _ => rfl) Annotation.same_comm l

end ApiTypes
