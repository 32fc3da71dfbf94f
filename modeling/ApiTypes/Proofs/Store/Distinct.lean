import Mathlib.Data.List.Basic

/-!
# Lists without repetitions

Rules and annotations are collected in the order in which they come, and one is left out if one
like it came before (`foldl_addNew_eq_eraseDupsBy`). Such lists are those of `List.eraseDupsBy`:
everything has something like it in the list, and nothing in it is like anything before it. If what
is collected is made from things that were collected before, it does not matter that some of these
were left out (`eraseDupsBy_filterMap_append`).
-/

set_option autoImplicit false

universe u v

namespace ApiTypes

section Distinct

variable {α : Type u} {β : Type v} {r : α → α → Bool} {a b : α} {l : List α}

/-- The first element stays, and what is like it goes. -/
theorem eraseDupsBy_cons (r : α → α → Bool) (a : α) (l : List α) :
    (a :: l).eraseDupsBy r = a :: (l.filter fun b => !r b a).eraseDupsBy r := by
  rw [List.eraseDupsBy_cons]
  simp only [Bool.decide_eq_false]

theorem eraseDupsBy_sublist (r : α → α → Bool) : ∀ l : List α, (l.eraseDupsBy r).Sublist l
  | [] => .refl _
  | a :: l => by
      rw [eraseDupsBy_cons]
      have hrest := eraseDupsBy_sublist r (l.filter fun b => !r b a)
      exact .cons_cons a (hrest.trans List.filter_sublist)
  termination_by l => l.length
  decreasing_by exact Nat.lt_succ_of_le (List.length_filter_le _ _)

/-- Nothing is like anything before it. -/
theorem pairwise_eraseDupsBy (r : α → α → Bool) :
    ∀ l : List α, (l.eraseDupsBy r).Pairwise fun a b => r b a = false
  | [] => .nil
  | a :: l => by
      rw [eraseDupsBy_cons]
      refine .cons ?_ (pairwise_eraseDupsBy r (l.filter fun b => !r b a))
      intro b hb
      have hkept := (List.mem_filter.mp ((eraseDupsBy_sublist r _).mem hb)).2
      simpa using hkept
  termination_by l => l.length
  decreasing_by exact Nat.lt_succ_of_le (List.length_filter_le _ _)

/-- Everything has something like it that is left in the list. -/
theorem exists_like_mem_eraseDupsBy (hrefl : ∀ a, r a a = true) :
    ∀ {l : List α}, a ∈ l → ∃ b ∈ l.eraseDupsBy r, r a b = true
  | b :: l, h => by
      rw [eraseDupsBy_cons]
      cases hlike : r a b with
      | true => exact ⟨b, List.mem_cons_self, hlike⟩
      | false =>
          have hmem : a ∈ l.filter fun c => !r c b := by
            rcases List.mem_cons.mp h with rfl | hmem
            · rw [hrefl] at hlike
              cases hlike
            · exact List.mem_filter.mpr ⟨hmem, by rw [hlike]; rfl⟩
          obtain ⟨c, hc, hlike⟩ := exists_like_mem_eraseDupsBy hrefl hmem
          exact ⟨c, List.mem_cons_of_mem _ hc, hlike⟩
  termination_by l => l.length
  decreasing_by exact Nat.lt_succ_of_le (List.length_filter_le _ _)

theorem nodup_eraseDups [BEq α] [LawfulBEq α] (l : List α) : l.eraseDups.Nodup := by
  refine (pairwise_eraseDupsBy (· == ·) l).imp fun {a b} hapart heq => ?_
  rw [heq, beq_self_eq_true] at hapart
  cases hapart

theorem eraseDups_of_nodup [BEq α] [LawfulBEq α] (h : l.Nodup) : l.eraseDups = l := by
  induction l with
  | nil => rfl
  | cons a l ih =>
      rw [List.nodup_cons] at h
      have hkept : l.filter (fun b => !b == a) = l := by
        refine List.filter_eq_self.mpr fun b hb => ?_
        rw [Bool.not_eq_true', beq_eq_false_iff_ne]
        rintro rfl
        exact h.1 hb
      rw [List.eraseDups_cons, hkept, ih h.2]

/-- What comes last is left out if it came before. -/
theorem eraseDups_append_singleton [BEq α] [LawfulBEq α] [DecidableEq α] (l : List α) (a : α) :
    (l ++ [a]).eraseDups = if a ∈ l.eraseDups then l.eraseDups else l.eraseDups ++ [a] := by
  rw [List.eraseDups_append, List.removeAll, List.filter_cons, List.filter_nil]
  by_cases ha : a ∈ l
  · rw [if_pos (List.mem_eraseDups.mpr ha), if_neg (by simpa using ha), List.eraseDups_nil,
      List.append_nil]
  · rw [if_neg (mt List.mem_eraseDups.mp ha), if_pos (by simpa using ha), List.eraseDups_cons,
      List.filter_nil, List.eraseDups_nil]

/-- Leaving elements out and leaving out repetitions commute, if like elements are left out
together. -/
theorem eraseDupsBy_filter {p : α → Bool} (hp : ∀ a b, r a b = true → p a = p b) :
    ∀ l : List α, (l.filter p).eraseDupsBy r = (l.eraseDupsBy r).filter p
  | [] => rfl
  | a :: l => by
      have ih := eraseDupsBy_filter hp (l.filter fun b => !r b a)
      rw [eraseDupsBy_cons]
      cases ha : p a with
      | true =>
          rw [List.filter_cons_of_pos ha, List.filter_cons_of_pos ha, eraseDupsBy_cons, ← ih,
            List.filter_filter, List.filter_filter]
          simp only [Bool.and_comm]
      | false =>
          -- What is like the first element is left out with it.
          have hsame : (l.filter fun b => !r b a).filter p = l.filter p := by
            rw [List.filter_filter]
            refine List.filter_congr fun b _ => ?_
            cases hlike : r b a with
            | true => rw [hp b a hlike, ha, Bool.false_and]
            | false => rw [Bool.not_false, Bool.and_true]
          rw [List.filter_cons_of_neg (by rw [ha]; nofun),
            List.filter_cons_of_neg (by rw [ha]; nofun), ← ih, hsame]
  termination_by l => l.length
  decreasing_by exact Nat.lt_succ_of_le (List.length_filter_le _ _)

/-- **Leaving repetitions out twice is leaving them out once.** What is made from like things is
like, so what is left out in the first round would be left out in the second. -/
theorem eraseDupsBy_filterMap_append {s : β → β → Bool} (hs : Equivalence fun x y => s x y = true)
    {f : α → Option β}
    (hf : ∀ a b, r a b = true → ∀ x, f a = some x → ∃ y, f b = some y ∧ s x y = true)
    (more : List β) : ∀ l : List α,
      ((l.eraseDupsBy r).filterMap f ++ more).eraseDupsBy s
        = (l.filterMap f ++ more).eraseDupsBy s
  | [] => rfl
  | a :: l => by
      have ih := eraseDupsBy_filterMap_append hs hf more (l.filter fun b => !r b a)
      rw [eraseDupsBy_cons]
      cases ha : f a with
      | none =>
          -- Nothing is made from what is like the first element.
          have hsame : (l.filter fun b => !r b a).filterMap f = l.filterMap f := by
            rw [List.filterMap_filter]
            refine List.filterMap_congr fun b _ => ?_
            cases hlike : r b a with
            | false => rfl
            | true =>
                cases hb : f b with
                | none => rfl
                | some x =>
                    obtain ⟨y, hy, _⟩ := hf b a hlike x hb
                    rw [ha] at hy
                    cases hy
          rw [List.filterMap_cons_none ha, List.filterMap_cons_none ha, ih, hsame]
      | some x =>
          have hrespects : ∀ y z, s y z = true → (!s y x) = !s z x := by
            intro y z hyz
            refine congrArg _ (Bool.eq_iff_iff.mpr ⟨fun hyx => ?_, fun hzx => ?_⟩)
            · exact hs.trans (hs.symm hyz) hyx
            · exact hs.trans hyz hzx
          -- What is made from something like the first element is like what is made from that.
          have hsame : ((l.filter fun b => !r b a).filterMap f).filter (fun y => !s y x)
              = (l.filterMap f).filter fun y => !s y x := by
            rw [List.filterMap_filter, List.filter_filterMap, List.filter_filterMap]
            refine List.filterMap_congr fun b _ => ?_
            cases hlike : r b a with
            | false => rfl
            | true =>
                cases hb : f b with
                | none => rfl
                | some y =>
                    obtain ⟨x', hx', hyx⟩ := hf b a hlike y hb
                    rw [ha] at hx'
                    cases hx'
                    simp [Option.filter, hyx]
          rw [List.filterMap_cons_some ha, List.filterMap_cons_some ha, List.cons_append,
            List.cons_append, eraseDupsBy_cons, eraseDupsBy_cons, eraseDupsBy_filter hrespects, ih,
            ← eraseDupsBy_filter hrespects, List.filter_append, List.filter_append, hsame]
  termination_by l => l.length
  decreasing_by exact Nat.lt_succ_of_le (List.length_filter_le _ _)

/-- Elements that are added to the end of a list one by one, unless one like them is there. -/
theorem foldl_addNew_eq_append {add : List α → α → List α}
    (hadd : ∀ found a, add found a = if found.any (fun b => r b a) then found else found ++ [a])
    (hsymm : ∀ a b, r a b = r b a) (l found : List α) :
    l.foldl add found = found ++ (l.filter fun a => !found.any fun b => r b a).eraseDupsBy r := by
  induction l generalizing found with
  | nil => exact (List.append_nil found).symm
  | cons a l ih =>
      rw [List.foldl_cons, hadd]
      cases hthere : found.any (fun b => r b a) with
      | true =>
          rw [List.filter_cons_of_neg (by rw [hthere]; nofun)]
          exact ih found
      | false =>
          have hrest : (l.filter fun c => !(found ++ [a]).any fun b => r b c)
              = (l.filter fun c => !found.any fun b => r b c).filter fun c => !r c a := by
            rw [List.filter_filter]
            refine List.filter_congr fun c _ => ?_
            rw [List.any_append, List.any_cons, List.any_nil, Bool.or_false, Bool.not_or,
              Bool.and_comm, hsymm a c]
          rw [List.filter_cons_of_pos (by rw [hthere]; rfl), eraseDupsBy_cons, ← hrest]
          refine (ih (found ++ [a])).trans ?_
          rw [List.append_assoc]
          rfl

theorem foldl_addNew_eq_eraseDupsBy {add : List α → α → List α}
    (hadd : ∀ found a, add found a = if found.any (fun b => r b a) then found else found ++ [a])
    (hsymm : ∀ a b, r a b = r b a) (l : List α) : l.foldl add [] = l.eraseDupsBy r := by
  rw [foldl_addNew_eq_append hadd hsymm]
  simp

end Distinct

end ApiTypes
