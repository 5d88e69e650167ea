import Mathlib.Data.List.Basic

/-!
Fields with a separator after them. Two ways to cut a list at a separator are the same
cut, or one lies inside what the other keeps whole (`cut_cases`); a field without the
separator fixes its cut.
-/
namespace Mcpkit.Delimited
open List
variable {α : Type} {z : α} {x y u v : List α}

theorem cut_cases (same : x ++ z :: u = y ++ z :: v) :
    (x = y ∧ u = v) ∨ (∃ w, y = x ++ z :: w ∧ u = w ++ z :: v) ∨ ∃ w, x = y ++ z :: w ∧ v = w ++ z :: u := by
  rcases append_eq_append_iff.mp same with ⟨between,longer,rest⟩ | ⟨between,longer,rest⟩
  · cases between with
    | nil =>
      rw [append_nil] at longer
      exact .inl ⟨longer.symm,(cons.inj rest).2⟩
    | cons c w =>
      obtain ⟨rfl,later⟩ := cons.inj rest
      exact .inr (.inl ⟨w,longer,later⟩)
  · cases between with
    | nil =>
      rw [append_nil] at longer
      exact .inl ⟨longer,(cons.inj rest).2.symm⟩
    | cons c w =>
      obtain ⟨rfl,later⟩ := cons.inj rest
      exact .inr (.inr ⟨w,longer,later⟩)

theorem cut_after (clean : z ∉ x) (same : x ++ z :: u = y ++ z :: v) :
    (x = y ∧ u = v) ∨ ∃ w, y = x ++ z :: w ∧ u = w ++ z :: v := by
  rcases cut_cases same with equal | later | ⟨w,rfl,-⟩
  · exact .inl equal
  · exact .inr later
  · exact absurd (mem_append_right _ mem_cons_self) clean

theorem cut_unique (clean : z ∉ x) (clean' : z ∉ y) (same : x ++ z :: u = y ++ z :: v) : x = y ∧ u = v := by
  rcases cut_after clean same with equal | ⟨w,rfl,-⟩
  · exact equal
  · exact absurd (mem_append_right _ mem_cons_self) clean'

theorem cut_last (clean : z ∉ u) (clean' : z ∉ v) (same : x ++ z :: u = y ++ z :: v) : x = y ∧ u = v := by
  rcases cut_cases same with equal | ⟨w,-,rfl⟩ | ⟨w,-,rfl⟩
  · exact equal
  · exact absurd (mem_append_right _ mem_cons_self) clean
  · exact absurd (mem_append_right _ mem_cons_self) clean'

theorem append_cons_ne (x w : List α) : x ++ z :: w ≠ x := by
  intro same
  simpa using congrArg length same

end Mcpkit.Delimited
