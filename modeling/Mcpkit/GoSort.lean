import Mathlib.Data.List.Sort

/-!
`sort.Slice`. A sorter gives an arrangement of its list in which no element is less than one
before it.
-/
namespace Mcpkit.GoSort
variable {α β : Type} {less : α → α → Prop}

structure Sorter (less : α → α → Prop) where
  sort : List α → List α
  perm : ∀ l, (sort l).Perm l
  sorted : ∀ l, (sort l).Pairwise fun a b => ¬ less b a

theorem Sorter.mem_sort (sorter : Sorter less) {l : List α} {a : α} : a ∈ sorter.sort l ↔ a ∈ l :=
  (sorter.perm l).mem_iff

def insertionSorter [LinearOrder β] (key : α → β) (keyed : ∀ {a b}, less a b ↔ key a < key b) : Sorter less where
  sort := List.insertionSort fun a b => key a ≤ key b
  perm := List.perm_insertionSort _
  sorted l := by
    have : Std.Total (fun a b => key a ≤ key b) := ⟨fun a b => le_total (key a) (key b)⟩
    have : IsTrans α (fun a b => key a ≤ key b) := ⟨fun _ _ _ => le_trans⟩
    exact (List.pairwise_insertionSort (fun a b => key a ≤ key b) l).imp fun before => keyed.not.mpr (not_lt.mpr before)

end Mcpkit.GoSort
