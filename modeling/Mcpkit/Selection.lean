import Mathlib.Order.Lattice
import Mathlib.Data.List.Basic

/-!
The loop that keeps the best element of a range: an element takes the place of the one kept so far
when its score is strictly higher.
-/
namespace Mcpkit.Selection
open List

variable {α β : Type} [LinearOrder β] (score : α → Option β)

def better (best : Option α × β) (x : α) : Option α × β :=
  match score x with
  | some s => if best.2 < s then (some x,s) else best
  | none => best

def scan (floor : β) (xs : List α) : Option α × β := xs.foldl (better score) (none,floor)

def Bounded (xs : List α) (bound : β) : Prop := ∀ x ∈ xs, ∀ s, score x = some s → s ≤ bound

variable {score} {xs : List α}

theorem Bounded.cons {x : α} {bound : β} (head : ∀ s, score x = some s → s ≤ bound)
    (tail : Bounded score xs bound) : Bounded score (x :: xs) bound :=
  forall_mem_cons.mpr ⟨head,tail⟩

theorem foldl_better_of_bounded {best : Option α × β} (bounded : Bounded score xs best.2) :
    xs.foldl (better score) best = best := by
  induction xs with
  | nil => rfl
  | cons x xs ih =>
    have kept : better score best x = best := by
      unfold better
      split
      next s scored => exact if_neg (not_lt.mpr (bounded x mem_cons_self s scored))
      next => rfl
    rw [foldl_cons,kept]
    exact ih fun y member => bounded y (mem_cons_of_mem _ member)

/-- The loop ends with what it began with, nothing having scored more, or with an element of the highest score. -/
theorem foldl_better_cases (xs : List α) : ∀ best : Option α × β,
    (xs.foldl (better score) best = best ∧ Bounded score xs best.2) ∨
      ∃ x ∈ xs, ∃ s, xs.foldl (better score) best = (some x,s) ∧ score x = some s ∧ best.2 < s ∧ Bounded score xs s := by
  induction xs with
  | nil => exact fun best => .inl ⟨rfl,fun _ member => absurd member not_mem_nil⟩
  | cons x xs ih =>
    intro best
    rw [foldl_cons]
    by_cases wins : ∃ s, score x = some s ∧ best.2 < s
    · obtain ⟨s,scored,more⟩ := wins
      have turn : better score best x = (some x,s) := by simp only [better,scored,if_pos more]
      rw [turn]
      rcases ih (some x,s) with ⟨kept,bounded⟩ | ⟨y,member,t,ends,scored',more',bounded⟩
      · refine .inr ⟨x,mem_cons_self,s,kept,scored,more,.cons (fun s' scored' => ?_) bounded⟩
        rw [scored] at scored'
        exact le_of_eq (Option.some.inj scored').symm
      · refine .inr ⟨y,mem_cons_of_mem _ member,t,ends,scored',more.trans more',.cons (fun s' again => ?_) bounded⟩
        rw [scored] at again
        exact Option.some.inj again ▸ le_of_lt more'
    · have low : ∀ s, score x = some s → s ≤ best.2 := fun s scored => not_lt.mp fun more => wins ⟨s,scored,more⟩
      have turn : better score best x = best := by
        unfold better
        split
        next s scored => exact if_neg (not_lt.mpr (low s scored))
        next => rfl
      rw [turn]
      rcases ih best with ⟨kept,bounded⟩ | ⟨y,member,t,ends,scored',more',bounded⟩
      · exact .inl ⟨kept,.cons low bounded⟩
      · exact .inr ⟨y,mem_cons_of_mem _ member,t,ends,scored',more',
          .cons (fun s scored => (low s scored).trans (le_of_lt more')) bounded⟩

theorem scan_cases (score : α → Option β) (floor : β) (xs : List α) :
    (scan score floor xs = (none,floor) ∧ Bounded score xs floor) ∨
      ∃ x ∈ xs, ∃ s, scan score floor xs = (some x,s) ∧ score x = some s ∧ floor < s ∧ Bounded score xs s :=
  foldl_better_cases xs (none,floor)

theorem scan_cons {x : α} {s floor : β} (scored : score x = some s) (more : floor < s)
    (bounded : Bounded score xs s) : scan score floor (x :: xs) = (some x,s) := by
  have turn : better score (none,floor) x = (some x,s) := by simp only [better,scored,if_pos more]
  rw [scan,foldl_cons,turn]
  exact foldl_better_of_bounded bounded

end Mcpkit.Selection
