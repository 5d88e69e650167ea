import Mathlib.Algebra.GroupWithZero.Nat
import Mathlib.Data.List.Basic

/-!
Books of numbered things. Each step of a system moves things between its accounts, drops some, or
issues one with the next number; then no thing is ever on the books twice, since the number of a
new one is on none of them.
-/
namespace Mcpkit.Ledger
open List
variable {σ τ : Type}

/-- How often a thing is on the books of a state, and the last number that was issued. -/
structure Books (σ τ : Type) where
  entries : σ → τ → Nat
  counter : σ → Nat
  numbered : τ → Nat → Prop

inductive Moves [DecidableEq τ] (B : Books σ τ) (s s' : σ) : Prop
  | keeps (same : B.counter s' = B.counter s) (fewer : ∀ t, B.entries s' t ≤ B.entries s t)
  | issues (new : τ) (next : B.counter s' = B.counter s+1) (numbered : B.numbered new (B.counter s'))
    (fewer : ∀ t, B.entries s' t ≤ B.entries s t + [new].count t)

structure Sound (B : Books σ τ) (s : σ) : Prop where
  once : ∀ t, B.entries s t ≤ 1
  issued : ∀ t, 0 < B.entries s t → ∃ n, B.numbered t n ∧ n ≤ B.counter s

theorem Sound.moves [DecidableEq τ] {B : Books σ τ} {s s' : σ} (unique : ∀ t m n, B.numbered t m → B.numbered t n → m = n)
    (sound : Sound B s) (moves : Moves B s s') : Sound B s' := by
  cases moves with
  | keeps same fewer =>
    refine ⟨fun t => Nat.le_trans (fewer t) (sound.once t),fun t some => ?_⟩
    rw [same]
    exact sound.issued t (Nat.lt_of_lt_of_le some (fewer t))
  | issues new next numbered fewer =>
    have unissued : B.entries s new = 0 := by
      by_contra there
      obtain ⟨n,old,small⟩ := sound.issued new (Nat.pos_of_ne_zero there)
      have := unique new n _ old numbered
      omega
    have others (t : τ) (other : t ≠ new) : B.entries s' t ≤ B.entries s t := by
      have := fewer t
      rwa [count_singleton,if_neg (by simpa using other.symm)] at this
    constructor
    · intro t
      by_cases same : t = new
      · subst same
        simpa [unissued] using fewer t
      · exact Nat.le_trans (others t same) (sound.once t)
    · intro t some
      by_cases same : t = new
      · exact ⟨_,same ▸ numbered,Nat.le_refl _⟩
      · obtain ⟨n,old,small⟩ := sound.issued t (Nat.lt_of_lt_of_le some (others t same))
        exact ⟨n,old,by omega⟩

theorem sum_map_set {α : Type} (f : α → Nat) {a : α} (b : α) : ∀ {accounts : List α} {i : Nat}, accounts[i]? = some a →
    ((accounts.set i b).map f).sum + f a = (accounts.map f).sum + f b
  | [],_,there => by simp at there
  | account :: rest,0,there => by
    obtain rfl : account = a := by simpa using there
    simp only [set_cons_zero,map_cons,sum_cons]
    omega
  | account :: rest,i+1,there => by
    have later : ((rest.set i b).map f).sum + f a = (rest.map f).sum + f b := sum_map_set f b (by simpa using there)
    simp only [set_cons_succ,map_cons,sum_cons]
    omega

end Mcpkit.Ledger
