import Mathlib.Data.List.Nodup
import Mcpkit.Transitions
import Mcpkit.WorktreeBooks

/-!
Worktree exclusivity. A worktree is idle, in the hands of one call, held by one caller or
destroyed, as long as callers release what they hold.
-/
namespace Mcpkit.WorktreeExclusive
open Ledger Transitions WorktreeBooks WorktreeModel List

/-- A path is given back by a caller that does not hold it. -/
def Misreleases (s : System) : Action → Prop
  | .call (.release holder path) => s.closed = false ∧ path ≠ "" ∧ (holder,path) ∉ s.held
  | _ => False

instance (s : System) : (a : Action) → Decidable (Misreleases s a)
  | .call (.release _ _) => inferInstanceAs (Decidable (_ ∧ _))
  | .call .acquire => .isFalse id
  | .call (.fill _ _) => .isFalse id
  | .call .drain => .isFalse id
  | .cleanupStale _ => .isFalse id
  | .close => .isFalse id
  | .run _ _ => .isFalse id

variable {s s' : System} {i : Nat} {old : Phase}

/-! ### The books -/

theorem moves_of_begin (s₁ : System) (phase : Phase) (calls : s₁.calls = s.calls) (pools : s₁.pools = s.pools)
    (counter : s₁.counter = s.counter) (destroyed : s₁.destroyed = s.destroyed) (named : phase.named = [])
    (fewer : ∀ path, s₁.holders path + phase.carried.count path ≤ s.holders path) : Moves books s (s₁.begin phase) := by
  refine .keeps counter fun path => ?_
  have live := live_begin s₁ phase calls pools path
  have before : s.live path = s.idle path + s.carried path + s.holders path := rfl
  have name : (s₁.begin phase).named path = s.named path := by simp [System.begin,System.named,calls,named]
  have gone : (s₁.begin phase).destroyed = s.destroyed := destroyed
  have := fewer path
  simp only [books,name,gone]
  omega

theorem moves_call (op : Op) (proper : ¬ Misreleases s (.call op)) :
    Moves books s (System.begin { s with held := op.leaves s.held } (op.begun s.closed)) := by
  rcases begun_cases s.closed op with ⟨result,returned,-⟩ | ⟨going,going'⟩
  · rw [returned]
    refine moves_of_begin _ _ rfl rfl rfl rfl rfl (fun path => ?_)
    exact ((leaves_sublist s.held op).map Prod.snd).count_le path
  · rw [going]
    refine moves_of_begin _ _ rfl rfl rfl rfl rfl (fun path => ?_)
    cases op with
    | release holder other =>
      have holds : (holder,other) ∈ s.held := by
        by_contra missing
        exact proper ⟨going'.1,going'.2 holder other rfl,missing⟩
      exact Nat.le_of_eq ((holders_leaves s (going'.2 holder other rfl) path).2 holds)
    | acquire | fill report count | drain => exact Nat.le_refl _

theorem moves_step {a : Action} (proper : ¬ Misreleases s a) (moved : step s a = some s') : Moves books s s' := by
  cases a with
  | call op =>
    cases moved
    exact moves_call op proper
  | cleanupStale olderThan =>
    cases moved
    refine moves_of_begin s _ rfl rfl rfl rfl ?_ (fun path => ?_) <;> split <;> simp [Phase.named,Phase.carried]
  | close =>
    simp only [step] at moved
    split at moved <;> cases moved
    · exact moves_of_begin s _ rfl rfl rfl rfl rfl (fun _ => Nat.le_refl _)
    · exact moves_of_begin _ _ rfl rfl rfl rfl rfl (fun _ => Nat.le_refl _)
  | run i env =>
    obtain ⟨phase,there,moved⟩ := Option.bind_eq_some_iff.mp moved
    exact (balanced_of_change there (advance_change moved)).books

theorem sound_newPool (size : Int) (existing : List String) : Sound books (newPool size existing) := by
  have none (path : String) : books.entries (newPool size existing) path = 0 := rfl
  exact ⟨fun path => by simp [none],fun path some => by simp [none] at some⟩

/-! ### The idle lists -/

/-- The idle lists are no longer than the pool's size. -/
structure Bounded (size : Nat) (s : System) : Prop where
  constant : s.poolSize = size
  idle : ∀ pool ∈ s.pools, pool.idle.length ≤ size

section
variable {size : Nat} (bounded : Bounded size s)
include bounded

theorem Bounded.setIdle {rp : Nat} {pool : RepoPool} {idle : List PoolEntry}
    (fits : idle.length ≤ size) : Bounded size (s.setIdle rp pool idle) :=
  ⟨bounded.constant,forall_mem_set bounded.idle fits⟩

theorem Bounded.same (same : s'.poolSize = s.poolSize) (pools : s'.pools = s.pools) :
    Bounded size s' := ⟨same.trans bounded.constant,pools ▸ bounded.idle⟩

theorem Bounded.change (change : Change s i old s') : Bounded size s' := by
  cases change with
  | takes rp pool kept taken new inside parts later pending empty carried named =>
    have shorter := parts.length_eq
    rw [length_append] at shorter
    have before := bounded.idle pool (mem_of_getElem? inside)
    exact (bounded.setIdle (by omega)).same rfl rfl
  | stores rp pool entry new inside room adds follows carried empty named =>
    have fits : (pool.idle ++ [entry]).length ≤ size := by
      rw [← bounded.constant,length_append]
      exact room
    exact (bounded.setIdle fits).same rfl rfl
  | locates op root was =>
    have found : Bounded size (s.getOrCreateRepoPool root).1 := by
      rcases getOrCreate_cases s root with same | same <;> rw [same]
      · exact bounded
      · exact ⟨bounded.constant,forall_mem_snoc bounded.idle (Nat.zero_le _)⟩
    exact found.same rfl rfl
  | _ => exact bounded.same rfl rfl

theorem Bounded.step {a : Action} (moved : step s a = some s') : Bounded size s' := by
  cases a with
  | run i env =>
    obtain ⟨phase,there,moved⟩ := Option.bind_eq_some_iff.mp moved
    exact bounded.change (advance_change moved)
  | close =>
    simp only [WorktreeModel.step] at moved
    split at moved <;> cases moved <;> exact bounded.same rfl rfl
  | call op | cleanupStale olderThan =>
    cases moved
    exact bounded.same rfl rfl

end

/-- In every run the idle lists stay within the pool's size; and in every run in which callers release only what they
    hold, no worktree is held twice or idle twice, and none that is held was destroyed before. -/
theorem worktrees_exclusive (size : Int) (existing : List String) :
    (∀ s, Reachable step free (newPool size existing) s →
      ∀ pool ∈ s.pools, pool.idle.length ≤ (newPool size existing).poolSize) ∧
    ∀ s, Reachable step (fun s a => ¬ Misreleases s a) (newPool size existing) s →
      (s.held.map Prod.snd).Nodup ∧ (s.pools.flatMap RepoPool.paths).Nodup ∧
      ∀ held ∈ s.held, held.2 ∉ s.destroyed := by
  constructor
  · intro s reached
    have bounded : Bounded (newPool size existing).poolSize s :=
      reached.invariant (I := Bounded (newPool size existing).poolSize) ⟨rfl,by simp [newPool]⟩
        (fun _ _ _ bounded _ moved => bounded.step moved)
    exact bounded.idle
  · intro s reached
    have unique (path : String) (m n : Nat) : books.numbered path m → books.numbered path n → m = n := by
      rintro ⟨root,now,rfl⟩ ⟨root',now',same⟩
      exact wtPath_unique same
    have sound : Sound books s :=
      reached.invariant (I := Sound books) (sound_newPool size existing)
        (fun _ _ _ sound proper moved => sound.moves unique (moves_step proper moved))
    have once (path : String) : s.idle path + s.carried path + s.holders path + s.named path + s.destroyed.count path ≤ 1 :=
      sound.once path
    refine ⟨nodup_iff_count_le_one.mpr fun path => ?_,nodup_iff_count_le_one.mpr fun path => ?_,?_⟩
    · have := once path
      rw [System.holders] at this
      omega
    · have := once path
      have idle : (s.pools.flatMap RepoPool.paths).count path = s.idle path := count_flatMap
      omega
    · intro held member gone
      have := once held.2
      have holds : 0 < s.holders held.2 := count_pos_iff.mpr (mem_map_of_mem member)
      have := count_pos_iff.mpr gone
      omega

/-- Two worktrees are acquired; the first is released and acquired again. -/
def reused : List Action :=
  whole 0 .acquire 5 ++ whole 1 .acquire 5 ++ whole 2 (.release 0 path₁) 4 ++ whole 3 .acquire 5

theorem worktrees_exclusive_sample : let s := (exec step free (newPool 2 []) reused).getD (newPool 2 [])
    s.held = [(3,path₁),(1,path₂)] ∧ (s.held.map Prod.snd).Nodup ∧
    (s.pools.flatMap RepoPool.paths).Nodup ∧ ∀ pool ∈ s.pools, pool.idle.length ≤ 2 := by
  intro s
  have exclusive := worktrees_exclusive 2 []
  have reached : Reachable step (fun s a => ¬ Misreleases s a) (newPool 2 []) s := exec_reachable reused .start rfl
  obtain ⟨held,idle,-⟩ := exclusive.2 s reached
  exact ⟨by decide,held,idle,exclusive.1 s (exec_reachable reused .start rfl)⟩

/-- A worktree that is released twice is idle twice, and then has two holders. -/
theorem released_twice_held_twice :
    let released := whole 0 .acquire 5 ++ whole 1 (.release 0 path₁) 4 ++ whole 2 (.release 0 path₁) 4
    let acquired := released ++ whole 3 .acquire 5 ++ whole 4 .acquire 5
    ((exec step free (newPool 2 []) released).map (fun s => s.pools.flatMap RepoPool.paths) = some [path₁,path₁]) ∧
    (exec step free (newPool 2 []) acquired).map System.held = some [(4,path₁),(3,path₁)] := by
  decide

end Mcpkit.WorktreeExclusive
