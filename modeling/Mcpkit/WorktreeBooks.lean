import Mcpkit.Ledger
import Mcpkit.WorktreeModel

/-!
Where the worktrees of the pool are: in its idle lists, in the hands of its calls, with their
holders.
-/
namespace Mcpkit.WorktreeBooks
open Ledger WorktreeModel List

variable {s s' : System} {i : Nat}

theorem idle_setIdle {rp : Nat} {pool : RepoPool} (idle : List PoolEntry) (path : String) (there : s.pools[rp]? = some pool) :
    (s.setIdle rp pool idle).idle path + pool.paths.count path = s.idle path + (idle.map PoolEntry.path).count path :=
  sum_map_set (fun pool => pool.paths.count path) { pool with idle := idle } there

variable {old : Phase}

open System

theorem live_setCall (there : s.calls[i]? = some old) (s₁ : System) (calls : s₁.calls = s.calls) (new : Phase)
    (path : String) : (s₁.setCall i new).live path + old.carried.count path =
      s₁.idle path + s.carried path + s₁.holders path + new.carried.count path := by
  have hand : (s₁.setCall i new).carried path + old.carried.count path = s₁.carried path + new.carried.count path :=
    sum_map_set (fun call => call.carried.count path) new (calls ▸ there)
  have same : s₁.carried path = s.carried path := by rw [carried,calls,carried]
  have live : (s₁.setCall i new).live path = s₁.idle path + (s₁.setCall i new).carried path + s₁.holders path := rfl
  omega

theorem named_setCall (there : s.calls[i]? = some old) (s₁ : System) (calls : s₁.calls = s.calls) (new : Phase)
    (path : String) : (s₁.setCall i new).named path + old.named.count path = s.named path + new.named.count path := by
  have name : (s₁.setCall i new).named path + old.named.count path = s₁.named path + new.named.count path :=
    sum_map_set (fun call => call.named.count path) new (calls ▸ there)
  rwa [show s₁.named path = s.named path by rw [named,calls,named]] at name

theorem live_begin (s₁ : System) (phase : Phase) (calls : s₁.calls = s.calls) (pools : s₁.pools = s.pools) (path : String) :
    (s₁.begin phase).live path = s.idle path + s.carried path + s₁.holders path + phase.carried.count path := by
  have hand : (s₁.begin phase).carried path = s.carried path + phase.carried.count path := by
    simp [begin,carried,calls]
  have idle : (s₁.begin phase).idle path = s.idle path := by simp [begin,idle,pools]
  have live : (s₁.begin phase).live path = (s₁.begin phase).idle path + (s₁.begin phase).carried path + s₁.holders path := rfl
  omega

theorem holders_leaves (s : System) {holder : Nat} {path : String} (some : path ≠ "") (other : String) :
    s.holders other ≤ (((Op.release holder path).leaves s.held).map Prod.snd).count other + [path].count other ∧
    ((holder,path) ∈ s.held →
      (((Op.release holder path).leaves s.held).map Prod.snd).count other + [path].count other = s.holders other) := by
  rw [leaves_release some]
  by_cases holds : (holder,path) ∈ s.held
  · have parts := ((perm_cons_erase holds).map Prod.snd).count_eq other
    simp only [map_cons] at parts
    rw [← singleton_append,count_append] at parts
    have same : s.holders other = (s.held.map Prod.snd).count other := rfl
    exact ⟨by omega,fun _ => by omega⟩
  · rw [erase_of_not_mem holds]
    exact ⟨Nat.le_add_right _ _,fun there => absurd there holds⟩

/-- The books of the pool; a path is numbered by the counter. -/
def books : Books System String where
  entries s path := s.live path + s.named path + s.destroyed.count path
  counter := System.counter
  numbered path seq := ∃ root now, path = wtPath root (poolName now seq)

/-- Where the worktrees are after a step: none is twice on the books, and none that is on disk is lost. -/
structure Balanced (s s' : System) : Prop where
  books : Moves books s s'
  lives : ∀ path ∈ s'.present, (path ∈ s.present ∧ s.live path ≤ s'.live path) ∨ 0 < s'.live path

section
variable (there : s.calls[i]? = some old)
include there

theorem Balanced.of_live (s₁ : System) (new : Phase) (calls : s₁.calls = s.calls)
    (counter : s₁.counter = s.counter) (present : s₁.present = s.present) (destroyed : s₁.destroyed = s.destroyed)
    (named : new.named = []) (moved : ∀ path, s₁.idle path + s₁.holders path + new.carried.count path =
      s.idle path + s.holders path + old.carried.count path) : Balanced s (s₁.setCall i new) := by
  have live (path : String) : (s₁.setCall i new).live path = s.live path := by
    have after := live_setCall there s₁ calls new path
    have before : s.live path = s.idle path + s.carried path + s.holders path := rfl
    have := moved path
    omega
  refine ⟨.keeps counter fun path => ?_,fun path inside => .inl ⟨present ▸ inside,Nat.le_of_eq (live path).symm⟩⟩
  have name := named_setCall there s₁ calls new path
  rw [named,count_nil] at name
  have gone : (s₁.setCall i new).destroyed = s.destroyed := destroyed
  simp only [WorktreeBooks.books,gone,live path]
  omega

theorem Balanced.of_destroy {path : String} (new : Phase)
    (carried : old.carried = path :: new.carried) (named : new.named = []) :
    Balanced s ((s.destroy path).setCall i new) := by
  have live (other : String) : ((s.destroy path).setCall i new).live other + [path].count other = s.live other := by
    have after := live_setCall there (s.destroy path) rfl new other
    have before : s.live other = (s.destroy path).idle other + s.carried other + (s.destroy path).holders other := rfl
    rw [carried,← singleton_append,count_append] at after
    omega
  refine ⟨.keeps rfl fun other => ?_,fun other inside => .inl ?_⟩
  · have name := named_setCall there (s.destroy path) rfl new other
    rw [named,count_nil] at name
    have gone : ((s.destroy path).setCall i new).destroyed.count other = s.destroyed.count other + [path].count other := by
      rw [← count_append]
      exact (perm_append_comm : ([path] ++ s.destroyed).Perm _).count_eq other
    have := live other
    simp only [WorktreeBooks.books,gone]
    omega
  · obtain ⟨present,different⟩ := List.mem_filter.mp inside
    have := live other
    rw [List.count_eq_zero.mpr (by simpa using different)] at this
    exact ⟨present,by omega⟩

theorem Balanced.of_create {path : String} (s₁ : System) (new : Phase)
    (calls : s₁.calls = s.calls) (counter : s₁.counter = s.counter) (present : s₁.present = path :: s.present)
    (destroyed : s₁.destroyed = s.destroyed) (named : old.named = [path]) (empty : old.carried = []) (named' : new.named = [])
    (moved : ∀ other, s₁.idle other + s₁.holders other + new.carried.count other =
      s.idle other + s.holders other + [path].count other) : Balanced s (s₁.setCall i new) := by
  have live (other : String) : (s₁.setCall i new).live other = s.live other + [path].count other := by
    have after := live_setCall there s₁ calls new other
    have before : s.live other = s.idle other + s.carried other + s.holders other := rfl
    have := moved other
    rw [empty,count_nil] at after
    omega
  refine ⟨.keeps counter fun other => ?_,fun other inside => ?_⟩
  · have name := named_setCall there s₁ calls new other
    rw [named,named',count_nil] at name
    have gone : (s₁.setCall i new).destroyed = s.destroyed := destroyed
    simp only [WorktreeBooks.books,gone,live other]
    omega
  · have inside : other ∈ path :: s.present := present ▸ inside
    rcases List.mem_cons.mp inside with rfl | before
    · exact .inr (by rw [live]; simp)
    · exact .inl ⟨before,by rw [live]; omega⟩

end

theorem holders_hold (s : System) (i : Nat) (path other : String) :
    (s.hold i path).holders other = s.holders other + [path].count other := by
  rw [holders,holders,← count_append]
  exact (perm_append_comm : ([path] ++ s.held.map Prod.snd).Perm _).count_eq other

theorem balanced_of_change (there : s.calls[i]? = some old) (change : Change s i old s') : Balanced s s' := by
  cases change with
  | goes new follows carried named => exact .of_live there s new rfl rfl rfl rfl named (fun path => by rw [carried])
  | locates op root was =>
    subst was
    rcases getOrCreate_cases s root with same | same <;> rw [same]
    · exact .of_live there s _ rfl rfl rfl rfl rfl (fun path => rfl)
    · refine .of_live there _ _ rfl rfl rfl rfl rfl (fun path => ?_)
      rw [show idle { s with repos := _, pools := s.pools ++ [⟨root,[]⟩] } path = s.idle path by
        simp [idle,RepoPool.paths]]
      rfl
  | swaps was =>
    subst was
    exact .of_live there _ _ rfl rfl rfl rfl rfl (fun path => rfl)
  | takes rp pool kept taken new inside parts later pending empty carried named =>
    refine .of_live there _ new rfl rfl rfl rfl named (fun path => ?_)
    have pooled := idle_setIdle kept path inside
    have split : (kept.map PoolEntry.path).count path + (taken.map PoolEntry.path).count path = pool.paths.count path := by
      rw [← count_append,← map_append]
      exact (parts.map PoolEntry.path).count_eq path
    have held : (s.setIdle rp pool kept).holders path = s.holders path := rfl
    rw [empty,carried,count_nil]
    omega
  | stores rp pool entry new inside room adds follows carried empty named =>
    refine .of_live there _ new rfl rfl rfl rfl named (fun path => ?_)
    have pooled := idle_setIdle (pool.idle ++ [entry]) path inside
    have more : ((pool.idle ++ [entry]).map PoolEntry.path).count path = pool.paths.count path + [entry.path].count path := by
      rw [map_append,count_append]
      rfl
    have held : (s.setIdle rp pool (pool.idle ++ [entry])).holders path = s.holders path := rfl
    rw [empty,carried,count_nil]
    omega
  | destroys path new follows carried named => exact .of_destroy there new carried named
  | returns path result follows carried =>
    refine .of_live there _ _ rfl rfl rfl rfl rfl (fun other => ?_)
    have idle : (s.hold i path).idle other = s.idle other := rfl
    have none : (Phase.done result).carried.count other = 0 := rfl
    rw [carried,holders_hold]
    omega
  | names root now new follows empty empty' named =>
    have live (path : String) : (setCall { s with counter := s.counter+1 } i new).live path = s.live path := by
      have after := live_setCall there { s with counter := s.counter+1 } rfl new path
      rwa [empty,empty'] at after
    refine ⟨.issues (wtPath root (poolName now (s.counter+1))) rfl ⟨root,now,rfl⟩ fun path => ?_,
      fun path inside => .inl ⟨inside,Nat.le_of_eq (live path).symm⟩⟩
    have name := named_setCall there { s with counter := s.counter+1 } rfl new path
    have gone : (setCall { s with counter := s.counter+1 } i new).destroyed = s.destroyed := rfl
    rw [named] at name
    simp only [WorktreeBooks.books,live path,gone]
    omega
  | creates path new absent follows named empty carried named' =>
    refine .of_create there _ new rfl rfl rfl rfl named empty named' (fun other => ?_)
    rw [carried]
    rfl
  | createsHeld path result absent follows named empty =>
    refine .of_create there _ _ rfl rfl rfl rfl named empty rfl (fun other => ?_)
    rw [holders_hold]
    exact (Nat.add_assoc _ _ _).symm

end Mcpkit.WorktreeBooks
