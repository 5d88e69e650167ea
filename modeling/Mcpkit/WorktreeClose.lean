import Mcpkit.Transitions
import Mcpkit.WorktreeBooks

/-!
Closing the worktree pool. `Close` empties the pools that the map holds when it takes the map
away.
-/
namespace Mcpkit.WorktreeClose
open Transitions WorktreeBooks WorktreeModel List

/-- A worktree is released to a closed pool, or put into an idle list of one. -/
def Leaks (s : System) : Action → Prop
  | .call (.release _ path) => s.closed ∧ path ≠ ""
  | .run i _ => s.closed ∧ s.calls[i]?.any (Adds s)
  | _ => False

instance (s : System) : (a : Action) → Decidable (Leaks s a)
  | .call (.release _ _) => inferInstanceAs (Decidable (_ ∧ _))
  | .call .acquire => .isFalse id
  | .call (.fill _ _) => .isFalse id
  | .call .drain => .isFalse id
  | .cleanupStale _ => .isFalse id
  | .close => .isFalse id
  | .run _ _ => inferInstanceAs (Decidable (_ ∧ _))

/-- `Close` is still to empty the pool. -/
def Pending (s : System) (rp : Nat) : Prop := ∃ call ∈ s.calls, rp ∈ call.pending s.repos

/-- Every worktree is somewhere, and idle only in the map's pools or those that `Close` is still to empty. -/
structure Tidy (existing : List String) (s : System) : Prop where
  accounted : ∀ path ∈ s.present, path ∈ existing ∨ 0 < s.live path
  mapped : s.closed = false → ∀ rp < s.pools.length, rp ∈ s.repos.map Prod.snd
  swept : s.closed = true → ∀ rp pool, s.pools[rp]? = some pool → pool.idle ≠ [] → Pending s rp
  begun : .closing ∈ s.calls → s.closed = true

variable {s s' : System} {i : Nat} {old new : Phase} {existing : List String}

/-! ### What `Close` is still to do -/

open System

theorem mem_setCall (there : s.calls[i]? = some old) (new : Phase) {call : Phase} (member : call ∈ s.calls) :
    call = old ∨ call ∈ (s.setCall i new).calls := by
  obtain ⟨j,found⟩ := mem_iff_getElem?.mp member
  by_cases same : i = j
  · subst same
    exact .inl (Option.some.inj (found.symm.trans there))
  · refine .inr (mem_of_getElem? (i := j) ?_)
    rw [setCall,getElem?_set_ne same]
    exact found

theorem new_mem_setCall (there : s.calls[i]? = some old) (new : Phase) : new ∈ (s.setCall i new).calls :=
  mem_set (lt_of_getElem? there) new

theorem pending_const {call : Phase} (other : call ≠ .closing) (repos repos' : List (String × Nat)) :
    call.pending repos = call.pending repos' := by
  cases call with
  | closing => exact absurd rfl other
  | sweeping sweep todo | destroying sweep entries todo => cases sweep <;> rfl
  | _ => rfl

theorem pending_mono {repos repos' : List (String × Nat)} (more : ∀ entry ∈ repos, entry ∈ repos') {rp : Nat} {call : Phase}
    (inside : rp ∈ call.pending repos) : rp ∈ call.pending repos' := by
  by_cases first : call = .closing
  · subst first
    obtain ⟨entry,member,rfl⟩ := List.mem_map.mp inside
    exact mem_map_of_mem (more entry member)
  · rwa [pending_const first repos' repos]

theorem pending_setCall {rp : Nat} (there : s.calls[i]? = some old) (s₁ : System) (new : Phase) (calls : s₁.calls = s.calls)
    (more : ∀ entry ∈ s.repos, entry ∈ s₁.repos) (own : rp ∈ old.pending s.repos → rp ∈ new.pending s₁.repos)
    (pending : Pending s rp) : Pending (s₁.setCall i new) rp := by
  obtain ⟨call,member,inside⟩ := pending
  rw [← calls] at there member
  rcases mem_setCall there new member with rfl | still
  · exact ⟨new,new_mem_setCall there new,own inside⟩
  · exact ⟨call,still,pending_mono more inside⟩

theorem idle_setIdle_before {rp rp' : Nat} {pool pool' : RepoPool} {kept taken : List PoolEntry}
    (there : s.pools[rp']? = some pool') (parts : (kept ++ taken).Perm pool'.idle)
    (inside : (s.setIdle rp' pool' kept).pools[rp]? = some pool) (some : pool.idle ≠ []) :
    ∃ before, s.pools[rp]? = Option.some before ∧ before.idle ≠ [] ∧ (rp = rp' → kept ≠ []) := by
  by_cases same : rp' = rp
  · subst same
    rw [setIdle,getElem?_set_some there,Option.some.injEq] at inside
    subst inside
    refine ⟨pool',there,fun empty => some ?_,fun _ => some⟩
    rw [empty] at parts
    exact (List.append_eq_nil_iff.mp parts.eq_nil).1
  · rw [setIdle,getElem?_set_ne same] at inside
    exact ⟨pool,inside,some,fun same' => absurd same'.symm same⟩

theorem swept_change (there : s.calls[i]? = some old) (change : Change s i old s') (quiet : ¬ Adds s old)
    (swept : ∀ rp pool, s.pools[rp]? = some pool → pool.idle ≠ [] → Pending s rp) :
    ∀ rp pool, s'.pools[rp]? = some pool → pool.idle ≠ [] → Pending s' rp := by
  intro rp pool inside some
  cases change with
  | locates op root was =>
    subst was
    rcases getOrCreate_cases s root with same | same <;> rw [same] at inside ⊢
    · exact pending_setCall there s _ rfl (fun _ => id) nofun (swept rp pool inside some)
    · have before : s.pools[rp]? = Option.some pool := by
        by_cases old : rp < s.pools.length
        · rwa [setCall,getElem?_append_left old] at inside
        · rw [setCall,getElem?_append_right (Nat.le_of_not_lt old)] at inside
          rw [List.mem_singleton.mp (mem_of_getElem? inside)] at some
          exact absurd rfl some
      exact pending_setCall there _ _ rfl (fun _ => mem_append_left _) nofun (swept rp pool before some)
  | swaps was =>
    subst was
    obtain ⟨call,member,pending⟩ := swept rp pool inside some
    rcases mem_setCall there (.sweeping .close (s.repos.map Prod.snd)) member with rfl | still
    · exact ⟨_,new_mem_setCall there _,pending⟩
    · by_cases first : call = .closing
      · subst first
        exact ⟨_,new_mem_setCall there _,pending⟩
      · refine ⟨call,still,?_⟩
        rwa [pending_const first _ s.repos]
  | takes rp' pool' kept taken new inside' parts later pending empty carried named =>
    obtain ⟨pool₀,there₀,some₀,left⟩ := idle_setIdle_before inside' parts inside some
    refine pending_setCall there _ new rfl (fun _ => id) (fun own => ?_) (swept rp pool₀ there₀ some₀)
    rcases pending rp own with ⟨same,none⟩ | still
    · exact absurd none (left same)
    · exact still
  | stores rp' pool' entry new inside' room adds follows carried empty named => exact absurd adds quiet
  | goes new follows carried named =>
    exact pending_setCall there s new rfl (fun _ => id) (follows.pending rp) (swept rp pool inside some)
  | destroys path new follows carried named =>
    exact pending_setCall there _ new rfl (fun _ => id) (follows.pending rp) (swept rp pool inside some)
  | returns path result follows carried =>
    exact pending_setCall there _ _ rfl (fun _ => id) (follows.pending rp) (swept rp pool inside some)
  | names root now new follows empty empty' named | creates path new absent follows named empty carried named' =>
    exact pending_setCall there _ new rfl (fun _ => id) (follows.pending rp) (swept rp pool inside some)
  | createsHeld path result absent follows named empty =>
    exact pending_setCall there _ _ rfl (fun _ => id) (follows.pending rp) (swept rp pool inside some)

/-! ### The map and the flag -/

theorem closing_setCall (member : .closing ∈ (s.setCall i new).calls) (later : new ≠ .closing) : .closing ∈ s.calls := by
  rcases mem_or_eq_of_mem_set member with before | same
  · exact before
  · exact absurd same.symm later

section
variable (change : Change s i old s')
include change

theorem closing_change (member : .closing ∈ s'.calls) : .closing ∈ s.calls := by
  cases change with
  | goes new follows carried named => exact closing_setCall member follows.later
  | locates op root was =>
    have before := closing_setCall member nofun
    rcases getOrCreate_cases s root with same | same <;> rwa [same] at before
  | swaps was => exact closing_setCall (s := { s with repos := [] }) member nofun
  | takes rp' pool' kept taken new inside' parts later pending empty carried named => exact closing_setCall member later
  | stores rp' pool' entry new inside' room adds follows carried empty named => exact closing_setCall member follows.later
  | destroys path new follows carried named => exact closing_setCall member follows.later
  | returns path result follows carried => exact closing_setCall member nofun
  | names root now new follows empty empty' named => exact closing_setCall member follows.later
  | creates path new absent follows named empty carried named' => exact closing_setCall member follows.later
  | createsHeld path result absent follows named empty => exact closing_setCall member nofun

theorem closed_change : s'.closed = s.closed := by
  cases change with
  | locates op root was => rcases getOrCreate_cases s root with same | same <;> rw [same] <;> rfl
  | _ => rfl

theorem mapped_change (open_ : old ≠ .closing)
    (mapped : ∀ rp < s.pools.length, rp ∈ s.repos.map Prod.snd) : ∀ rp < s'.pools.length, rp ∈ s'.repos.map Prod.snd := by
  cases change with
  | locates op root was =>
    rcases getOrCreate_cases s root with same | same <;> rw [same]
    · exact mapped
    · intro rp small
      simp only [setCall,length_append,length_singleton] at small
      simp only [setCall,map_append,mem_append,map_cons,map_nil,mem_singleton]
      by_cases before : rp < s.pools.length
      · exact .inl (mapped rp before)
      · exact .inr (by omega)
  | swaps was => exact absurd was open_
  | takes rp' pool' kept taken new inside' parts later pending empty carried named =>
    simpa [setCall,setIdle] using mapped
  | stores rp' pool' entry new inside' room adds follows carried empty named =>
    simpa [setCall,setIdle] using mapped
  | _ => exact mapped

end

/-! ### The steps -/

section
variable (tidy : Tidy existing s)
include tidy

theorem Tidy.begin (s₁ : System) (phase : Phase) (calls : s₁.calls = s.calls)
    (pools : s₁.pools = s.pools) (present : s₁.present = s.present) (repos : s₁.repos = s.repos) (closed : s₁.closed = s.closed)
    (later : phase ≠ .closing) (held : ∀ path, s.holders path ≤ s₁.holders path + phase.carried.count path) :
    Tidy existing (s₁.begin phase) := by
  refine ⟨fun path inside => ?_,?_,fun flag rp pool inside some => ?_,fun member => ?_⟩
  · rcases tidy.accounted path (present ▸ inside) with before | live
    · exact .inl before
    · have after := live_begin s₁ phase calls pools path
      have before : s.live path = s.idle path + s.carried path + s.holders path := rfl
      have := held path
      exact .inr (by omega)
  · simp only [System.begin,closed,pools,repos]
    exact tidy.mapped
  · simp only [System.begin,closed,pools] at flag inside
    obtain ⟨call,member,pending⟩ := tidy.swept flag rp pool inside some
    refine ⟨call,?_,?_⟩
    · simp only [System.begin,calls]
      exact mem_append_left _ member
    · simp only [System.begin,repos]
      exact pending
  · simp only [System.begin,calls,closed] at member ⊢
    rcases List.mem_append.mp member with before | new
    · exact tidy.begun before
    · exact absurd (List.mem_singleton.mp new).symm later

theorem Tidy.call (op : Op) (quiet : ¬ Leaks s (.call op)) :
    Tidy existing (System.begin { s with held := op.leaves s.held } (op.begun s.closed)) := by
  rcases begun_cases s.closed op with ⟨result,returned,why⟩ | ⟨going,-,nonempty⟩
  · have kept : op.leaves s.held = s.held := by
      cases op with
      | release holder path =>
        have empty : path = "" := by
          rcases why with flag | ⟨holder',same⟩
          · by_contra some
            exact quiet ⟨flag,some⟩
          · cases same
            rfl
        rw [empty]
        rfl
      | _ => rfl
    rw [returned,kept]
    exact tidy.begin s _ rfl rfl rfl rfl rfl nofun (fun path => Nat.le_add_right _ _)
  · rw [going]
    refine tidy.begin _ _ rfl rfl rfl rfl rfl nofun (fun path => ?_)
    cases op with
    | release holder other => exact (holders_leaves s (nonempty holder other rfl) path).1
    | _ => exact Nat.le_add_right _ _

theorem Tidy.close (open_ : s.closed = false) : Tidy existing (System.begin { s with closed := true } .closing) := by
  refine ⟨fun path inside => ?_,nofun,fun _ rp pool inside some => ?_,fun _ => rfl⟩
  · rcases tidy.accounted path inside with before | live
    · exact .inl before
    · have after := live_begin { s with closed := true } .closing rfl rfl path
      exact .inr (Nat.lt_of_lt_of_eq live after.symm)
  · exact ⟨.closing,mem_append_right _ mem_cons_self,tidy.mapped open_ rp (lt_of_getElem? inside)⟩

theorem Tidy.run {phase : Phase} (there : s.calls[i]? = some phase)
    (quiet : s.closed = true → ¬ Adds s phase) (change : Change s i phase s') : Tidy existing s' := by
  have closed := closed_change change
  refine ⟨fun path inside => ?_,fun flag => ?_,fun flag => ?_,fun member => ?_⟩
  · rcases (balanced_of_change there change).lives path inside with ⟨before,more⟩ | live
    · exact (tidy.accounted path before).imp_right (fun live => Nat.lt_of_lt_of_le live more)
    · exact .inr live
  · rw [closed] at flag
    refine mapped_change change ?_ (tidy.mapped flag)
    rintro rfl
    rw [tidy.begun (mem_of_getElem? there)] at flag
    cases flag
  · rw [closed] at flag
    exact swept_change there change (quiet flag) (tidy.swept flag)
  · rw [closed]
    exact tidy.begun (closing_change change member)

theorem Tidy.step {a : Action} (quiet : ¬ Leaks s a) (moved : step s a = some s') : Tidy existing s' := by
  cases a with
  | call op =>
    cases moved
    exact tidy.call op quiet
  | cleanupStale olderThan =>
    cases moved
    exact tidy.begin s _ rfl rfl rfl rfl rfl (by split <;> nofun) (fun path => Nat.le_add_right _ _)
  | close =>
    simp only [WorktreeModel.step] at moved
    split at moved <;> cases moved
    · exact tidy.begin s _ rfl rfl rfl rfl rfl nofun (fun path => Nat.le_add_right _ _)
    · rename_i open_
      exact tidy.close (Bool.eq_false_iff.mpr open_)
  | run i env =>
    obtain ⟨phase,there,moved⟩ := Option.bind_eq_some_iff.mp moved
    refine tidy.run there (fun flag adds => quiet ⟨flag,?_⟩) (advance_change moved)
    rw [there]
    exact adds

end

theorem tidy_newPool (size : Int) (existing : List String) : Tidy existing (newPool size existing) :=
  ⟨fun _ inside => .inl inside,fun _ _ small => absurd small (Nat.not_lt_zero _),nofun,nofun⟩

/-- Two worktrees are acquired and one released; an `Acquire` that is under way when the
    pool is closed takes it before `Close` comes to its idle list. -/
def closedInTime : List Action :=
  whole 0 .acquire 5 ++ whole 1 .acquire 5 ++ whole 2 (.release 0 path₁) 4 ++ whole 3 .acquire 2 ++
    .close :: steps 4 1 ++ steps 3 3 ++ steps 4 3

end Mcpkit.WorktreeClose
