import Mathlib.Algebra.GroupWithZero.Nat
import Mcpkit.Delimited

/-!
The worktree pool. Every call goes through lock sections with git commands between them, and a
step of the system is one of these of one call.
-/
namespace Mcpkit.WorktreeModel
open Delimited List Option

/-! ### The pool and its calls -/

def defaultPoolSize : Nat := 4

structure PoolEntry where
  path : String
  branch : String
  createdAt : Int
  deriving DecidableEq

structure RepoPool where
  repoRoot : String
  idle : List PoolEntry
  deriving DecidableEq

/-- The calls for one repository. A worktree is released for the `Acquire` that returned it;
    `Warm` and `PreWarm` fill the pool, with a report of how many or not. -/
inductive Op where
  | acquire
  | release (holder : Nat) (path : String)
  | fill (report : Bool) (count : Int)
  | drain
  deriving DecidableEq

def warm (count : Int) : Op := .fill false count

def preWarm (count : Int) : Op := .fill true count

/-- What a new worktree is for; a `Warm` has some left to create. -/
inductive Purpose where
  | acquire
  | fill (report : Bool) (left created : Nat)
  deriving DecidableEq

/-- The calls that take entries from idle lists to destroy them. -/
inductive Sweep where
  | drain
  | cleanupStale (cutoff : Int) (cleaned : Nat)
  | close
  deriving DecidableEq

inductive Result where
  | acquired (path branch : String)
  | failed (err : String)
  | released
  | filled (created : Option Nat)
  | drained
  | cleaned (total : Nat)
  | closed
  deriving DecidableEq

/-- Where a call is: what it does next, with what it has in hand. -/
inductive Phase where
  -- `resolveRepoRoot`, then `getOrCreateRepoPool`, then the call's own first section
  | resolving (op : Op)
  | locating (op : Op) (root : String)
  | pooled (op : Op) (rp : Nat)
  -- `Acquire` with an entry: `resetWorktree`, then it returns, or destroys the worktree
  | popped (rp : Nat) (entry : PoolEntry)
  | reset (entry : PoolEntry)
  | rejected (rp : Nat) (entry : PoolEntry)
  -- `createFreshWorktree`: the counter, then `git worktree add`
  | creating (rp : Nat) (purpose : Purpose)
  | adding (rp : Nat) (purpose : Purpose) (path branch : String)
  -- `Release` after `cleanWorktree`
  | clean (rp : Nat) (path : String)
  | discarding (path : String)
  -- `Warm` at its loop head, and with a new worktree
  | filling (rp : Nat) (report : Bool) (left created : Nat)
  | storing (rp : Nat) (path branch : String) (report : Bool) (left created : Nat)
  -- `Close` and `CleanupStale` before they read the map; then pool by pool
  | closing
  | copying (olderThan : Int)
  | sweeping (sweep : Sweep) (todo : List Nat)
  | destroying (sweep : Sweep) (entries : List PoolEntry) (todo : List Nat)
  | done (result : Result)
  deriving DecidableEq

/-- Pools are never freed: `repos` has the indices of those that the map holds. `held` has the `Acquire` call of
    each worktree, and `destroyed` is history. -/
structure System where
  repos : List (String × Nat)
  pools : List RepoPool
  poolSize : Nat
  counter : Nat
  closed : Bool
  calls : List Phase
  present : List String
  held : List (Nat × String)
  destroyed : List String
  deriving DecidableEq

/-- `NewPool`, with directories that are there before it. -/
def newPool (size : Int) (present : List String) : System where
  repos := []
  pools := []
  poolSize := if size ≤ 0 then defaultPoolSize else size.toNat
  counter := 0
  closed := false
  calls := []
  present := present
  held := []
  destroyed := []

/-- What git, the file system, the clock and the order of a map do in a step. -/
structure Env where
  root : Except String String
  statErr : Bool
  createErr : Option String
  cancelled : Bool
  now : Int
  branch : String
  pick : Nat

variable (s : System) (i : Nat)

def System.setCall (phase : Phase) : System := { s with calls := s.calls.set i phase }

def System.setIdle (rp : Nat) (pool : RepoPool) (idle : List PoolEntry) : System :=
  { s with pools := s.pools.set rp { pool with idle := idle } }

variable (path : String)

def System.hold : System := { s with held := (i,path) :: s.held }

/-- `destroyWorktree`. Nothing is at the empty path, for which it returns at once. -/
def System.destroy : System :=
  { s with present := s.present.filter (· ≠ path), destroyed := path :: s.destroyed }

/-- `getOrCreateRepoPool`, after the root is known. -/
def System.getOrCreateRepoPool (root : String) : System × Nat :=
  match s.repos.lookup root with
  | some rp => (s,rp)
  | none => ({ s with repos := s.repos ++ [(root,s.pools.length)], pools := s.pools ++ [⟨root,[]⟩] },s.pools.length)

/-- The name of a worktree; times are in nanoseconds. -/
def poolName (now : Int) (seq : Nat) : String := "pool-" ++ toString (now/1000000) ++ "-" ++ toString seq

def wtPath (repoRoot name : String) : String := repoRoot ++ "/.ralph/worktrees/pool/" ++ name

/-- How many worktrees `Warm` creates. -/
def need (poolSize existing : Nat) (count : Int) : Nat :=
  if count-existing ≤ 0 then 0
  else if (poolSize : Int) < existing+(count-existing) then poolSize-existing
  else (count-existing).toNat

def Sweep.taken : Sweep → List PoolEntry → List PoolEntry
  | .cleanupStale cutoff _,idle => idle.filter (fun e => e.createdAt < cutoff)
  | _,idle => idle

def Sweep.kept : Sweep → List PoolEntry → List PoolEntry
  | .cleanupStale cutoff _,idle => idle.filter (fun e => !decide (e.createdAt < cutoff))
  | _,_ => []

def Sweep.count : Sweep → Sweep
  | .cleanupStale cutoff cleaned => .cleanupStale cutoff (cleaned+1)
  | sweep => sweep

def Sweep.result : Sweep → Result
  | .drain => .drained
  | .cleanupStale _ cleaned => .cleaned cleaned
  | .close => .closed

def Op.refused : Op → Result
  | .acquire => .failed "worktree pool is closed"
  | .release _ _ => .released
  | .fill _ _ => .failed "worktree pool is closed"
  | .drain => .drained

/-- What a call does if its repository is not found. -/
def Op.unresolved (err : String) : Op → Phase
  | .release _ path => .discarding path
  | .drain => .done .drained
  | _ => .done (.failed ("resolve repo root: git rev-parse --show-toplevel: " ++ err))

/-- The first section of a call in its `repoPool`. -/
def enter (env : Env) (rp : Nat) (pool : RepoPool) : Op → Option System
  | .acquire =>
    match pool.idle.getLast? with
    | some entry => some ((s.setIdle rp pool pool.idle.dropLast).setCall i (.popped rp entry))
    | none => some (s.setCall i (.creating rp .acquire))
  | .release _ path =>
    if env.statErr then some (s.setCall i (.discarding path))
    else if path ∈ s.present then some (s.setCall i (.clean rp path)) else none
  | .fill report count => some (s.setCall i (.filling rp report (need s.poolSize pool.idle.length count) 0))
  | .drain => some ((s.setIdle rp pool []).setCall i (.destroying .drain pool.idle []))

/-- A new worktree is there, or `git worktree add` has failed. -/
def add (env : Env) (rp : Nat) (purpose : Purpose) (path branch : String) : Option System :=
  match env.createErr with
  | some err =>
    match purpose with
    | .acquire => some (s.setCall i (.done (.failed err)))
    | .fill report left created => some (s.setCall i (.filling rp report left created))
  | none =>
    if path ∈ s.present then none
    else
      let s := { s with present := path :: s.present }
      match purpose with
      | .acquire => some ((s.hold i path).setCall i (.done (.acquired path branch)))
      | .fill report left created => some (s.setCall i (.storing rp path branch report left created))

def advance (env : Env) : Phase → Option System
  | .resolving op =>
    match env.root with
    | .error err => some (s.setCall i (op.unresolved err))
    | .ok root => some (s.setCall i (.locating op root))
  | .locating op root =>
    let (s,rp) := s.getOrCreateRepoPool root
    some (s.setCall i (.pooled op rp))
  | .pooled op rp => s.pools[rp]?.bind (fun pool => enter s i env rp pool op)
  | .popped rp entry =>
    if env.statErr then some (s.setCall i (.rejected rp entry))
    else if entry.path ∈ s.present then some (s.setCall i (.reset entry)) else none
  | .reset entry => some ((s.hold i entry.path).setCall i (.done (.acquired entry.path entry.branch)))
  | .rejected rp entry => some ((s.destroy entry.path).setCall i (.creating rp .acquire))
  | .creating rp purpose => s.pools[rp]?.bind (fun pool =>
      let name := poolName env.now (s.counter+1)
      some (System.setCall { s with counter := s.counter+1 } i
        (.adding rp purpose (wtPath pool.repoRoot name) ("ralph/pool/" ++ name))))
  | .adding rp purpose path branch => add s i env rp purpose path branch
  | .clean rp path => s.pools[rp]?.bind (fun pool =>
      if s.poolSize ≤ pool.idle.length then some ((s.destroy path).setCall i (.done .released))
      else some ((s.setIdle rp pool (pool.idle ++ [⟨path,env.branch,env.now⟩])).setCall i (.done .released)))
  | .discarding path => some ((s.destroy path).setCall i (.done .released))
  | .filling _ report 0 created => some (s.setCall i (.done (.filled (if report then some created else none))))
  | .filling rp report (left+1) created =>
    if env.cancelled then some (s.setCall i (.done (.filled (if report then some created else none))))
    else some (s.setCall i (.creating rp (.fill report left created)))
  | .storing rp path branch report left created => s.pools[rp]?.bind (fun pool =>
      if pool.idle.length < s.poolSize then
        some ((s.setIdle rp pool (pool.idle ++ [⟨path,branch,env.now⟩])).setCall i (.filling rp report left (created+1)))
      else some ((s.destroy path).setCall i (.filling rp report left created)))
  | .closing => some (System.setCall { s with repos := [] } i (.sweeping .close (s.repos.map Prod.snd)))
  | .copying olderThan => some (s.setCall i (.sweeping (.cleanupStale (env.now-olderThan) 0) (s.repos.map Prod.snd)))
  | .sweeping sweep [] => some (s.setCall i (.done sweep.result))
  | .sweeping sweep (first :: rest) =>
    if env.pick ∈ first :: rest then s.pools[env.pick]?.bind (fun pool =>
      some ((s.setIdle env.pick pool (sweep.kept pool.idle)).setCall i
        (.destroying sweep (sweep.taken pool.idle) ((first :: rest).erase env.pick))))
    else none
  | .destroying sweep [] todo => some (s.setCall i (.sweeping sweep todo))
  | .destroying sweep (entry :: entries) todo =>
    some ((s.destroy entry.path).setCall i (.destroying sweep.count entries todo))
  | .done _ => none

/-- A call begins, with its look at `closed`, or goes on. -/
inductive Action where
  | call (op : Op)
  | cleanupStale (olderThan : Int)
  | close
  | run (i : Nat) (env : Env)

def System.begin (phase : Phase) : System := { s with calls := s.calls ++ [phase] }

def Op.begun (closed : Bool) (op : Op) : Phase :=
  if closed then .done op.refused
  else
    match op with
    | .release _ "" => .done .released
    | op => .resolving op

def Op.leaves (held : List (Nat × String)) : Op → List (Nat × String)
  | .release _ "" => held
  | .release holder path => held.erase (holder,path)
  | _ => held

def step : Action → Option System
  | .call op => some (System.begin { s with held := op.leaves s.held } (op.begun s.closed))
  | .cleanupStale olderThan => some (s.begin (if s.closed then .done (.cleaned 0) else .copying olderThan))
  | .close => if s.closed then some (s.begin (.done .closed)) else some (System.begin { s with closed := true } .closing)
  | .run i env => s.calls[i]?.bind (advance s i env)

def plainEnv : Env := ⟨.ok "/repo",false,none,false,0,"ralph/pool/pool-0-1",0⟩

def steps (i n : Nat) : List Action := List.replicate n (.run i plainEnv)

def whole (op : Op) (n : Nat) : List Action := .call op :: steps i n

def path₁ : String := "/repo/.ralph/worktrees/pool/pool-0-1"

def path₂ : String := "/repo/.ralph/worktrees/pool/pool-0-2"

theorem wtPath_unique {root root' : String} {now now' : Int} {seq seq' : Nat}
    (same : wtPath root (poolName now seq) = wtPath root' (poolName now' seq')) : seq = seq' := by
  have digits (n : Nat) : '-' ∉ (toString n).toList := by
    intro member
    rw [Nat.toString_eq_repr,Nat.toList_repr] at member
    exact absurd (Nat.isDigit_of_mem_toDigits (by decide) (by decide) member) (by decide)
  have lists := congrArg String.toList same
  simp only [wtPath,poolName,String.toList_append,← append_assoc] at lists
  rw [append_assoc _ "-".toList,append_assoc _ "-".toList] at lists
  have numbers := (cut_last (digits seq) (digits seq') lists).2
  simpa using congrArg (fun digits => Nat.ofDigitChars 10 digits 0) numbers

/-! ### What a step of a call can do -/

def Op.carried : Op → List String
  | .release _ path => [path]
  | _ => []

/-- The worktrees that a call has in hand. -/
def Phase.carried : Phase → List String
  | .resolving op => op.carried
  | .locating op _ => op.carried
  | .pooled op _ => op.carried
  | .popped _ entry => [entry.path]
  | .reset entry => [entry.path]
  | .rejected _ entry => [entry.path]
  | .clean _ path => [path]
  | .discarding path => [path]
  | .storing _ path _ _ _ _ => [path]
  | .destroying _ entries _ => entries.map PoolEntry.path
  | _ => []

/-- The worktree that a call has a name for, and that is not there yet. -/
def Phase.named : Phase → List String
  | .adding _ _ path _ => [path]
  | _ => []

def RepoPool.paths (pool : RepoPool) : List String := pool.idle.map PoolEntry.path

/-- How often a path is idle, in the hands of calls, about to be created, and held. -/
def System.idle : Nat := (s.pools.map (fun pool => pool.paths.count path)).sum

def System.carried (s : System) (path : String) : Nat := (s.calls.map (fun call => call.carried.count path)).sum

def System.named (s : System) (path : String) : Nat := (s.calls.map (fun call => call.named.count path)).sum

def System.holders : Nat := (s.held.map Prod.snd).count path

/-- How often a worktree is in the pool, in a call or with a holder. -/
def System.live : Nat := s.idle path + s.carried path + s.holders path

variable (repos : List (String × Nat))

def Phase.pending : Phase → List Nat
  | .closing => repos.map Prod.snd
  | .sweeping .close todo => todo
  | .destroying .close _ todo => todo
  | _ => []

/-- The call is about to put an entry into a list that has room. -/
def Adds : Phase → Bool
  | .clean rp _ => s.pools[rp]?.any (fun pool => pool.idle.length < s.poolSize)
  | .storing rp _ _ _ _ _ => s.pools[rp]?.any (fun pool => pool.idle.length < s.poolSize)
  | _ => false

/-- A later phase of a call, in which `Close` has no fewer pools to empty. -/
structure Follows (old new : Phase) : Prop where
  later : new ≠ .closing
  pending : ∀ rp ∈ old.pending repos, rp ∈ new.pending repos

theorem Follows.quiet {repos : List (String × Nat)} {old new : Phase} (later : new ≠ .closing)
    (none : old.pending repos = []) : Follows repos old new := ⟨later,by simp [none]⟩

/-- What a step of call `i` can do, if the call was at `old`. -/
inductive Change (s : System) (i : Nat) (old : Phase) : System → Prop
  | goes (new : Phase) (follows : Follows s.repos old new) (carried : new.carried = old.carried) (named : new.named = []) :
    Change s i old (s.setCall i new)
  | locates (op : Op) (root : String) (was : old = .locating op root) :
    Change s i old ((s.getOrCreateRepoPool root).1.setCall i (.pooled op (s.getOrCreateRepoPool root).2))
  | swaps (was : old = .closing) :
    Change s i old (System.setCall { s with repos := [] } i (.sweeping .close (s.repos.map Prod.snd)))
  | takes (rp : Nat) (pool : RepoPool) (kept taken : List PoolEntry) (new : Phase) (there : s.pools[rp]? = some pool)
    (parts : (kept ++ taken).Perm pool.idle) (later : new ≠ .closing)
    (pending : ∀ r ∈ old.pending s.repos, (r = rp ∧ kept = []) ∨ r ∈ new.pending s.repos)
    (empty : old.carried = []) (carried : new.carried = taken.map PoolEntry.path) (named : new.named = []) :
    Change s i old ((s.setIdle rp pool kept).setCall i new)
  | stores (rp : Nat) (pool : RepoPool) (entry : PoolEntry) (new : Phase) (there : s.pools[rp]? = some pool)
    (room : pool.idle.length < s.poolSize) (adds : Adds s old) (follows : Follows s.repos old new)
    (carried : old.carried = [entry.path]) (empty : new.carried = []) (named : new.named = []) :
    Change s i old ((s.setIdle rp pool (pool.idle ++ [entry])).setCall i new)
  | destroys (path : String) (new : Phase) (follows : Follows s.repos old new)
    (carried : old.carried = path :: new.carried) (named : new.named = []) : Change s i old ((s.destroy path).setCall i new)
  | returns (path : String) (result : Result) (follows : Follows s.repos old (.done result)) (carried : old.carried = [path]) :
    Change s i old ((s.hold i path).setCall i (.done result))
  | names (root : String) (now : Int) (new : Phase) (follows : Follows s.repos old new) (empty : old.carried = [])
    (empty' : new.carried = []) (named : new.named = [wtPath root (poolName now (s.counter+1))]) :
    Change s i old (System.setCall { s with counter := s.counter+1 } i new)
  | creates (path : String) (new : Phase) (absent : path ∉ s.present) (follows : Follows s.repos old new)
    (named : old.named = [path]) (empty : old.carried = []) (carried : new.carried = [path]) (named' : new.named = []) :
    Change s i old (System.setCall { s with present := path :: s.present } i new)
  | createsHeld (path : String) (result : Result) (absent : path ∉ s.present) (follows : Follows s.repos old (.done result))
    (named : old.named = [path]) (empty : old.carried = []) :
    Change s i old ((System.hold { s with present := path :: s.present } i path).setCall i (.done result))

variable {s s' : System} {i} {env : Env}

theorem begun_cases (closed : Bool) (op : Op) :
    (∃ result, op.begun closed = .done result ∧ (closed = true ∨ ∃ holder, op = .release holder "")) ∨
    (op.begun closed = .resolving op ∧ closed = false ∧ ∀ holder path, op = .release holder path → path ≠ "") := by
  cases closed with
  | true => exact .inl ⟨_,rfl,.inl rfl⟩
  | false =>
    unfold Op.begun
    rw [if_neg Bool.false_ne_true]
    split
    · exact .inl ⟨_,rfl,.inr ⟨_,rfl⟩⟩
    · rename_i other
      refine .inr ⟨rfl,rfl,?_⟩
      rintro holder path rfl rfl
      exact other holder rfl

theorem getOrCreate_cases (s : System) (root : String) : (s.getOrCreateRepoPool root).1 = s ∨
    (s.getOrCreateRepoPool root).1 =
      { s with repos := s.repos ++ [(root,s.pools.length)], pools := s.pools ++ [⟨root,[]⟩] } := by
  unfold System.getOrCreateRepoPool
  split
  · exact .inl rfl
  · exact .inr rfl

theorem leaves_release {holder : Nat} {path : String} (some : path ≠ "") (held : List (Nat × String)) :
    (Op.release holder path).leaves held = held.erase (holder,path) := by
  unfold Op.leaves
  split
  · rename_i same
    cases same
    exact absurd rfl some
  · rename_i same
    cases same
    rfl
  · rename_i other
    exact absurd rfl (other holder path)

theorem leaves_sublist (held : List (Nat × String)) (op : Op) : (op.leaves held).Sublist held := by
  unfold Op.leaves
  split
  · exact .refl _
  · exact erase_sublist
  · exact .refl _

theorem unresolved_change (op : Op) (err : String) : Change s i (.resolving op) (s.setCall i (op.unresolved err)) := by
  cases op <;> exact .goes _ (.quiet nofun rfl) rfl rfl

theorem stat_cases {missing found : Phase} {path : String} (moved : (if env.statErr then some (s.setCall i missing)
      else if path ∈ s.present then some (s.setCall i found) else none) = some s') :
    s' = s.setCall i missing ∨ s' = s.setCall i found := by
  split at moved
  · exact .inl (some.inj moved).symm
  · rw [ite_none_right_eq_some] at moved
    exact .inr (some.inj moved.2).symm

attribute [local simp] Phase.pending

theorem enter_change {op : Op} {rp : Nat} {pool : RepoPool} (there : s.pools[rp]? = some pool)
    (moved : enter s i env rp pool op = some s') : Change s i (.pooled op rp) s' := by
  cases op with
  | acquire =>
    simp only [enter] at moved
    split at moved
    · rename_i entry last
      cases moved
      refine .takes rp pool _ [entry] _ there ?_ nofun (by simp) rfl rfl rfl
      rw [dropLast_append_getLast? entry last]
    · cases moved
      exact .goes _ (.quiet nofun rfl) rfl rfl
  | release holder path => rcases stat_cases moved with rfl | rfl <;> exact .goes _ (.quiet nofun rfl) rfl rfl
  | fill report count =>
    cases moved
    exact .goes _ (.quiet nofun rfl) rfl rfl
  | drain =>
    cases moved
    exact .takes rp pool [] pool.idle _ there (.refl _) nofun (by simp) rfl rfl rfl

theorem add_change {rp : Nat} {purpose : Purpose} {path branch : String}
    (moved : add s i env rp purpose path branch = some s') : Change s i (.adding rp purpose path branch) s' := by
  cases failed : env.createErr with
  | some err =>
    simp only [add,failed] at moved
    cases purpose <;> cases moved <;> exact .goes _ (.quiet nofun rfl) rfl rfl
  | none =>
    simp only [add,failed,ite_none_left_eq_some] at moved
    obtain ⟨absent,moved⟩ := moved
    cases purpose with
    | acquire =>
      cases moved
      exact .createsHeld path _ absent (.quiet nofun rfl) rfl rfl
    | fill report left created =>
      cases moved
      exact .creates path _ absent (.quiet nofun rfl) rfl rfl rfl rfl

theorem sweep_parts (sweep : Sweep) (idle : List PoolEntry) : (sweep.kept idle ++ sweep.taken idle).Perm idle := by
  cases sweep with
  | drain | close => exact .refl _
  | cleanupStale cutoff cleaned =>
    exact perm_append_comm.trans (filter_append_perm (fun e : PoolEntry => decide (e.createdAt < cutoff)) idle)

theorem advance_change {phase : Phase} (moved : advance s i env phase = some s') : Change s i phase s' := by
  cases phase with
  | resolving op =>
    simp only [advance] at moved
    split at moved <;> cases moved
    · exact unresolved_change op _
    · exact .goes _ (.quiet nofun rfl) rfl rfl
  | locating op root =>
    cases moved
    exact .locates op root rfl
  | pooled op rp =>
    obtain ⟨pool,there,moved⟩ := bind_eq_some_iff.mp moved
    exact enter_change there moved
  | popped rp entry => rcases stat_cases moved with rfl | rfl <;> exact .goes _ (.quiet nofun rfl) rfl rfl
  | reset entry =>
    cases moved
    exact .returns entry.path _ (.quiet nofun rfl) rfl
  | rejected rp entry =>
    cases moved
    exact .destroys entry.path _ (.quiet nofun rfl) rfl rfl
  | creating rp purpose =>
    obtain ⟨pool,-,moved⟩ := bind_eq_some_iff.mp moved
    cases moved
    exact .names pool.repoRoot env.now _ (.quiet nofun rfl) rfl rfl rfl
  | adding rp purpose path branch => exact add_change moved
  | clean rp path =>
    obtain ⟨pool,there,moved⟩ := bind_eq_some_iff.mp moved
    split at moved
    · cases moved
      exact .destroys path _ (.quiet nofun rfl) rfl rfl
    · rename_i few
      cases moved
      have room : pool.idle.length < s.poolSize := Nat.lt_of_not_le few
      exact .stores rp pool ⟨path,env.branch,env.now⟩ _ there room (by simp [Adds,there,room])
        (.quiet nofun rfl) rfl rfl rfl
  | discarding path =>
    cases moved
    exact .destroys path _ (.quiet nofun rfl) rfl rfl
  | filling rp report left created =>
    cases left with
    | zero =>
      cases moved
      exact .goes _ (.quiet nofun rfl) rfl rfl
    | succ left =>
      simp only [advance] at moved
      split at moved <;> cases moved <;> exact .goes _ (.quiet nofun rfl) rfl rfl
  | storing rp path branch report left created =>
    obtain ⟨pool,there,moved⟩ := bind_eq_some_iff.mp moved
    split at moved
    · rename_i room
      cases moved
      exact .stores rp pool ⟨path,branch,env.now⟩ _ there room (by simp [Adds,there,room])
        (.quiet nofun rfl) rfl rfl rfl
    · cases moved
      exact .destroys path _ (.quiet nofun rfl) rfl rfl
  | closing =>
    cases moved
    exact .swaps rfl
  | copying olderThan =>
    cases moved
    exact .goes _ (.quiet nofun rfl) rfl rfl
  | sweeping sweep todo =>
    cases todo with
    | nil =>
      cases moved
      exact .goes _ ⟨nofun,by cases sweep <;> simp⟩ rfl rfl
    | cons first rest =>
      simp only [advance,ite_none_right_eq_some] at moved
      obtain ⟨-,moved⟩ := moved
      obtain ⟨pool,there,moved⟩ := bind_eq_some_iff.mp moved
      cases moved
      refine .takes env.pick pool _ _ _ there (sweep_parts sweep pool.idle) nofun ?_ rfl rfl rfl
      -- `Close` keeps nothing of the pool that it takes from its list
      cases sweep with
      | close =>
        intro r member
        by_cases same : r = env.pick
        · exact .inl ⟨same,rfl⟩
        · exact .inr ((mem_erase_of_ne same).mpr member)
      | drain | cleanupStale cutoff cleaned => simp
  | destroying sweep entries todo =>
    cases entries with
    | nil =>
      cases moved
      exact .goes _ ⟨nofun,by cases sweep <;> simp⟩ rfl rfl
    | cons entry entries =>
      cases moved
      exact .destroys entry.path _ ⟨nofun,by cases sweep <;> simp [Sweep.count]⟩ rfl rfl
  | done result => cases moved

end Mcpkit.WorktreeModel
