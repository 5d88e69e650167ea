import Mcpkit.CycleModel

/-!
The orchestrator and its breaker. A cycle that the breaker refuses is a result like any
other, and the loop goes on with the next one; only the number of cycles ends it.
-/
namespace Mcpkit.CycleBreaker
open CycleModel List
variable {S P : Type} (cfg : OrchestratorConfig) (cb : CircuitBreaker) (stages : Nat → Stages S P)

def guardedRun : Nat → Loop S P :=
  run cfg (newOrchestrator (some cb) none) stages

def unproductive (r : CycleResult S P) : Bool := !r.progress && decide (r.error ≠ refusal)

def NeverElapses : Prop :=
  ∀ n, (guardedRun cfg cb stages n).returned = none →
    ∀ b, (guardedRun cfg cb stages n).orchestrator.breaker = some b → b.state = .opened →
      (stages n).now-b.openedAt < b.cooldownDuration

/-- The loop returns when the breaker refuses a cycle; and if the cooldown is never over, after as many cycles
    without progress in a row as the threshold. -/
structure StopsWhenOpen : Prop where
  returns : ∀ n, (guardedRun cfg cb stages n).returned = none →
    (guardedRun cfg cb stages n).orchestrator.refuses (stages n).now = true →
      (guardedRun cfg cb stages (n+1)).returned ≠ none
  once : ∀ n, ((guardedRun cfg cb stages n).orchestrator.results.filter (·.error = refusal)).length ≤ 1
  bounded : NeverElapses cfg cb stages → ∀ n earlier last,
    (guardedRun cfg cb stages n).orchestrator.results = earlier ++ last → (∀ r ∈ last, unproductive r = true) →
      last.length ≤ cb.noProgressThreshold ∧
      (last.length = cb.noProgressThreshold → (guardedRun cfg cb stages (n+1)).returned ≠ none)

/-- No cycle but the last of those allowed begins while the breaker refuses it. -/
def RefusedLast : Prop :=
  ∀ n : Nat, (guardedRun cfg cb stages n).returned = none →
    (guardedRun cfg cb stages n).orchestrator.refuses (stages n).now = true →
      0 < cfg.maxCycles ∧ cfg.maxCycles ≤ n+1

open Orchestrator

section
variable {cfg cb stages}

/-! ### When the loop ends -/

theorem guardedRun_governor (n : Nat) : (guardedRun cfg cb stages n).orchestrator.governor = none := by
  refine run_invariant (I := fun l => l.orchestrator.governor = none) rfl ?_ n
  intro n r o' _ none turned
  cases turned with
  | refused | halted | failed => exact none
  | finished => exact (congrArg (Option.map _) none).trans rfl

theorem guardedRun_number {n : Nat} (running : (guardedRun cfg cb stages n).returned = none) :
    (guardedRun cfg cb stages n).orchestrator.cycleNum = n := (run_counts ⟨rfl,rfl⟩ n).2 running

theorem not_halting {o : Orchestrator S P} (none : o.governor = none) : o.governorHalts = false := by
  rw [governorHalts,none]
  rfl

theorem returned_iff {n : Nat} (running : (guardedRun cfg cb stages n).returned = none) :
    (guardedRun cfg cb stages (n+1)).returned ≠ none ↔ 0 < cfg.maxCycles ∧ cfg.maxCycles ≤ n+1 := by
  obtain ⟨r,o',turned,after⟩ := turn_turned cfg running (stages n)
  have next : guardedRun cfg cb stages (n+1) = ⟨o',o'.leaves cfg⟩ := after
  have number : o'.cycleNum = n+1 := by rw [turned.cycleNum,guardedRun_number running]
  have quiet : o'.governorHalts = false := by
    have none : (guardedRun cfg cb stages (n+1)).orchestrator.governor = none := guardedRun_governor (n+1)
    rw [next] at none
    exact not_halting none
  rw [next]
  rw [leaves,number,quiet]
  split <;> simp_all

/-! ### Streaks -/

def streak (results : List (CycleResult S P)) : Nat := (results.reverse.takeWhile unproductive).length

variable {r : CycleResult S P} {b : CircuitBreaker} {results : List (CycleResult S P)}

theorem streak_append_idle (idle : unproductive r = true) : streak (results ++ [r]) = streak results+1 := by
  simp [streak,idle]

theorem streak_append_other (other : unproductive r = false) : streak (results ++ [r]) = 0 := by simp [streak,other]

theorem length_le_streak {earlier last : List (CycleResult S P)} (idle : ∀ r ∈ last, unproductive r = true) :
    last.length ≤ streak (earlier ++ last) := by
  rw [streak,reverse_append,takeWhile_append_of_pos (by simpa using idle),length_append,length_reverse]
  omega

/-- The breaker counts at least the streak, and is open when that has reached the threshold. -/
structure Counts (cb : CircuitBreaker) (b : CircuitBreaker) (results : List (CycleResult S P)) : Prop where
  threshold : b.noProgressThreshold = cb.noProgressThreshold
  bounded : streak results ≤ b.noProgressThreshold
  closed : b.state = .closed → streak results ≤ b.noProgressCount
  probing : b.state = .halfOpen → streak results = 0

theorem Counts.idle (counts : Counts cb b results) (shut : b.state ≠ .opened) (unproductive : unproductive r = true)
    (now : Int) {progress errRepeated : Bool} (none : (!progress || errRepeated) = true) :
    Counts cb (b.recordResult now progress errRepeated) (results ++ [r]) := by
  have grown : streak (results ++ [r]) = streak results+1 := streak_append_idle unproductive
  obtain ⟨threshold,bounded,closed,probing⟩ := counts
  have positive := b.positive
  have below : streak results+1 ≤ b.noProgressThreshold ∧ (b.state = .closed → b.noProgressCount < b.noProgressThreshold) := by
    cases state : b.state with
    | closed => have := closed state; have := b.counted.mp state; exact ⟨by omega,fun _ => by omega⟩
    | opened => exact absurd state shut
    | halfOpen => have := probing state; exact ⟨by omega,fun h => by cases h⟩
  unfold CircuitBreaker.recordResult
  rw [if_pos none]
  split
  · refine ⟨threshold,?_,?_,?_⟩
    · rw [grown]; push_cast; exact below.1
    · intro h; cases h
    · intro h; cases h
  · refine ⟨threshold,?_,?_,?_⟩
    · rw [grown]; push_cast; exact below.1
    · intro state; rw [grown]; push_cast; have := closed state; show _ ≤ b.noProgressCount+1; omega
    · intro state
      have above := b.counted.not.mp (by rw [show b.state = _ from state]; decide)
      omega

theorem Counts.progress (counts : Counts cb b results) (other : unproductive r = false) (now : Int) :
    Counts cb (b.recordResult now true false) (results ++ [r]) := by
  have none : streak (results ++ [r]) = 0 := streak_append_other other
  have positive := b.positive
  exact ⟨counts.threshold,by rw [none]; exact positive.le,fun _ => by rw [none]; exact le_refl (0 : Int),fun _ => none⟩

theorem allowed_shut {now : Int} (allowed : b.refuses now = false)
    (cooling : b.state = .opened → now-b.openedAt < b.cooldownDuration) :
    b.state ≠ .opened ∧ (b.canExecute now).2 = b := by
  have shut : b.state ≠ .opened := by
    intro opened
    simp [CircuitBreaker.refuses,opened,cooling opened] at allowed
  exact ⟨shut,by rw [CircuitBreaker.canExecute,dif_neg shut]⟩

/-- One turn at a time at which the cooldown is not over. -/
theorem Counts.turned {o o' : Orchestrator S P} {c : Stages S P} (counts : Counts cb b o.results)
    (has : o.breaker = some b) (free : o.governor = none)
    (cooling : b.state = .opened → c.now-b.openedAt < b.cooldownDuration) (turned : Turned cfg o c r o') :
    ∃ b', o'.breaker = some b' ∧ Counts cb b' o'.results := by
  have refuses : o.refuses c.now = b.refuses c.now := by rw [refuses,has]; rfl
  have asked : o.refuses c.now = false → b.state ≠ .opened ∧ o.asked c.now = some b := by
    intro allowed
    obtain ⟨shut,same⟩ := allowed_shut (refuses ▸ allowed) cooling
    exact ⟨shut,by rw [asked,has,Option.map_some,same]⟩
  cases turned with
  | refused refused idle free tells =>
    have opened : b.state = .opened := by
      rw [refuses] at refused
      simp only [CircuitBreaker.refuses,decide_eq_true_eq] at refused
      exact refused.1
    have none : streak (o.results ++ [r]) = 0 := streak_append_other (by simp [unproductive,tells])
    refine ⟨b,has,⟨counts.threshold,by rw [none]; exact Int.le_of_lt b.positive,fun closed => ?_,fun _ => none⟩⟩
    rw [opened] at closed
    cases closed
  | halted allowed halts => rw [not_halting free] at halts; cases halts
  | failed allowed goes short idle free tells =>
    obtain ⟨shut,same⟩ := asked allowed
    exact ⟨_,congrArg (Option.map _) same,counts.idle shut (by simp [unproductive,idle,tells]) _ rfl⟩
  | finished allowed goes reaches tells =>
    obtain ⟨shut,same⟩ := asked allowed
    refine ⟨_,congrArg (Option.map _) same,?_⟩
    cases progress : r.progress with
    | true => exact counts.progress (by simp [unproductive,progress]) _
    | false => exact counts.idle shut (by simp [unproductive,progress,tells]) _ rfl

theorem guardedRun_counts (never : NeverElapses cfg cb stages) (n : Nat) :
    ∃ b, (guardedRun cfg cb stages n).orchestrator.breaker = some b ∧
      Counts cb b (guardedRun cfg cb stages n).orchestrator.results := by
  induction n with
  | zero => exact ⟨cb,rfl,⟨rfl,Int.le_of_lt cb.positive,fun _ => cb.natural,fun _ => rfl⟩⟩
  | succ n ih =>
    by_cases running : (guardedRun cfg cb stages n).returned = none
    · obtain ⟨b,has,counts⟩ := ih
      obtain ⟨r,o',turned,after⟩ := turn_turned cfg running (stages n)
      rw [show guardedRun cfg cb stages (n+1) = _ from after]
      exact counts.turned has (guardedRun_governor n) (never n running b has) turned
    · rw [show guardedRun cfg cb stages (n+1) = _ from run_returned running]
      exact ih

theorem refused_once (last : RefusedLast cfg cb stages) (n : Nat) : ((guardedRun cfg cb stages n).returned = none →
      (guardedRun cfg cb stages n).orchestrator.results.filter (·.error = refusal) = []) ∧
    ((guardedRun cfg cb stages n).orchestrator.results.filter (·.error = refusal)).length ≤ 1 := by
  induction n with
  | zero => exact ⟨fun _ => rfl,Nat.zero_le 1⟩
  | succ n ih =>
    by_cases running : (guardedRun cfg cb stages n).returned = none
    · obtain ⟨r,o',turned,after⟩ := turn_turned cfg running (stages n)
      have next : guardedRun cfg cb stages (n+1) = ⟨o',o'.leaves cfg⟩ := after
      have none := ih.1 running
      have results : o'.results.filter (·.error = refusal) = [r].filter (·.error = refusal) := by
        rw [turned.results,filter_append]
        exact (congrArg (· ++ _) none).trans rfl
      by_cases refused : r.error = refusal
      · have refuses : (guardedRun cfg cb stages n).orchestrator.refuses (stages n).now = true := by
          cases turned with
          | refused refuses => exact refuses
          | halted _ _ _ _ tells | failed _ _ _ _ _ tells | finished _ _ _ tells => exact absurd refused tells
        have left := (returned_iff running).mpr (last n running refuses)
        refine ⟨fun still => absurd still left,?_⟩
        rw [next]
        rw [results]
        exact length_filter_le _ _
      · rw [next]
        have empty : o'.results.filter (·.error = refusal) = [] := by rw [results]; simp [refused]
        exact ⟨fun _ => empty,by show (o'.results.filter _).length ≤ 1; rw [empty]; exact Nat.zero_le 1⟩
    · rw [show guardedRun cfg cb stages (n+1) = _ from run_returned running]
      exact ⟨fun still => absurd still running,ih.2⟩

/-! ### The breaker and the loop -/

end

def failing : Nat → Stages Unit Unit := fun _ =>
  ⟨0,0,.error "no route",.ok (),.ok "",.ok "",.ok "",.ok "",none,0,0⟩

end Mcpkit.CycleBreaker
