import Mcpkit.CycleModel

/-!
The orchestrator and its governor. Every exit of a cycle tells the breaker, but only those
after the spec was run tell the governor; a cycle that fails before that is unseen by it.
-/
namespace Mcpkit.CycleGovernor
open CycleModel List
variable {S P : Type} (cfg : OrchestratorConfig) (g : CostVelocityGovernor) (stages : Nat → Stages S P)

def governedRun : Nat → Loop S P :=
  run cfg (newOrchestrator none (some g)) stages

/-- Between any two turns: no more results without progress in a row than the governor allows, and every cycle is
    counted with its cost. -/
structure SeesCycles : Prop where
  bounded : ∀ n earlier last, (governedRun cfg g stages n).orchestrator.results = earlier ++ last →
    (∀ r ∈ last, r.progress = false) → last.length ≤ g.unproductiveCap
  counted : ∀ n g', (governedRun cfg g stages n).orchestrator.governor = some g' →
    g'.cycleCount = (governedRun cfg g stages n).orchestrator.results.length ∧
    g'.totalCost = ((governedRun cfg g stages n).orchestrator.results.map CycleResult.cost).sum

open Orchestrator CycleResult CostVelocityGovernor

section
variable {cfg g stages}

/-! ### The governor and the results -/

def Mirrors (g : CostVelocityGovernor) (results : List (CycleResult S P)) : Prop :=
  g.history.map (fun r => (r.cost,r.productive)) = results.map fun r => (r.cost,r.progress)

variable {results : List (CycleResult S P)}

theorem Mirrors.costs (mirrors : Mirrors g results) :
    g.cycleCount = results.length ∧ g.totalCost = (results.map cost).sum := by
  have length := congrArg length mirrors
  have costs := congrArg (map Prod.fst) mirrors
  rw [map_map,map_map] at costs
  exact ⟨by simpa [cycleCount] using length,congrArg sum costs⟩

theorem Mirrors.record (mirrors : Mirrors g results) (cycleNum : Int) (r : CycleResult S P) :
    Mirrors (g.record ⟨cycleNum,r.cost,r.progress⟩) (results ++ [r]) := by
  unfold Mirrors CostVelocityGovernor.record at *
  rw [map_append,map_append,mirrors]
  rfl

def trailing (flags : List Bool) : Nat := (flags.reverse.takeWhile fun flag => !flag).length

theorem streak_eq (g : CostVelocityGovernor) : g.streak = trailing (g.history.map CycleRecord.productive) := by
  rw [trailing,← map_reverse,takeWhile_map,length_map]
  rfl

theorem trailing_append_le (flags : List Bool) (flag : Bool) : trailing (flags ++ [flag]) ≤ trailing flags+1 := by
  cases flag <;> simp [trailing]

theorem length_le_trailing {earlier last : List (CycleResult S P)} (idle : ∀ r ∈ last, r.progress = false) :
    last.length ≤ trailing ((earlier ++ last).map progress) := by
  rw [trailing,map_append,reverse_append,takeWhile_append_of_pos]
  · rw [length_append,length_reverse,length_map]
    omega
  · intro flag member
    obtain ⟨r,there,rfl⟩ := mem_map.mp (mem_reverse.mp member)
    rw [idle r there]
    rfl

theorem Mirrors.streak (mirrors : Mirrors g results) : g.streak = trailing (results.map progress) := by
  have flags := congrArg (map Prod.snd) mirrors
  rw [map_map,map_map] at flags
  rw [streak_eq]
  exact congrArg trailing flags

theorem streak_lt (positive : 0 < g.unproductiveCap) (goes : g.shouldHalt = false) : g.streak < g.unproductiveCap := by
  unfold shouldHalt at goes
  split at goes
  · rename_i empty
    rw [streak,length_eq_zero_iff.mp empty]
    exact positive
  · split at goes
    · cases goes
    · rename_i below
      exact Int.not_le.mp below

/-! ### Turns -/

variable {o : Orchestrator S P}

theorem not_refusing (none : o.breaker = none) (now : Int) : o.refuses now = false := by
  rw [refuses,none]
  rfl

theorem Turned.seen {o' : Orchestrator S P} {c : Stages S P} {r : CycleResult S P} {g : CostVelocityGovernor}
    (turned : Turned cfg o c r o') (unguarded : o.breaker = none) (governed : o.governor = some g)
    (goes : o.governorHalts = false) : o'.breaker = none ∧ o'.results = o.results ++ [r] ∧
    ((c.reachesRalph cfg = false ∧ o'.governor = some g) ∨
      (c.reachesRalph cfg = true ∧ o'.governor = some (g.record ⟨o.cycleNum+1,r.cost,r.progress⟩))) := by
  cases turned with
  | refused refuses => rw [not_refusing unguarded] at refuses; cases refuses
  | halted _ halts => rw [goes] at halts; cases halts
  | failed _ _ short =>
    refine ⟨?_,rfl,.inl ⟨short,governed⟩⟩
    simp [asked,unguarded]
  | finished _ _ reaches =>
    refine ⟨?_,rfl,.inr ⟨reaches,?_⟩⟩
    · simp [asked,unguarded]
    · simp [governed]

/-- Between the turns there is a governor with the same limits, which lets a running loop go on. -/
structure Governed (g : CostVelocityGovernor) (l : Loop S P) (g' : CostVelocityGovernor) : Prop where
  unguarded : l.orchestrator.breaker = none
  governor : l.orchestrator.governor = some g'
  cap : g'.unproductiveCap = g.unproductiveCap
  goes : l.returned = none → l.orchestrator.governorHalts = false

theorem leaves_none (stays : o.leaves cfg = none) : o.governorHalts = false := by
  unfold leaves at stays
  split at stays
  · cases stays
  · split at stays
    · cases stays
    · rename_i goes
      exact Bool.eq_false_iff.mpr goes

theorem governedRun_governed (fresh : g.history = []) (n : Nat) : ∃ g', Governed g (governedRun cfg g stages n) g' := by
  induction n with
  | zero =>
    refine ⟨g,rfl,rfl,rfl,fun _ => ?_⟩
    show g.shouldHalt = false
    rw [shouldHalt,fresh]
    rfl
  | succ n ih =>
    obtain ⟨g',governed⟩ := ih
    by_cases running : (governedRun cfg g stages n).returned = none
    · obtain ⟨r,o',turned,after⟩ := turn_turned cfg running (stages n)
      rw [show governedRun cfg g stages (n+1) = _ from after]
      obtain ⟨unguarded,-,⟨-,same⟩ | ⟨-,recorded⟩⟩ :=
        Turned.seen turned governed.unguarded governed.governor (governed.goes running)
      · exact ⟨g',unguarded,same,governed.cap,leaves_none⟩
      · exact ⟨_,unguarded,recorded,governed.cap,leaves_none⟩
    · rw [show governedRun cfg g stages (n+1) = _ from run_returned running]
      exact ⟨g',governed⟩

theorem governedRun_mirrors (fresh : g.history = []) (positive : 0 < g.unproductiveCap)
    (reaches : ∀ n, (governedRun cfg g stages n).returned = none → (stages n).reachesRalph cfg = true) (n : Nat) :
    ∀ g', (governedRun cfg g stages n).orchestrator.governor = some g' →
      Mirrors g' (governedRun cfg g stages n).orchestrator.results ∧ g'.streak ≤ g.unproductiveCap := by
  induction n with
  | zero =>
    rintro g' same
    cases same
    refine ⟨by rw [Mirrors,fresh]; rfl,?_⟩
    rw [streak,fresh]
    exact Int.le_of_lt positive
  | succ n ih =>
    by_cases running : (governedRun cfg g stages n).returned = none
    · obtain ⟨g',governed⟩ : ∃ g', Governed g (governedRun cfg g stages n) g' := governedRun_governed fresh n
      obtain ⟨mirrors,-⟩ := ih g' governed.governor
      obtain ⟨r,o',turned,after⟩ := turn_turned cfg running (stages n)
      rw [show governedRun cfg g stages (n+1) = _ from after]
      obtain ⟨-,results,⟨short,-⟩ | ⟨-,recorded⟩⟩ :=
        Turned.seen turned governed.unguarded governed.governor (governed.goes running)
      · rw [reaches n running] at short; cases short
      · intro g'' same
        rw [show o'.governor = _ from recorded,Option.some.injEq] at same
        subst same
        have mirrors' := mirrors.record ((governedRun cfg g stages n).orchestrator.cycleNum+1) r
        refine ⟨by rw [results]; exact mirrors',?_⟩
        have below : g'.streak < g'.unproductiveCap := by
          have goes := governed.goes running
          rw [governorHalts,governed.governor] at goes
          exact streak_lt (governed.cap ▸ positive) goes
        have grown := trailing_append_le ((governedRun cfg g stages n).orchestrator.results.map progress)
          r.progress
        rw [mirrors'.streak,map_append]
        rw [mirrors.streak,governed.cap] at below
        exact le_trans (Int.ofNat_le.mpr grown) below
    · rw [show governedRun cfg g stages (n+1) = _ from run_returned running]
      exact ih

/-! ### The governor and the loop -/

end

def unscanned : Nat → Stages Unit Unit := fun _ => ⟨0,0,.error "no route",.ok (),.ok "",.ok "",.ok "",.ok "",none,0,0⟩

end Mcpkit.CycleGovernor
