import Mathlib.Algebra.BigOperators.Group.List.Basic
import Mathlib.Algebra.Order.Field.Rat

/-!
The orchestrator of R&D cycles. A cycle asks the circuit breaker and the governor, then scans,
plans, writes a spec and runs it; it may end at each of these stages.
-/
namespace Mcpkit.CycleModel

/-! ### The circuit breaker -/

inductive BreakerState where
  | closed
  | opened
  | halfOpen
  deriving DecidableEq

def BreakerState.text : BreakerState → String
  | .closed => "closed"
  | .opened => "open"
  | .halfOpen => "half_open"

/-- The circuit breaker: closed below its threshold, and not closed from there on. -/
structure CircuitBreaker where
  state : BreakerState
  noProgressCount : Int
  noProgressThreshold : Int
  cooldownDuration : Int
  openedAt : Int
  natural : 0 ≤ noProgressCount
  positive : 0 < noProgressThreshold
  counted : state = .closed ↔ noProgressCount < noProgressThreshold

def newCircuitBreaker (noProgressThreshold cooldownDuration : Int) : CircuitBreaker where
  state := .closed
  noProgressCount := 0
  noProgressThreshold := if noProgressThreshold ≤ 0 then 3 else noProgressThreshold
  cooldownDuration := if cooldownDuration ≤ 0 then 30*60*1000000000 else cooldownDuration
  openedAt := 0
  natural := le_refl 0
  positive := by split <;> omega
  counted := by simp only [true_iff]; split <;> omega

variable (cb : CircuitBreaker)

def CircuitBreaker.refuses (now : Int) : Bool :=
  cb.state = .opened ∧ now-cb.openedAt < cb.cooldownDuration

def CircuitBreaker.canExecute (now : Int) : Bool × CircuitBreaker :=
  if opened : cb.state = .opened then
    if cb.cooldownDuration ≤ now-cb.openedAt then
      (true,{ cb with
        state := .halfOpen
        counted := by have same := cb.counted; rw [opened] at same; simpa using same })
    else (false,cb)
  else (true,cb)

def CircuitBreaker.recordResult (now : Int) (progress errRepeated : Bool) : CircuitBreaker :=
  if !progress || errRepeated then
    if reached : cb.noProgressThreshold ≤ cb.noProgressCount+1 then
      { cb with
        noProgressCount := cb.noProgressCount+1
        state := .opened
        openedAt := now
        natural := by have := cb.natural; omega
        counted := by simp; omega }
    else
      { cb with
        noProgressCount := cb.noProgressCount+1
        natural := by have := cb.natural; omega
        counted := by have same := cb.counted; rw [same]; omega }
  else
    { cb with
      noProgressCount := 0
      state := .closed
      natural := le_refl 0
      counted := by simp [cb.positive] }

/-! ### The governor -/

structure CycleRecord where
  cycleNum : Int
  cost : ℚ
  productive : Bool
  deriving DecidableEq

structure CostVelocityGovernor where
  windowSize : Int
  alarmPerCycle : ℚ
  unproductiveCap : Int
  history : List CycleRecord
  deriving DecidableEq

def newCostVelocityGovernor (windowSize : Int) (alarmPerCycle : ℚ) (unproductiveCap : Int) : CostVelocityGovernor where
  windowSize := if windowSize ≤ 0 then 5 else windowSize
  alarmPerCycle := if alarmPerCycle ≤ 0 then 5 else alarmPerCycle
  unproductiveCap := if unproductiveCap ≤ 0 then 3 else unproductiveCap
  history := []

variable (g : CostVelocityGovernor)

def CostVelocityGovernor.record (r : CycleRecord) : CostVelocityGovernor :=
  { g with history := g.history ++ [r] }

def CostVelocityGovernor.streak : Nat :=
  (g.history.reverse.takeWhile fun r => !r.productive).length

def CostVelocityGovernor.window : List CycleRecord :=
  g.history.drop (g.history.length-g.windowSize).toNat

def CostVelocityGovernor.shouldHalt : Bool :=
  if g.history.length = 0 then false
  else if g.unproductiveCap ≤ g.streak then true
  else g.alarmPerCycle < (g.window.map CycleRecord.cost).sum/g.window.length

def CostVelocityGovernor.totalCost : ℚ := (g.history.map CycleRecord.cost).sum

def CostVelocityGovernor.cycleCount : Nat := g.history.length

/-! ### One cycle -/

variable {S P : Type}

/-- The flags are whether there are an adaptive synthesizer, a starter and a cost reader. -/
structure OrchestratorConfig where
  maxCycles : Int
  adaptiveSynth : Bool
  ralphStarter : Bool
  costReader : Bool

/-- The clock when the breaker is asked and when it is told, the answer of each stage, and what the cost reader
    says before and after the run. -/
structure Stages (S P : Type) where
  now : Int
  recordedAt : Int
  scan : Except String S
  plan : Except String P
  adaptive : Except String String
  adaptiveWrite : Except String String
  synthesis : Except String String
  write : Except String String
  ralph : Option String
  costBefore : ℚ
  costAfter : ℚ

structure CycleResult (S P : Type) where
  cycleNum : Int
  specPath : String
  scanOutput : Option S
  planOutput : Option P
  progress : Bool
  cost : ℚ
  error : String

structure Orchestrator (S P : Type) where
  breaker : Option CircuitBreaker
  governor : Option CostVelocityGovernor
  cycleNum : Int
  results : List (CycleResult S P)

def newOrchestrator (breaker : Option CircuitBreaker) (governor : Option CostVelocityGovernor) : Orchestrator S P :=
  ⟨breaker,governor,0,[]⟩

variable (o : Orchestrator S P)

def Orchestrator.recordBreakerResult (now : Int) (progress errRepeated : Bool) : Orchestrator S P :=
  { o with breaker := o.breaker.map (fun cb => cb.recordResult now progress errRepeated) }

def Orchestrator.recordGovernor (cycleNum : Int) (cost : ℚ) (productive : Bool) : Orchestrator S P :=
  { o with governor := o.governor.map (fun g => g.record ⟨cycleNum,cost,productive⟩) }

def Orchestrator.governorHalts : Bool := o.governor.any CostVelocityGovernor.shouldHalt

variable (cfg : OrchestratorConfig)

/-- The spec of the adaptive synthesizer if it has a name and was written, else the legacy one. -/
def specPath (c : Stages S P) : Except String String :=
  let legacy : Except String String :=
    match c.synthesis with
    | .error err => .error ("synthesize: " ++ err)
    | .ok _ =>
      match c.write with
      | .error err => .error ("write spec: " ++ err)
      | .ok path => .ok path
  if cfg.adaptiveSynth then
    match c.adaptive,c.adaptiveWrite with
    | .ok name,.ok path => if name = "" then legacy else .ok path
    | _,_ => legacy
  else legacy

def cycleCost (c : Stages S P) : ℚ := if cfg.costReader then c.costAfter-c.costBefore else 0

variable (o : Orchestrator S P)

def Orchestrator.runStages (c : Stages S P) (result : CycleResult S P) :
    (CycleResult S P × Option String) × Orchestrator S P :=
  match c.scan with
  | .error err => ((result,some ("scan: " ++ err)),o.recordBreakerResult c.recordedAt false true)
  | .ok scanOut =>
    let result := { result with scanOutput := some scanOut }
    match c.plan with
    | .error err => ((result,some ("plan: " ++ err)),o.recordBreakerResult c.recordedAt false true)
    | .ok planOut =>
      let result := { result with planOutput := some planOut }
      match specPath cfg c with
      | .error err => ((result,some err),o.recordBreakerResult c.recordedAt false true)
      | .ok path =>
        let result := { result with specPath := path, cost := cycleCost cfg c }
        match if cfg.ralphStarter then c.ralph else none with
        | some err =>
          (({ result with progress := false },some ("ralph: " ++ err)),
            (o.recordBreakerResult c.recordedAt false false).recordGovernor o.cycleNum (cycleCost cfg c) false)
        | none =>
          (({ result with progress := true },none),
            (o.recordBreakerResult c.recordedAt true false).recordGovernor o.cycleNum (cycleCost cfg c) true)

variable (now : Int)

def Orchestrator.askBreaker : Bool × Orchestrator S P :=
  match o.breaker with
  | none => (true,o)
  | some cb => ((cb.canExecute now).1,{ o with breaker := some (cb.canExecute now).2 })

def breakerText : String := (o.breaker.map fun cb => cb.state.text).getD ""

def Orchestrator.runOneCycle (c : Stages S P) : (CycleResult S P × Option String) × Orchestrator S P :=
  let o := { o with cycleNum := o.cycleNum+1 }
  let result : CycleResult S P := ⟨o.cycleNum,"",none,none,false,0,""⟩
  let asked := o.askBreaker c.now
  if asked.1 = false then
    ((result,some ("circuit breaker open (state=" ++ breakerText asked.2 ++ ")")),asked.2)
  else if asked.2.governorHalts then
    ((result,some "governor halted: cost or productivity threshold exceeded"),asked.2)
  else asked.2.runStages cfg c result

/-! ### The loop -/

inductive Signal where
  | done (err : String)
  | stop

/-- `Run` at the head of its loop, or after it has returned with or without an error. -/
structure Loop (S P : Type) where
  orchestrator : Orchestrator S P
  returned : Option (Option String)

def Orchestrator.leaves : Option (Option String) :=
  if 0 < cfg.maxCycles ∧ cfg.maxCycles ≤ o.cycleNum then some none
  else if o.governorHalts then some (some ("orchestrator: governor halted after cycle " ++ toString o.cycleNum))
  else none

/-- One turn of the loop; `signal` is what the select at its head finds. -/
def Loop.turn (l : Loop S P) (signal : Option Signal) (c : Stages S P) : Loop S P :=
  match l.returned,signal with
  | some _,_ => l
  | none,some (.done err) => { l with returned := some (some err) }
  | none,some .stop => { l with returned := some none }
  | none,none =>
    let ran := l.orchestrator.runOneCycle cfg c
    let result := { ran.1.1 with error := ran.1.2.getD ran.1.1.error }
    let o := { ran.2 with results := ran.2.results ++ [result] }
    ⟨o,o.leaves cfg⟩

def run (cfg : OrchestratorConfig) (o : Orchestrator S P) (stages : Nat → Stages S P) : Nat → Loop S P
  | 0 => ⟨o,none⟩
  | n+1 => (run cfg o stages n).turn cfg none (stages n)

/-! ### What one turn does -/

def Orchestrator.asked : Option CircuitBreaker :=
  o.breaker.map fun cb => (cb.canExecute now).2

def Orchestrator.refuses (o : Orchestrator S P) (now : Int) : Bool := o.breaker.any fun cb => cb.refuses now

def Stages.reachesRalph (c : Stages S P) : Bool :=
  c.scan.isOk && c.plan.isOk && (specPath cfg c).isOk

def refusal : String := "circuit breaker open (state=open)"

/-- The exits of a cycle, with the result that is recorded and the orchestrator after it. -/
inductive Turned (cfg : OrchestratorConfig) (o : Orchestrator S P) (c : Stages S P) (r : CycleResult S P) :
    Orchestrator S P → Prop
  | refused (refuses : o.refuses c.now = true) (idle : r.progress = false) (free : r.cost = 0) (tells : r.error = refusal) :
    Turned cfg o c r { o with cycleNum := o.cycleNum+1, results := o.results ++ [r] }
  | halted (allowed : o.refuses c.now = false) (halts : o.governorHalts = true) (idle : r.progress = false)
    (free : r.cost = 0) (tells : r.error ≠ refusal) :
    Turned cfg o c r { o with breaker := o.asked c.now, cycleNum := o.cycleNum+1, results := o.results ++ [r] }
  | failed (allowed : o.refuses c.now = false) (goes : o.governorHalts = false) (short : c.reachesRalph cfg = false)
    (idle : r.progress = false) (free : r.cost = 0) (tells : r.error ≠ refusal) :
    Turned cfg o c r
      { o with
        breaker := (o.asked c.now).map fun cb => cb.recordResult c.recordedAt false true
        cycleNum := o.cycleNum+1
        results := o.results ++ [r] }
  | finished (allowed : o.refuses c.now = false) (goes : o.governorHalts = false) (reaches : c.reachesRalph cfg = true)
    (tells : r.error ≠ refusal) :
    Turned cfg o c r
      { breaker := (o.asked c.now).map (fun cb => cb.recordResult c.recordedAt r.progress false)
        governor := o.governor.map fun g => g.record ⟨o.cycleNum+1,r.cost,r.progress⟩
        cycleNum := o.cycleNum+1
        results := o.results ++ [r] }

theorem canExecute_fst : (cb.canExecute now).1 = !cb.refuses now := by
  unfold CircuitBreaker.canExecute CircuitBreaker.refuses
  split
  · split
    · simp [*]
    · simp [*]
      omega
  · simp [*]

theorem canExecute_refused {cb : CircuitBreaker} {now : Int} (refuses : cb.refuses now = true) :
    (cb.canExecute now).2 = cb := by
  unfold CircuitBreaker.refuses at refuses
  unfold CircuitBreaker.canExecute
  simp only [decide_eq_true_eq] at refuses
  rw [dif_pos refuses.1,if_neg (by omega)]

open Orchestrator

theorem askBreaker_eq : o.askBreaker now = (!o.refuses now,{ o with breaker := o.asked now }) := by
  unfold askBreaker refuses asked
  cases o with
  | mk breaker governor cycleNum results => cases breaker <;> simp [canExecute_fst]

variable {o : Orchestrator S P}

theorem asked_refused {now : Int} (refuses : o.refuses now = true) :
    o.asked now = o.breaker ∧ breakerText o = "open" := by
  unfold Orchestrator.refuses at refuses
  unfold Orchestrator.asked breakerText
  cases breaker : o.breaker with
  | none => simp [breaker] at refuses
  | some cb =>
    have refuses' : cb.refuses now = true := by simpa [breaker] using refuses
    have opened : cb.state = .opened := by
      simp only [CircuitBreaker.refuses,decide_eq_true_eq] at refuses'
      exact refuses'.1
    exact ⟨by rw [Option.map_some,canExecute_refused refuses'],by simp [opened,BreakerState.text]⟩

theorem error_ne_refusal {text start rest : String} (begins : text = start ++ rest)
    (differs : ¬ start.toList <+: refusal.toList) : text ≠ refusal := by
  rintro rfl
  refine differs ⟨rest.toList,?_⟩
  rw [begins,String.toList_append]

def recorded (ran : (CycleResult S P × Option String) × Orchestrator S P) : CycleResult S P :=
  { ran.1.1 with error := ran.1.2.getD ran.1.1.error }

variable {c : Stages S P}

theorem specPath_error {cfg : OrchestratorConfig} {err : String} (failed : specPath cfg c = .error err) :
    err ≠ refusal := by
  have legacy : (∃ rest, err = "synthesize: " ++ rest) ∨ ∃ rest, err = "write spec: " ++ rest := by
    unfold specPath at failed
    grind
  rcases legacy with ⟨rest,begins⟩ | ⟨rest,begins⟩
  · exact error_ne_refusal begins (by decide)
  · exact error_ne_refusal begins (by decide)

attribute [local simp] Stages.reachesRalph Except.toBool Except.isOk

theorem runStages_turned {cfg : OrchestratorConfig} {result : CycleResult S P}
    (allowed : o.refuses c.now = false) (goes : o.governorHalts = false) (idle : result.progress = false)
    (free : result.cost = 0) (silent : result.error = "") :
    let ran := ({ o with breaker := o.asked c.now, cycleNum := o.cycleNum+1 } : Orchestrator S P).runStages cfg c result
    Turned cfg o c (recorded ran) { ran.2 with results := ran.2.results ++ [recorded ran] } := by
  unfold runStages
  cases scan : c.scan with
  | error err =>
    exact .failed allowed goes (by simp [scan]) idle free
      (error_ne_refusal rfl (by decide))
  | ok scanOut =>
    cases plan : c.plan with
    | error err =>
      exact .failed allowed goes (by simp [plan]) idle free
        (error_ne_refusal rfl (by decide))
    | ok planOut =>
      cases spec : specPath cfg c with
      | error err =>
        exact .failed allowed goes (by simp [spec]) idle free
          (specPath_error spec)
      | ok path =>
        have reaches : c.reachesRalph cfg = true := by
          simp [scan,plan,spec]
        cases ralph : if cfg.ralphStarter then c.ralph else none with
        | some err => exact .finished allowed goes reaches (error_ne_refusal rfl (by decide))
        | none =>
          refine .finished allowed goes reaches ?_
          show result.error ≠ refusal
          rw [silent]
          decide

def blank (cycleNum : Int) : CycleResult S P := ⟨cycleNum,"",none,none,false,0,""⟩

theorem runOneCycle_refused (refuses : o.refuses c.now = true) :
    o.runOneCycle cfg c = ((blank (o.cycleNum+1),some refusal),{ o with cycleNum := o.cycleNum+1 }) := by
  have refuses' : ({ o with cycleNum := o.cycleNum+1 } : Orchestrator S P).refuses c.now = true := refuses
  obtain ⟨same,text⟩ := asked_refused refuses'
  rw [runOneCycle,askBreaker_eq,refuses',same,text]
  rfl

theorem runOneCycle_allowed (allowed : o.refuses c.now = false) : o.runOneCycle cfg c = if o.governorHalts then
        ((blank (o.cycleNum+1),some "governor halted: cost or productivity threshold exceeded"),
          { o with breaker := o.asked c.now, cycleNum := o.cycleNum+1 })
      else ({ o with breaker := o.asked c.now, cycleNum := o.cycleNum+1 } : Orchestrator S P).runStages cfg c
        (blank (o.cycleNum+1)) := by
  have allowed' : ({ o with cycleNum := o.cycleNum+1 } : Orchestrator S P).refuses c.now = false := allowed
  rw [runOneCycle,askBreaker_eq,allowed']
  rfl

theorem turn_turned {l : Loop S P} (running : l.returned = none) (c : Stages S P) :
    ∃ r o, Turned cfg l.orchestrator c r o ∧ l.turn cfg none c = ⟨o,o.leaves cfg⟩ := by
  let ran := l.orchestrator.runOneCycle cfg c
  refine ⟨recorded ran,{ ran.2 with results := ran.2.results ++ [recorded ran] },?_,by simp [Loop.turn,running,recorded,ran]⟩
  cases refuses : l.orchestrator.refuses c.now with
  | true =>
    rw [show ran = _ from runOneCycle_refused cfg refuses]
    exact .refused refuses rfl rfl rfl
  | false =>
    rw [show ran = _ from runOneCycle_allowed cfg refuses]
    cases halts : l.orchestrator.governorHalts with
    | true =>
      have other : "governor halted: cost or productivity threshold exceeded" ≠ refusal := by decide
      exact .halted refuses halts rfl rfl other
    | false => exact runStages_turned refuses halts rfl rfl rfl

theorem turn_returned {l : Loop S P} (returned : l.returned ≠ none) (signal : Option Signal)
    (c : Stages S P) : l.turn cfg signal c = l := by
  unfold Loop.turn
  cases done : l.returned with
  | none => exact absurd done returned
  | some err => rfl

/-! ### Runs -/

theorem Turned.cycleNum {cfg : OrchestratorConfig} {o' : Orchestrator S P} {r : CycleResult S P}
    (turned : Turned cfg o c r o') : o'.cycleNum = o.cycleNum+1 := by
  cases turned <;> rfl

theorem Turned.results {cfg : OrchestratorConfig} {o' : Orchestrator S P} {r : CycleResult S P}
    (turned : Turned cfg o c r o') : o'.results = o.results ++ [r] := by
  cases turned <;> rfl

section
variable {cfg : OrchestratorConfig} {o : Orchestrator S P} {stages : Nat → Stages S P}

theorem run_returned {n : Nat} (returned : (run cfg o stages n).returned ≠ none) :
    run cfg o stages (n+1) = run cfg o stages n := turn_returned cfg returned none (stages n)

/-- What holds at the start, and is kept by each turn of the running loop, holds throughout. -/
theorem run_invariant {I : Loop S P → Prop} (base : I ⟨o,none⟩)
    (kept : ∀ n r o', (run cfg o stages n).returned = none → I (run cfg o stages n) →
      Turned cfg (run cfg o stages n).orchestrator (stages n) r o' → I ⟨o',o'.leaves cfg⟩) :
    ∀ n, I (run cfg o stages n) := by
  intro n
  induction n with
  | zero => exact base
  | succ n ih =>
    by_cases running : (run cfg o stages n).returned = none
    · obtain ⟨r,o',turned,after⟩ := turn_turned cfg running (stages n)
      rw [run,after]
      exact kept n r o' running ih turned
    · rw [run_returned running]
      exact ih

theorem run_counts (new : o.cycleNum = 0 ∧ o.results = []) (n : Nat) :
    (run cfg o stages n).orchestrator.results.length = (run cfg o stages n).orchestrator.cycleNum ∧
    ((run cfg o stages n).returned = none → (run cfg o stages n).orchestrator.cycleNum = n) := by
  induction n with
  | zero => simp [run,new]
  | succ n ih =>
    by_cases running : (run cfg o stages n).returned = none
    · obtain ⟨r,o',turned,after⟩ := turn_turned cfg running (stages n)
      have before := ih.2 running
      rw [run,after]
      refine ⟨?_,fun _ => ?_⟩
      · rw [turned.results,turned.cycleNum,List.length_append,List.length_singleton,← ih.1]
        rfl
      · rw [turned.cycleNum,before]
        rfl
    · rw [run_returned running]
      exact ⟨ih.1,fun still => absurd still running⟩

end
end Mcpkit.CycleModel
