import Mcpkit.RalphSpec

/-!
The Ralph loop. Each iteration asks the sampler for a decision; most of its exits go back to the
head of the loop without a word to the circuit breaker.
-/
namespace Mcpkit.RalphLoop
open RalphSpec ToolResults Transitions

/-! ### The circuit breaker -/

inductive CircuitState where
  | closed
  | halfOpen
  | opened
  deriving DecidableEq

structure CircuitBreakerConfig where
  noProgressThreshold : Int
  sameErrorThreshold : Int
  cooldownDuration : Int
  deriving DecidableEq

def defaultCircuitBreakerConfig : CircuitBreakerConfig := ⟨3,5,1800000000000⟩

structure CircuitBreaker where
  config : CircuitBreakerConfig
  state : CircuitState
  noProgressCount : Int
  sameErrorCount : Int
  lastErrorKey : String
  openedAt : Int
  openReason : String
  deriving DecidableEq

def newCircuitBreaker (cfg : CircuitBreakerConfig) : CircuitBreaker where
  config :=
    { noProgressThreshold :=
        if cfg.noProgressThreshold ≤ 0 then defaultCircuitBreakerConfig.noProgressThreshold else cfg.noProgressThreshold
      sameErrorThreshold :=
        if cfg.sameErrorThreshold ≤ 0 then defaultCircuitBreakerConfig.sameErrorThreshold else cfg.sameErrorThreshold
      cooldownDuration :=
        if cfg.cooldownDuration ≤ 0 then defaultCircuitBreakerConfig.cooldownDuration else cfg.cooldownDuration }
  state := .closed
  noProgressCount := 0
  sameErrorCount := 0
  lastErrorKey := ""
  openedAt := 0
  openReason := ""

variable (cfg : Config) (cb : CircuitBreaker)

def CircuitBreaker.canExecute (now : Int) : Bool × CircuitBreaker :=
  if cb.state = .opened then
    if cb.config.cooldownDuration ≤ now-cb.openedAt then (true,{ cb with state := .halfOpen }) else (false,cb)
  else (true,cb)

def CircuitBreaker.trip (now : Int) (reason : String) : CircuitBreaker :=
  { cb with state := .opened, openedAt := now, openReason := reason }

def CircuitBreaker.count (errorKey : String) : CircuitBreaker :=
  { cb with
    noProgressCount := cb.noProgressCount+1
    sameErrorCount := if errorKey = "" then 0 else if errorKey = cb.lastErrorKey then cb.sameErrorCount+1 else 1
    lastErrorKey := errorKey }

def CircuitBreaker.recordResult (quote : Quote) (now : Int) (hasProgress : Bool) (errorKey : String) : CircuitBreaker :=
  if hasProgress then
    { cb with
      noProgressCount := 0, sameErrorCount := 0, lastErrorKey := ""
      state := if cb.state = .halfOpen then .closed else cb.state }
  else
    let cb := cb.count errorKey
    if cb.config.noProgressThreshold ≤ cb.noProgressCount then
      cb.trip now ("no progress for " ++ toString cb.noProgressCount ++ " consecutive iterations")
    else if errorKey ≠ "" ∧ cb.config.sameErrorThreshold ≤ cb.sameErrorCount then
      cb.trip now ("same error " ++ quote errorKey ++ " repeated " ++ toString cb.sameErrorCount ++ " times")
    else if cb.state = .halfOpen then cb.trip now "probe iteration failed in half-open state"
    else cb

def CircuitBreaker.reason : String := if cb.state = .closed then "" else cb.openReason

/-! ### The loop -/

inductive Status where
  | unset
  | running
  | completed
  | failed
  | stopped
  deriving DecidableEq

structure IterationLog where
  iteration : Nat
  taskID : String
  toolCalls : List String
  result : String
  deriving DecidableEq

structure Progress where
  iteration : Nat
  completedIDs : List String
  log : List IterationLog
  status : Status
  deriving DecidableEq

def noProgress : Progress := ⟨0,[],[],.unset⟩

structure Decision where
  complete : Bool
  taskID : String
  toolName : String
  toolCalls : List String
  markDone : Bool
  deriving DecidableEq

def Decision.resolvedToolCalls (d : Decision) : List String :=
  if d.toolCalls ≠ [] then d.toolCalls else if d.toolName ≠ "" then [d.toolName] else []

inductive ToolOutcome where
  | notFound (available : List String)
  | unapproved (message : String)
  | error (formatted : String)
  | text (isError : Bool) (text : String)
  | nonText
  | empty
  deriving DecidableEq

def ToolOutcome.executed : ToolOutcome → Bool
  | .notFound _ => false
  | .unapproved _ => false
  | _ => true

def ToolOutcome.resultPart (quote : Quote) (name : String) : ToolOutcome → String
  | .notFound available =>
    "tool " ++ quote name ++ " not found. Available tools: [" ++ String.intercalate ", " available ++ "]"
  | .unapproved message => message
  | .error formatted => "tool error: " ++ formatted
  | .text true content => "tool error: " ++ content
  | .text false content => content
  | .nonText => "tool returned non-text content"
  | .empty => "tool returned empty result"

inductive Response where
  | interrupted (err : Option String)
  | failed (err : String)
  | noText
  | unparsable (err preview : String)
  | decision (d : Decision)
  deriving DecidableEq

inductive Verdict where
  | proceed
  | stop (err : String)
  deriving DecidableEq

/-- A request to pause, which fails or stops the run with the status set or not. -/
inductive Pause where
  | none
  | paused (statusSet : Bool) (err : String)
  deriving DecidableEq

structure Env where
  now : Int
  recordAt : Int
  stop : Option (Option String)
  pause : Pause
  specErr : Option String
  response : Response
  outcome : Nat → ToolOutcome
  verify : List String
  verdict : Verdict
  saved : Bool
  statusSaved : Bool

structure Config where
  maxIterations : Nat
  requireAllTasksDone : Bool
  samplerRetries : Nat
  maxConsecutiveSamplerFailures : Int
  breaker : Option CircuitBreakerConfig
  quote : Quote
  -- `isErrorResult` and `normalizeError`: the error that a result is about, or none
  errorKey : String → String

/-- A tool handler that ran, with the task of the decision and what was completed then. -/
structure Execution where
  iteration : Nat
  taskID : String
  completed : List String
  tool : String
  deriving DecidableEq

/-- `executions`, `stale` and `misreported` are history: the handlers that ran, the iterations since a task was
    completed, and whether progress was reported when there was none. -/
structure System where
  progress : Progress
  file : Option Progress
  consecutiveSamplerFails : Nat
  breaker : Option CircuitBreaker
  running : Bool
  returned : Option String
  executions : List Execution
  stale : Nat
  misreported : Bool

variable (s : System)

def System.save (saved : Bool) : System := if saved then { s with file := some s.progress } else s

def System.setStatus (status : Status) (saved : Bool) : System :=
  System.save { s with progress := { s.progress with status := status } } saved

def System.leave (err : Option String) : System := { s with running := false, returned := err }

def System.recordIteration (taskID : String) (toolCalls : List String) (result : String) (saved : Bool) : System :=
  System.save
    { s with progress := { s.progress with log := s.progress.log ++ [⟨s.progress.iteration,taskID,toolCalls,result⟩] } } saved

def System.next : System := { s with stale := s.stale+1 }

def System.canExecute (s : System) (now : Int) : Bool × System :=
  match s.breaker with
  | none => (true,s)
  | some cb => ((cb.canExecute now).1,{ s with breaker := some (cb.canExecute now).2 })

/-- From the head of the loop to the sampler; or `Run` has returned. -/
def enter (env : Env) : Except System System :=
  match env.stop with
  | some err => .error ((s.setStatus .stopped env.statusSaved).leave err)
  | none =>
    let (allowed,s) := s.canExecute env.now
    if allowed then
      match env.pause with
      | .paused statusSet err => .error ((if statusSet then s.setStatus .stopped env.statusSaved else s).leave (some err))
      | .none =>
        if cfg.maxIterations < s.progress.iteration+1 then
          .error ((s.setStatus .failed env.statusSaved).leave
            (some ("ralph: max iterations (" ++ toString cfg.maxIterations ++ ") reached")))
        else
          let s := { s with progress := { s.progress with iteration := s.progress.iteration+1 } }
          match env.specErr with
          | some err => .error ((s.setStatus .failed env.statusSaved).leave (some err))
          | none => .ok s
    else
      let reason := (s.breaker.map CircuitBreaker.reason).getD ""
      .error ((s.setStatus .stopped env.statusSaved).leave (some ("ralph: circuit breaker open: " ++ reason)))

def appendUnique (slice : List String) (item : String) : List String := if item ∈ slice then slice else slice ++ [item]

def Decision.blocked (d : Decision) (tasks : List Task) (completed : List String) : Bool :=
  d.taskID ≠ "" ∧ d.taskID ∉ completed ∧ d.taskID ∉ readyTasks tasks completed

variable (tasks : List Task)

def marked (d : Decision) (completed : List String) : List String :=
  if d.markDone ∧ d.taskID ≠ "" ∧ (d.taskID ∈ completed ∨ d.taskID ∈ readyTasks tasks completed) then
    appendUnique completed d.taskID
  else completed

def resultParts (env : Env) (calls : List String) : List String :=
  calls.zipIdx.map (fun call => (env.outcome call.2).resultPart cfg.quote call.1) ++ env.verify

variable (s : System) (d : Decision) (env : Env)

def executions (calls : List String) : List Execution :=
  (calls.zipIdx.filter fun call => (env.outcome call.2).executed).map
    (fun call => ⟨s.progress.iteration,d.taskID,s.progress.completedIDs,call.1⟩)

/-- The breaker is told of progress; `grew` says whether a task was completed. -/
def System.report (quote : Quote) (now : Int) (hasProgress grew : Bool) (errorKey : String) : System :=
  { s with
    breaker := s.breaker.map fun cb => cb.recordResult quote now hasProgress errorKey
    stale := if grew then 0 else s.stale+1
    misreported := s.misreported || (s.breaker.isSome && hasProgress && !grew) }

def act (calls : List String) : System :=
  let combinedResult := String.intercalate "\n" (resultParts cfg env calls)
  let hasProgress := d.markDone && d.taskID != ""
  let completed := marked tasks d s.progress.completedIDs
  let grew : Bool := completed ≠ s.progress.completedIDs
  let s := { s with
    executions := s.executions ++ executions s d env calls
    progress := { s.progress with completedIDs := completed } }
  let s := s.recordIteration d.taskID calls combinedResult env.saved
  let s := s.report cfg.quote env.recordAt hasProgress grew (cfg.errorKey combinedResult)
  match env.verdict with
  | .proceed => s
  | .stop err => (s.setStatus .failed env.statusSaved).leave (some err)

def decideOn : System :=
  let completed := s.progress.completedIDs
  if d.blocked tasks completed then
    (s.recordIteration d.taskID [] ("task " ++ cfg.quote d.taskID ++ " is blocked (dependencies not met). Ready tasks: [" ++
      String.intercalate ", " (readyTasks tasks completed) ++ "]") env.saved).next
  else if d.complete then
    if cfg.requireAllTasksDone && !exitGate tasks completed then
      let missing := (ids tasks).filter (· ∉ completed)
      (s.recordIteration "" [] ("completion rejected: ExitGate requires all tasks done; missing: " ++
        String.intercalate ", " missing) env.saved).next
    else ((s.recordIteration "" [] "loop completed" env.saved).setStatus .completed env.statusSaved).leave none
  else
    match d.resolvedToolCalls with
    | [] => (s.recordIteration d.taskID [] "no tool specified in decision" env.saved).next
    | calls => act cfg tasks s d env calls

def respond : System :=
  match env.response with
  | .interrupted err => (s.setStatus .stopped env.statusSaved).leave err
  | .failed err =>
    let fails := s.consecutiveSamplerFails+1
    let s := System.recordIteration { s with consecutiveSamplerFails := fails } "" []
      ("sampler error (after " ++ toString cfg.samplerRetries ++ " retries, " ++ toString fails ++ " consecutive): " ++ err)
      env.saved
    if 0 < cfg.maxConsecutiveSamplerFailures ∧ cfg.maxConsecutiveSamplerFailures ≤ fails then
      (s.setStatus .failed env.statusSaved).leave
        (some ("ralph: " ++ toString fails ++ " consecutive sampler failures, last error: " ++ err))
    else s.next
  | .noText =>
    (System.recordIteration { s with consecutiveSamplerFails := 0 } "" [] "no text in sampler response" env.saved).next
  | .unparsable err preview =>
    (System.recordIteration { s with consecutiveSamplerFails := 0 } "" []
      ("parse error: " ++ err ++ "\nRaw response (truncated):\n" ++ preview) env.saved).next
  | .decision d => decideOn cfg tasks { s with consecutiveSamplerFails := 0 } d env

def iterate : System :=
  match enter cfg s env with
  | .error s => s
  | .ok s => respond cfg tasks s env

def System.loaded (forceRestart : Bool) : Progress :=
  if forceRestart then noProgress else s.file.getD noProgress

def System.renewed (cfg : Config) (newProcess : Bool) : System :=
  if newProcess then { s with consecutiveSamplerFails := 0, breaker := cfg.breaker.map newCircuitBreaker } else s

def start (forceRestart newProcess : Bool) : System :=
  let loaded := s.loaded forceRestart
  let s := s.renewed cfg newProcess
  if loaded.status = .completed then System.leave { s with progress := loaded } none
  else { s with progress := { loaded with status := .running }, running := true, stale := 0 }

/-- A run starts, an iteration passes, or the process ends, at the head of the loop or in
    an iteration that it has not saved. -/
inductive Action where
  | start (forceRestart newProcess : Bool)
  | iterate (env : Env)
  | crash
  | crashIn (env : Env)

def step : Action → Option System
  | .start forceRestart newProcess => if s.running then none else some (start cfg s forceRestart newProcess)
  | .iterate env => if s.running then some (iterate cfg tasks s env) else none
  | .crash => if s.running then some { s with running := false } else none
  | .crashIn env => if s.running then some { iterate cfg tasks s env with file := s.file, running := false } else none

theorem step_cases {cfg : Config} {tasks : List Task} {s s' : System} {a : Action} (moved : step cfg tasks s a = some s') :
    (∃ forceRestart newProcess, a = .start forceRestart newProcess ∧ s' = start cfg s forceRestart newProcess) ∨
    (∃ env, a = .iterate env ∧ s' = iterate cfg tasks s env) ∨
    (a = .crash ∧ s' = { s with running := false }) ∨
    (∃ env, a = .crashIn env ∧ s' = { iterate cfg tasks s env with file := s.file, running := false }) := by
  cases a with simp only [step,guarded] at moved
  | start forceRestart newProcess =>
    simp only [Option.ite_none_left_eq_some,Option.some.injEq] at moved
    exact .inl ⟨forceRestart,newProcess,rfl,moved.2.symm⟩
  | iterate env => exact .inr (.inl ⟨env,rfl,moved.2.symm⟩)
  | crash => exact .inr (.inr (.inl ⟨rfl,moved.2.symm⟩))
  | crashIn env => exact .inr (.inr (.inr ⟨env,rfl,moved.2.symm⟩))

def init : System where
  progress := noProgress
  file := none
  consecutiveSamplerFails := 0
  breaker := cfg.breaker.map newCircuitBreaker
  running := false
  returned := none
  executions := []
  stale := 0
  misreported := false

/-! ### What an iteration can do -/

/-- The iteration goes back to the head of the loop without calling a tool. -/
def Silent : Response → Prop
  | .interrupted _ => False
  | .failed _ => ¬ (0 < cfg.maxConsecutiveSamplerFailures ∧
      cfg.maxConsecutiveSamplerFailures ≤ (s.consecutiveSamplerFails+1 : Nat))
  | .noText => True
  | .unparsable _ _ => True
  | .decision d => d.blocked tasks s.progress.completedIDs ∨
      (d.complete ∧ cfg.requireAllTasksDone ∧ exitGate tasks s.progress.completedIDs = false) ∨
      (d.complete = false ∧ d.resolvedToolCalls = [])

instance (cfg : Config) (tasks : List Task) (s : System) : (response : Response) → Decidable (Silent cfg tasks s response)
  | .interrupted _ => .isFalse id
  | .failed _ => inferInstanceAs (Decidable (¬ (_ ∧ _)))
  | .noText => .isTrue trivial
  | .unparsable _ _ => .isTrue trivial
  | .decision _ => inferInstanceAs (Decidable (_ ∨ _ ∨ _))

/-- A property that the records of an iteration keep. -/
structure Recorded (I : System → Prop) : Prop where
  setStatus : ∀ {s : System} (status saved), I s → I (s.setStatus status saved)
  recordIteration : ∀ {s : System} (taskID toolCalls result saved), I s →
    I (s.recordIteration taskID toolCalls result saved)
  fails : ∀ {s : System} (fails), I s → I { s with consecutiveSamplerFails := fails }

theorem Recorded.of_save {I : System → Prop} (save : ∀ {s : System} (saved), I s → I (s.save saved))
    (progress : ∀ {s : System} (log status), I s → I { s with progress := { s.progress with log := log, status := status } })
    (fails : ∀ {s : System} (fails), I s → I { s with consecutiveSamplerFails := fails }) : Recorded I where
  setStatus := fun {s} status saved holds => save saved (progress s.progress.log status holds)
  recordIteration := fun {s} _ _ _ saved holds => save saved (progress _ s.progress.status holds)
  fails := fails

variable {s} {I : System → Prop}

def System.entered (s : System) (now : Int) : System :=
  { (s.canExecute now).2 with
    progress := { (s.canExecute now).2.progress with iteration := (s.canExecute now).2.progress.iteration+1 } }

theorem enter_cases (env : Env) (recorded : Recorded I) (holds : I s) (checked : I (s.canExecute env.now).2)
    (entered : (s.canExecute env.now).2.progress.iteration+1 ≤ cfg.maxIterations → I (s.entered env.now)) :
    (∃ s₀ err, enter cfg s env = .error (s₀.leave err) ∧ I s₀) ∨
    (enter cfg s env = .ok (s.entered env.now) ∧ I (s.entered env.now)) := by
  unfold enter
  cases env.stop with
  | some err => exact .inl ⟨_,err,rfl,recorded.setStatus _ _ holds⟩
  | none =>
    simp only
    split
    · cases env.pause with
      | paused statusSet err =>
        cases statusSet with
        | true => exact .inl ⟨_,_,rfl,recorded.setStatus _ _ checked⟩
        | false => exact .inl ⟨_,_,rfl,checked⟩
      | none =>
        by_cases beyond : cfg.maxIterations < (s.canExecute env.now).2.progress.iteration+1
        · simp only [beyond,if_true]
          exact .inl ⟨_,_,rfl,recorded.setStatus _ _ checked⟩
        · simp only [beyond,if_false]
          have counted := entered (by omega)
          cases env.specErr with
          | some err => exact .inl ⟨_,_,rfl,recorded.setStatus _ _ counted⟩
          | none => exact .inr ⟨rfl,counted⟩
    · exact .inl ⟨_,_,rfl,recorded.setStatus _ _ checked⟩

theorem decideOn_cases (env : Env) (recorded : Recorded I) (holds : I s) (d : Decision) :
    (∃ s₀ err, decideOn cfg tasks s d env = s₀.leave err ∧ I s₀) ∨
    (∃ s₀, decideOn cfg tasks s d env = s₀.next ∧ I s₀ ∧ Silent cfg tasks s (.decision d)) ∨
    (d.blocked tasks s.progress.completedIDs = false ∧ d.complete = false ∧ d.resolvedToolCalls ≠ [] ∧
      decideOn cfg tasks s d env = act cfg tasks s d env d.resolvedToolCalls) := by
  unfold decideOn
  by_cases blocked : d.blocked tasks s.progress.completedIDs
  · simp only [blocked,if_true]
    exact .inr (.inl ⟨_,rfl,recorded.recordIteration _ _ _ _ holds,.inl blocked⟩)
  · simp only [blocked]
    by_cases complete : d.complete
    · simp only [complete,if_true]
      by_cases rejected : cfg.requireAllTasksDone && !exitGate tasks s.progress.completedIDs
      · simp only [rejected,if_true]
        refine .inr (.inl ⟨_,rfl,recorded.recordIteration _ _ _ _ holds,.inr (.inl ⟨complete,?_⟩)⟩)
        simpa using rejected
      · simp only [rejected]
        exact .inl ⟨_,_,rfl,recorded.setStatus _ _ (recorded.recordIteration _ _ _ _ holds)⟩
    · simp only [complete]
      cases calls : d.resolvedToolCalls with
      | nil =>
        refine .inr (.inl ⟨_,rfl,recorded.recordIteration _ _ _ _ holds,.inr (.inr ⟨?_,calls⟩)⟩)
        simpa using complete
      | cons call rest => exact .inr (.inr ⟨by simp,by simp,by simp,rfl⟩)

theorem respond_cases (env : Env) (recorded : Recorded I) (holds : I s) :
    (∃ s₀ err, respond cfg tasks s env = s₀.leave err ∧ I s₀) ∨
    (∃ s₀, respond cfg tasks s env = s₀.next ∧ I s₀ ∧ Silent cfg tasks s env.response) ∨
    ∃ d, env.response = .decision d ∧ d.blocked tasks s.progress.completedIDs = false ∧ d.complete = false ∧
      d.resolvedToolCalls ≠ [] ∧
      respond cfg tasks s env = act cfg tasks { s with consecutiveSamplerFails := 0 } d env d.resolvedToolCalls := by
  unfold respond
  cases env.response with
  | interrupted err => exact .inl ⟨_,err,rfl,recorded.setStatus _ _ holds⟩
  | failed err =>
    have logged := recorded.recordIteration "" []
      ("sampler error (after " ++ toString cfg.samplerRetries ++ " retries, " ++ toString (s.consecutiveSamplerFails+1) ++
        " consecutive): " ++ err) env.saved (recorded.fails (s.consecutiveSamplerFails+1) holds)
    simp only
    split
    · exact .inl ⟨_,_,rfl,recorded.setStatus _ _ logged⟩
    · rename_i few
      exact .inr (.inl ⟨_,rfl,logged,few⟩)
  | noText => exact .inr (.inl ⟨_,rfl,recorded.recordIteration _ _ _ _ (recorded.fails 0 holds),trivial⟩)
  | unparsable err preview =>
    exact .inr (.inl ⟨_,rfl,recorded.recordIteration _ _ _ _ (recorded.fails 0 holds),trivial⟩)
  | decision d =>
    rcases decideOn_cases cfg tasks env recorded (recorded.fails 0 holds) d with
      returned | silent | ⟨clear,open_,calls,same⟩
    · exact .inl returned
    · exact .inr (.inl silent)
    · exact .inr (.inr ⟨d,rfl,clear,open_,calls,same⟩)

/-- An iteration in which nothing fails, with a response of the sampler. -/
def quietEnv (now : Int) (response : Response) : Env :=
  ⟨now,now,none,.none,none,response,fun _ => .text false "ok",[],.proceed,true,true⟩

/-- A decision to work on a task with one tool, and to mark it or not. -/
def working (markDone : Bool) (taskID : String) : Response := .decision ⟨false,taskID,"write_file",[],markDone⟩

def finishing : String → Response := working true

end Mcpkit.RalphLoop
