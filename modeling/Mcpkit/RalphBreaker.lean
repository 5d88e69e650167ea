import Mcpkit.RalphLoop

/-!
The circuit breaker of the Ralph loop. It counts the iterations that are reported to it.
-/
namespace Mcpkit.RalphBreaker
open RalphLoop RalphSpec ToolResults Transitions

def Repeats (s : System) : Response → Prop
  | .decision d => d.markDone ∧ d.taskID ≠ "" ∧ d.taskID ∈ s.progress.completedIDs ∧ d.complete = false ∧ d.resolvedToolCalls ≠ []
  | _ => False

instance (s : System) : (response : Response) → Decidable (Repeats s response)
  | .decision _ => inferInstanceAs (Decidable (_ ∧ _))
  | .interrupted _ => .isFalse id
  | .failed _ => .isFalse id
  | .noText => .isFalse id
  | .unparsable _ _ => .isFalse id

/-- The breaker is not told of the iteration, or told of progress without any. -/
def Misleads (cfg : Config) (tasks : List Task) (s : System) : Action → Prop
  | .iterate env => Silent cfg tasks s env.response ∨ Repeats s env.response
  | .crashIn env => Repeats s env.response
  | _ => False

instance (cfg : Config) (tasks : List Task) (s : System) : (a : Action) → Decidable (Misleads cfg tasks s a)
  | .iterate _ => inferInstanceAs (Decidable (_ ∨ _))
  | .crashIn env => inferInstanceAs (Decidable (Repeats s env.response))
  | .start _ _ => .isFalse id
  | .crash => .isFalse id

variable (config : CircuitBreakerConfig)

/-- The breaker has counted every iteration of the run since a task was completed. -/
structure Counted (s : System) : Prop where
  told : s.misreported = false
  counts : ∃ cb, s.breaker = some cb ∧ cb.config = config ∧ 0 ≤ cb.noProgressCount ∧
    (s.running → (s.stale : Int) ≤ cb.noProgressCount)

/-- At the head of the loop, the breaker is open if there were too many of them. -/
def Tripped (s : System) : Prop :=
  s.running → config.noProgressThreshold ≤ s.stale → ∃ cb, s.breaker = some cb ∧ cb.state = .opened

variable {cfg : Config} {tasks : List Task} {config} {s s' : System}

/-! ### The parts of an iteration -/

theorem counted_recorded : Recorded (Counted config) := by
  refine .of_save (fun {s} saved counted => ?_) (fun _ _ counted => ?_) fun _ counted => ?_
  · unfold System.save
    split
    · exact ⟨counted.told,counted.counts⟩
    · exact counted
  · exact ⟨counted.told,counted.counts⟩
  · exact ⟨counted.told,counted.counts⟩

theorem Counted.stopped (counted : Counted config s) (breaker : s'.breaker = s.breaker)
    (told : s'.misreported = s.misreported) (stopped : s'.running = false) : Counted config s' := by
  obtain ⟨cb,there,same,nonnegative,-⟩ := counted.counts
  exact ⟨told.trans counted.told,cb,breaker.trans there,same,nonnegative,by simp [stopped]⟩

theorem tripped_of_stopped (stopped : s.running = false) : Tripped config s := by simp [Tripped,stopped]

open CircuitBreaker

theorem canExecute_kept (cb : CircuitBreaker) (now : Int) :
    (cb.canExecute now).2.config = cb.config ∧ (cb.canExecute now).2.noProgressCount = cb.noProgressCount := by
  unfold canExecute
  split
  · split <;> exact ⟨rfl,rfl⟩
  · exact ⟨rfl,rfl⟩

theorem Counted.canExecute (counted : Counted config s) (now : Int) : Counted config (s.canExecute now).2 := by
  obtain ⟨cb,there,same,positive,counts⟩ := counted.counts
  obtain ⟨config',count⟩ := canExecute_kept cb now
  simp only [System.canExecute,there]
  exact ⟨counted.told,_,rfl,config'.trans same,count ▸ positive,fun running => count ▸ counts running⟩

theorem canExecute_progress (s : System) (now : Int) : (s.canExecute now).2.progress = s.progress ∧
    (s.canExecute now).2.consecutiveSamplerFails = s.consecutiveSamplerFails := by
  unfold System.canExecute
  split <;> exact ⟨rfl,rfl⟩

theorem recordResult_without (cb : CircuitBreaker) (quote : Quote) (now : Int) (errorKey : String) :
    (cb.recordResult quote now false errorKey).config = cb.config ∧
    (cb.recordResult quote now false errorKey).noProgressCount = cb.noProgressCount+1 ∧
    (cb.config.noProgressThreshold ≤ cb.noProgressCount+1 → (cb.recordResult quote now false errorKey).state = .opened) := by
  unfold recordResult
  simp only [Bool.false_eq_true,if_false]
  split
  · exact ⟨rfl,rfl,fun _ => rfl⟩
  · rename_i few
    refine ⟨?_,?_,fun many => absurd many few⟩
    · split
      · rfl
      · split <;> rfl
    · split
      · rfl
      · split <;> rfl

theorem grew_of_marks {d : Decision} (clear : d.blocked tasks s.progress.completedIDs = false)
    (new : d.taskID ∉ s.progress.completedIDs) (marks : d.markDone ∧ d.taskID ≠ "") :
    marked tasks d s.progress.completedIDs ≠ s.progress.completedIDs := by
  simp only [Decision.blocked,decide_eq_false_iff_not] at clear
  have ready : d.taskID ∈ readyTasks tasks s.progress.completedIDs := by
    by_contra missing
    exact clear ⟨marks.2,new,missing⟩
  simp [marked,marks,ready,appendUnique,new]

theorem marked_of_unmarked {d : Decision} (unmarked : ¬ (d.markDone ∧ d.taskID ≠ "")) (completed : List String) :
    marked tasks d completed = completed := by
  exact if_neg fun asked => unmarked ⟨asked.1,asked.2.1⟩

/-- A true report keeps the breaker's count, and opens it in time. -/
theorem Counted.report (counted : Counted config s) (positive : 0 < config.noProgressThreshold) (quote : Quote) (now : Int)
    (grew : Bool) (errorKey : String) :
    Counted config (s.report quote now grew grew errorKey) ∧ Tripped config (s.report quote now grew grew errorKey) := by
  obtain ⟨cb,there,same,nonnegative,counts⟩ := counted.counts
  have told : (s.report quote now grew grew errorKey).misreported = false := by simp [System.report,counted.told]
  have breaker : (s.report quote now grew grew errorKey).breaker = some (cb.recordResult quote now grew errorKey) := by
    simp [System.report,there]
  cases grew with
  | true =>
    refine ⟨⟨told,_,breaker,same,Int.le_refl _,fun _ => Int.le_refl _⟩,fun _ many => ?_⟩
    exact absurd many (Int.not_le.mpr positive)
  | false =>
    obtain ⟨kept,count,opens⟩ := recordResult_without cb quote now errorKey
    have stale : (s.report quote now false false errorKey).stale = s.stale+1 := rfl
    refine ⟨⟨told,_,breaker,kept.trans same,by omega,fun running => ?_⟩,fun running many => ⟨_,breaker,opens ?_⟩⟩
    · have := counts running
      omega
    · have := counts running
      rw [same]
      omega

theorem Counted.act {d : Decision} (counted : Counted config s) (positive : 0 < config.noProgressThreshold)
    (clear : d.blocked tasks s.progress.completedIDs = false)
    (new : d.markDone → d.taskID ≠ "" → d.taskID ∉ s.progress.completedIDs) (env : Env) (calls : List String) :
    Counted config (RalphLoop.act cfg tasks s d env calls) ∧ Tripped config (RalphLoop.act cfg tasks s d env calls) := by
  -- the report is true: what is marked was not completed before
  have honest : decide (marked tasks d s.progress.completedIDs ≠ s.progress.completedIDs) = (d.markDone && d.taskID != "") := by
    by_cases marks : d.markDone ∧ d.taskID ≠ ""
    · have grew := grew_of_marks clear (new marks.1 marks.2) marks
      simp [grew,marks]
    · have kept : marked tasks d s.progress.completedIDs = s.progress.completedIDs := marked_of_unmarked marks _
      simpa [kept] using fun done some => marks ⟨done,some⟩
  have executed : Counted config { s with
      executions := s.executions ++ executions s d env calls
      progress := { s.progress with completedIDs := marked tasks d s.progress.completedIDs } } :=
    ⟨counted.told,counted.counts⟩
  have logged := counted_recorded.recordIteration d.taskID calls (String.intercalate "\n" (resultParts cfg env calls))
    env.saved executed
  have reported := logged.report positive cfg.quote env.recordAt (d.markDone && d.taskID != "")
    (cfg.errorKey (String.intercalate "\n" (resultParts cfg env calls)))
  unfold RalphLoop.act
  simp only [honest]
  cases env.verdict with
  | proceed => exact reported
  | stop err =>
    exact ⟨(counted_recorded.setStatus .failed env.statusSaved reported.1).stopped rfl rfl rfl,tripped_of_stopped rfl⟩

/-- The checks at the head of the loop do not change what an answer leads to. -/
theorem silent_entered (cfg : Config) (tasks : List Task) (s : System) (now : Int) (response : Response) :
    Silent cfg tasks (s.entered now) response ↔ Silent cfg tasks s response := by
  obtain ⟨progress,fails⟩ := canExecute_progress s now
  cases response <;> simp [Silent,System.entered,progress,fails]

theorem repeats_entered (s : System) (now : Int) (response : Response) :
    Repeats (s.entered now) response ↔ Repeats s response := by
  cases response <;> simp [Repeats,System.entered,canExecute_progress]

/-- An iteration that ends with the process, and one that does not. -/
structure Kept (config : CircuitBreakerConfig) (silent : Prop) (s : System) : Prop where
  crashed : ∀ file, Counted config { s with file := file, running := false }
  going : ¬ silent → Counted config s ∧ Tripped config s

theorem Kept.of_both {silent : Prop} (both : Counted config s ∧ Tripped config s) : Kept config silent s :=
  ⟨fun _ => both.1.stopped rfl rfl rfl,fun _ => both⟩

theorem Counted.respond (counted : Counted config s) (positive : 0 < config.noProgressThreshold) {env : Env}
    (honest : ¬ Repeats s env.response) :
    Kept config (Silent cfg tasks s env.response) (respond cfg tasks s env) := by
  rcases respond_cases cfg tasks env counted_recorded counted with
    ⟨s₀,err,same,counted₀⟩ | ⟨s₀,same,counted₀,silent⟩ | ⟨d,decision,clear,going,calls,same⟩ <;> rw [same]
  · exact .of_both ⟨counted₀.stopped rfl rfl rfl,tripped_of_stopped rfl⟩
  · exact ⟨fun _ => counted₀.stopped rfl rfl rfl,fun loud => absurd silent loud⟩
  · rw [decision] at honest
    exact .of_both ((counted_recorded.fails 0 counted).act positive clear
      (fun done some member => honest ⟨done,some,member,going,calls⟩) env _)

theorem Counted.iterate (counted : Counted config s) (positive : 0 < config.noProgressThreshold) {env : Env}
    (honest : ¬ Repeats s env.response) :
    Kept config (Silent cfg tasks s env.response) (RalphLoop.iterate cfg tasks s env) := by
  have checked := counted.canExecute env.now
  have entered : Counted config (s.entered env.now) := ⟨checked.told,checked.counts⟩
  unfold RalphLoop.iterate
  rcases enter_cases cfg env counted_recorded counted checked (fun _ => entered) with ⟨s₀,err,same,counted₀⟩ | ⟨same,-⟩ <;>
    rw [same]
  · exact .of_both ⟨counted₀.stopped rfl rfl rfl,tripped_of_stopped rfl⟩
  · have responded : Kept config (Silent cfg tasks (s.entered env.now) env.response)
        (RalphLoop.respond cfg tasks (s.entered env.now) env) :=
      entered.respond positive ((repeats_entered s env.now env.response).not.mpr honest)
    rwa [silent_entered] at responded

theorem newCircuitBreaker_positive (bcfg : CircuitBreakerConfig) :
    0 < (newCircuitBreaker bcfg).config.noProgressThreshold := by
  simp only [newCircuitBreaker,defaultCircuitBreakerConfig]
  split <;> omega

theorem Counted.start {bcfg : CircuitBreakerConfig} (counted : Counted (newCircuitBreaker bcfg).config s)
    (configured : cfg.breaker = some bcfg) (forceRestart newProcess : Bool) :
    Counted (newCircuitBreaker bcfg).config (RalphLoop.start cfg s forceRestart newProcess) ∧
    Tripped (newCircuitBreaker bcfg).config (RalphLoop.start cfg s forceRestart newProcess) := by
  -- nothing is counted yet, by a new breaker or by that of the run before
  have renewed : ∃ cb, (s.renewed cfg newProcess).breaker = some cb ∧ cb.config = (newCircuitBreaker bcfg).config ∧
      0 ≤ cb.noProgressCount := by
    cases newProcess with
    | true => exact ⟨_,by simp [System.renewed,configured],rfl,Int.le_refl _⟩
    | false =>
      obtain ⟨cb,there,same,nonnegative,-⟩ := counted.counts
      exact ⟨cb,there,same,nonnegative⟩
  have told : (s.renewed cfg newProcess).misreported = false := by cases newProcess <;> exact counted.told
  obtain ⟨cb,there,same,nonnegative⟩ := renewed
  unfold RalphLoop.start
  simp only
  split
  · exact ⟨⟨told,cb,there,same,nonnegative,by simp [System.leave]⟩,tripped_of_stopped rfl⟩
  · exact ⟨⟨told,cb,there,same,nonnegative,fun _ => nonnegative⟩,
      fun _ many => absurd many (Int.not_le.mpr (newCircuitBreaker_positive bcfg))⟩

theorem Counted.step {bcfg : CircuitBreakerConfig} {a : Action} (counted : Counted (newCircuitBreaker bcfg).config s)
    (configured : cfg.breaker = some bcfg) (honest : ¬ Misleads cfg tasks s a)
    (moved : step cfg tasks s a = some s') :
    Counted (newCircuitBreaker bcfg).config s' ∧ Tripped (newCircuitBreaker bcfg).config s' := by
  have positive := newCircuitBreaker_positive bcfg
  rcases step_cases moved with ⟨forceRestart,newProcess,-,rfl⟩ | ⟨env,rfl,rfl⟩ | ⟨-,rfl⟩ | ⟨env,rfl,rfl⟩
  · exact counted.start configured forceRestart newProcess
  · exact (counted.iterate positive fun again => honest (.inr again)).going fun silent => honest (.inl silent)
  · exact ⟨counted.stopped rfl rfl rfl,tripped_of_stopped rfl⟩
  · exact ⟨(counted.iterate positive honest).crashed s.file,tripped_of_stopped rfl⟩

theorem iterate_opened (cfg : Config) (tasks : List Task) {cb : CircuitBreaker} (there : s.breaker = some cb)
    (opened : cb.state = .opened) (env : Env) (cooling : env.now-cb.openedAt < cb.config.cooldownDuration) :
    ∃ err, iterate cfg tasks s env = (s.setStatus .stopped env.statusSaved).leave err ∧
      (env.stop = none → err = some ("ralph: circuit breaker open: " ++ cb.openReason)) := by
  have refused : s.canExecute env.now = (false,s) := by
    simp only [System.canExecute,there,canExecute,opened,if_true,Int.not_le.mpr cooling,if_false]
    rw [← there]
  unfold iterate enter
  cases stop : env.stop with
  | some err => exact ⟨err,rfl,nofun⟩
  | none =>
    simp only [refused]
    exact ⟨_,rfl,fun _ => by simp [there,reason,opened]⟩

/-- The specification is read in each iteration, and tasks may be added to it. -/
def specStep (cfg : Config) (s : System) (a : List Task × Action) : Option System := RalphLoop.step cfg a.1 s a.2

/-- If the iterations that go on call tools and mark no task twice, the breaker was told of progress only when
    there was some, and `Run` returns after as many iterations without as its threshold. -/
theorem breaker_stops_runaway (cfg : Config) (bcfg : CircuitBreakerConfig) (configured : cfg.breaker = some bcfg)
    {s : System} (reached : Reachable (specStep cfg) (fun s a => ¬ Misleads cfg a.1 s a.2) (init cfg) s) :
    s.misreported = false ∧
    (s.running → (newCircuitBreaker bcfg).config.noProgressThreshold ≤ s.stale →
      ∃ cb, s.breaker = some cb ∧ cb.state = .opened ∧
      ∀ (tasks : List Task) (env : Env), env.now-cb.openedAt < (newCircuitBreaker bcfg).config.cooldownDuration →
        (iterate cfg tasks s env).running = false ∧
        (iterate cfg tasks s env).progress.iteration = s.progress.iteration ∧
        (iterate cfg tasks s env).executions = s.executions ∧
        (env.stop = none →
          (iterate cfg tasks s env).returned = some ("ralph: circuit breaker open: " ++ cb.openReason))) := by
  have guarded : Counted (newCircuitBreaker bcfg).config s ∧ Tripped (newCircuitBreaker bcfg).config s :=
    reached.invariant (I := fun s => Counted (newCircuitBreaker bcfg).config s ∧ Tripped (newCircuitBreaker bcfg).config s)
      ⟨⟨rfl,_,by simp [init,configured],rfl,Int.le_refl _,by simp [init]⟩,tripped_of_stopped rfl⟩
      (fun _ _ _ guarded honest moved => guarded.1.step configured honest moved)
  refine ⟨guarded.1.told,fun running many => ?_⟩
  obtain ⟨cb,there,opened⟩ := guarded.2 running many
  obtain ⟨cb',there',same,-⟩ := guarded.1.counts
  obtain rfl : cb = cb' := Option.some.inj (there.symm.trans there')
  refine ⟨cb,there,opened,fun tasks env cooling => ?_⟩
  obtain ⟨err,returns,message⟩ := iterate_opened cfg tasks there opened env (by rwa [same])
  rw [returns]
  cases env.statusSaved <;> exact ⟨rfl,rfl,rfl,message⟩

def guardedConfig : Config := ⟨20,true,2,5,some ⟨3,5,100⟩,id,fun _ => ""⟩

variable (responses : List Response)

def answered : List (List Task × Action) :=
  (chainSpec.tasks,.start false true) ::
    responses.map fun response => (chainSpec.tasks,.iterate (quietEnv 7 response))

def after : System :=
  (exec (specStep guardedConfig) free (init guardedConfig) (answered responses)).getD (init guardedConfig)

theorem breaker_stops_runaway_sample :
    let s := after [finishing "t1",working false "t2",working false "t2",working false "t2"]
    s.stale = 3 ∧ s.misreported = false ∧ ∃ cb, s.breaker = some cb ∧ cb.state = .opened ∧
      (iterate guardedConfig chainSpec.tasks s (quietEnv 9 (finishing "t2"))).running = false := by
  intro s
  have reached : Reachable (specStep guardedConfig) (fun s a => ¬ Misleads guardedConfig a.1 s a.2) (init guardedConfig) s :=
    exec_reachable (answered [finishing "t1",working false "t2",working false "t2",working false "t2"]) .start rfl
  obtain ⟨told,stops⟩ := breaker_stops_runaway guardedConfig ⟨3,5,100⟩ rfl reached
  obtain ⟨cb,there,opened,returns⟩ := stops (by decide) (by decide)
  have since : s.breaker.map openedAt = some 7 := by decide
  rw [there,Option.map_some,Option.some.injEq] at since
  refine ⟨by decide,told,cb,there,opened,?_⟩
  exact (returns chainSpec.tasks (quietEnv 9 (finishing "t2")) (by rw [since]; decide)).1

/-- Answers that are no decisions, or that mark a completed task again, keep the breaker closed. -/
theorem runaway_unnoticed :
    let silent := List.replicate 10 (Response.unparsable "unexpected end of JSON input" "I will")
    let repeated := finishing "t1" :: List.replicate 10 (finishing "t1")
    Reachable (specStep guardedConfig) free (init guardedConfig) (after silent) ∧
    ((after silent).running ∧ (after silent).stale = 10 ∧
      (after silent).breaker = some (newCircuitBreaker ⟨3,5,100⟩)) ∧
    Reachable (specStep guardedConfig) free (init guardedConfig) (after repeated) ∧
    ((after repeated).running ∧ (after repeated).stale = 10 ∧ (after repeated).misreported ∧
      (after repeated).breaker = some (newCircuitBreaker ⟨3,5,100⟩)) := by
  intro silent repeated
  refine ⟨exec_reachable (answered silent) .start rfl,by decide,exec_reachable (answered repeated) .start rfl,?_⟩
  decide

end Mcpkit.RalphBreaker
