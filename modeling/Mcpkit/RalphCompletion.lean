import Mcpkit.RalphLoop

/-!
What the Ralph loop completes, and when it runs tools, whatever the sampler decides: tasks
of the specification, each once and after everything that it depends on, and tools only
for a task that is completed or ready, or for none.
-/
namespace Mcpkit.RalphCompletion
open Kahn RalphLoop RalphSpec ToolResults Transitions

structure Lawful (cfg : Config) (tasks : List Task) (p : Progress) : Prop where
  nodup : p.completedIDs.Nodup
  known : ∀ id ∈ p.completedIDs, id ∈ ids tasks
  ordered : Ordered (dependenciesOf tasks) p.completedIDs
  bounded : p.iteration ≤ cfg.maxIterations

def Proper (tasks : List Task) (e : Execution) : Prop :=
  e.taskID = "" ∨ e.taskID ∈ e.completed ∨ e.taskID ∈ readyTasks tasks e.completed

structure Orderly (cfg : Config) (tasks : List Task) (s : System) : Prop where
  memory : Lawful cfg tasks s.progress
  file : ∀ p, s.file = some p → Lawful cfg tasks p
  tools : ∀ e ∈ s.executions, Proper tasks e

variable {cfg : Config} {tasks : List Task} {s s' : System} {p p' : Progress}

theorem lawful_noProgress : Lawful cfg tasks noProgress :=
  ⟨List.nodup_nil,by simp [noProgress],fun _ _ _ same => by simp [noProgress] at same,Nat.zero_le _⟩

theorem Lawful.same (lawful : Lawful cfg tasks p) (completed : p'.completedIDs = p.completedIDs)
    (iteration : p'.iteration = p.iteration) : Lawful cfg tasks p' := by
  refine ⟨?_,?_,?_,?_⟩
  · rw [completed]; exact lawful.nodup
  · rw [completed]; exact lawful.known
  · rw [completed]; exact lawful.ordered
  · rw [iteration]; exact lawful.bounded

theorem Lawful.mark (distinct : (ids tasks).Nodup) {id : String} (lawful : Lawful cfg tasks p)
    (ready : id ∈ readyTasks tasks p.completedIDs) : Lawful cfg tasks { p with completedIDs := p.completedIDs ++ [id] } := by
  obtain ⟨t,member,rfl,-,missing,met⟩ := mem_readyTasks.mp ready
  refine ⟨lawful.nodup.append (List.nodup_singleton _) (by simpa using missing),?_,?_,lawful.bounded⟩
  · exact forall_mem_snoc lawful.known (List.mem_map.mpr ⟨t,member,rfl⟩)
  · refine lawful.ordered.snoc ?_
    rw [dependenciesOf_id distinct member]
    exact met

theorem Lawful.marked (distinct : (ids tasks).Nodup) (lawful : Lawful cfg tasks p) (d : Decision) :
    Lawful cfg tasks { p with completedIDs := marked tasks d p.completedIDs } := by
  unfold RalphLoop.marked appendUnique
  split
  · rename_i asked
    split
    · exact lawful
    · rename_i missing
      exact lawful.mark distinct (asked.2.2.resolve_left missing)
  · exact lawful

/-! ### The parts of an iteration -/

theorem orderly_recorded : Recorded (Orderly cfg tasks) := by
  refine .of_save (fun {s} saved orderly => ?_) (fun _ _ orderly => ?_) fun _ orderly => ?_
  · unfold System.save
    split
    · refine ⟨orderly.memory,?_,orderly.tools⟩
      rintro p ⟨⟩
      exact orderly.memory
    · exact orderly
  · exact ⟨orderly.memory.same rfl rfl,orderly.file,orderly.tools⟩
  · exact ⟨orderly.memory,orderly.file,orderly.tools⟩

section
variable (orderly : Orderly cfg tasks s)
include orderly

theorem Orderly.leave (err : Option String) : Orderly cfg tasks (s.leave err) :=
  ⟨orderly.memory,orderly.file,orderly.tools⟩

theorem Orderly.canExecute (now : Int) : Orderly cfg tasks (s.canExecute now).2 := by
  unfold System.canExecute
  split
  · exact orderly
  · exact ⟨orderly.memory,orderly.file,orderly.tools⟩

theorem Orderly.start (forceRestart newProcess : Bool) :
    Orderly cfg tasks (RalphLoop.start cfg s forceRestart newProcess) := by
  have loaded : Lawful cfg tasks (s.loaded forceRestart) := by
    cases forceRestart with
    | true => exact lawful_noProgress
    | false =>
      unfold System.loaded
      cases saved : s.file with
      | none => exact lawful_noProgress
      | some p => exact orderly.file p saved
  have renewed : Orderly cfg tasks (s.renewed cfg newProcess) := by
    cases newProcess <;> exact ⟨orderly.memory,orderly.file,orderly.tools⟩
  unfold RalphLoop.start
  simp only
  split
  · exact ⟨loaded,renewed.file,renewed.tools⟩
  · exact ⟨loaded.same rfl rfl,renewed.file,renewed.tools⟩

end

section
variable (distinct : (ids tasks).Nodup) (orderly : Orderly cfg tasks s)
include distinct orderly

theorem Orderly.act {d : Decision}
    (clear : d.blocked tasks s.progress.completedIDs = false) (env : Env) (calls : List String) :
    Orderly cfg tasks (RalphLoop.act cfg tasks s d env calls) := by
  have proper : d.taskID = "" ∨ d.taskID ∈ s.progress.completedIDs ∨ d.taskID ∈ readyTasks tasks s.progress.completedIDs := by
    simp only [Decision.blocked,decide_eq_false_iff_not] at clear
    tauto
  have executed : Orderly cfg tasks { s with
      executions := s.executions ++ executions s d env calls
      progress := { s.progress with completedIDs := RalphLoop.marked tasks d s.progress.completedIDs } } := by
    refine ⟨orderly.memory.marked distinct d,orderly.file,fun e member => ?_⟩
    rcases List.mem_append.mp member with before | new
    · exact orderly.tools e before
    · obtain ⟨call,-,rfl⟩ := List.mem_map.mp new
      exact proper
  have recorded := orderly_recorded.recordIteration d.taskID calls (String.intercalate "\n" (resultParts cfg env calls))
    env.saved executed
  unfold RalphLoop.act
  cases env.verdict with
  | proceed => exact ⟨recorded.memory,recorded.file,recorded.tools⟩
  | stop err =>
    refine Orderly.leave (orderly_recorded.setStatus _ _ ?_) _
    exact ⟨recorded.memory,recorded.file,recorded.tools⟩

theorem Orderly.respond (env : Env) : Orderly cfg tasks (respond cfg tasks s env) := by
  rcases respond_cases cfg tasks env orderly_recorded orderly with
    ⟨s₀,err,same,orderly₀⟩ | ⟨s₀,same,orderly₀,-⟩ | ⟨d,-,clear,-,-,same⟩ <;> rw [same]
  · exact orderly₀.leave err
  · exact ⟨orderly₀.memory,orderly₀.file,orderly₀.tools⟩
  · exact (orderly_recorded.fails 0 orderly).act distinct clear env _

theorem Orderly.iterate (env : Env) : Orderly cfg tasks (RalphLoop.iterate cfg tasks s env) := by
  have checked := orderly.canExecute env.now
  have entered (within : (s.canExecute env.now).2.progress.iteration+1 ≤ cfg.maxIterations) :
      Orderly cfg tasks (s.entered env.now) :=
    ⟨⟨checked.memory.nodup,checked.memory.known,checked.memory.ordered,within⟩,checked.file,checked.tools⟩
  unfold RalphLoop.iterate
  rcases enter_cases cfg env orderly_recorded orderly checked entered with ⟨s₀,err,same,orderly₀⟩ | ⟨same,orderly₁⟩ <;>
    rw [same]
  · exact orderly₀.leave err
  · exact orderly₁.respond distinct env

theorem Orderly.step {a : Action} (moved : step cfg tasks s a = some s') : Orderly cfg tasks s' := by
  rcases step_cases moved with ⟨forceRestart,newProcess,-,rfl⟩ | ⟨env,-,rfl⟩ | ⟨-,rfl⟩ | ⟨env,-,rfl⟩
  · exact orderly.start forceRestart newProcess
  · exact orderly.iterate distinct env
  · exact ⟨orderly.memory,orderly.file,orderly.tools⟩
  -- a crash inside an iteration leaves the file of before
  · have after := orderly.iterate distinct env
    exact ⟨after.memory,orderly.file,after.tools⟩

end

/-- In every run and resumed run on a valid specification, each task is completed once and after its dependencies,
    tools ran for no task or one that was completed or ready, and the iterations stay within their bound. -/
theorem completion_in_order (cfg : Config) (order : List String) (spec : Spec)
    (ordering : order.Perm (ids spec.tasks).dedup) (accepted : validateSpec cfg.quote order spec = none) {s : System}
    (reached : Reachable (RalphLoop.step cfg spec.tasks) free (init cfg) s) :
    s.progress.completedIDs.Nodup ∧ (∀ id ∈ s.progress.completedIDs, id ∈ ids spec.tasks) ∧
    (∀ before id after, s.progress.completedIDs = before ++ id :: after →
      ∀ t ∈ spec.tasks, t.id = id → ∀ dep ∈ t.dependsOn, dep ∈ before) ∧
    (∀ e ∈ s.executions, e.taskID = "" ∨ e.taskID ∈ e.completed ∨ e.taskID ∈ readyTasks spec.tasks e.completed) ∧
    s.progress.iteration ≤ cfg.maxIterations := by
  have distinct := (valid_of_accepted ordering accepted).distinct
  have orderly : Orderly cfg spec.tasks s :=
    reached.invariant (I := Orderly cfg spec.tasks) ⟨lawful_noProgress,by simp [init],by simp [init]⟩
      (fun _ _ _ orderly _ moved => orderly.step distinct moved)
  refine ⟨orderly.memory.nodup,orderly.memory.known,?_,orderly.tools,orderly.memory.bounded⟩
  rintro before id after same t member rfl dep dependency
  exact orderly.memory.ordered before t.id after same dep (by rwa [dependenciesOf_id distinct member])

/-- Two tasks in order, the second in a run that goes on after a crash; the decision to
    take it first is turned down. -/
def twoRuns (cfg : Config) : System :=
  (exec (RalphLoop.step cfg chainSpec.tasks) free (init cfg)
    [.start false true,.iterate (quietEnv 0 (finishing "t2")),.iterate (quietEnv 1 (finishing "t1")),.crash,
      .start false true,.iterate (quietEnv 2 (finishing "t2"))]).getD (init cfg)

def plainConfig : Config := ⟨5,true,2,5,none,id,fun _ => ""⟩

theorem completion_in_order_sample :
    (twoRuns plainConfig).progress.completedIDs = ["t1","t2"] ∧ (twoRuns plainConfig).progress.completedIDs.Nodup ∧
    (twoRuns plainConfig).executions.length = 2 ∧ (∀ e ∈ (twoRuns plainConfig).executions,
      e.taskID = "" ∨ e.taskID ∈ e.completed ∨ e.taskID ∈ readyTasks chainSpec.tasks e.completed) ∧
    (twoRuns plainConfig).progress.iteration ≤ 5 := by
  have reached : Reachable (step plainConfig chainSpec.tasks) free (init plainConfig) (twoRuns plainConfig) :=
    exec_reachable [.start false true,.iterate (quietEnv 0 (finishing "t2")),.iterate (quietEnv 1 (finishing "t1")),.crash,
      .start false true,.iterate (quietEnv 2 (finishing "t2"))] .start rfl
  obtain ⟨nodup,-,-,tools,bounded⟩ :=
    completion_in_order plainConfig ["t1","t2"] chainSpec (by decide) (by decide) reached
  exact ⟨by decide,nodup,by decide,tools,bounded⟩

end Mcpkit.RalphCompletion
