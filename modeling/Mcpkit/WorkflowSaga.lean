import Mcpkit.WorkflowSessions

/-!
Sagas within one session, over every checkpoint store. The compensation stack holds the forward
calls completed so far, in order, because each node call pushes what it completed; a failing node
therefore compensates them all, last first.
-/
namespace Mcpkit.WorkflowSaga
open WorkflowGraph WorkflowEngine WorkflowSessions
variable {W S V : Type} (trace : List (Execution W V))

def effectsOf : List (SagaEffect W V) := trace.flatMap (·.effects)

/-- The compensable calls that completed: the node, its compensation and the state it returned. -/
def completed : List (CompensationRecord W V) := completions (effectsOf trace)

@[simp] theorem completed_nil : completed ([] : List (Execution W V)) = [] := rfl

@[simp] theorem completed_cons (x : Execution W V) (rest : List (Execution W V)) :
    completed (x :: rest) = completions x.effects ++ completed rest := by
  simp [completed,effectsOf]

@[simp] theorem completed_append (a b : List (Execution W V)) : completed (a ++ b) = completed a ++ completed b := by
  simp [completed,effectsOf]

theorem ran_pushes {e : Engine W S V} {step : Int} {node : String} {state : State V} {hasStack : Bool}
    {n : Node W V} {x : Execution W V} (ran : Ran e step node state hasStack n x) (stack : hasStack = true) :
    pushes x.effects = completions x.effects := by
  obtain ⟨before,after,called⟩ := ran.called
  have recorded := (e.nodeFunc n node).recorded ⟨e.timeout n,hasStack⟩ x.input before
  rw [called] at recorded
  simpa [stack] using recorded

variable (records : List (CompensationRecord W V))

/-- From `m` to `m'` by the calls `made`: all succeed and nothing is compensated, or the last one fails and all
    records are, those of `made` first. -/
def Sagas (m : Session W S V) (outcome : Except String (RunResult V) × Session W S V) (made : List (Execution W V)) :
    Prop :=
  outcome.2.trace = m.trace ++ made ∧
  ((∀ x ∈ made, x.err = none) ∧ outcome.2.invoked = m.invoked ∨
    NodeFailed (outcome.1,{ outcome.2 with trace := made }) ∧
      outcome.2.invoked = m.invoked ++ (records ++ completed made).reverse)

private theorem sagas_idle (m m' : Session W S V) (result : Except String (RunResult V)) (trace : m'.trace = m.trace)
    (invoked : m'.invoked = m.invoked) : Sagas records m (result,m') [] :=
  ⟨by simp [trace],.inl ⟨by simp,invoked⟩⟩

variable (e : Engine W S V)

private theorem cleanUp_trace (runID : String) (m : Session W S V) :
    (e.cleanUp runID m).trace = m.trace ∧ (e.cleanUp runID m).invoked = m.invoked := by
  unfold Engine.cleanUp
  split
  · exact ⟨rfl,rfl⟩
  · exact ⟨rfl,rfl⟩

variable {outcome : Except String (RunResult V) × Session W S V} {made : List (Execution W V)}

private theorem Sagas.cons {records : List (CompensationRecord W V)} {m m₁ : Session W S V}
    {x : Execution W V}
    (success : x.err = none) (trace : m₁.trace = m.trace ++ [x]) (invoked : m₁.invoked = m.invoked)
    (rest : Sagas (records ++ completions x.effects) m₁ outcome made) : Sagas records m outcome (x :: made) := by
  obtain ⟨calls,ended⟩ := rest
  refine ⟨by rw [calls,trace]; simp,?_⟩
  rcases ended with ⟨succeeded,nothing⟩ | ⟨⟨failed,y,member,failure⟩,all⟩
  · exact .inl ⟨by simpa [success] using succeeded,nothing.trans invoked⟩
  · exact .inr ⟨⟨failed,y,List.mem_cons_of_mem x member,failure⟩,by rw [all,invoked]; simp⟩

/-- The invariant of the loop: the stack holds what was completed. -/
theorem loop_sagas (env : Env W) (runID : String) :
    ∀ (remaining : Nat) (step : Int) (node : String) (state : State V) (m : Session W S V)
      (records : List (CompensationRecord W V)), m.stack = some records →
      ∃ made, Sagas records m (e.loop env runID remaining step node state m) made := by
  intro remaining
  induction remaining with
  | zero => intro step node state m records stack; exact ⟨[],sagas_idle records m m _ rfl rfl⟩
  | succ remaining ih =>
    intro step node state m records stack
    rw [Engine.loop]
    have visited := visit_cases e env runID step node state m
    generalize e.visit env runID step node state m = progress at visited ⊢
    have pushed {n : Node W V} {x : Execution W V} (ran : Ran e step node state m.stack.isSome n x) :
        pushes x.effects = completions x.effects := ran_pushes ran (by rw [stack]; rfl)
    cases visited with
    | cancelled err world observed | missing message world absent text => exact ⟨[],sagas_idle records m _ _ rfl rfl⟩
    | failed n x err message m' ran failure trace store saved invoked =>
      refine ⟨[x],trace,.inr ⟨⟨⟨_,rfl,rfl⟩,x,by simp,by simp [failure]⟩,?_⟩⟩
      rw [invoked,stack,pushed ran]
      simp
    | unsaved n x message err store cp m' ran success present refused trace invoked =>
      exact ⟨[x],trace,.inl ⟨by simp [success],invoked⟩⟩
    | done n x savedAt m₁ ran success trace kept invoked grown =>
      have advanced := advance_cases e runID step node n x.output m₁
      dsimp only
      generalize e.advance runID step node n x.output m₁ = progress at advanced ⊢
      cases advanced with
      | unresolved err world resolved => exact ⟨[x],.cons success trace invoked (sagas_idle _ m₁ _ _ rfl rfl)⟩
      | completed world resolved =>
        obtain ⟨sameTrace,sameInvoked⟩ := cleanUp_trace e runID { m₁ with world := world }
        exact ⟨[x],.cons success trace invoked (sagas_idle _ m₁ _ _ sameTrace sameInvoked)⟩
      | next node' world resolved more =>
        have stack₁ : ({ m₁ with world := world } : Session W S V).stack = some (records ++ completions x.effects) := by
          rw [← pushed ran]
          exact grown.trans (by rw [stack]; rfl)
        obtain ⟨made,rest⟩ := ih (step+1) node' x.output { m₁ with world := world } _ stack₁
        exact ⟨x :: made,.cons success trace invoked rest⟩

theorem run_sagas (saga : e.config.compensateOnFailure = true) (env : Env W) (runID : String) (initial : State V)
    (world : W) (store : S) :
    ∃ made, Sagas [] (.start world store) (e.run env runID initial (.start world store)) made :=
  loop_sagas e env runID e.config.maxSteps.toNat 0 e.graph.start initial.clone (e.withStack (.start world store)) []
    (by simp [Engine.withStack,saga])

theorem resumeFrom_sagas (saga : e.config.compensateOnFailure = true) (env : Env W) (runID : String)
    (cp : Checkpoint V) (m : Session W S V) : ∃ made, Sagas [] m (e.resumeFrom env runID cp m) made := by
  have resumed := resumeFrom_cases e env runID cp m
  generalize e.resumeFrom env runID cp m = outcome at resumed ⊢
  cases resumed with
  | missing message absent | unresolved n err world found resolved => exact ⟨[],sagas_idle [] m _ _ rfl rfl⟩
  | completed n world found resolved =>
    obtain ⟨sameTrace,sameInvoked⟩ := cleanUp_trace e runID { m with world := world }
    exact ⟨[],sagas_idle [] m _ _ sameTrace sameInvoked⟩
  | exhausted n node message world found resolved more reached => exact ⟨[],sagas_idle [] m _ _ rfl rfl⟩
  | looped n node world found resolved more left =>
    exact loop_sagas e env runID _ cp.step node cp.state (e.withStack { m with world := world }) []
      (by simp [Engine.withStack,saga])

theorem sagas_fresh {world : W} {store : S}
    (sagas : Sagas [] (.start world store) outcome made) :
    (NodeFailed outcome → outcome.2.invoked = (completed outcome.2.trace).reverse) ∧
    (¬ NodeFailed outcome → outcome.2.invoked = []) := by
  obtain ⟨calls,ended⟩ := sagas
  have all : outcome.2.trace = made := by simpa using calls
  rcases ended with ⟨succeeded,nothing⟩ | ⟨failed,invoked⟩
  · have sound : ¬ NodeFailed outcome := by
      rintro ⟨-,x,member,failure⟩
      exact failure (succeeded x (all ▸ member))
    exact ⟨fun failed => absurd failed sound,fun _ => by simpa using nothing⟩
  · have broken : NodeFailed outcome := by
      obtain ⟨failed,x,member,failure⟩ := failed
      exact ⟨failed,x,all.symm ▸ member,failure⟩
    exact ⟨fun _ => by simpa [all] using invoked,fun sound => absurd broken sound⟩

/-- A run that failed on an error of a node invoked the compensation of every completed compensable call, once, in
    reverse order, with the state that the call returned; a completed run invoked none. -/
theorem run_compensates_completed (e : Engine W S V) (saga : e.config.compensateOnFailure = true) (env : Env W)
    (runID : String) (initial : State V) (world : W) (store : S) :
    (NodeFailed (e.run env runID initial (.start world store)) →
      (e.run env runID initial (.start world store)).2.invoked =
        (completed (e.run env runID initial (.start world store)).2.trace).reverse) ∧
    (Completed (e.run env runID initial (.start world store)).1 →
      (e.run env runID initial (.start world store)).2.invoked = []) := by
  obtain ⟨made,sagas⟩ := run_sagas e saga env runID initial world store
  obtain ⟨failed,otherwise⟩ := sagas_fresh sagas
  exact ⟨failed,fun finished => otherwise (fun broken => finished.not_failed broken.1)⟩

theorem run_compensates_completed_sample :
    (sampleEngine.run sampleLive "run" (newState 0) (.start 0 ∅)).2.invoked.map (·.nodeName) = ["b","a"] ∧
    (sampleEngine.run sampleLive "run" (newState 0) (.start 0 ∅)).2.invoked =
      (completed (sampleEngine.run sampleLive "run" (newState 0) (.start 0 ∅)).2.trace).reverse := by
  have broken : NodeFailed (sampleEngine.run sampleLive "run" (newState 0) (.start 0 ∅)) :=
    ⟨⟨_,rfl,rfl⟩,by decide⟩
  exact ⟨by decide,(run_compensates_completed sampleEngine rfl sampleLive "run" (newState 0) 0 ∅).1 broken⟩

/-- The step limit ends this run of one compensable node that leads to itself. -/
def sampleCycle : Engine Nat (MemoryStore String) String where
  graph := Except.toOption (do
    let g ← newGraph.addCompensableNode "a" (sampleForward "a") (some (sampleCompensate none)) []
    let g ← g.addEdge "a" "a"
    g.setStart "a") |>.getD newGraph
  config := { sampleEngine.config with maxSteps := 2 }
  valid := rfl
  positive := by decide

/-- A run that fails at the step limit has completed calls and compensates none. -/
theorem step_limit_compensates_nothing : sampleCycle.config.compensateOnFailure = true ∧
    Failed (sampleCycle.run sampleLive "run" (newState 0) (.start 0 ∅)).1 ∧
    (completed (sampleCycle.run sampleLive "run" (newState 0) (.start 0 ∅)).2.trace).map (·.nodeName) = ["a","a"] ∧
    (sampleCycle.run sampleLive "run" (newState 0) (.start 0 ∅)).2.invoked ≠
      (completed (sampleCycle.run sampleLive "run" (newState 0) (.start 0 ∅)).2.trace).reverse := by
  refine ⟨rfl,⟨_,rfl,rfl⟩,by decide,?_⟩
  intro same
  have := congrArg List.length same
  revert this
  decide

end Mcpkit.WorkflowSaga
