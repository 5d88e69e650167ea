import Mcpkit.WorkflowResume
import Mcpkit.WorkflowSaga

/-!
Sagas across `Resume`. The compensation stack is made anew by `Resume`, and the
checkpoint does not hold it, so a node that fails after `Resume` compensates what
that session completed and nothing that was completed before it.
-/
namespace Mcpkit.WorkflowRollback
open WorkflowGraph WorkflowEngine WorkflowSessions WorkflowSaga WorkflowPure List
open WorkflowResume
variable {W V : Type}

private theorem resume_sagas (e : Engine W (MemoryStore V) V) (memory : e.InMemory)
    (saga : e.config.compensateOnFailure = true) (env : Env W) (runID : String) (world : W) (store : MemoryStore V) :
    ∃ made, Sagas [] (.start world store) (e.resume env runID (.start world store)) made := by
  rcases resume_cases e memory env runID (.start world store) with ⟨-,resumed⟩ | ⟨cp,-,resumed⟩
  · rw [resumed]
    exact ⟨[],rfl,.inl ⟨by simp,rfl⟩⟩
  · rw [resumed]
    exact resumeFrom_sagas e saga env runID cp (.start world store)

private theorem reverse_append_iff {α : Type} (past now : List α) : now.reverse = (past ++ now).reverse ↔ past = [] := by
  simp

private theorem completed_turns (trace : List (Execution W V)) :
    (completed trace).map snapshot = (trace.map turn).flatMap (·.answer.completed) := by
  induction trace with
  | nil => rfl
  | cons x rest ih => simp [ih,turn]

private theorem nodeFailed_of_agree {a b : Except String (RunResult V) × Session W (MemoryStore V) V}
    {past : List (Execution W V)} (same : outcome a.1 = outcome b.1)
    (turns : (past ++ a.2.trace).map turn = b.2.trace.map turn) (failed : NodeFailed a) : NodeFailed b := by
  obtain ⟨⟨r,result,status⟩,x,member,failure⟩ := failed
  have called : turn x ∈ b.2.trace.map turn := turns ▸ mem_map_of_mem (mem_append_right past member)
  obtain ⟨y,member',sameTurn⟩ := List.mem_map.mp called
  refine ⟨?_,y,member',?_⟩
  · rw [result] at same
    cases other : b.1 with
    | error err => rw [other] at same; cases same
    | ok r' =>
      rw [other] at same
      have statuses := congrArg (fun o : Outcome V => o.toOption.map Prod.fst) same
      simp only [outcome,Except.map,Except.toOption,Option.map_some,Option.some.injEq] at statuses
      exact ⟨r',rfl,statuses.symm.trans status⟩
  · have errs := congrArg (fun t : Turn V => t.answer.err) sameTurn
    simp only [turn] at errs
    rw [errs]
    exact failure

/-- A node fails after `Resume`: the compensations invoked are those of all compensable calls of the logical run, last
    first, if and only if none of them completed before this session; and likewise against the uninterrupted run. -/
theorem resume_compensates_all_iff (e : Engine W (MemoryStore V) V) (memory : e.InMemory)
    (saga : e.config.compensateOnFailure = true) {runID : String} {initial : State V} {past : List (Execution W V)}
    {store : MemoryStore V} (interrupted : Interrupted e runID initial past store) (env : Env W) (world : W)
    (broken : NodeFailed (e.resume env runID (.start world store))) :
    ((e.resume env runID (.start world store)).2.invoked =
        (completed (past ++ (e.resume env runID (.start world store)).2.trace)).reverse ↔ completed past = []) ∧
    (Deterministic e → env.Live → ∀ env' : Env W, env'.Live → ∀ (world' : W) (store' : MemoryStore V),
      ((e.resume env runID (.start world store)).2.invoked.map snapshot =
        (e.run env' runID initial (.start world' store')).2.invoked.map snapshot ↔ completed past = [])) := by
  obtain ⟨made,sagas⟩ := resume_sagas e memory saga env runID world store
  have invoked := (sagas_fresh sagas).1 broken
  refine ⟨by rw [invoked,completed_append,reverse_append_iff],?_⟩
  intro deterministic live env' live' world' store'
  obtain ⟨same,turns⟩ := resume_agrees e memory deterministic interrupted env env' live live' world world' store'
  obtain ⟨made',wholeSagas⟩ := run_sagas e saga env' runID initial world' store'
  have whole := (sagas_fresh wholeSagas).1 (nodeFailed_of_agree same turns broken)
  have all : (completed (e.run env' runID initial (.start world' store')).2.trace).map snapshot =
      (completed past).map snapshot ++ (completed (e.resume env runID (.start world store)).2.trace).map snapshot := by
    rw [completed_turns,← turns,← completed_turns,completed_append,map_append]
  rw [invoked,whole,map_reverse,map_reverse,all,reverse_append_iff,map_eq_nil_iff]

def sampleStopped : Session Nat (MemoryStore String) String :=
  (sampleEngine.run sampleCancelled "run" (newState 0) (.start 0 ∅)).2

/-- What it does when it is resumed: `b` completes, then `c` fails. -/
def sampleResumed : Except String (RunResult String) × Session Nat (MemoryStore String) String :=
  sampleEngine.resume sampleLive "run" (.start 0 sampleStopped.store)

/-- The test engine, resumed after `a`, compensates `b` and not `a`. -/
theorem resume_compensates_all_sample : completed sampleStopped.trace ≠ [] ∧
    sampleResumed.2.invoked ≠ (completed (sampleStopped.trace ++ sampleResumed.2.trace)).reverse := by
  have broken : NodeFailed sampleResumed := ⟨⟨_,rfl,rfl⟩,by decide⟩
  have some : completed sampleStopped.trace ≠ [] := by
    intro none
    have := congrArg List.length none
    revert this
    decide
  have complete := (resume_compensates_all_iff sampleEngine rfl rfl sample_interrupted sampleLive 0 broken).1
  exact ⟨some,fun all => some (complete.mp all)⟩

/-- The compensations after `Resume` are not those of all calls that the run completed. -/
theorem resume_forgets_completed : sampleEngine.config.compensateOnFailure = true ∧
    Interrupted sampleEngine "run" (newState 0) sampleStopped.trace sampleStopped.store ∧
    NodeFailed sampleResumed ∧
    sampleResumed.2.invoked.map (·.nodeName) = ["b"] ∧
    (completed (sampleStopped.trace ++ sampleResumed.2.trace)).map (·.nodeName) = ["a","b"] ∧
    (sampleEngine.run sampleLive "run" (newState 0) (.start 0 ∅)).2.invoked.map (·.nodeName) = ["b","a"] ∧
    sampleResumed.2.invoked ≠ (completed (sampleStopped.trace ++ sampleResumed.2.trace)).reverse := by
  refine ⟨rfl,sample_interrupted,⟨⟨_,rfl,rfl⟩,by decide⟩,by decide,by decide,by decide,?_⟩
  intro same
  have := congrArg List.length same
  revert this
  decide

end Mcpkit.WorkflowRollback
