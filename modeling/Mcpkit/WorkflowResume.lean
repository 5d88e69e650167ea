import Mcpkit.WorkflowPure

/-!
Crash and resume. A logical run may be interrupted any number of times: after a checkpoint was
saved, or when a session observes that its context is cancelled.
-/
namespace Mcpkit.WorkflowResume
open WorkflowGraph WorkflowEngine WorkflowSessions WorkflowPure List
variable {W V : Type}

/-- The logical run was started, interrupted and resumed any number of times: it has made the calls `past` and
    left `store`. Each session has its own context, clock and world. -/
inductive Interrupted (e : Engine W (MemoryStore V) V) (runID : String) (initial : State V) :
    List (Execution W V) → MemoryStore V → Prop
  | crashed (env : Env W) (world : W) (store : MemoryStore V) (k : Nat) (cp : Checkpoint V)
      (saved : (e.run env runID initial (.start world store)).2.saved[k]? = some cp) :
    Interrupted e runID initial ((e.run env runID initial (.start world store)).2.trace.take (k+1))
      (store.insert runID cp)
  | stopped (env : Env W) (world : W) (store : MemoryStore V)
      (ended : Stopped (e.run env runID initial (.start world store)).1)
      (saved : (e.run env runID initial (.start world store)).2.saved ≠ []) :
    Interrupted e runID initial (e.run env runID initial (.start world store)).2.trace
      (e.run env runID initial (.start world store)).2.store
  | crashedAgain {past : List (Execution W V)} {store : MemoryStore V} (earlier : Interrupted e runID initial past store)
      (env : Env W) (world : W) (k : Nat) (cp : Checkpoint V)
      (saved : (e.resume env runID (.start world store)).2.saved[k]? = some cp) :
    Interrupted e runID initial (past ++ (e.resume env runID (.start world store)).2.trace.take (k+1))
      (store.insert runID cp)
  | stoppedAgain {past : List (Execution W V)} {store : MemoryStore V} (earlier : Interrupted e runID initial past store)
      (env : Env W) (world : W) (ended : Stopped (e.resume env runID (.start world store)).1) :
    Interrupted e runID initial (past ++ (e.resume env runID (.start world store)).2.trace)
      (e.resume env runID (.start world store)).2.store
  | others {past : List (Execution W V)} {store : MemoryStore V} (earlier : Interrupted e runID initial past store)
      (store' : MemoryStore V) (same : store'.lookup runID = store.lookup runID) :
    Interrupted e runID initial past store'

/-- The checkpoint `cp` splits the path of the run at the calls `past`. -/
structure Suspended (e : Engine W (MemoryStore V) V) (w : Workflow V) (initial : State V)
    (past : List (Execution W V)) (cp : Checkpoint V) : Prop where
  counted : cp.step = past.length
  within : cp.step ≤ e.config.maxSteps
  known : ∃ n, e.graph.nodes.lookup cp.currentNode = some n
  path : w.path e.config.maxSteps e.config.maxSteps.toNat 0 e.graph.start (stampless initial) =
    (w.pathAfter e.config.maxSteps (e.config.maxSteps-cp.step).toNat cp.step cp.currentNode (stampless cp.state)).after
      (past.map turn)

variable {e : Engine W (MemoryStore V) V} {w : Workflow V} {initial : State V} {past : List (Execution W V)}

variable {store : MemoryStore V} {out : Except String (RunResult V) × Session W (MemoryStore V) V}

private theorem suspended_saved {env : Env W} {made : List (Execution W V)} {cps : List (Checkpoint V)}
    {path : Path V} {m : Session W (MemoryStore V) V}
    (follows : Follows e w env (e.config.maxSteps-past.length).toNat past.length path m out made cps)
    (within : past.length ≤ e.config.maxSteps)
    (whole : w.path e.config.maxSteps e.config.maxSteps.toNat 0 e.graph.start (stampless initial) =
      path.after (past.map turn)) {k : Nat} {cp : Checkpoint V} (saved : cps[k]? = some cp) :
    Suspended e w initial (past ++ made.take (k+1)) cp := by
  obtain ⟨left,done,counted,known,split⟩ := follows.cut k cp saved
  have same : (e.config.maxSteps-past.length).toNat-(k+1) = (e.config.maxSteps-cp.step).toNat := by omega
  refine ⟨?_,by omega,known,?_⟩
  · rw [counted,length_append,length_take_of_le (by omega)]
    push_cast
    ring
  · rw [whole,split,same]
    simp

/-- A session that stopped leaves the run suspended: at the last checkpoint it saved, or where it was before. -/
private theorem suspended_stopped {env : Env W} {runID : String} {world : W} {made good bad : List (Execution W V)}
    {cps cps' : List (Checkpoint V)} {path : Path V}
    (follows : Follows e w env (e.config.maxSteps-past.length).toNat past.length path (.start world store) out made cps)
    (within : past.length ≤ e.config.maxSteps)
    (whole : w.path e.config.maxSteps e.config.maxSteps.toNat 0 e.graph.start (stampless initial) =
      path.after (past.map turn))
    (history : History runID past.length (e.withStack (.start world store)) out.2 out.1 good bad cps')
    (stopped : Stopped out.1) (before : cps = [] → ∃ cp, store.lookup runID = some cp ∧ Suspended e w initial past cp) :
    ∃ cp, out.2.store.lookup runID = some cp ∧ Suspended e w initial (past ++ out.2.trace) cp := by
  have succeeded : bad = [] := by
    rcases history.failure with none | ⟨failed,-⟩
    · exact none
    · exact absurd failed stopped.not_failed
  have calls : made = good := by simpa [succeeded] using follows.trace.symm.trans history.trace
  have same : cps = cps' := by simpa using follows.saved.symm.trans history.saved
  have trace : out.2.trace = made := by simpa using follows.trace
  have sameLength := history.saves.length_eq
  have kept := history.kept (fun completed => completed.not_stopped stopped)
  subst calls same
  rw [trace]
  cases last : cps.getLast? with
  | none =>
    have none : cps = [] := getLast?_eq_none_iff.mp last
    obtain ⟨cp,found,suspended⟩ := before none
    have nothing : made = [] := length_eq_zero_iff.mp (by rw [← sameLength,none]; rfl)
    exact ⟨cp,by simpa [last] using kept.trans (by simpa [last] using found),by simpa [nothing] using suspended⟩
  | some cp =>
    refine ⟨cp,by simpa [last] using kept,?_⟩
    have suspended := suspended_saved follows within whole (getLast?_eq_getElem? ▸ last)
    rwa [take_of_length_le (by omega)] at suspended

section
variable (implements : Implements e w) (memory : e.InMemory)
include implements memory

private theorem run_follows (env : Env W) (runID : String) (initial : State V) (world : W) (store : MemoryStore V)
    (first : past = []) : ∃ made cps, Follows e w env (e.config.maxSteps-past.length).toNat past.length
      (w.path e.config.maxSteps e.config.maxSteps.toNat 0 e.graph.start (stampless initial)) (.start world store)
      (e.run env runID initial (.start world store)) made cps := by
  obtain ⟨made,cps,follows⟩ := loop_follows implements memory env runID e.config.maxSteps.toNat 0 e.graph.start
    initial (e.withStack (.start world store)) (by simp)
  subst first
  simp only [length_nil,Nat.cast_zero,Int.sub_zero]
  exact ⟨made,cps,follows.trace,follows.saved,follows.whole,follows.cut⟩

private theorem resume_follows (env : Env W) (runID : String)
    (world : W) {cp : Checkpoint V} (found : store.lookup runID = some cp) (suspended : Suspended e w initial past cp) :
    ∃ made cps good bad cps', Follows e w env (e.config.maxSteps-past.length).toNat past.length
        (w.pathAfter e.config.maxSteps (e.config.maxSteps-cp.step).toNat cp.step cp.currentNode (stampless cp.state))
        (.start world store) (e.resume env runID (.start world store)) made cps ∧
      History runID past.length (e.withStack (.start world store)) (e.resume env runID (.start world store)).2
        (e.resume env runID (.start world store)).1 good bad cps' := by
  rcases resume_cases e memory env runID (.start world store) with ⟨absent,-⟩ | ⟨cp',found',resumed⟩
  · exact absurd (found.symm.trans absent) (by simp)
  · cases found.symm.trans found'
    obtain ⟨n,known⟩ := suspended.known
    obtain ⟨made,cps,follows⟩ := resumeFrom_follows implements memory env runID cp (.start world store) known
      suspended.within
    obtain ⟨good,bad,cps',-,history⟩ := resumeFrom_history e memory env runID cp (.start world store)
    rw [resumed,← suspended.counted]
    exact ⟨made,cps,good,bad,cps',follows,history⟩

theorem interrupted_suspended {runID : String} (interrupted : Interrupted e runID initial past store) :
    ∃ cp, store.lookup runID = some cp ∧ Suspended e w initial past cp := by
  have room : (([] : List (Execution W V)).length : Int) ≤ e.config.maxSteps := e.positive.le
  induction interrupted with
  | crashed env world store k cp saved =>
    obtain ⟨made,cps,follows⟩ := run_follows implements memory env runID initial world store rfl
    rw [follows.saved] at saved
    rw [follows.trace]
    exact ⟨cp,Finmap.lookup_insert _,suspended_saved follows room rfl (by simpa using saved)⟩
  | stopped env world store ended saved =>
    obtain ⟨made,cps,follows⟩ := run_follows implements memory env runID initial world store rfl
    obtain ⟨good,bad,cps',-,history⟩ := run_history e memory env runID initial (.start world store)
    have some : cps ≠ [] := fun none => saved (by simp [follows.saved,none])
    exact suspended_stopped follows room rfl history ended (fun none => absurd none some)
  | @crashedAgain past store earlier env world k cp saved suspended =>
    obtain ⟨cp₀,found,suspended⟩ := suspended
    obtain ⟨made,cps,-,-,-,follows,-⟩ := resume_follows implements memory env runID world found suspended
    rw [follows.saved] at saved
    rw [follows.trace]
    refine ⟨cp,Finmap.lookup_insert _,?_⟩
    exact suspended_saved follows (suspended.counted ▸ suspended.within) suspended.path (by simpa using saved)
  | @stoppedAgain past store earlier env world ended suspended =>
    obtain ⟨cp₀,found,suspended⟩ := suspended
    obtain ⟨made,cps,good,bad,cps',follows,history⟩ := resume_follows implements memory env runID world found suspended
    exact suspended_stopped follows (suspended.counted ▸ suspended.within) suspended.path history ended
      (fun _ => ⟨cp₀,found,suspended⟩)
  | others earlier store' same suspended =>
    obtain ⟨cp,found,suspended⟩ := suspended
    exact ⟨cp,same.trans found,suspended⟩

end

/-- The path of the workflow is cut in two by the interruption and put together again by `Resume`. -/
theorem resume_agrees (e : Engine W (MemoryStore V) V) (memory : e.InMemory) (deterministic : Deterministic e)
    {runID : String} (interrupted : Interrupted e runID initial past store) (env env' : Env W) (live : env.Live)
    (live' : env'.Live) (world world' : W) (store' : MemoryStore V) :
    outcome (e.resume env runID (.start world store)).1 =
      outcome (e.run env' runID initial (.start world' store')).1 ∧
    (past ++ (e.resume env runID (.start world store)).2.trace).map turn =
      (e.run env' runID initial (.start world' store')).2.trace.map turn := by
  have implements := deterministic_implements deterministic world
  obtain ⟨cp,found,suspended⟩ := interrupted_suspended implements memory interrupted
  obtain ⟨made,cps,-,-,-,resumed,-⟩ := resume_follows implements memory env runID world found suspended
  obtain ⟨made',cps',whole⟩ := run_follows implements memory env' runID initial world' store' rfl
  have agree := suspended.path
  rw [resumed.whole live,whole.whole live'] at agree
  have calls : made'.map turn = (past ++ made).map turn := by simpa using (WorkflowPure.Path.mk.inj agree).2
  exact ⟨((WorkflowPure.Path.mk.inj agree).1).symm,by rw [resumed.trace,whole.trace]; simpa using calls.symm⟩

/-- A run of deterministic functions that was interrupted and resumed any number of times ends as the
    uninterrupted run does, with the same calls in all, at most as many as the step limit. -/
theorem resume_equals_run (e : Engine W (MemoryStore V) V) (memory : e.InMemory) (deterministic : Deterministic e)
    {runID : String} {initial : State V} {past : List (Execution W V)} {store : MemoryStore V}
    (interrupted : Interrupted e runID initial past store) (env env' : Env W) (live : env.Live) (live' : env'.Live)
    (world world' : W) (store' : MemoryStore V) :
    outcome (e.resume env runID (.start world store)).1 =
      outcome (e.run env' runID initial (.start world' store')).1 ∧
    (past ++ (e.resume env runID (.start world store)).2.trace).map turn =
      (e.run env' runID initial (.start world' store')).2.trace.map turn ∧
    (past ++ (e.resume env runID (.start world store)).2.trace).length ≤ e.config.maxSteps := by
  obtain ⟨same,turns⟩ := resume_agrees e memory deterministic interrupted env env' live live' world world' store'
  refine ⟨same,turns,?_⟩
  obtain ⟨good,bad,cps,bound,history⟩ := run_history e memory env' runID initial (.start world' store')
  have total : (past ++ (e.resume env runID (.start world store)).2.trace).length = good.length+bad.length := by
    have count := congrArg length turns
    rw [history.trace] at count
    simpa using count
  have positive := e.positive
  omega

theorem sample_interrupted : Interrupted sampleEngine "run" (newState 0)
    (sampleEngine.run sampleCancelled "run" (newState 0) (.start 0 ∅)).2.trace
    (sampleEngine.run sampleCancelled "run" (newState 0) (.start 0 ∅)).2.store := by
  refine .stopped sampleCancelled 0 ∅ ⟨_,rfl,rfl⟩ ?_
  intro none
  have := congrArg length none
  revert this
  decide

/-- Resumed after `a`, the test engine calls `b` and `c`, as the run without a cancellation does after `a`. -/
theorem resume_equals_run_sample :
    (sampleEngine.run sampleCancelled "run" (newState 0) (.start 0 ∅)).2.trace.map (·.node) = ["a"] ∧
    ((sampleEngine.run sampleCancelled "run" (newState 0) (.start 0 ∅)).2.trace ++
      (sampleEngine.resume sampleLive "run" (.start 0
        (sampleEngine.run sampleCancelled "run" (newState 0) (.start 0 ∅)).2.store)).2.trace).map turn =
      (sampleEngine.run sampleLive "run" (newState 0) (.start 0 ∅)).2.trace.map turn :=
  ⟨by decide,(resume_equals_run sampleEngine rfl sampleEngine_deterministic sample_interrupted sampleLive sampleLive
    (fun _ => rfl) (fun _ => rfl) 0 0 ∅).2.1⟩

end Mcpkit.WorkflowResume
