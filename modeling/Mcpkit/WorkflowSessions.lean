import Mathlib.Tactic.Ring
import Mcpkit.WorkflowEngine

/-!
What a whole session does over a memory store. Every loop makes some successful node calls, each
saved as a checkpoint, and at most one failing call after them (`History`); from this the store
and the step count of every exit of the loop follow.
-/
namespace Mcpkit.WorkflowSessions
open WorkflowGraph WorkflowEngine Finmap
variable {W V : Type}

/-- Successful calls from a step on, with the checkpoints saved after them. -/
inductive Saves (runID : String) : Int → List (Execution W V) → List (Checkpoint V) → Prop
  | nil (step : Int) : Saves runID step [] []
  | cons (step : Int) (x : Execution W V) (savedAt : Int) {good : List (Execution W V)} {cps : List (Checkpoint V)}
      (success : x.err = none) (rest : Saves runID (step+1) good cps) :
    Saves runID step (x :: good) (⟨runID,x.output,x.node,step+1,savedAt⟩ :: cps)

variable (result : Except String (RunResult V))

def Completed : Prop := ∃ r, result = .ok r ∧ r.status = .completed

def Stopped : Prop := ∃ r, result = .ok r ∧ r.status = .stopped

def Failed : Prop := ∃ r, result = .ok r ∧ r.status = .failed

variable {result}

private theorem status_unique {a b : RunStatus} (different : a ≠ b)
    (one : ∃ r, result = .ok r ∧ r.status = a) (other : ∃ r, result = .ok r ∧ r.status = b) : False := by
  obtain ⟨r,same,status⟩ := one
  obtain ⟨r',same',status'⟩ := other
  rw [same] at same'
  cases same'
  exact different (status.symm.trans status')

theorem Completed.not_failed (completed : Completed result) : ¬ Failed result :=
  status_unique (by decide) completed

theorem Completed.not_stopped (completed : Completed result) : ¬ Stopped result :=
  status_unique (by decide) completed

theorem Stopped.not_failed (stopped : Stopped result) : ¬ Failed result :=
  status_unique (by decide) stopped

/-- The session failed because a node returned an error. -/
def NodeFailed {S : Type} (outcome : Except String (RunResult V) × Session W S V) : Prop :=
  Failed outcome.1 ∧ ∃ x ∈ outcome.2.trace, x.err ≠ none

/-- From `m` at `step` to `m'`: the calls `good` succeeded and were saved as
    `cps`, then the calls `bad`, at most one, failed. -/
structure History (runID : String) (step : Int) (m m' : Session W (MemoryStore V) V)
    (result : Except String (RunResult V)) (good bad : List (Execution W V)) (cps : List (Checkpoint V)) : Prop where
  trace : m'.trace = m.trace ++ (good ++ bad)
  saves : Saves runID step good cps
  saved : m'.saved = m.saved ++ cps
  failure : bad = [] ∨ Failed result ∧ ∃ x err, bad = [x] ∧ x.err = some err
  others : ∀ id, id ≠ runID → m'.store.lookup id = m.store.lookup id
  kept : ¬ Completed result → m'.store.lookup runID = cps.getLast?.or (m.store.lookup runID)
  removed : Completed result → m'.store.lookup runID = none

private theorem not_completed_error (err : String) : ¬ Completed (.error err : Except String (RunResult V)) := by
  rintro ⟨r,same,-⟩
  cases same

private theorem not_completed_of_status {r : RunResult V} (status : r.status ≠ .completed) :
    ¬ Completed (.ok r : Except String (RunResult V)) := by
  rintro ⟨r',same,completed⟩
  cases same
  exact status completed

private theorem idle_history (runID : String) (step : Int) (m : Session W (MemoryStore V) V) (world : W)
    (result : Except String (RunResult V)) (open_ : ¬ Completed result) :
    History runID step m { m with world := world } result [] [] [] where
  trace := by simp
  saves := .nil step
  saved := by simp
  failure := .inl rfl
  others _ _ := rfl
  kept _ := by simp
  removed completed := absurd completed open_

variable {runID : String} {step : Int} {good : List (Execution W V)} {cps : List (Checkpoint V)}

variable {m m' : Session W (MemoryStore V) V}

private theorem History.start_anywhere {m₁ : Session W (MemoryStore V) V} {bad : List (Execution W V)}
    (h : History runID step m m' result good bad cps) (store : m₁.store = m.store) (trace : m₁.trace = m.trace)
    (saved : m₁.saved = m.saved) : History runID step m₁ m' result good bad cps := by
  refine ⟨?_,h.saves,?_,h.failure,?_,?_,h.removed⟩
  · rw [trace]; exact h.trace
  · rw [saved]; exact h.saved
  · rw [store]; exact h.others
  · rw [store]; exact h.kept

private theorem completed_history (runID : String) (step : Int) (m : Session W (MemoryStore V) V) (world : W)
    (r : RunResult V) (status : r.status = .completed) :
    History runID step m { m with world := world, store := m.store.erase runID } (.ok r) [] [] [] where
  trace := by simp
  saves := .nil step
  saved := by simp
  failure := .inl rfl
  others id different := lookup_erase_ne different
  kept unfinished := absurd ⟨r,rfl,status⟩ unfinished
  removed _ := lookup_erase runID m.store

private theorem failed_history {x : Execution W V} {err message : String} (failure : x.err = some err)
    (trace : m'.trace = m.trace ++ [x]) (store : m'.store = m.store) (saved : m'.saved = m.saved) :
    History runID step m m' (.ok ⟨runID,.failed,x.input,step+1,message⟩) [] [x] [] where
  trace := by simp [trace]
  saves := .nil step
  saved := by simp [saved]
  failure := .inr ⟨⟨_,rfl,rfl⟩,x,err,rfl,failure⟩
  others id _ := by rw [store]
  kept _ := by simp [store]
  removed completed := absurd completed (not_completed_of_status (by simp))

private theorem History.cons {e : Engine W (MemoryStore V) V} {node : String} {state : State V}
    {n : Node W V} {x : Execution W V} {savedAt : Int} {m₁ : Session W (MemoryStore V) V} {bad : List (Execution W V)}
    (ran : Ran e step node state m.stack.isSome n x) (success : x.err = none) (trace : m₁.trace = m.trace ++ [x])
    (store : m₁.store = m.store.insert runID ⟨runID,x.output,node,step+1,savedAt⟩)
    (saved : m₁.saved = m.saved ++ [⟨runID,x.output,node,step+1,savedAt⟩])
    (rest : History runID (step+1) m₁ m' result good bad cps) :
    History runID step m m' result (x :: good) bad (⟨runID,x.output,node,step+1,savedAt⟩ :: cps) where
  trace := by rw [rest.trace,trace]; simp
  saves := by
    have named := ran.name
    subst named
    exact .cons step x savedAt success rest.saves
  saved := by rw [rest.saved,saved]; simp
  failure := rest.failure
  others id different := by rw [rest.others id different,store,lookup_insert_of_ne _ different]
  kept completed := by
    rw [rest.kept completed,store,lookup_insert]
    cases cps with
    | nil => simp
    | cons cp more => rfl
  removed := rest.removed

variable (e : Engine W (MemoryStore V) V)

/-- Every loop has a history, with at most as many calls as turns left. -/
theorem loop_history (memory : e.InMemory) (env : Env W) (runID : String) :
    ∀ (remaining : Nat) (step : Int) (node : String) (state : State V) (m : Session W (MemoryStore V) V),
      ∃ good bad cps, good.length + bad.length ≤ remaining ∧
        History runID step m (e.loop env runID remaining step node state m).2
          (e.loop env runID remaining step node state m).1 good bad cps := by
  intro remaining
  induction remaining with
  | zero =>
    intro step node state m
    exact ⟨[],[],[],by simp,idle_history runID step m m.world _ (not_completed_of_status (by simp))⟩
  | succ remaining ih =>
    intro step node state m
    rw [Engine.loop]
    have visited := visit_cases e env runID step node state m
    generalize e.visit env runID step node state m = progress at visited ⊢
    cases visited with
    | cancelled err world observed =>
      exact ⟨[],[],[],by simp,idle_history runID step m world _ (not_completed_of_status (by simp))⟩
    | missing message world absent text =>
      exact ⟨[],[],[],by simp,idle_history runID step m world _ (not_completed_error _)⟩
    | failed n x err message m' ran failure trace store saved invoked =>
      exact ⟨[],[x],[],by simp,failed_history failure trace store saved⟩
    | unsaved n x message err store cp m' ran success present refused trace invoked =>
      rw [save_memory memory present] at refused
      cases refused
    | done n x savedAt m₁ ran success trace kept invoked stack =>
      obtain ⟨store,saved⟩ := kept_memory memory kept
      have advanced := advance_cases e runID step node n x.output m₁
      dsimp only
      generalize e.advance runID step node n x.output m₁ = progress at advanced ⊢
      cases advanced with
      | unresolved err world resolved =>
        have rest := idle_history runID (step+1) m₁ world _ (not_completed_error err)
        exact ⟨[x],[],_,by simp,.cons ran success trace store saved rest⟩
      | completed world resolved =>
        rw [cleanUp_memory memory]
        have rest := completed_history runID (step+1) m₁ world ⟨runID,.completed,x.output,step+1,""⟩ rfl
        exact ⟨[x],[],_,by simp,.cons ran success trace store saved rest⟩
      | next node' world resolved more =>
        obtain ⟨good,bad,cps,bound,rest⟩ := ih (step+1) node' x.output { m₁ with world := world }
        have enough : (x :: good).length+bad.length ≤ remaining+1 := by simp; omega
        exact ⟨x :: good,bad,_,enough,.cons ran success trace store saved (rest.start_anywhere rfl rfl rfl)⟩

theorem run_history (memory : e.InMemory) (env : Env W) (runID : String) (initial : State V)
    (m : Session W (MemoryStore V) V) : ∃ good bad cps, good.length + bad.length ≤ e.config.maxSteps.toNat ∧
      History runID 0 (e.withStack m) (e.run env runID initial m).2 (e.run env runID initial m).1 good bad cps :=
  loop_history e memory env runID _ 0 e.graph.start initial.clone (e.withStack m)

theorem resumeFrom_history (memory : e.InMemory) (env : Env W) (runID : String) (cp : Checkpoint V)
    (m : Session W (MemoryStore V) V) : ∃ good bad cps, good.length + bad.length ≤ (e.config.maxSteps-cp.step).toNat ∧
      History runID cp.step (e.withStack m) (e.resumeFrom env runID cp m).2 (e.resumeFrom env runID cp m).1
        good bad cps := by
  have resumed := resumeFrom_cases e env runID cp m
  generalize e.resumeFrom env runID cp m = outcome at resumed ⊢
  cases resumed with
  | missing message absent =>
    exact ⟨[],[],[],by simp,(idle_history runID cp.step m m.world _ (not_completed_error _)).start_anywhere rfl rfl rfl⟩
  | unresolved n err world found resolved =>
    exact ⟨[],[],[],by simp,(idle_history runID cp.step m world _ (not_completed_error err)).start_anywhere rfl rfl rfl⟩
  | completed n world found resolved =>
    rw [cleanUp_memory memory]
    exact ⟨[],[],[],by simp,(completed_history runID cp.step m world _ rfl).start_anywhere rfl rfl rfl⟩
  | exhausted n node message world found resolved more reached =>
    exact ⟨[],[],[],by simp,(idle_history runID cp.step m world _ (not_completed_of_status (by simp))).start_anywhere rfl rfl rfl⟩
  | looped n node world found resolved more left =>
    obtain ⟨good,bad,cps,bound,h⟩ := loop_history e memory env runID (e.config.maxSteps-cp.step).toNat cp.step
      node cp.state (e.withStack { m with world := world })
    exact ⟨good,bad,cps,bound,h.start_anywhere rfl rfl rfl⟩

/-! ### Successful calls and their checkpoints -/

section
variable (saves : Saves runID step good cps)
include saves

theorem Saves.length_eq : cps.length = good.length := by
  induction saves with
  | nil => rfl
  | cons step x savedAt success rest ih => simp [ih]

theorem Saves.succeeded : ∀ x ∈ good, x.err = none := by
  induction saves with
  | nil => simp
  | cons step x savedAt success rest ih =>
    intro y member
    rcases List.mem_cons.mp member with same | later
    · exact same ▸ success
    · exact ih y later

theorem Saves.at : ∀ (k : Nat) (cp : Checkpoint V), cps[k]? = some cp → ∃ x, good[k]? = some x ∧ cp.runID = runID ∧
      cp.step = step+k+1 ∧ cp.currentNode = x.node ∧ cp.state = x.output := by
  induction saves with
  | nil => intro k cp inside; simp at inside
  | cons step x savedAt success rest ih =>
    intro k cp inside
    cases k with
    | zero =>
      simp only [List.getElem?_cons_zero,Option.some.injEq] at inside
      subst inside
      exact ⟨x,rfl,rfl,by simp,rfl,rfl⟩
    | succ k =>
      obtain ⟨y,at_k,id,counted,node,state⟩ := ih k cp (by simpa using inside)
      exact ⟨y,by simpa using at_k,id,by rw [counted]; push_cast; ring,node,state⟩

end

end Mcpkit.WorkflowSessions
