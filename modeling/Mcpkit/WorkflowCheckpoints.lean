import Mathlib.Logic.Function.Basic
import Mcpkit.WorkflowSessions

/-!
Checkpoints stay in step with the node calls. A ledger gives, for every run identifier, the
successful calls of the logical run that its checkpoint belongs to: `Run` starts a new one,
`Resume` continues the one it finds.
-/
namespace Mcpkit.WorkflowCheckpoints
open WorkflowGraph WorkflowEngine WorkflowSessions List Function
variable {W V : Type}

inductive Entry (V : Type) where
  | run (initial : State V)
  | resume

variable (entry : Entry V)

def Entry.perform (e : Engine W (MemoryStore V) V) (env : Env W) (runID : String) (world : W)
    (store : MemoryStore V) : Except String (RunResult V) × Session W (MemoryStore V) V :=
  match entry with
  | .run initial => e.run env runID initial (.start world store)
  | .resume => e.resume env runID (.start world store)

def successes (trace : List (Execution W V)) : List (Execution W V) := trace.filter (·.err.isNone)

/-- The calls that precede those of a session: `Resume` continues them. -/
def Entry.prior (calls : List (Execution W V)) : List (Execution W V) :=
  match entry with
  | .run _ => []
  | .resume => calls

/-- The checkpoint counts the calls, and holds the node and the state of the last one. -/
def Stands (cp : Checkpoint V) (calls : List (Execution W V)) : Prop :=
  ∃ earlier x, calls = earlier ++ [x] ∧ cp.step = calls.length ∧ cp.currentNode = x.node ∧ cp.state = x.output

/-- A `Run` without a successful call leaves the old checkpoint, and so the old calls. -/
def Entry.extend (calls made : List (Execution W V)) : List (Execution W V) :=
  match entry with
  | .run _ => if made = [] then calls else made
  | .resume => calls ++ made

/-- The stores that any sessions of any engines leave, with the calls of each
    logical run. A session may also end right after a checkpoint was saved. -/
inductive Ledger : (String → List (Execution W V)) → MemoryStore V → Prop
  | empty : Ledger (fun _ => []) ∅
  | session {calls : String → List (Execution W V)} {store : MemoryStore V} (earlier : Ledger calls store)
      (e : Engine W (MemoryStore V) V) (memory : e.InMemory) (env : Env W) (entry : Entry V) (runID : String) (world : W) :
    Ledger (Function.update calls runID
        (entry.extend (calls runID) (successes (entry.perform e env runID world store).2.trace)))
      (entry.perform e env runID world store).2.store
  | crash {calls : String → List (Execution W V)} {store : MemoryStore V} (earlier : Ledger calls store)
      (e : Engine W (MemoryStore V) V) (memory : e.InMemory) (env : Env W) (entry : Entry V) (runID : String) (world : W)
      (k : Nat) (cp : Checkpoint V) (saved : (entry.perform e env runID world store).2.saved[k]? = some cp) :
    Ledger (Function.update calls runID
        (entry.prior (calls runID) ++ (successes (entry.perform e env runID world store).2.trace).take (k+1)))
      (store.insert runID cp)

/-- Every stored checkpoint stands for the calls of its ledger. -/
def Consistent (calls : String → List (Execution W V)) (store : MemoryStore V) : Prop :=
  ∀ runID cp, store.lookup runID = some cp → Stands cp (calls runID)

variable {runID : String} {prior good : List (Execution W V)} {calls : String → List (Execution W V)}
  {store : MemoryStore V} {cps : List (Checkpoint V)}

variable {bad : List (Execution W V)}

theorem successes_history {step : Int} {m m' : Session W (MemoryStore V) V} {result : Except String (RunResult V)}
    (history : History runID step m m' result good bad cps) (fresh : m.trace = []) :
    successes m'.trace = good := by
  have kept : good.filter (·.err.isNone) = good :=
    filter_eq_self.mpr (fun x member => by simp [history.saves.succeeded x member])
  rw [successes,history.trace,fresh,nil_append,filter_append,kept]
  rcases history.failure with none | ⟨-,x,err,single,failure⟩
  · simp [none]
  · simp [single,failure]

open Entry

private theorem perform_history (e : Engine W (MemoryStore V) V) (memory : e.InMemory) (env : Env W) (entry : Entry V)
    (runID : String) (world : W) (consistent : Consistent calls store) :
    (entry = .resume ∧ store.lookup runID = none ∧ ∃ err, entry.perform e env runID world store =
      (.error err,.start world store)) ∨
    ∃ good bad cps, (entry = .resume → (calls runID) ≠ [] ∧ ∃ cp, store.lookup runID = some cp) ∧
      History runID (entry.prior (calls runID)).length (e.withStack (.start world store))
        (entry.perform e env runID world store).2 (entry.perform e env runID world store).1 good bad cps := by
  cases entry with
  | run initial =>
    obtain ⟨good,bad,cps,-,history⟩ := run_history e memory env runID initial (.start world store)
    exact .inr ⟨good,bad,cps,by simp,by simpa [prior,perform] using history⟩
  | resume =>
    rcases resume_cases e memory env runID (.start world store) with ⟨absent,resumed⟩ | ⟨cp,found,resumed⟩
    · exact .inl ⟨rfl,absent,_,resumed⟩
    · obtain ⟨good,bad,cps,-,history⟩ := resumeFrom_history e memory env runID cp (.start world store)
      obtain ⟨earlier,x,same,counted,-,-⟩ := consistent runID cp found
      refine .inr ⟨good,bad,cps,fun _ => ⟨by simp [same],cp,found⟩,?_⟩
      simp only [perform,resumed,prior]
      rw [← counted]
      exact history

private theorem stands_saved (saves : Saves runID prior.length good cps) {k : Nat} {cp : Checkpoint V}
    (inside : cps[k]? = some cp) : Stands cp (prior ++ good.take (k+1)) := by
  obtain ⟨x,at_k,-,counted,node,state⟩ := saves.at k cp inside
  have split : good.take (k+1) = good.take k ++ [x] := by rw [take_add_one,at_k]; rfl
  refine ⟨prior ++ good.take k,x,by rw [split,append_assoc],?_,node,state⟩
  have within : k < good.length := (List.getElem?_eq_some_iff.mp at_k).1
  rw [counted,length_append,length_take_of_le (by omega)]
  push_cast
  ring

private theorem stands_last (saves : Saves runID prior.length good cps) {cp : Checkpoint V}
    (last : cps.getLast? = some cp) : Stands cp (prior ++ good) := by
  rw [getLast?_eq_getElem?] at last
  have stands := stands_saved saves last
  have whole : good.take (cps.length-1+1) = good := by
    apply take_of_length_le
    have := saves.length_eq
    omega
  rwa [whole] at stands

private theorem open_session {e : Engine W (MemoryStore V) V} {world : W}
    {outcome : Except String (RunResult V) × Session W (MemoryStore V) V}
    (history : History runID prior.length (e.withStack (.start world store)) outcome.2 outcome.1 good bad cps)
    (unfinished : ¬ Completed outcome.1) :
    (successes outcome.2.trace = [] ∧ outcome.2.store.lookup runID = store.lookup runID) ∨
    (successes outcome.2.trace ≠ [] ∧ ∃ cp, outcome.2.store.lookup runID = some cp ∧
      Stands cp (prior ++ successes outcome.2.trace)) := by
  rw [successes_history history rfl]
  have kept := history.kept unfinished
  have sameLength := history.saves.length_eq
  cases last : cps.getLast? with
  | none =>
    have none : cps = [] := getLast?_eq_none_iff.mp last
    refine .inl ⟨length_eq_zero_iff.mp (by rw [← sameLength,none]; rfl),?_⟩
    simpa [last] using kept
  | some cp =>
    refine .inr ⟨?_,cp,by simpa [last] using kept,stands_last history.saves last⟩
    rintro rfl
    rw [length_eq_zero_iff.mp sameLength] at last
    cases last

theorem ledger_consistent (ledger : Ledger calls store) : Consistent calls store := by
  induction ledger with
  | empty => intro runID cp found; simp at found
  | @session calls store earlier e memory env entry runID world consistent =>
    intro id cp found
    rcases perform_history e memory env entry runID world consistent with
      ⟨rfl,absent,err,performed⟩ | ⟨good,bad,cps,continued,history⟩
    · rw [performed] at found ⊢
      by_cases same : id = runID
      · subst same; exact absurd (found.symm.trans absent) (by simp)
      · rw [update_of_ne same]; exact consistent id cp found
    · by_cases same : id = runID
      · subst same
        rw [update_self]
        by_cases completed : Completed (entry.perform e env id world store).1
        · exact absurd (found.symm.trans (history.removed completed)) (by simp)
        · rcases open_session history completed with ⟨none,kept⟩ | ⟨some,cp',stored,stands⟩
          · have old := consistent id cp (kept.symm.trans found)
            rw [none]
            cases entry with
            | run initial | resume => simpa [Entry.extend] using old
          · rw [Option.some.inj (found.symm.trans stored)]
            cases entry with
            | run initial => simpa [Entry.extend,some,Entry.prior] using stands
            | resume => exact stands
      · rw [update_of_ne same]
        exact consistent id cp ((history.others id same).symm.trans found)
  | @crash calls store earlier e memory env entry runID world k cp saved consistent =>
    intro id cp' found
    rcases perform_history e memory env entry runID world consistent with
      ⟨rfl,absent,err,performed⟩ | ⟨good,bad,cps,continued,history⟩
    · rw [performed] at saved; cases saved
    · by_cases same : id = runID
      · subst same
        rw [update_self,successes_history history rfl]
        rw [Finmap.lookup_insert] at found
        cases found
        rw [history.saved] at saved
        exact stands_saved history.saves (by simpa using saved)
      · rw [update_of_ne same]
        rw [Finmap.lookup_insert_of_ne _ same] at found
        exact consistent id cp' found

/-- A completed session leaves no checkpoint of its run; after a stop or a failed node, the checkpoint is that of
    the last successful call and counts those of the whole logical run. Other runs keep theirs. -/
theorem checkpoint_in_step {calls : String → List (Execution W V)} {store : MemoryStore V}
    (ledger : Ledger calls store) (e : Engine W (MemoryStore V) V) (memory : e.InMemory) (env : Env W) (entry : Entry V)
    (runID : String) (world : W) :
    (Completed (entry.perform e env runID world store).1 →
      (entry.perform e env runID world store).2.store.lookup runID = none) ∧
    (NodeFailed (entry.perform e env runID world store) ∨ Stopped (entry.perform e env runID world store).1 →
      entry.prior (calls runID) ++ successes (entry.perform e env runID world store).2.trace ≠ [] →
      ∃ cp, (entry.perform e env runID world store).2.store.lookup runID = some cp ∧
        Stands cp (entry.prior (calls runID) ++ successes (entry.perform e env runID world store).2.trace)) ∧
    ∀ id, id ≠ runID → (entry.perform e env runID world store).2.store.lookup id = store.lookup id := by
  have consistent := ledger_consistent ledger
  rcases perform_history e memory env entry runID world consistent with
    ⟨rfl,absent,err,performed⟩ | ⟨good,bad,cps,continued,history⟩
  · rw [performed]
    refine ⟨fun _ => absent,?_,fun _ _ => rfl⟩
    rintro (⟨⟨r,impossible,-⟩,-⟩ | ⟨r,impossible,-⟩)
    · cases impossible
    · cases impossible
  · refine ⟨history.removed,?_,history.others⟩
    intro ended some
    have unfinished : ¬ Completed (entry.perform e env runID world store).1 := by
      intro completed
      rcases ended with failed | stopped
      · exact completed.not_failed failed.1
      · exact completed.not_stopped stopped
    rcases open_session history unfinished with ⟨none,kept⟩ | ⟨-,cp,stored,stands⟩
    · cases entry with
      | run initial => simp [prior,none] at some
      | resume =>
        obtain ⟨-,cp,found⟩ := continued rfl
        exact ⟨cp,kept.trans found,by simpa [prior,none] using consistent runID cp found⟩
    · exact ⟨cp,stored,stands⟩

theorem checkpoint_in_step_sample :
    Stopped ((Entry.run (newState 0)).perform sampleEngine sampleCancelled "run" 0 ∅).1 ∧
      ∃ cp, ((Entry.run (newState 0)).perform sampleEngine sampleCancelled "run" 0 ∅).2.store.lookup "run" = some cp ∧
        Stands cp (successes ((Entry.run (newState 0)).perform sampleEngine sampleCancelled "run" 0 ∅).2.trace) := by
  have stopped : Stopped ((run (newState 0)).perform sampleEngine sampleCancelled "run" 0 ∅).1 := ⟨_,rfl,rfl⟩
  have some : successes ((run (newState 0)).perform sampleEngine sampleCancelled "run" 0 ∅).2.trace ≠ [] := by
    intro none
    have := congrArg length none
    revert this
    decide
  exact ⟨stopped,(checkpoint_in_step .empty sampleEngine rfl sampleCancelled (.run (newState 0)) "run" 0).2.1
    (.inr stopped) some⟩

end Mcpkit.WorkflowCheckpoints
