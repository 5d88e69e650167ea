import Mcpkit.TaskModel

/-!
Terminal statuses. The goroutine of a task and a `Cancel` that has found the task underway both
set a terminal status in the end, whichever comes first, so one of them replaces the other's
(`not_final`).
-/
namespace Mcpkit.TaskFinality
open Transitions GoMaps ToolResults TaskModel List

variable (s : System)

/-- A terminal status is final, a `Cancel` that returned nil has cancelled, and a completed task has a result. -/
structure Final : Prop where
  settled : ∀ t ∈ s.heap, ∀ status ∈ t.entry.past, status.isTerminal = true → t.entry.task.status = status
  cancelled : ∀ i, .returned i none ∈ s.cancels → ∀ t, s.heap[i]? = some t → t.entry.task.status = .cancelled
  result : ∀ t ∈ s.heap, t.entry.task.status = .completed → t.entry.result.isSome

/-- A `Cancel` takes its snapshot while the task is underway; or a handler returns neither a result nor an error. -/
def Overtakes : Action → Prop
  | .check j => ∃ taskID i t, s.cancels[j]? = some (.found taskID i) ∧ s.heap[i]? = some t ∧
      t.entry.task.status.isTerminal = false
  | .finish _ (.ok none) => True
  | _ => False

/-! ### Runs in which no task is overtaken -/

def Sound (t : Task) : Prop :=
  match t.handler with
  | .running => t.entry.task.status = .working ∧ t.entry.past = []
  | .returned result => t.entry.task.status = .working ∧ t.entry.past = [] ∧ result.isSome
  | .updating status _ => t.entry.task.status = .working ∧ t.entry.past = [] ∧
      (status = .failed ∨ status = .completed ∧ t.entry.result.isSome)
  | .done => t.entry.past = [.working] ∧
      (t.entry.task.status = .failed ∨ t.entry.task.status = .completed ∧ t.entry.result.isSome)

def Refused : Cancel → Prop
  | .found _ _ => True
  | .unknown _ => True
  | .returned _ (some _) => True
  | _ => False

structure Orderly : Prop where
  sound : ∀ t ∈ s.heap, Sound t
  refused : ∀ c ∈ s.cancels, Refused c

theorem orderly_new (now : Int) : Orderly (new now) where
  sound := by simp [new]
  refused := by simp [new]

open Reachable

section
variable {s s' : System} {t : Task}

section
variable (orderly : Orderly s)
include orderly

theorem Orderly.set_task (sound : Sound t) (i : Nat) : Orderly { s with heap := s.heap.set i t } where
  sound := forall_mem_set orderly.sound sound
  refused := orderly.refused

variable {c : Cancel}

theorem Orderly.set_cancel (refused : Refused c) (j : Nat) : Orderly { s with cancels := s.cancels.set j c } where
  sound := orderly.sound
  refused := forall_mem_set orderly.refused refused

theorem Orderly.add_cancel (refused : Refused c) : Orderly { s with cancels := s.cancels ++ [c] } where
  sound := orderly.sound
  refused := forall_mem_snoc orderly.refused refused

variable {a : Action}

theorem Orderly.step (kept : ¬ Overtakes s a) (moved : step s a = some s') : Orderly s' := by
  cases step_cases moved with
  | advance duration => exact ⟨orderly.sound,orderly.refused⟩
  | passed support name params id => exact orderly
  | called support name params id ttl =>
    exact ⟨forall_mem_snoc orderly.sound ⟨rfl,rfl⟩,orderly.refused⟩
  | finish i outcome entry here =>
    obtain ⟨status,past⟩ := orderly.sound _ (mem_of_getElem? here)
    refine orderly.set_task ?_ i
    cases outcome with
    | error err => exact ⟨status,past,.inl rfl⟩
    | ok result =>
      cases result with
      | none => exact absurd trivial kept
      | some result => exact ⟨status,past,rfl⟩
  | setResult i entry result here =>
    obtain ⟨status,past,present⟩ := orderly.sound _ (mem_of_getElem? here)
    refine orderly.set_task ?_ i
    unfold afterResult
    split
    · exact ⟨status,past,.inl rfl⟩
    · exact ⟨status,past,.inr ⟨rfl,present⟩⟩
  | update i entry status message here =>
    obtain ⟨before,past,after⟩ := orderly.sound _ (mem_of_getElem? here)
    refine orderly.set_task (t := ⟨entry.update s.now status message,.done⟩) ⟨?_,after⟩ i
    dsimp only [TaskEntry.update] at before past ⊢
    rw [past,before]
    rfl
  | unknown taskID err | found taskID i => exact orderly.add_cancel trivial
  | refused j i taskID err t call here terminal => exact orderly.set_cancel (c := .returned i (some err)) trivial j
  | checked j i taskID t call here underway => exact absurd ⟨taskID,i,t,call,here,underway⟩ kept
  | mark j i t call here | callCancelFn j i call => exact (orderly.refused _ (mem_of_getElem? call)).elim
  | cleanup expired => exact ⟨orderly.sound,orderly.refused⟩

theorem Orderly.final : Final s where
  settled t member status listed terminal := by
    have sound := orderly.sound t member
    unfold Sound at sound
    split at sound
    · rw [sound.2] at listed; cases listed
    · rw [sound.2.1] at listed; cases listed
    · rw [sound.2.1] at listed; cases listed
    · rw [sound.1] at listed
      cases mem_singleton.mp listed
      cases terminal
  cancelled i call := (orderly.refused _ call).elim
  result t member completed := by
    have sound := orderly.sound t member
    unfold Sound at sound
    split at sound
    · cases completed.symm.trans sound.1
    · cases completed.symm.trans sound.1
    · cases completed.symm.trans sound.1
    · rcases sound.2 with failed | ⟨-,present⟩
      · cases completed.symm.trans failed
      · exact present

end

/-! ### What both sides leave behind -/

def statuses (e : TaskEntry) : List TaskStatus := e.past ++ [e.task.status]

def marks : Cancel → Option Nat
  | .marked i => some i
  | .returned i none => some i
  | _ => none

def Told (t : Task) : Prop :=
  match t.handler with
  | .updating status _ => status = .completed ∨ status = .failed
  | .done => .completed ∈ statuses t.entry ∨ .failed ∈ statuses t.entry
  | _ => True

/-- In every run: a goroutine that is done has set its status, and so has a `Cancel` that is past its update. -/
structure Recorded (s : System) : Prop where
  told : ∀ t ∈ s.heap, Told t
  marked : ∀ c ∈ s.cancels, ∀ i, marks c = some i → ∃ t, s.heap[i]? = some t ∧ .cancelled ∈ statuses t.entry

theorem recorded_new (now : Int) : Recorded (new now) where
  told := by simp [new]
  marked := by simp [new]

variable {i : Nat}

theorem Recorded.set_task (recorded : Recorded s) {t' : Task} (here : s.heap[i]? = some t) (told : Told t')
    (more : statuses t.entry ⊆ statuses t'.entry) : Recorded { s with heap := s.heap.set i t' } where
  told := forall_mem_set recorded.told told
  marked c member k marked := by
    obtain ⟨x,there,cancelled⟩ := recorded.marked c member k marked
    by_cases same : i = k
    · subst same
      cases here.symm.trans there
      exact ⟨t',getElem?_set_some here,more cancelled⟩
    · exact ⟨x,by rw [getElem?_set_ne same,there],cancelled⟩

theorem Recorded.set_cancel (recorded : Recorded s) (j : Nat)
    (marked : ∀ i, marks c = some i → ∃ t, s.heap[i]? = some t ∧ .cancelled ∈ statuses t.entry) :
    Recorded { s with cancels := s.cancels.set j c } where
  told := recorded.told
  marked := forall_mem_set recorded.marked marked

theorem Recorded.add_cancel (recorded : Recorded s) (unmarked : marks c = none) :
    Recorded { s with cancels := s.cancels ++ [c] } where
  told := recorded.told
  marked c' member i marked := by
    rcases mem_append.mp member with old | new
    · exact recorded.marked c' old i marked
    · rw [mem_singleton.mp new,unmarked] at marked
      cases marked

theorem finish_told (entry : TaskEntry) (outcome : Outcome) : Told ⟨entry,finish outcome⟩ := by
  cases outcome with
  | error err => exact .inr rfl
  | ok result => trivial

theorem afterResult_updating (result : Option CallToolResult) :
    ∃ status message, afterResult result = .updating status message ∧ (status = .completed ∨ status = .failed) := by
  unfold afterResult
  split
  · exact ⟨_,_,rfl,.inr rfl⟩
  · exact ⟨_,_,rfl,.inl rfl⟩

theorem afterResult_told (entry : TaskEntry) (result : Option CallToolResult) : Told ⟨entry,afterResult result⟩ := by
  obtain ⟨status,message,same,told⟩ := afterResult_updating result
  rw [same]
  exact told

theorem Told.update (told : Told t) (now : Int) (status : TaskStatus) (message : String) :
    Told { t with entry := t.entry.update now status message } := by
  obtain ⟨entry,handler⟩ := t
  cases handler with
  | running | returned result => trivial
  | updating status' message' => exact told
  | done =>
    refine told.imp ?_ ?_
    · exact fun completed => mem_append_left _ completed
    · exact fun failed => mem_append_left _ failed

theorem Recorded.step (recorded : Recorded s) (moved : step s a = some s') : Recorded s' := by
  cases step_cases moved with
  | advance duration => exact ⟨recorded.told,recorded.marked⟩
  | passed support name params id => exact recorded
  | called support name params id ttl =>
    refine ⟨forall_mem_snoc recorded.told trivial,fun c member i marked => ?_⟩
    obtain ⟨t,there,cancelled⟩ := recorded.marked c member i marked
    exact ⟨t,getElem?_append_some there,cancelled⟩
  | finish i outcome entry here => exact recorded.set_task here (finish_told entry outcome) (List.Subset.refl _)
  | setResult i entry result here =>
    exact recorded.set_task here (afterResult_told (entry.setResult result) result) (List.Subset.refl _)
  | update i entry status message here =>
    have told : status = .completed ∨ status = .failed := recorded.told _ (mem_of_getElem? here)
    have last : status ∈ statuses (entry.update s.now status message) :=
      mem_append_right _ (mem_singleton_self _)
    refine recorded.set_task here ?_ (subset_append_left _ _)
    rcases told with rfl | rfl
    · exact .inl last
    · exact .inr last
  | unknown taskID err | found taskID i => exact recorded.add_cancel rfl
  | refused j i taskID err t call here terminal => exact recorded.set_cancel j (by simp [marks])
  | checked j i taskID t call here underway => exact recorded.set_cancel j (by simp [marks])
  | mark j i t call here =>
    have told := (recorded.told t (mem_of_getElem? here)).update s.now .cancelled "cancelled by client"
    refine (recorded.set_task here told (subset_append_left _ _)).set_cancel j (fun k marked => ?_)
    cases marked
    exact ⟨_,getElem?_set_some here,
      mem_append_right _ (mem_singleton_self _)⟩
  | callCancelFn j i call =>
    refine recorded.set_cancel j (fun k marked => ?_)
    cases marked
    exact recorded.marked _ (mem_of_getElem? call) i rfl
  | cleanup expired => exact ⟨recorded.told,recorded.marked⟩

theorem Final.status_eq (final : Final s) (member : t ∈ s.heap) {status : TaskStatus}
    (had : status ∈ statuses t.entry) (terminal : status.isTerminal = true) : t.entry.task.status = status := by
  rcases mem_append.mp had with past | now
  · exact final.settled t member status past terminal
  · exact (mem_singleton.mp now).symm

/-- In no run is a terminal status final once a `Cancel` has returned nil for a task and
    the goroutine of the task is done. -/
theorem Recorded.not_final (recorded : Recorded s) (cancelled : .returned i none ∈ s.cancels)
    (here : s.heap[i]? = some t) (done : t.handler = .done) : ¬ Final s := by
  intro final
  have member := mem_of_getElem? here
  obtain ⟨t',there,had⟩ := recorded.marked _ cancelled i rfl
  cases here.symm.trans there
  have status := final.status_eq member had rfl
  have told := recorded.told t member
  unfold Told at told
  rw [done] at told
  rcases told with completed | failed
  · cases status.symm.trans (final.status_eq member completed rfl)
  · cases status.symm.trans (final.status_eq member failed rfl)

/-! ### After a task was overtaken -/

/-- The goroutine of the task is done, and the calls of `Cancel` are where they were. -/
def Concludes (s : System) (i : Nat) : Prop :=
  ∃ s' t, Reachable TaskModel.step free s s' ∧ s'.heap[i]? = some t ∧ t.handler = .done ∧ s'.cancels = s.cancels

theorem Concludes.before (moved : step s a = some s') (cancels : s'.cancels = s.cancels)
    (concludes : Concludes s' i) : Concludes s i := by
  obtain ⟨s'',t,later,here,done,same⟩ := concludes
  exact ⟨s'',t,(start.next a trivial moved).trans later,here,done,same.trans cancels⟩

variable {entry : TaskEntry}

theorem updating_concludes {status : TaskStatus} {message : String}
    (here : s.heap[i]? = some ⟨entry,.updating status message⟩) : Concludes s i := by
  have moved : step s (.update i) =
      some { s with heap := s.heap.set i ⟨entry.update s.now status message,.done⟩ } := by
    simp only [step,here]
  exact ⟨_,_,start.next _ trivial moved,getElem?_set_some here,rfl,rfl⟩

theorem returned_concludes {result : Option CallToolResult}
    (here : s.heap[i]? = some ⟨entry,.returned result⟩) : Concludes s i := by
  have moved : step s (.setResult i) =
      some { s with heap := s.heap.set i ⟨entry.setResult result,afterResult result⟩ } := by
    simp only [step,here]
  obtain ⟨status,message,same,-⟩ := afterResult_updating result
  have there : (s.heap.set i ⟨entry.setResult result,afterResult result⟩)[i]? =
      some ⟨entry.setResult result,.updating status message⟩ := by
    rw [← same]
    exact getElem?_set_some here
  exact Concludes.before moved rfl (updating_concludes there)

theorem running_concludes (here : s.heap[i]? = some ⟨entry,.running⟩) : Concludes s i := by
  have moved : step s (.finish i (.error "")) =
      some { s with heap := s.heap.set i ⟨entry,.updating .failed ""⟩ } := by
    simp only [step,here]
    rfl
  have there : (s.heap.set i ⟨entry,.updating .failed ""⟩)[i]? = some ⟨entry,.updating .failed ""⟩ :=
    getElem?_set_some here
  exact Concludes.before moved rfl (updating_concludes there)

theorem concludes (here : s.heap[i]? = some t) : Concludes s i := by
  obtain ⟨entry,handler⟩ := t
  cases handler with
  | running => exact running_concludes here
  | returned result => exact returned_concludes here
  | updating status message => exact updating_concludes here
  | done => exact ⟨s,_,.start,here,rfl,rfl⟩

theorem passed_breaks (recorded : Recorded s) {j : Nat} (call : s.cancels[j]? = some (.passed i))
    (here : s.heap[i]? = some t) : ∃ s', Reachable step free s s' ∧ ¬ Final s' := by
  let marked : System := { s with
    heap := s.heap.set i { t with entry := t.entry.update s.now .cancelled "cancelled by client" }
    cancels := s.cancels.set j (.marked i) }
  let returned : System := { marked with cancels := marked.cancels.set j (.returned i none) }
  have inside := lt_of_getElem? call
  have first : step s (.mark j) = some marked := by simp only [step,call,here]; rfl
  have pending : marked.cancels[j]? = some (.marked i) := getElem?_set_self inside
  have second : step marked (.callCancelFn j) = some returned := by
    simp only [step,pending]
    rfl
  have run : Reachable step free s returned :=
    (start.next _ trivial first).next _ trivial second
  have there : returned.heap[i]? = some { t with entry := t.entry.update s.now .cancelled "cancelled by client" } :=
    getElem?_set_some here
  obtain ⟨s',t',later,last,done,same⟩ := concludes there
  have all := run.trans later
  have recorded' : Recorded s' := all.invariant recorded (fun _ _ _ recorded _ moved => recorded.step moved)
  refine ⟨s',all,recorded'.not_final ?_ last done⟩
  rw [same]
  exact mem_iff_getElem?.mpr ⟨j,getElem?_set_self (by simpa [marked] using inside)⟩

theorem resultless_breaks (here : s.heap[i]? = some ⟨entry,.returned none⟩) :
    ∃ s', Reachable step free s s' ∧ ¬ Final s' := by
  have inside := lt_of_getElem? here
  let middle : System := { s with heap := s.heap.set i ⟨entry.setResult none,.updating .completed "completed"⟩ }
  let after : System := { s with
    heap := middle.heap.set i ⟨(entry.setResult none).update s.now .completed "completed",.done⟩ }
  have first : step s (.setResult i) = some middle := by simp only [step,here]; rfl
  have there : middle.heap[i]? = some ⟨entry.setResult none,.updating .completed "completed"⟩ :=
    getElem?_set_self inside
  have second : step middle (.update i) = some after := by simp only [step,there]; rfl
  refine ⟨after,(start.next _ trivial first).next _ trivial second,fun final => ?_⟩
  have last : after.heap[i]? = some ⟨(entry.setResult none).update s.now .completed "completed",.done⟩ :=
    getElem?_set_self (by simpa [middle] using inside)
  cases final.result _ (mem_of_getElem? last) rfl

theorem Overtakes.breaks (recorded : Recorded s) (overtakes : Overtakes s a)
    (moved : step s a = some s') : ∃ s'', Reachable step free s' s'' ∧ ¬ Final s'' := by
  have recorded' := recorded.step moved
  cases step_cases moved with
  | checked j i taskID t call here underway =>
    exact passed_breaks recorded' (getElem?_set_some call) here
  | refused j i taskID err t call here terminal =>
    obtain ⟨taskID',i',t',call',here',underway⟩ := overtakes
    cases call.symm.trans call'
    cases here.symm.trans here'
    cases terminal.symm.trans underway
  | finish i outcome entry here =>
    cases outcome with
    | error err => exact overtakes.elim
    | ok result =>
      cases result with
      | some result => exact overtakes.elim
      | none =>
        have there : (s.heap.set i ⟨entry,.returned none⟩)[i]? = some ⟨entry,.returned none⟩ :=
          getElem?_set_some here
        exact resultless_breaks there
  | advance duration | passed support name params id | called support name params id ttl => exact overtakes.elim
  | setResult i entry result here | update i entry status message here | unknown taskID err => exact overtakes.elim
  | found taskID i | mark j i t call here | callCancelFn j i call | cleanup expired => exact overtakes.elim

/-- In every run in which no `Cancel` takes its snapshot while the task is underway and no handler returns nothing at
    all, terminal statuses are final; otherwise they need not be. -/
theorem tasks_final_iff (now : Int) {s : System}
    (reached : Reachable TaskModel.step (fun s a => ¬ Overtakes s a) (new now) s) :
    Final s ∧ ∀ a s', Overtakes s a → TaskModel.step s a = some s' →
      ∃ s'', Reachable TaskModel.step free s' s'' ∧ ¬ Final s'' := by
  have orderly : Orderly s := reached.invariant (orderly_new now) (fun _ _ _ orderly kept moved => orderly.step kept moved)
  have recorded : Recorded s := reached.invariant (recorded_new now) (fun _ _ _ recorded _ moved => recorded.step moved)
  exact ⟨orderly.final,fun a s' overtakes moved => overtakes.breaks recorded moved⟩

end

/-! ### A cancelled task that completes -/

instance (s : System) : ∀ a, Decidable (Overtakes s a)
  | .check j => decidable_of_iff
      (((s.cancels[j]?).any fun c => match c with
        | .found _ i => (s.heap[i]?).any fun t => !t.entry.task.status.isTerminal
        | _ => false) = true) (by
        cases call : s.cancels[j]? with
        | none => simp [Overtakes,call]
        | some c =>
          cases c with
          | found taskID i => simp [Overtakes,call,Option.any_eq_true]
          | _ => simp [Overtakes,call])
  | .finish _ (.ok none) => .isTrue trivial
  | .finish _ (.ok (some _)) => .isFalse id
  | .finish _ (.error _) => .isFalse id
  | .advance _ => .isFalse id
  | .call _ _ _ _ => .isFalse id
  | .setResult _ => .isFalse id
  | .update _ => .isFalse id
  | .cancel _ => .isFalse id
  | .mark _ => .isFalse id
  | .callCancelFn _ => .isFalse id
  | .cleanup _ => .isFalse id

def submit : List Action := [.call .optional "build" (some none) "task_1"]

def inOrder : List Action :=
  submit ++ [.finish 0 (.ok (some ⟨[.text "done"],false⟩)),.setResult 0,.update 0,.cancel "task_1",.check 0]

def overtaken : List Action :=
  submit ++ [.cancel "task_1",.check 0,.mark 0,.callCancelFn 0,
    .finish 0 (.ok (some ⟨[.text "done"],false⟩)),.setResult 0,.update 0]

def after (actions : List Action) : System := (exec TaskModel.step free (new 0) actions).getD (new 0)

theorem tasks_final_sample : Final (after inOrder) ∧
    ∃ s', Reachable TaskModel.step free (after (submit ++ [.cancel "task_1",.check 0])) s' ∧ ¬ Final s' := by
  have run : Reachable step (fun s a => ¬ Overtakes s a) (new 0) (after inOrder) :=
    exec_reachable inOrder .start rfl
  have called : Reachable step (fun s a => ¬ Overtakes s a) (new 0) (after (submit ++ [.cancel "task_1"])) :=
    exec_reachable (submit ++ [.cancel "task_1"]) .start rfl
  exact ⟨(tasks_final_iff 0 run).1,(tasks_final_iff 0 called).2 (.check 0) _ (by decide) rfl⟩

/-- The status was cancelled and is completed, and the `Cancel` returned nil. -/
theorem completion_replaces_cancel : Reachable TaskModel.step free (new 0) (after overtaken) ∧
    (after overtaken).heap.map (fun t => (t.entry.past,t.entry.task.status)) =
      [([.working,.cancelled],.completed)] ∧
    (after overtaken).cancels = [.returned 0 none] ∧ ¬ Final (after overtaken) := by
  have run : Reachable step free (new 0) (after overtaken) := exec_reachable overtaken .start rfl
  have recorded : Recorded (after overtaken) :=
    run.invariant (recorded_new 0) (fun _ _ _ recorded _ moved => recorded.step moved)
  exact ⟨run,by decide,by decide,recorded.not_final (i := 0) (by decide) rfl rfl⟩

end Mcpkit.TaskFinality
