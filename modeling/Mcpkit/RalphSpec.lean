import Mathlib.Algebra.Order.Ring.Int
import Mcpkit.Kahn
import Mcpkit.ToolResults
import Mcpkit.Transitions
import Mathlib.Data.List.Dedup

/-!
Specifications of the Ralph loop: tasks with dependencies. A task is ready when it is neither done
in the specification nor completed and everything that it depends on is completed.
-/
namespace Mcpkit.RalphSpec
open ToolResults Transitions Kahn List

structure Task where
  id : String
  description : String
  done : Bool
  dependsOn : List String
  deriving DecidableEq

structure Spec where
  name : String
  description : String
  tasks : List Task
  deriving DecidableEq

def Task.allMet (t : Task) (completed : List String) : Bool := t.dependsOn.all (· ∈ completed)

variable (tasks : List Task)

def readyTasks (completed : List String) : List String :=
  (tasks.filter fun t => !(t.done || t.id ∈ completed) && t.allMet completed).map Task.id

/-! ### Validation -/

def ids : List String := tasks.map Task.id

def unknownDependency : Option (String × String) :=
  tasks.findSome? (fun t => (t.dependsOn.find? (· ∉ ids tasks)).map fun dep => (t.id,dep))

def inDegree (id : String) : Int :=
  ((tasks.filter (·.id = id)).map fun t => (t.dependsOn.length : Int)).sum

def dependents (dep : String) : List String :=
  tasks.flatMap fun t => (t.dependsOn.filter (· == dep)).map fun _ => t.id

/-- The nodes that Kahn's algorithm visits, when the loop over `inDegree` takes the ids in the given order. -/
def kahnVisited (order : List String) : List String :=
  (run (dependents tasks) tasks.length ⟨inDegree tasks,order.filter fun id => inDegree tasks id = 0,[]⟩).visited

variable (quote : Quote)

def validateDependencies (order : List String) (tasks : List Task) : Option String :=
  match unknownDependency tasks with
  | some (id,dep) => some ("ralph: task " ++ quote id ++ " depends on unknown task " ++ quote dep)
  | none =>
    if (kahnVisited tasks order).length ≠ tasks.length then some "ralph: dependency cycle detected among tasks"
    else none

/-- The problems of the tasks from the `i`-th on, after those with the ids seen. -/
def taskProblems (quote : Quote) : Nat → List String → List Task → List String
  | _,_,[] => []
  | i,seen,t :: rest =>
    let at_ (text : String) := "task[" ++ toString i ++ "]: " ++ text
    (if t.id = "" then [at_ "id is required"] else []) ++
    (if t.description = "" then [at_ "description is required"] else []) ++
    (if t.id ≠ "" ∧ t.id ∈ seen then [at_ ("duplicate id " ++ quote t.id)] else []) ++
    taskProblems quote (i+1) (t.id :: seen) rest

def specProblems (spec : Spec) : List String :=
  (if spec.name = "" then ["name is required"] else []) ++
  (if spec.description = "" then ["description is required"] else []) ++
  (if spec.tasks.isEmpty then ["at least one task is required"] else []) ++
  taskProblems quote 0 [] spec.tasks

def validateSpec (order : List String) (spec : Spec) : Option String :=
  if specProblems quote spec = [] then validateDependencies quote order spec.tasks
  else some ("ralph: invalid spec: " ++ String.intercalate "; " (specProblems quote spec))

/-- Ids are all different, and properties pass along the dependencies to every task. -/
structure Valid : Prop where
  named : ∀ t ∈ tasks, t.id ≠ ""
  distinct : (ids tasks).Nodup
  known : ∀ t ∈ tasks, ∀ dep ∈ t.dependsOn, dep ∈ ids tasks
  founded : ∀ P : String → Prop, (∀ t ∈ tasks, (∀ dep ∈ t.dependsOn, P dep) → P t.id) → ∀ id ∈ ids tasks, P id

variable {tasks : List Task} {quote : Quote}

theorem taskProblems_eq_nil : ∀ {i : Nat} {seen : List String},
    taskProblems quote i seen tasks = [] ↔
      (∀ t ∈ tasks, t.id ≠ "" ∧ t.id ∉ seen) ∧ (∀ t ∈ tasks, t.description ≠ "") ∧ (ids tasks).Nodup := by
  induction tasks with
  | nil => intro i seen; simp [taskProblems,ids]
  | cons t rest ih =>
    intro i seen
    have own : ((if t.id = "" then ["task[" ++ toString i ++ "]: " ++ "id is required"] else []) ++
        (if t.description = "" then ["task[" ++ toString i ++ "]: " ++ "description is required"] else []) ++
        (if t.id ≠ "" ∧ t.id ∈ seen then ["task[" ++ toString i ++ "]: " ++ ("duplicate id " ++ quote t.id)] else []) = []) ↔
        (t.id ≠ "" ∧ t.id ∉ seen) ∧ t.description ≠ "" := by
      simp only [append_eq_nil_iff,ite_eq_right_iff,cons_ne_nil,imp_false]
      tauto
    rw [taskProblems,append_eq_nil_iff,own,ih,show ids (t :: rest) = t.id :: ids rest from rfl,nodup_cons]
    simp only [mem_cons,forall_eq_or_imp,not_or]
    constructor
    · rintro ⟨⟨first,described⟩,others,texts,nodup⟩
      refine ⟨⟨first,fun t' member => ⟨(others t' member).1,(others t' member).2.2⟩⟩,⟨described,texts⟩,fun inside => ?_,nodup⟩
      obtain ⟨t',member,same⟩ := mem_map.mp inside
      exact (others t' member).2.1 same
    · rintro ⟨⟨first,others⟩,⟨described,texts⟩,fresh,nodup⟩
      refine ⟨⟨first,described⟩,fun t' member => ⟨(others t' member).1,fun same => ?_,(others t' member).2⟩,texts,nodup⟩
      exact fresh (mem_map.mpr ⟨t',member,same⟩)

variable {t : Task}

theorem filter_id (distinct : (ids tasks).Nodup) (member : t ∈ tasks) : tasks.filter (·.id = t.id) = [t] := by
  induction tasks with
  | nil => cases member
  | cons t' rest ih =>
    rw [ids,map_cons,nodup_cons] at distinct
    rcases mem_cons.mp member with rfl | later
    · rw [filter_cons_of_pos (by simp),filter_eq_nil_iff.mpr]
      intro t' inside same
      exact distinct.1 (mem_map.mpr ⟨t',inside,by simpa using same⟩)
    · rw [filter_cons_of_neg,ih distinct.2 later]
      intro same
      exact distinct.1 (mem_map.mpr ⟨t,later,(by simpa using same : t'.id = t.id).symm⟩)

theorem count_dependents (tasks : List Task) (dep id : String) :
    (dependents tasks dep).count id = ((tasks.filter (·.id = id)).map fun t => t.dependsOn.count dep).sum := by
  induction tasks with
  | nil => rfl
  | cons t rest ih =>
    rw [dependents,flatMap_cons,count_append,← dependents,ih]
    have own : ((t.dependsOn.filter (· == dep)).map fun _ => t.id).count id = if t.id = id then t.dependsOn.count dep else 0 := by
      rw [map_const',count_replicate]
      by_cases same : t.id = id
      · simp [same,count_eq_length_filter]
      · simp [same]
    rw [own]
    by_cases same : t.id = id
    · simp [same]
    · simp [same]

theorem mem_dependents {dep id : String} (member : id ∈ dependents tasks dep) : id ∈ ids tasks := by
  obtain ⟨t,inside,there⟩ := mem_flatMap.mp member
  obtain ⟨-,-,rfl⟩ := mem_map.mp there
  exact mem_map.mpr ⟨t,inside,rfl⟩

def dependenciesOf (tasks : List Task) (id : String) : List String := (tasks.filter (·.id = id)).flatMap Task.dependsOn

theorem dependenciesOf_id (distinct : (ids tasks).Nodup) (member : t ∈ tasks) :
    dependenciesOf tasks t.id = t.dependsOn := by
  rw [dependenciesOf,filter_id distinct member]
  simp

def taskGraph (tasks : List Task) (distinct : (ids tasks).Nodup) : Graph String where
  nodes := ids tasks
  deps := dependenciesOf tasks
  dependents := dependents tasks
  nodup := distinct
  counts := by
    intro dep id node
    obtain ⟨t,member,rfl⟩ := List.mem_map.mp node
    rw [count_dependents,filter_id distinct member,dependenciesOf_id distinct member]
    simp
  inside := fun _ _ => mem_dependents

variable {order : List String}

theorem taskGraph_sound (distinct : (ids tasks).Nodup) (ordering : order.Perm (ids tasks).dedup) :
    Sound (taskGraph tasks distinct) ⟨inDegree tasks,order.filter fun id => inDegree tasks id = 0,[]⟩ := by
  rw [distinct.dedup] at ordering
  refine ⟨fun id node => ?_,?_,?_,fun id node => ?_,?_⟩
  · obtain ⟨t,member,rfl⟩ := mem_map.mp node
    simp only [taskGraph,dependenciesOf_id distinct member,inDegree,filter_id distinct member]
    simp
  · exact (ordering.nodup_iff.mpr distinct).filter _
  · intro id member
    exact ordering.mem_iff.mp (mem_of_mem_filter member)
  · simp only [nil_append,mem_filter,decide_eq_true_eq,and_iff_right_iff_imp]
    exact fun _ => ordering.mem_iff.mpr node
  · intro before id after same
    simp at same

theorem unknownDependency_none :
    unknownDependency tasks = none ↔ ∀ t ∈ tasks, ∀ dep ∈ t.dependsOn, dep ∈ ids tasks := by
  simp [unknownDependency,findSome?_eq_none_iff]

/-- Kahn's algorithm visits every task if and only if properties pass to every task. -/
theorem kahnVisited_all (distinct : (ids tasks).Nodup)
    (ordering : order.Perm (ids tasks).dedup) : (kahnVisited tasks order).length = tasks.length ↔
      ∀ P : String → Prop, (∀ t ∈ tasks, (∀ dep ∈ t.dependsOn, P dep) → P t.id) → ∀ id ∈ ids tasks, P id := by
  obtain ⟨sound,finished⟩ := run_sound tasks.length (taskGraph_sound distinct ordering) (by simp [taskGraph,ids])
  have size : (taskGraph tasks distinct).nodes.length = tasks.length := by simp [taskGraph,ids]
  constructor
  · intro all P passes id node
    have visited := sound.all_visited (by rw [size]; exact all)
    refine sound.ordered.induction (P := P) (fun id' member met => ?_) id (visited id node)
    obtain ⟨t,inside,rfl⟩ := mem_map.mp (sound.inside id' (mem_append_left _ member))
    refine passes t inside fun dep dependency => met dep ?_
    simpa only [taskGraph,dependenciesOf_id distinct inside] using dependency
  · intro founded
    rw [← size]
    refine sound.complete finished fun P passes => founded P fun t member met => ?_
    refine passes t.id (mem_map.mpr ⟨t,member,rfl⟩) fun dep dependency => met dep ?_
    simpa only [taskGraph,dependenciesOf_id distinct member] using dependency

theorem validateDependencies_none (distinct : (ids tasks).Nodup)
    (ordering : order.Perm (ids tasks).dedup) : validateDependencies quote order tasks = none ↔
      (∀ t ∈ tasks, ∀ dep ∈ t.dependsOn, dep ∈ ids tasks) ∧
      ∀ P : String → Prop, (∀ t ∈ tasks, (∀ dep ∈ t.dependsOn, P dep) → P t.id) → ∀ id ∈ ids tasks, P id := by
  rw [← unknownDependency_none,← kahnVisited_all distinct ordering]
  unfold validateDependencies
  split
  · rename_i id dep unknown
    simp [unknown]
  · rename_i known
    simp [known]

theorem accepted_iff {spec : Spec} (ordering : order.Perm (ids spec.tasks).dedup) :
    validateSpec quote order spec = none ↔
      spec.name ≠ "" ∧ spec.description ≠ "" ∧ spec.tasks ≠ [] ∧ (∀ t ∈ spec.tasks, t.description ≠ "") ∧
      Valid spec.tasks := by
  have problems : specProblems quote spec = [] ↔ spec.name ≠ "" ∧ spec.description ≠ "" ∧ spec.tasks ≠ [] ∧
      (∀ t ∈ spec.tasks, t.id ≠ "") ∧ (∀ t ∈ spec.tasks, t.description ≠ "") ∧ (ids spec.tasks).Nodup := by
    simp only [specProblems,append_eq_nil_iff,taskProblems_eq_nil,ite_eq_right_iff,cons_ne_nil,imp_false,
      List.isEmpty_iff,List.not_mem_nil,not_false_eq_true,and_true,and_assoc,ne_eq]
  unfold validateSpec
  split
  · rename_i empty
    obtain ⟨name,description,some_,named,described,distinct⟩ := problems.mp empty
    rw [validateDependencies_none distinct ordering]
    constructor
    · rintro ⟨known,founded⟩
      exact ⟨name,description,some_,described,named,distinct,known,founded⟩
    · rintro ⟨-,-,-,-,valid⟩
      exact ⟨valid.known,valid.founded⟩
  · rename_i wrong
    refine ⟨nofun,fun ⟨name,description,some_,described,valid⟩ => ?_⟩
    exact absurd (problems.mpr ⟨name,description,some_,valid.named,described,valid.distinct⟩) wrong

theorem valid_of_accepted {spec : Spec}
    (ordering : order.Perm (ids spec.tasks).dedup) (accepted : validateSpec quote order spec = none) : Valid spec.tasks :=
  ((accepted_iff ordering).mp accepted).2.2.2.2

/-! ### Completing ready tasks -/

theorem mem_readyTasks {completed : List String} {id : String} : id ∈ readyTasks tasks completed ↔
      ∃ t ∈ tasks, t.id = id ∧ t.done = false ∧ t.id ∉ completed ∧ ∀ dep ∈ t.dependsOn, dep ∈ completed := by
  simp only [readyTasks,Task.allMet,mem_map,mem_filter,Bool.and_eq_true,Bool.not_eq_true',Bool.or_eq_false_iff,
    decide_eq_false_iff_not,all_eq_true,decide_eq_true_eq]
  constructor
  · rintro ⟨t,⟨member,⟨waiting,missing⟩,met⟩,rfl⟩
    exact ⟨t,member,rfl,waiting,missing,met⟩
  · rintro ⟨t,member,rfl,waiting,missing,met⟩
    exact ⟨t,⟨member,⟨waiting,missing⟩,met⟩,rfl⟩

def markReady (tasks : List Task) (completed : List String) (id : String) : Option (List String) :=
  if id ∈ readyTasks tasks completed then some (completed ++ [id]) else none

def exitGate (tasks : List Task) (completed : List String) : Bool := tasks.all (·.id ∈ completed)

def Depends (tasks : List Task) (id dep : String) : Prop := ∃ t ∈ tasks, t.id = id ∧ dep ∈ t.dependsOn

theorem Depends.mem_ids {id dep : String} (depends : Depends tasks id dep) : id ∈ ids tasks := by
  obtain ⟨t,member,same,-⟩ := depends
  exact mem_map.mpr ⟨t,member,same⟩

theorem acyclic_of_founded (distinct : (ids tasks).Nodup)
    (founded : ∀ P : String → Prop, (∀ t ∈ tasks, (∀ dep ∈ t.dependsOn, P dep) → P t.id) → ∀ id ∈ ids tasks, P id)
    (id : String) : ¬ Relation.TransGen (Depends tasks) id id := by
  have accessible : ∀ id ∈ ids tasks, Acc (fun dep id => Depends tasks id dep) id := by
    refine founded _ fun t member earlier => ⟨_,?_⟩
    rintro dep ⟨t',member',same,dependency⟩
    obtain rfl := inj_on_of_nodup_map distinct member' member same
    exact earlier dep dependency
  intro cycle
  obtain ⟨dep,first,-⟩ := Relation.TransGen.head'_iff.mp cycle
  have all : Acc (Relation.TransGen fun dep id => Depends tasks id dep) id := (accessible id first.mem_ids).transGen
  have turned : Relation.TransGen (fun dep id => Depends tasks id dep) id id := Relation.transGen_swap.mpr cycle
  -- a node on a cycle has itself below it
  clear accessible cycle first
  induction all with
  | intro id _ ih => exact ih id turned turned

theorem Valid.acyclic (valid : Valid tasks) (id : String) : ¬ Relation.TransGen (Depends tasks) id id :=
  acyclic_of_founded valid.distinct valid.founded id

/-- Dependencies are accepted if and only if they are all known and none leads back to where it
    came from, in whatever order the map gives its keys. -/
theorem validateDependencies_iff (quote : Quote) (tasks : List Task) (distinct : (ids tasks).Nodup) (order : List String)
    (ordering : order.Perm (ids tasks)) : validateDependencies quote order tasks = none ↔
      (∀ t ∈ tasks, ∀ dep ∈ t.dependsOn, dep ∈ ids tasks) ∧ ∀ id, ¬ Relation.TransGen (Depends tasks) id id := by
  rw [validateDependencies_none distinct (by rwa [distinct.dedup]),and_congr_right_iff]
  intro known
  constructor
  · exact fun founded => acyclic_of_founded distinct founded
  · intro acyclic P passes
    refine acyclic_induction acyclic fun id node later => ?_
    obtain ⟨t,member,rfl⟩ := mem_map.mp node
    exact passes t member fun dep dependency => later dep (known t member dep dependency) ⟨t,member,rfl,dependency⟩

theorem validateDependencies_repeated :
    ¬ ∃ id, Relation.TransGen (Depends [⟨"a","",false,["b","b"]⟩,⟨"b","",false,[]⟩]) id id :=
  not_exists.mpr ((validateDependencies_iff id [⟨"a","",false,["b","b"]⟩,⟨"b","",false,[]⟩] (by decide) ["b","a"]
    (by decide)).mp (by decide)).2

/-- The task, or one that it depends on directly or indirectly, is done in the specification. -/
def Held (tasks : List Task) (id : String) : Prop :=
  ∃ dep, Relation.ReflTransGen (Depends tasks) id dep ∧ ∃ t ∈ tasks, t.id = dep ∧ t.done

variable {tasks : List Task} {completed : List String}

theorem held_of_done (member : t ∈ tasks) (done : t.done) : Held tasks t.id := ⟨t.id,.refl,t,member,rfl,done⟩

theorem held_of_dependency {dep : String} (member : t ∈ tasks) (dependency : dep ∈ t.dependsOn)
    (held : Held tasks dep) : Held tasks t.id := by
  obtain ⟨last,path,done⟩ := held
  exact ⟨last,.head ⟨t,member,rfl,dependency⟩ path,done⟩

section
variable (valid : Valid tasks)
include valid

theorem Held.cases (member : t ∈ tasks) (held : Held tasks t.id) : t.done ∨ ∃ dep ∈ t.dependsOn, Held tasks dep := by
  obtain ⟨last,path,t',member',same,done⟩ := held
  rcases Relation.ReflTransGen.cases_head path with own | ⟨dep,⟨t'',member'',same',dependency⟩,rest⟩
  · cases inj_on_of_nodup_map valid.distinct member' member (same.trans own.symm)
    exact .inl done
  · cases inj_on_of_nodup_map valid.distinct member'' member same'
    exact .inr ⟨dep,dependency,last,rest,t',member',same,done⟩

structure Earned (tasks : List Task) (completed : List String) : Prop where
  nodup : completed.Nodup
  known : ∀ id ∈ completed, id ∈ ids tasks
  free : ∀ id ∈ completed, ¬ Held tasks id

theorem Earned.mark {id : String} {completed' : List String} (earned : Earned tasks completed)
    (marked : markReady tasks completed id = some completed') : Earned tasks completed' := by
  rw [markReady,Option.ite_none_right_eq_some] at marked
  obtain ⟨ready,same⟩ := marked
  cases same
  obtain ⟨t,member,rfl,waiting,missing,met⟩ := mem_readyTasks.mp ready
  refine ⟨earned.nodup.append (nodup_singleton _) (by simpa using missing),?_,?_⟩
  · exact forall_mem_snoc earned.known (mem_map.mpr ⟨t,member,rfl⟩)
  · refine forall_mem_snoc earned.free fun held => ?_
    rcases held.cases valid member with done | ⟨dep,dependency,heldDep⟩
    · rw [waiting] at done
      cases done
    · exact earned.free dep (met dep dependency) heldDep

theorem earned_of_reachable (reached : Reachable (markReady tasks) free [] completed) : Earned tasks completed :=
  reached.invariant ⟨nodup_nil,by simp,by simp⟩ fun _ _ _ earned _ marked => earned.mark valid marked

/-- By induction along the dependencies: when no task is ready, one that nothing holds is completed. -/
theorem completed_of_none_ready (none : readyTasks tasks completed = []) :
    ∀ id ∈ ids tasks, ¬ Held tasks id → id ∈ completed := by
  refine valid.founded _ fun t member earlier free => ?_
  by_contra missing
  have waiting : t.done = false := by
    rw [Bool.eq_false_iff]
    exact fun done => free (held_of_done member done)
  have ready : t.id ∈ readyTasks tasks completed := by
    refine mem_readyTasks.mpr ⟨t,member,rfl,waiting,missing,fun dep dependency => ?_⟩
    exact earlier dep dependency fun held => free (held_of_dependency member dependency held)
  rw [none] at ready
  cases ready

end

/-- Marking ready tasks one after another goes on until exactly the tasks are completed that are not done in the
    specification and depend on none that is. -/
theorem ready_tasks_suffice (quote : Quote) (order : List String) (spec : Spec)
    (ordering : order.Perm (ids spec.tasks).dedup) (accepted : validateSpec quote order spec = none)
    {completed : List String} (reached : Reachable (markReady spec.tasks) free [] completed) :
    ((∃ t ∈ spec.tasks, t.id ∉ completed ∧ ¬ Held spec.tasks t.id) → readyTasks spec.tasks completed ≠ []) ∧
    completed.length ≤ spec.tasks.length ∧
    (readyTasks spec.tasks completed = [] →
      (∀ t ∈ spec.tasks, t.id ∈ completed ↔ ¬ Held spec.tasks t.id) ∧
      (exitGate spec.tasks completed ↔ ∀ t ∈ spec.tasks, t.done = false)) := by
  have valid := valid_of_accepted ordering accepted
  have earned := earned_of_reachable valid reached
  have all : readyTasks spec.tasks completed = [] →
      ∀ id ∈ ids spec.tasks, ¬ Held spec.tasks id → id ∈ completed := completed_of_none_ready valid
  refine ⟨?_,?_,fun none => ⟨fun t member => ?_,?_⟩⟩
  · rintro ⟨t,member,missing,free⟩ none
    exact missing (all none t.id (mem_map.mpr ⟨t,member,rfl⟩) free)
  · have within := (subperm_of_subset earned.nodup earned.known).length_le
    simpa [ids] using within
  · exact ⟨earned.free t.id,all none t.id (mem_map.mpr ⟨t,member,rfl⟩)⟩
  · simp only [exitGate,all_eq_true,decide_eq_true_eq]
    constructor
    · intro accepts t member
      rw [Bool.eq_false_iff]
      exact fun done => earned.free t.id (accepts t member) (held_of_done member done)
    · intro undone t member
      refine all none t.id (mem_map.mpr ⟨t,member,rfl⟩) ?_
      rintro ⟨dep,-,t',member',-,done⟩
      rw [undone t' member'] at done
      cases done

def chainSpec : Spec := ⟨"chain","Two tasks",[⟨"t1","first",false,[]⟩,⟨"t2","second",false,["t1"]⟩]⟩

theorem ready_tasks_suffice_sample :
    validateSpec id ["t1","t2"] chainSpec = none ∧ readyTasks chainSpec.tasks ["t1","t2"] = [] ∧
    (exitGate chainSpec.tasks ["t1","t2"] ↔ ∀ t ∈ chainSpec.tasks, t.done = false) := by
  have accepted : validateSpec id ["t1","t2"] chainSpec = none := by decide
  have reached : Reachable (markReady chainSpec.tasks) free [] ["t1","t2"] :=
    exec_reachable ["t1","t2"] .start (by decide)
  have none : readyTasks chainSpec.tasks ["t1","t2"] = [] := by decide
  have suffice := ready_tasks_suffice id ["t1","t2"] chainSpec (by decide) accepted reached
  exact ⟨accepted,none,(suffice.2.2 none).2⟩

/-- A task that depends on a done one is never ready, and the exit gate never accepts. -/
theorem done_dependency_blocks :
    let spec : Spec := ⟨"chain","Two tasks",[⟨"t1","first",true,[]⟩,⟨"t2","second",false,["t1"]⟩]⟩
    validateSpec id ["t1","t2"] spec = none ∧ (∃ t ∈ spec.tasks, t.done = false ∧ t.id ∉ []) ∧
    readyTasks spec.tasks [] = [] ∧ exitGate spec.tasks [] = false ∧
    -- and without the second task, nothing is left to complete
    exitGate (spec.tasks.take 1) [] = false := by
  decide

end Mcpkit.RalphSpec
