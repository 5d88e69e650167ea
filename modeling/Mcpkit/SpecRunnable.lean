import Mathlib.Data.List.Sort
import Mcpkit.CandidateChains

/-!
When synthesized specifications can be run. Those made of a plan have no cycle, and their
verification depends on every task; they fail if two task ids or an empty description come out of
the plan.
-/
namespace Mcpkit.SpecRunnable
open ToolResults RalphSpec SpecSynthesis CandidateChains List Option

/-! ### Specifications from plans -/

def planSpecTasks (tasks : List Task) : List Task :=
  [⟨"scan","Run rdcycle_scan to check ecosystem activity.",false,[]⟩,
    ⟨"plan","Run rdcycle_plan with scan results.",false,["scan"]⟩] ++
  tasks ++
  [⟨"verify","Run rdcycle_verify to execute make check. Fix issues and re-verify if needed.",false,ids tasks⟩,
    ⟨"reflect",
      "Record improvement notes using rdcycle_notes: what worked, what failed, wasted iterations, cost, and suggestions.",
      false,["verify"]⟩,
    ⟨"report","Run rdcycle_report to generate research reports. Run rdcycle_commit to save changes.",false,["reflect"]⟩,
    ⟨"schedule","Run rdcycle_schedule to write the next cycle's spec.",false,["report"]⟩]

/-- A task that can stand between the plan and the verification. -/
structure Between (t : Task) : Prop where
  named : t.id ≠ ""
  unreserved : t.id ∉ planScaffolding
  planned : t.dependsOn = ["plan"]

section
variable {tasks : List Task}

attribute [local simp] planSpecTasks

theorem ids_planSpecTasks :
    ids (planSpecTasks tasks) = ["scan","plan"] ++ ids tasks ++ ["verify","reflect","report","schedule"] := by
  simp [ids]

theorem planSpecTasks_distinct (between : ∀ t ∈ tasks, Between t) :
    (ids (planSpecTasks tasks)).Nodup ↔ (ids tasks).Nodup := by
  have free : ∀ id ∈ ids tasks, id ∉ planScaffolding := by
    intro id inside
    obtain ⟨t,member,rfl⟩ := mem_map.mp inside
    exact (between t member).unreserved
  rw [ids_planSpecTasks]
  constructor
  · intro distinct
    exact (nodup_append.mp (nodup_append.mp distinct).1).2.1
  · intro distinct
    exact nodup_between distinct (by decide) free

theorem forall_planSpecTasks {p : Task → Prop} : (∀ t ∈ planSpecTasks tasks, p t) ↔
    (∀ t ∈ planSpecTasks [], t.id ≠ "verify" → p t) ∧ (∀ t ∈ tasks, p t) ∧
      p ⟨"verify","Run rdcycle_verify to execute make check. Fix issues and re-verify if needed.",false,ids tasks⟩ := by
  simp [or_imp,forall_and]
  tauto

theorem planSpecTasks_valid (between : ∀ t ∈ tasks, Between t) (distinct : (ids tasks).Nodup) :
    Valid (planSpecTasks tasks) where
  named := forall_planSpecTasks.mpr ⟨by simp,fun t member => (between t member).named,by simp⟩
  distinct := (planSpecTasks_distinct between).mpr distinct
  known := by
    rw [ids_planSpecTasks]
    refine forall_planSpecTasks.mpr ⟨by simp,fun t member => ?_,fun dep inside => by simp_all⟩
    simp [(between t member).planned]
  founded P passes := by
    obtain ⟨framing,inner,verify⟩ := forall_planSpecTasks.mp passes
    obtain ⟨scan,plan,reflect,report,schedule⟩ : P "scan" ∧ (P "scan" → P "plan") ∧ (P "verify" → P "reflect") ∧
        (P "reflect" → P "report") ∧ (P "report" → P "schedule") := by
      simpa using framing
    have planned : ∀ id ∈ ids tasks, P id := by
      intro id inside
      obtain ⟨t,member,rfl⟩ := mem_map.mp inside
      exact inner t member (by simpa [(between t member).planned] using plan scan)
    have verified : P "verify" := verify planned
    intro id inside
    rw [ids_planSpecTasks] at inside
    simp only [mem_append,mem_cons,not_mem_nil,or_false] at inside
    rcases inside with ((rfl | rfl) | inside) | rfl | rfl | rfl | rfl
    · exact scan
    · exact plan scan
    · exact planned id inside
    · exact verified
    · exact reflect verified
    · exact report (reflect verified)
    · exact schedule (report (reflect verified))

theorem plan_runnable_iff (between : ∀ t ∈ tasks, Between t) (quote : Quote) {name description : String}
    (some_ : name ≠ "") (text : description ≠ "") : Runnable quote planScaffolding ⟨name,description,planSpecTasks tasks⟩ ↔
      (ids tasks).Nodup ∧ ∀ t ∈ tasks, t.description ≠ "" := by
  constructor
  · intro runnable
    obtain ⟨-,-,-,described,valid⟩ := (accepted_iff (List.Perm.refl _)).mp (runnable.accepted _ (List.Perm.refl _))
    refine ⟨(planSpecTasks_distinct between).mp valid.distinct,fun t member => described t ?_⟩
    simp [member]
  · rintro ⟨distinct,described⟩
    refine ⟨fun order ordering => (accepted_iff ordering).mpr ⟨some_,text,?_,?_,planSpecTasks_valid between distinct⟩,?_⟩
    · simp
    · exact forall_planSpecTasks.mpr ⟨by simp,described,by simp⟩
    · intro t member unreserved
      have inside : t.id ∈ ids (planSpecTasks tasks) := mem_map.mpr ⟨t,member,rfl⟩
      rw [ids_planSpecTasks] at inside
      have inner : t.id ∈ ids tasks := by
        simp only [planScaffolding,mem_append,mem_cons,not_mem_nil,or_false] at inside unreserved
        tauto
      exact .single (by simp [depends_append,depends_cons,inner])

end

/-! ### The tasks of a plan -/

theorem mem_investigations {suggestions : List String} {t : Task} :
    t ∈ suggestions.zipIdx.filterMap (fun (text,i) => investigateTask text i) ↔
      ∃ i text, suggestions[i]? = some text ∧ investigateTask text i = some t := by
  simp only [mem_filterMap,Prod.exists,mem_zipIdx_iff_getElem?]
  exact exists_comm

theorem implement_ne_investigate (text : String) (i : Nat) : "implement_" ++ text ≠ "investigate_" ++ toString i := by
  intro same
  have letters := congrArg (fun s : String => s.toList.take 2) same
  simp [String.toList_append] at letters

theorem unreserved_of_letter {id : String} (letter : id.toList.head? = some 'i') : id ≠ "" ∧ id ∉ planScaffolding := by
  constructor
  · rintro rfl
    cases letter
  · intro reserved
    have other : ∀ id ∈ planScaffolding, id.toList.head? ≠ some 'i' := by decide
    exact other id reserved letter

variable (lower : Char → Char) (plan : PlanOutput)

theorem between_implementTasks : ∀ t ∈ implementTasks lower plan, Between t := by
  have own : ∀ t : Task, t.id.toList.head? = some 'i' → t.dependsOn = ["plan"] → Between t := fun t letter planned =>
    ⟨(unreserved_of_letter letter).1,(unreserved_of_letter letter).2,planned⟩
  intro t member
  unfold implementTasks at member
  split at member
  · obtain rfl := mem_singleton.mp member
    exact own _ (by decide) rfl
  · rcases mem_append.mp member with ready | investigation
    · obtain ⟨item,-,rfl⟩ := mem_map.mp ready
      exact own _ (by simp [implementTask,String.toList_append]) rfl
    · obtain ⟨i,text,-,is⟩ := mem_investigations.mp investigation
      unfold investigateTask at is
      split at is
      · cases is
        exact own _ (by simp [String.toList_append]) rfl
      · cases is

theorem investigations_distinct (suggestions : List String) :
    (ids (suggestions.zipIdx.filterMap (fun (text,i) => investigateTask text i))).Nodup := by
  have indices : suggestions.zipIdx.Pairwise (fun a b => a.2 ≠ b.2) := by
    refine pairwise_map.mp ?_
    rw [zipIdx_map_snd]
    exact nodup_range' 1
  refine pairwise_map.mpr (pairwise_filterMap.mpr (indices.imp ?_))
  rintro ⟨text,i⟩ ⟨text',i'⟩ differ t is t' is' same
  simp only [investigateTask,ite_none_right_eq_some,some.injEq] at is is'
  obtain ⟨-,rfl⟩ := is
  obtain ⟨-,rfl⟩ := is'
  have numbers := congrArg String.toList ((String.append_right_inj _).mp same)
  rw [Nat.toString_eq_repr,Nat.toString_eq_repr,Nat.toList_repr,Nat.toList_repr] at numbers
  exact differ (by simpa using congrArg (fun digits => Nat.ofDigitChars 10 digits 0) numbers)

theorem dynamicTasks_distinct :
    (ids (dynamicTasks lower plan)).Nodup ↔ (plan.readyItems.map (fun item => sanitizeTaskID lower item.id)).Nodup := by
  have ready : ids (plan.readyItems.map (implementTask lower)) =
      (plan.readyItems.map (fun item => sanitizeTaskID lower item.id)).map ("implement_" ++ ·) := by
    simp [ids,implementTask]
  have injective : Function.Injective ("implement_" ++ ·) := fun _ _ same => (String.append_right_inj _).mp same
  have split : ids (dynamicTasks lower plan) = ids (plan.readyItems.map (implementTask lower)) ++
      ids (plan.suggestions.zipIdx.filterMap (fun (text,i) => investigateTask text i)) := by
    simp only [dynamicTasks,ids,map_append]
  rw [split,nodup_append,ready,nodup_map_iff injective]
  refine ⟨fun all => all.1,fun distinct => ⟨distinct,investigations_distinct _,?_⟩⟩
  rintro id implementing id' investigating rfl
  obtain ⟨text,-,rfl⟩ := mem_map.mp implementing
  obtain ⟨t,investigation,same⟩ := mem_map.mp investigating
  obtain ⟨i,text',-,is⟩ := mem_investigations.mp investigation
  simp only [investigateTask,ite_none_right_eq_some,some.injEq] at is
  obtain ⟨-,rfl⟩ := is
  exact implement_ne_investigate text i same.symm

theorem dynamicTasks_described : (∀ t ∈ dynamicTasks lower plan, t.description ≠ "") ↔ signal ∉ plan.suggestions := by
  constructor
  · intro described inside
    obtain ⟨i,is⟩ := getElem?_of_mem inside
    have task : investigateTask signal i = some ⟨"investigate_" ++ toString i,"",false,["plan"]⟩ := by
      simp [investigateTask]
    refine described _ (mem_append_right _ (mem_investigations.mpr ⟨i,signal,is,task⟩)) rfl
  · intro other t member
    rcases mem_append.mp member with ready | investigation
    · obtain ⟨item,-,rfl⟩ := mem_map.mp ready
      exact append_ne_empty _ (append_ne_empty _ (append_ne_empty _ (append_ne_empty _ (by decide))))
    · obtain ⟨i,text,inside,is⟩ := mem_investigations.mp investigation
      simp only [investigateTask,ite_none_right_eq_some,some.injEq] at is
      obtain ⟨⟨rest,starts⟩,rfl⟩ := is
      intro empty
      have nothing : rest = [] := by simpa [← starts] using congrArg String.toList empty
      rw [nothing,append_nil,String.toList_inj] at starts
      exact other (mem_of_getElem? (starts ▸ inside))

theorem implementTasks_iff :
    ((ids (implementTasks lower plan)).Nodup ∧ ∀ t ∈ implementTasks lower plan, t.description ≠ "") ↔
      (plan.readyItems.map (fun item => sanitizeTaskID lower item.id)).Nodup ∧ signal ∉ plan.suggestions := by
  rw [← dynamicTasks_distinct,← dynamicTasks_described lower]
  unfold implementTasks
  split
  · rename_i none
    simp [none,ids]
  · exact Iff.rfl

/-! ### When synthesized specifications are runnable -/

theorem synthesized_runnable_iff (lower : Char → Char) (sort : List CandidateTask → List CandidateTask)
    (sinceDate costTrend : String) (cfg : SynthesisConfig) (notes : List ImprovementNote)
    (fetched : List (Except String (List CandidateTask))) (plan : PlanOutput) (cycleName : String) (lessons : List String)
    (quote : Quote) :
    (Sorts sort → cfg.cycleName ≠ "" → Eligible (collect fetched) →
      ∃ spec, synthesize lower sort sinceDate costTrend cfg notes fetched = .ok spec ∧
        (Runnable quote scaffolding spec ↔ Chained cfg.strategy (choose lower sort cfg notes (collect fetched)))) ∧
    (cycleName ≠ "" → (plan.readyItems.map WorkItem.id).Nodup →
      ∃ spec, synthesizeSpec lower quote plan cycleName lessons = .ok spec ∧
        (Runnable quote planScaffolding spec ↔
          (plan.readyItems.map (fun item => sanitizeTaskID lower item.id)).Nodup ∧ signal ∉ plan.suggestions)) := by
  constructor
  · intro sorts some_ eligible
    exact ⟨_,if_neg some_,runnable_iff_chained (choose_fit sorts eligible lower cfg notes) quote _ _⟩
  · intro some_ _
    refine ⟨_,if_neg some_,?_⟩
    rw [← implementTasks_iff]
    refine plan_runnable_iff (between_implementTasks lower plan) quote (append_ne_empty _ (by decide)) ?_
    exact append_ne_empty _ (append_ne_empty _ (append_ne_empty _ (append_ne_empty _ (by decide))))

/-! ### Samples -/

def byPriority : List CandidateTask → List CandidateTask := List.insertionSort (fun a b => a.priority ≤ b.priority)

theorem byPriority_sorts : Sorts byPriority := by
  have total : Std.Total fun a b : CandidateTask => a.priority ≤ b.priority :=
    ⟨fun a b => Int.le_total a.priority b.priority⟩
  have trans : IsTrans CandidateTask fun a b => a.priority ≤ b.priority := ⟨fun _ _ _ => Int.le_trans⟩
  exact fun l => ⟨perm_insertionSort _ l,pairwise_insertionSort _ l⟩

theorem acyclic_of_sides {α : Type} {r : α → α → Prop} {p : α → Prop} (sides : ∀ x y, r x y → ¬ p x ∧ p y) (x : α) :
    ¬ Relation.TransGen r x x := by
  intro cycle
  obtain ⟨y,first,-⟩ := Relation.TransGen.head'_iff.mp cycle
  obtain ⟨z,-,last⟩ := Relation.TransGen.tail'_iff.mp cycle
  exact (sides x y first).1 (sides z x last).2

variable {candidates : List CandidateTask}

theorem names_acyclic (root : String)
    (sides : ∀ c ∈ candidates, ∀ dep ∈ c.dependsOn, c.id ≠ root ∧ dep = root) (id : String) :
    ¬ Relation.TransGen (Names candidates) id id := by
  refine acyclic_of_sides (p := (· = root)) ?_ id
  rintro x y ⟨c,member,rfl,dependency,-⟩
  exact sides c member y dependency

def task (id : String) (source : Source) (priority : Int) (dependsOn : List String) : CandidateTask :=
  ⟨id,"Do " ++ id,source,priority,dependsOn,.simple⟩

variable (strategy : CycleStrategy)

def config : SynthesisConfig := ⟨"c","ROADMAP.md",strategy,0⟩

def synthesized (candidates : List CandidateTask) : Except String Spec :=
  synthesize (fun c => c) byPriority "2026-01-01" "stable" (config strategy) [] [.ok candidates]

def two : List CandidateTask := [task "a" .scaffold 1 [],task "b" .scaffold 2 []]

theorem two_chained : Chained .full two := by
  refine ⟨.inl rfl,by decide,acyclic_of_sides (p := (· = "a")) ?_,?_⟩
  · rintro x y ⟨c,member,rfl,dependency | ⟨-,b,⟨before,after,split⟩,rfl⟩⟩
    · have none : ∀ c ∈ two, c.dependsOn = [] := by decide
      rw [none c member] at dependency
      cases dependency
    · have first : before = [] := by
        have size := congrArg length split
        simp only [two,length_append,length_cons,length_nil] at size
        exact eq_nil_of_length_eq_zero (by omega)
      subst first
      cases split
      decide
  · intro c member
    rcases mem_cons.mp member with rfl | last
    · exact .inr ⟨"b",_,mem_cons_of_mem _ mem_cons_self,rfl,.inr ⟨rfl,_,⟨[],[],rfl⟩,rfl⟩⟩
    · obtain rfl := mem_singleton.mp last
      exact .inl rfl

def onePlan : PlanOutput := ⟨none,[⟨"a b","one","",false,[],.high⟩],[signal ++ "new release"]⟩

/-- Two candidates that name no dependency are done one after the other, and a plan is carried out. -/
theorem synthesized_runnable_two : (∃ spec, synthesized .full two = .ok spec ∧ Runnable (fun s => s) scaffolding spec) ∧
    ∃ spec, synthesizeSpec (fun c => c) (fun s => s) onePlan "c" [] = .ok spec ∧
      Runnable (fun s => s) planScaffolding spec := by
  obtain ⟨adaptive,planned⟩ := synthesized_runnable_iff (fun c => c) byPriority "2026-01-01" "stable" (config .full) []
    [.ok two] onePlan "c" [] (fun s => s)
  obtain ⟨spec,is,iff⟩ := adaptive byPriority_sorts (by decide)
    ⟨by decide,by decide,by decide,by decide,by decide,names_acyclic "a" (by decide)⟩
  obtain ⟨spec',is',iff'⟩ := planned (by decide) (by decide)
  exact ⟨⟨spec,is,iff.mpr two_chained⟩,spec',is',iff'.mpr ⟨by decide,by decide⟩⟩

def unplanned : List CandidateTask := [task "a" .improvement 1 []]

def fork : List CandidateTask := [task "a" .scaffold 1 [],task "b" .scaffold 2 ["a"],task "c" .scaffold 3 ["a"]]

def roadmap : List Phase :=
  [⟨"p",false,[⟨"a","first","",true,[],.high⟩,⟨"b","second","",false,["a"],.high⟩]⟩]

def twins : PlanOutput := ⟨none,[⟨"a b","one","",false,[],.high⟩,⟨"a_b","other","",false,[],.high⟩],[]⟩

theorem not_runnable {strategy : CycleStrategy} (eligible : Eligible candidates)
    (chosen : choose (fun c => c) byPriority (config strategy) [] (collect [.ok candidates]) = candidates)
    (unchained : ¬ Chained strategy candidates) :
    ∃ spec, synthesized strategy candidates = .ok spec ∧ ¬ Runnable (fun s => s) scaffolding spec := by
  refine ⟨_,rfl,fun runnable => unchained ?_⟩
  rw [chosen] at runnable
  exact (runnable_iff_chained (fit_of_subperm eligible (List.Subperm.refl _)) _ _ _).mp runnable

theorem fork_unchained : ¬ Chained .full fork := by
  intro chained
  rcases chained.followed (task "b" .scaffold 2 ["a"]) (by decide) with
    last | ⟨id,c,member,-,dependency | ⟨none,b,⟨before,after,split⟩,-⟩⟩
  · revert last
    decide
  · have named : ∀ c ∈ fork, "b" ∉ c.dependsOn := by decide
    exact named c member dependency
  · have later : c ∈ fork.tail := by
      rw [split]
      cases before <;> simp
    have named : ∀ c ∈ fork.tail, c.dependsOn ≠ [] := by decide
    exact named c later none

/-- A task depends on a plan that is not there, one on a complete item, the verification of the fork misses one
    side, and the twins have one id. -/
theorem synthesized_not_runnable : (Eligible unplanned ∧
      ∃ spec, synthesized .metaImprove unplanned = .ok spec ∧ ¬ Runnable (fun s => s) scaffolding spec) ∧
    (Eligible (fetchRoadmap roadmap) ∧
      ∃ spec, synthesized .full (fetchRoadmap roadmap) = .ok spec ∧ ¬ Runnable (fun s => s) scaffolding spec) ∧
    (Eligible fork ∧ ∃ spec, synthesized .full fork = .ok spec ∧ ¬ Runnable (fun s => s) scaffolding spec) ∧
    ((twins.readyItems.map WorkItem.id).Nodup ∧
      ∃ spec, synthesizeSpec (fun c => c) (fun s => s) twins "c" [] = .ok spec ∧
        ¬ Runnable (fun s => s) planScaffolding spec) := by
  have eligible₁ : Eligible unplanned :=
    ⟨by decide,by decide,by decide,by decide,by decide,names_acyclic "a" (by decide)⟩
  have eligible₂ : Eligible (fetchRoadmap roadmap) :=
    ⟨by decide,by decide,by decide,by decide,by decide,names_acyclic "a" (by decide)⟩
  have eligible₃ : Eligible fork :=
    ⟨by decide,by decide,by decide,by decide,by decide,names_acyclic "a" (by decide)⟩
  refine ⟨⟨eligible₁,not_runnable eligible₁ rfl fun chained => ?_⟩,
    ⟨eligible₂,not_runnable eligible₂ rfl fun chained => ?_⟩,⟨eligible₃,not_runnable eligible₃ rfl fork_unchained⟩,
    by decide,_,if_neg (by decide),fun runnable => ?_⟩
  · exact absurd chained.planned (by decide)
  · exact absurd chained.known (by decide)
  · have one := (valid_of_accepted (List.Perm.refl _) (runnable.accepted _ (List.Perm.refl _))).distinct
    revert one
    decide

end Mcpkit.SpecRunnable
