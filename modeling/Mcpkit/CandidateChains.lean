import Mcpkit.SpecSynthesis

/-!
When a specification built from candidates can be run. Its tasks depend on each other as the
candidates need each other, the first of them needs the plan, and the verification only needs the
last one.
-/
namespace Mcpkit.CandidateChains
open ToolResults RalphSpec SpecSynthesis Kahn List

theorem append_ne_empty {a : String} (b : String) (text : a ≠ "") : a ++ b ≠ "" := by
  intro empty
  rw [String.append_eq_empty_iff] at empty
  exact text empty.1

/-! ### The chosen candidates -/

structure Fit (l : List CandidateTask) : Prop where
  named : ∀ c ∈ l, c.id ≠ ""
  described : ∀ c ∈ l, c.description ≠ ""
  distinct : (l.map CandidateTask.id).Nodup
  unreserved : ∀ c ∈ l, c.id ∉ scaffolding

variable {sort : List CandidateTask → List CandidateTask}

theorem kept_of_choice (lower : Char → Char) (sorts : Sorts sort)
    (cfg : SynthesisConfig) (patterns : List String) (candidates : List CandidateTask) : List.Subperm
      (truncate cfg.maxTasks (sort (filterByStrategy cfg.strategy (filterAvoidPatterns lower patterns candidates))))
      candidates := by
  have some_ : List.Subperm (filterByStrategy cfg.strategy (filterAvoidPatterns lower patterns candidates)) candidates :=
    ((filter_sublist ..).trans (filter_sublist ..)).subperm
  refine List.Subperm.trans ?_ ((sorts _).1.subperm.trans some_)
  unfold truncate
  split
  · exact (take_sublist ..).subperm
  · exact List.Subperm.refl _

variable {l : List CandidateTask} {candidates : List CandidateTask}

theorem fit_of_subperm (eligible : Eligible candidates)
    (within : l.Subperm candidates) : Fit l where
  named c member := eligible.named c (within.subset member)
  described c member := eligible.described c (within.subset member)
  distinct := by
    obtain ⟨l',perm,sub⟩ := within
    exact (perm.map _).nodup_iff.mp (eligible.distinct.sublist (sub.map _))
  unreserved c member := eligible.unreserved c (within.subset member)

theorem mem_addVerify {taskID : String} {x : CandidateTask} :
    x ∈ applyMutation l (.addVerify taskID) ↔ x ∈ l ∨ ∃ c ∈ l, c.id = taskID ∧ x = preVerify c := by
  simp only [applyMutation,mem_flatMap]
  constructor
  · rintro ⟨c,member,inside⟩
    split at inside
    · rename_i is
      rcases mem_cons.mp inside with rfl | rest
      · exact .inl member
      · exact .inr ⟨c,member,is,mem_singleton.mp rest⟩
    · exact .inl (mem_singleton.mp inside ▸ member)
  · rintro (member | ⟨c,member,is,rfl⟩)
    · refine ⟨x,member,?_⟩
      split <;> simp
    · exact ⟨c,member,by simp [is]⟩

theorem addVerify_distinct (distinct : (l.map CandidateTask.id).Nodup)
    (plain : ∀ c ∈ l, ∀ c' ∈ l, c.id ≠ c'.id ++ "_pre_verify") (taskID : String) :
    ((applyMutation l (.addVerify taskID)).map CandidateTask.id).Nodup := by
  induction l with
  | nil => exact nodup_nil
  | cons c rest ih =>
    rw [map_cons,nodup_cons] at distinct
    have later := ih distinct.2 fun x member y member' =>
      plain x (mem_cons_of_mem c member) y (mem_cons_of_mem c member')
    -- neither id of the first candidate is among the later ones
    have fresh : c.id ∉ (applyMutation rest (.addVerify taskID)).map CandidateTask.id := by
      intro inside
      obtain ⟨x,member,same⟩ := mem_map.mp inside
      rcases mem_addVerify.mp member with there | ⟨c',there,-,rfl⟩
      · exact distinct.1 (mem_map.mpr ⟨x,there,same⟩)
      · exact plain c mem_cons_self c' (mem_cons_of_mem c there) same.symm
    have fresh' : c.id = taskID → (preVerify c).id ∉ (applyMutation rest (.addVerify taskID)).map CandidateTask.id := by
      intro is inside
      obtain ⟨x,member,same⟩ := mem_map.mp inside
      rcases mem_addVerify.mp member with there | ⟨c',there,is',rfl⟩
      · exact plain x (mem_cons_of_mem c there) c mem_cons_self same
      · exact distinct.1 (mem_map.mpr ⟨c',there,is'.trans is.symm⟩)
    have split : applyMutation (c :: rest) (.addVerify taskID) =
        (if c.id = taskID then [c,preVerify c] else [c]) ++ applyMutation rest (.addVerify taskID) := rfl
    rw [split]
    by_cases is : c.id = taskID
    · rw [if_pos is]
      simp only [cons_append,nil_append,map_cons,nodup_cons,mem_cons,not_or]
      exact ⟨⟨plain c mem_cons_self c mem_cons_self,fresh⟩,fresh' is,later⟩
    · rw [if_neg is]
      exact nodup_cons.mpr ⟨fresh,later⟩

theorem Fit.addVerify (fit : Fit l) (plain : ∀ c ∈ l, ∀ c' ∈ l, c.id ≠ c'.id ++ "_pre_verify") :
    Fit (applyMutation l (.addVerify "implement")) where
  named x member := by
    rcases mem_addVerify.mp member with there | ⟨c,there,-,rfl⟩
    · exact fit.named x there
    · exact append_ne_empty _ (fit.named c there)
  described x member := by
    rcases mem_addVerify.mp member with there | ⟨c,there,-,rfl⟩
    · exact fit.described x there
    · exact append_ne_empty _ (append_ne_empty _ (by decide))
  distinct := addVerify_distinct fit.distinct plain _
  unreserved x member := by
    rcases mem_addVerify.mp member with there | ⟨c,there,is,rfl⟩
    · exact fit.unreserved x there
    · simp only [preVerify,is]
      decide

theorem Fit.metaImprove (fit : Fit l) : Fit (applyMutation l .metaImprove) := by
  simp only [applyMutation]
  split
  · exact fit
  · rename_i missing
    have new : ∀ c ∈ l ++ [selfImprove], c ∈ l ∨ c = selfImprove := fun c member => by
      simpa using member
    refine ⟨fun c member => ?_,fun c member => ?_,?_,fun c member => ?_⟩
    · rcases new c member with old | rfl
      · exact fit.named c old
      · decide
    · rcases new c member with old | rfl
      · exact fit.described c old
      · decide
    · rw [map_append,nodup_append]
      refine ⟨fit.distinct,by simp,?_⟩
      rintro id inside id' last rfl
      obtain ⟨c,member,same⟩ := mem_map.mp inside
      have is : id = "self_improve" := by simpa [selfImprove] using last
      exact missing (any_eq_true.mpr ⟨c,member,by simp [same,is]⟩)
    · rcases new c member with old | rfl
      · exact fit.unreserved c old
      · decide

theorem foldl_skip (failures : List String) (l : List CandidateTask) :
    (failures.map TaskMutation.skip).foldl applyMutation l = l := by
  induction failures with
  | nil => rfl
  | cons f rest ih => exact ih

theorem Fit.mutated (fit : Fit l) (plain : ∀ c ∈ l, ∀ c' ∈ l, c.id ≠ c'.id ++ "_pre_verify")
    (lower : Char → Char) (notes : List ImprovementNote) : Fit (applyMutations l (taskMutations lower notes)) := by
  have verified : ∀ (p : Prop) [Decidable p],
      Fit ((if p then [.addVerify "implement"] else []).foldl applyMutation l) := by
    intro p _
    split
    · exact fit.addVerify plain
    · exact fit
  unfold applyMutations taskMutations
  split
  · exact fit
  · rw [foldl_append,foldl_append,foldl_skip]
    by_cases tenth : notes.length%10 = 0
    · rw [if_pos tenth]
      exact Fit.metaImprove (verified _)
    · rw [if_neg tenth]
      exact verified _

theorem choose_fit (sorts : Sorts sort)
    (eligible : Eligible candidates) (lower : Char → Char) (cfg : SynthesisConfig) (notes : List ImprovementNote) :
    Fit (choose lower sort cfg notes candidates) := by
  have within := kept_of_choice lower sorts cfg (avoidPatterns notes) candidates
  exact (fit_of_subperm eligible within).mutated
    (fun c member c' member' => eligible.plain c (within.subset member) c' (within.subset member')) lower notes

/-! ### The tasks of the candidates -/

theorem lastImplID_snoc (base : String) (l : List CandidateTask) (c : CandidateTask) :
    lastImplID base (l ++ [c]) = c.id := by
  induction l generalizing base with
  | nil => rfl
  | cons b rest ih => exact ih b.id

variable {base : String}

theorem lastImplID_ne_empty (fit : Fit l) (some_ : base ≠ "" ∨ l ≠ []) : lastImplID base l ≠ "" := by
  rcases eq_nil_or_concat l with rfl | ⟨before,c,rfl⟩
  · exact some_.resolve_right fun no => no rfl
  · rw [concat_eq_append,lastImplID_snoc]
    exact fit.named c (by simp)

theorem ids_implTasks (base : String) (l : List CandidateTask) : ids (implTasks base l) = l.map CandidateTask.id := by
  induction l generalizing base with
  | nil => rfl
  | cons c rest ih => exact congrArg (c.id :: ·) (ih c.id)

def implTask (base : String) (before : List CandidateTask) (c : CandidateTask) : Task :=
  ⟨c.id,c.description,false,
    if c.dependsOn = [] ∧ lastImplID base before ≠ "" then [lastImplID base before] else c.dependsOn⟩

theorem mem_implTasks {t : Task} :
    t ∈ implTasks base l ↔ ∃ before c after, l = before ++ c :: after ∧ t = implTask base before c := by
  induction l generalizing base with
  | nil => simp [implTasks]
  | cons c rest ih =>
    rw [implTasks,mem_cons,ih]
    constructor
    · rintro (rfl | ⟨before,b,after,rfl,rfl⟩)
      · exact ⟨[],c,rest,rfl,rfl⟩
      · exact ⟨c :: before,b,after,rfl,rfl⟩
    · rintro ⟨before,b,after,same,rfl⟩
      cases before with
      | nil =>
        cases same
        exact .inl rfl
      | cons first before =>
        cases same
        exact .inr ⟨before,b,after,rfl,rfl⟩

variable {id dep : String}

theorem depends_implTasks (fit : Fit l) : Depends (implTasks base l) id dep ↔
      Needs l id dep ∨ (base ≠ "" ∧ dep = base ∧ ∃ c rest, l = c :: rest ∧ c.id = id ∧ c.dependsOn = []) := by
  constructor
  · rintro ⟨t,member,rfl,dependency⟩
    obtain ⟨before,c,after,rfl,rfl⟩ := mem_implTasks.mp member
    have inside : c ∈ before ++ c :: after := by simp
    simp only [implTask] at dependency
    split at dependency
    · rename_i chained
      obtain rfl := mem_singleton.mp dependency
      rcases eq_nil_or_concat before with rfl | ⟨before,b,rfl⟩
      · exact .inr ⟨chained.2,rfl,c,after,rfl,rfl,chained.1⟩
      · refine .inl ⟨c,inside,rfl,.inr ⟨chained.1,b,⟨before,after,by simp⟩,?_⟩⟩
        rw [concat_eq_append,lastImplID_snoc]
    · exact .inl ⟨c,inside,rfl,.inl dependency⟩
  · rintro (⟨c,member,rfl,dependency | ⟨none,b,⟨before,after,rfl⟩,rfl⟩⟩ | ⟨some_,rfl,c,rest,rfl,rfl,none⟩)
    · obtain ⟨before,after,rfl⟩ := append_of_mem member
      refine ⟨implTask base before c,mem_implTasks.mpr ⟨before,c,after,rfl,rfl⟩,rfl,?_⟩
      simp only [implTask,if_neg fun chained : c.dependsOn = [] ∧ _ => ne_nil_of_mem dependency chained.1]
      exact dependency
    · refine ⟨implTask base (before ++ [b]) c,mem_implTasks.mpr ⟨before ++ [b],c,after,by simp,rfl⟩,rfl,?_⟩
      have named : b.id ≠ "" := fit.named b (by simp)
      simp [implTask,lastImplID_snoc,none,named]
    · refine ⟨implTask dep [] c,mem_implTasks.mpr ⟨[],c,rest,rfl,rfl⟩,rfl,?_⟩
      simp [implTask,lastImplID,none,some_]

theorem exists_dependency (fit : Fit l) (basis : base ≠ "") {c : CandidateTask}
    (member : c ∈ l) : ∃ dep, Depends (implTasks base l) c.id dep := by
  cases named : c.dependsOn with
  | cons dep others => exact ⟨dep,(depends_implTasks fit).mpr (.inl ⟨c,member,rfl,.inl (by simp [named])⟩)⟩
  | nil =>
    obtain ⟨before,after,rfl⟩ := append_of_mem member
    rcases eq_nil_or_concat before with rfl | ⟨before,b,rfl⟩
    · exact ⟨base,(depends_implTasks fit).mpr (.inr ⟨basis,rfl,c,after,rfl,rfl,named⟩)⟩
    · exact ⟨b.id,(depends_implTasks fit).mpr (.inl ⟨c,member,rfl,.inr ⟨named,b,⟨before,after,by simp⟩,rfl⟩⟩)⟩

/-! ### The tasks of the specification -/

theorem depends_nil : ¬ Depends [] id dep := by simp [Depends]

theorem depends_cons {t : Task} {tasks : List Task} :
    Depends (t :: tasks) id dep ↔ (t.id = id ∧ dep ∈ t.dependsOn) ∨ Depends tasks id dep := by
  simp [Depends]

theorem depends_append {tasks tasks' : List Task} :
    Depends (tasks ++ tasks') id dep ↔ Depends tasks id dep ∨ Depends tasks' id dep := by
  simp only [Depends,mem_append,or_and_right,exists_or]

section
variable (cfg : SynthesisConfig) (sinceDate : String) (l : List CandidateTask)

theorem base_cases (strategy : CycleStrategy) : strategy.base = "" ∨ strategy.base = "plan" := by
  cases strategy <;> simp [CycleStrategy.base]

def specTasks : List Task :=
  planTasks cfg sinceDate ++ implTasks cfg.strategy.base l ++ closingTasks (lastImplID cfg.strategy.base l)

theorem ids_specTasks : ids (specTasks cfg sinceDate l) =
    (if cfg.strategy.plans then ["scan","plan"] else []) ++ l.map CandidateTask.id ++ ["verify","reflect","schedule"] := by
  have plan : ids (planTasks cfg sinceDate) = if cfg.strategy.plans then ["scan","plan"] else [] := by
    unfold planTasks
    split <;> rfl
  have split : ids (specTasks cfg sinceDate l) =
      ids (planTasks cfg sinceDate) ++ ids (implTasks cfg.strategy.base l) ++ ["verify","reflect","schedule"] := by
    simp only [specTasks,ids,map_append]
    rfl
  rw [split,plan,ids_implTasks]

variable {cfg sinceDate l} {id : String}

theorem mem_ids_specTasks : id ∈ ids (specTasks cfg sinceDate l) ↔
    (cfg.strategy.plans = true ∧ (id = "scan" ∨ id = "plan")) ∨ id ∈ l.map CandidateTask.id ∨
      id = "verify" ∨ id = "reflect" ∨ id = "schedule" := by
  rw [ids_specTasks]
  cases plans : cfg.strategy.plans <;> simp [or_assoc]

variable {dep : String}

theorem depends_planTasks :
    Depends (planTasks cfg sinceDate) id dep ↔ cfg.strategy.plans = true ∧ id = "plan" ∧ dep = "scan" := by
  unfold planTasks
  cases plans : cfg.strategy.plans <;> simp [depends_cons,depends_nil,eq_comm]

theorem depends_closingTasks {last id : String} : Depends (closingTasks last) id dep ↔
    (id = "verify" ∧ dep = last ∧ last ≠ "") ∨ (id = "reflect" ∧ dep = "verify") ∨
      (id = "schedule" ∧ dep = "reflect") := by
  unfold closingTasks
  by_cases none : last = "" <;> simp [depends_cons,depends_nil,none,eq_comm]

theorem depends_specTasks : Depends (specTasks cfg sinceDate l) id dep ↔
    (cfg.strategy.plans = true ∧ id = "plan" ∧ dep = "scan") ∨ Depends (implTasks cfg.strategy.base l) id dep ∨
      Depends (closingTasks (lastImplID cfg.strategy.base l)) id dep := by
  rw [specTasks,depends_append,depends_append,depends_planTasks,or_assoc]

theorem depends_of_needs (fit : Fit l) (needs : Needs l id dep) : Depends (specTasks cfg sinceDate l) id dep :=
  depends_specTasks.mpr (.inr (.inl ((depends_implTasks fit).mpr (.inl needs))))

variable (cfg sinceDate) in
theorem depends_last (some_ : lastImplID cfg.strategy.base l ≠ "") :
    Depends (specTasks cfg sinceDate l) "verify" (lastImplID cfg.strategy.base l) :=
  depends_specTasks.mpr (.inr (.inr (depends_closingTasks.mpr (.inl ⟨rfl,rfl,some_⟩))))

theorem depends_reflect : Depends (specTasks cfg sinceDate l) "reflect" "verify" :=
  depends_specTasks.mpr (.inr (.inr (depends_closingTasks.mpr (.inr (.inl ⟨rfl,rfl⟩)))))

theorem depends_schedule : Depends (specTasks cfg sinceDate l) "schedule" "reflect" :=
  depends_specTasks.mpr (.inr (.inr (depends_closingTasks.mpr (.inr (.inr ⟨rfl,rfl⟩)))))

theorem needs_mem (needs : Needs l id dep) : id ∈ l.map CandidateTask.id := by
  obtain ⟨c,member,same,-⟩ := needs
  exact mem_map.mpr ⟨c,member,same⟩

/-! ### Runnable specifications are chained -/

section
variable (fit : Fit l) (valid : Valid (specTasks cfg sinceDate l))
  (verified : ∀ c ∈ l, Relation.TransGen (Depends (specTasks cfg sinceDate l)) "verify" c.id)
include valid verified

/-- What a candidate's task depends on is a candidate's task, the scan or the plan: whatever
    comes after the verification would close a cycle. -/
theorem dependency_within {c : CandidateTask} (member : c ∈ l) {dep : String}
    (depends : Depends (specTasks cfg sinceDate l) c.id dep) :
    dep ∈ l.map CandidateTask.id ∨ (cfg.strategy.plans = true ∧ (dep = "scan" ∨ dep = "plan")) := by
  have known : dep ∈ ids (specTasks cfg sinceDate l) := by
    obtain ⟨t,task,-,dependency⟩ := depends
    exact valid.known t task dep dependency
  have below := (verified c member).tail depends
  rcases mem_ids_specTasks.mp known with planning | inside | rfl | rfl | rfl
  · exact .inr planning
  · exact .inl inside
  · exact absurd below (valid.acyclic _)
  · exact absurd (below.tail depends_reflect) (valid.acyclic _)
  · exact absurd ((below.tail depends_schedule).tail depends_reflect) (valid.acyclic _)

include fit

theorem planned_of_valid : cfg.strategy.plans = true ∨ cfg.strategy = .recovery ∨ cfg.strategy = .maintenance := by
  by_contra unplanned
  have noPlan : cfg.strategy.plans = false ∧ cfg.strategy.base = "plan" := by
    cases is : cfg.strategy <;> simp_all [CycleStrategy.plans,CycleStrategy.base]
  have basis : cfg.strategy.base ≠ "" := by rw [noPlan.2]; decide
  have within : ∀ id ∈ l.map CandidateTask.id,
      ∃ dep ∈ l.map CandidateTask.id, Depends (specTasks cfg sinceDate l) id dep := by
    intro id inside
    obtain ⟨c,member,rfl⟩ := mem_map.mp inside
    obtain ⟨dep,implementing⟩ := exists_dependency fit basis member
    have depends : Depends (specTasks cfg sinceDate l) c.id dep := depends_specTasks.mpr (.inr (.inl implementing))
    rcases dependency_within valid verified member depends with inside | ⟨plans,-⟩
    · exact ⟨dep,inside,depends⟩
    · rw [noPlan.1] at plans
      cases plans
  have none : ∀ id ∈ ids (specTasks cfg sinceDate l), id ∉ l.map CandidateTask.id := by
    refine valid.founded _ fun t task earlier inside => ?_
    obtain ⟨dep,inside',t',task',same,dependency⟩ := within t.id inside
    obtain rfl := inj_on_of_nodup_map valid.distinct task' task same
    exact earlier dep dependency inside'
  have empty : l = [] := by
    cases l with
    | nil => rfl
    | cons c rest => exact absurd (by simp) (none c.id (mem_ids_specTasks.mpr (.inr (.inl (by simp)))))
  subst empty
  obtain ⟨t,task,-,dependency⟩ := depends_last cfg sinceDate (l := []) basis
  have known := mem_ids_specTasks.mp (valid.known t task _ dependency)
  simp [lastImplID,noPlan] at known

theorem chained_of_valid : Chained cfg.strategy l where
  planned := planned_of_valid fit valid verified
  known c member dep dependency :=
    dependency_within valid verified member (depends_of_needs fit ⟨c,member,rfl,.inl dependency⟩)
  acyclic id cycle := valid.acyclic id (Relation.TransGen.mono (fun _ _ => depends_of_needs fit) _ _ cycle)
  followed c member := by
    have unreserved := fit.unreserved c member
    obtain ⟨id,-,depends⟩ := Relation.TransGen.tail'_iff.mp (verified c member)
    rcases depends_specTasks.mp depends with ⟨-,-,scan⟩ | implementing | closing
    · exact absurd (by simp [scan,scaffolding]) unreserved
    · rcases (depends_implTasks fit).mp implementing with needs | ⟨some_,same,-⟩
      · exact .inr ⟨id,needs⟩
      · exact absurd (by simp [same,(base_cases cfg.strategy).resolve_left some_,scaffolding]) unreserved
    · rcases depends_closingTasks.mp closing with ⟨-,last,-⟩ | ⟨-,verify⟩ | ⟨-,reflect⟩
      · rcases eq_nil_or_concat l with rfl | ⟨before,b,rfl⟩
        · exact absurd member not_mem_nil
        · rw [concat_eq_append,lastImplID_snoc] at last
          rw [concat_eq_append] at member ⊢
          have same := inj_on_of_nodup_map fit.distinct (by simpa using member) (by simp) last
          simp [same]
      · exact absurd (by simp [verify,scaffolding]) unreserved
      · exact absurd (by simp [reflect,scaffolding]) unreserved

end

/-! ### Chained candidates give runnable specifications -/

theorem depends_scaffolding (fit : Fit l) (reserved : id ∈ scaffolding)
    (depends : Depends (specTasks cfg sinceDate l) id dep) :
    (cfg.strategy.plans = true ∧ id = "plan" ∧ dep = "scan") ∨
    (id = "verify" ∧ dep = lastImplID cfg.strategy.base l ∧ lastImplID cfg.strategy.base l ≠ "") ∨
    (id = "reflect" ∧ dep = "verify") ∨ (id = "schedule" ∧ dep = "reflect") := by
  rcases depends_specTasks.mp depends with planning | implementing | closing
  · exact .inl planning
  · have candidate := implementing.mem_ids
    rw [ids_implTasks] at candidate
    obtain ⟨c,member,rfl⟩ := mem_map.mp candidate
    exact absurd reserved (fit.unreserved c member)
  · exact .inr (depends_closingTasks.mp closing)

theorem depends_candidate (fit : Fit l) (inside : id ∈ l.map CandidateTask.id)
    (depends : Depends (specTasks cfg sinceDate l) id dep) : Depends (implTasks cfg.strategy.base l) id dep := by
  obtain ⟨c,member,rfl⟩ := mem_map.mp inside
  have unreserved := fit.unreserved c member
  rcases depends_specTasks.mp depends with ⟨-,is,-⟩ | implementing | closing
  · exact absurd (by simp [is,scaffolding]) unreserved
  · exact implementing
  · rcases depends_closingTasks.mp closing with ⟨is,-⟩ | ⟨is,-⟩ | ⟨is,-⟩ <;>
      exact absurd (by simp [is,scaffolding]) unreserved

theorem nodup_between {names planning closing : List String} (distinct : names.Nodup)
    (others : (planning ++ closing).Nodup) (free : ∀ id ∈ names, id ∉ planning ++ closing) :
    (planning ++ names ++ closing).Nodup := by
  have moved : (planning ++ names ++ closing).Perm (names ++ (planning ++ closing)) := by
    rw [← append_assoc]
    exact perm_append_comm.append_right closing
  exact moved.nodup_iff.mpr (distinct.append others free)

theorem specTasks_distinct (fit : Fit l) : (ids (specTasks cfg sinceDate l)).Nodup := by
  have free : ∀ id ∈ l.map CandidateTask.id, id ∉ scaffolding := by
    intro id inside
    obtain ⟨c,member,rfl⟩ := mem_map.mp inside
    exact fit.unreserved c member
  rw [ids_specTasks]
  split
  · exact nodup_between fit.distinct (by decide) free
  · exact nodup_between fit.distinct (by decide) fun id inside closing => free id inside (mem_of_mem_drop (i := 2) closing)

section
variable (fit : Fit l) (chained : Chained cfg.strategy l)
include chained

theorem plans_of_base (basis : cfg.strategy.base ≠ "") : cfg.strategy.plans = true := by
  rcases chained.planned with plans | is | is
  · exact plans
  · exact absurd (by rw [is]; rfl) basis
  · exact absurd (by rw [is]; rfl) basis

theorem last_cases (some_ : lastImplID cfg.strategy.base l ≠ "") :
    lastImplID cfg.strategy.base l ∈ l.map CandidateTask.id ∨
      (cfg.strategy.plans = true ∧ lastImplID cfg.strategy.base l = "plan") := by
  rcases eq_nil_or_concat l with rfl | ⟨before,c,rfl⟩
  · exact .inr ⟨plans_of_base chained some_,(base_cases cfg.strategy).resolve_left some_⟩
  · rw [concat_eq_append,lastImplID_snoc]
    simp

include fit

theorem dependency_cases {id dep : String} (depends : Depends (implTasks cfg.strategy.base l) id dep) :
    (Needs l id dep ∧ dep ∈ l.map CandidateTask.id) ∨ (cfg.strategy.plans = true ∧ (dep = "scan" ∨ dep = "plan")) := by
  rcases (depends_implTasks fit).mp depends with needs | ⟨some_,same,-⟩
  · have needed := needs
    obtain ⟨c,member,-,dependency | ⟨-,b,⟨before,after,split⟩,rfl⟩⟩ := needs
    · exact (chained.known c member dep dependency).imp_left fun known => ⟨needed,known⟩
    · exact .inl ⟨needed,mem_map.mpr ⟨b,by simp [split],rfl⟩⟩
  · exact .inr ⟨plans_of_base chained some_,.inr (same.trans ((base_cases cfg.strategy).resolve_left some_))⟩

theorem specTasks_known {id dep : String} (depends : Depends (specTasks cfg sinceDate l) id dep) :
    dep ∈ ids (specTasks cfg sinceDate l) := by
  rw [mem_ids_specTasks]
  rcases depends_specTasks.mp depends with ⟨plans,-,rfl⟩ | implementing | closing
  · exact .inl ⟨plans,.inl rfl⟩
  · rcases dependency_cases fit chained implementing with ⟨-,inside⟩ | planning
    · exact .inr (.inl inside)
    · exact .inl planning
  · rcases depends_closingTasks.mp closing with ⟨-,rfl,some_⟩ | ⟨-,rfl⟩ | ⟨-,rfl⟩
    · rcases last_cases chained some_ with inside | ⟨plans,is⟩
      · exact .inr (.inl inside)
      · exact .inl ⟨plans,.inr is⟩
    · simp
    · simp

/-- Along the dependencies: the scan, the plan, the candidates as they need each other, and the closing tasks. -/
theorem specTasks_founded {P : String → Prop} (passes : ∀ id ∈ ids (specTasks cfg sinceDate l),
      (∀ dep, Depends (specTasks cfg sinceDate l) id dep → P dep) → P id) :
    ∀ id ∈ ids (specTasks cfg sinceDate l), P id := by
  have planning : cfg.strategy.plans = true → P "scan" ∧ P "plan" := by
    intro plans
    have scan : P "scan" := by
      refine passes _ (mem_ids_specTasks.mpr (.inl ⟨plans,.inl rfl⟩)) fun dep depends => ?_
      simpa using depends_scaffolding fit (by decide) depends
    refine ⟨scan,passes _ (mem_ids_specTasks.mpr (.inl ⟨plans,.inr rfl⟩)) fun dep depends => ?_⟩
    obtain ⟨-,rfl⟩ : _ ∧ dep = "scan" := by simpa using depends_scaffolding fit (by decide) depends
    exact scan
  have implementing : ∀ id ∈ l.map CandidateTask.id, P id := by
    refine acyclic_induction chained.acyclic fun id inside earlier => ?_
    refine passes id (mem_ids_specTasks.mpr (.inr (.inl inside))) fun dep depends => ?_
    rcases dependency_cases fit chained (depends_candidate fit inside depends) with ⟨needs,inside'⟩ | ⟨plans,rfl | rfl⟩
    · exact earlier dep inside' needs
    · exact (planning plans).1
    · exact (planning plans).2
  have verify : P "verify" := by
    refine passes _ (by simp [mem_ids_specTasks]) fun dep depends => ?_
    obtain ⟨rfl,some_⟩ : dep = _ ∧ _ := by simpa using depends_scaffolding fit (by decide) depends
    rcases last_cases chained some_ with inside | ⟨plans,is⟩
    · exact implementing _ inside
    · rw [is]
      exact (planning plans).2
  have reflect : P "reflect" := by
    refine passes _ (by simp [mem_ids_specTasks]) fun dep depends => ?_
    obtain rfl : dep = "verify" := by simpa using depends_scaffolding fit (by decide) depends
    exact verify
  have schedule : P "schedule" := by
    refine passes _ (by simp [mem_ids_specTasks]) fun dep depends => ?_
    obtain rfl : dep = "reflect" := by simpa using depends_scaffolding fit (by decide) depends
    exact reflect
  intro id task
  rcases mem_ids_specTasks.mp task with ⟨plans,rfl | rfl⟩ | inside | rfl | rfl | rfl
  · exact (planning plans).1
  · exact (planning plans).2
  · exact implementing id inside
  · exact verify
  · exact reflect
  · exact schedule

theorem valid_of_chained : Valid (specTasks cfg sinceDate l) where
  named t member := by
    have inside : t.id ∈ ids (specTasks cfg sinceDate l) := mem_map.mpr ⟨t,member,rfl⟩
    rcases mem_ids_specTasks.mp inside with ⟨-,is | is⟩ | inside | is | is | is
    case inr.inl =>
      obtain ⟨c,member',same⟩ := mem_map.mp inside
      rw [← same]
      exact fit.named c member'
    all_goals rw [is]; decide
  distinct := specTasks_distinct fit
  known t member dep dependency := specTasks_known fit chained ⟨t,member,rfl,dependency⟩
  founded P passes := by
    refine specTasks_founded fit chained fun id inside earlier => ?_
    obtain ⟨t,member,rfl⟩ := mem_map.mp inside
    exact passes t member fun dep dependency => earlier dep ⟨t,member,rfl,dependency⟩

/-- Against the needs: the verification depends on the last candidate, and each other one is
    needed by some candidate. -/
theorem verified_of_chained : ∀ id ∈ l.map CandidateTask.id,
    Relation.TransGen (Depends (specTasks cfg sinceDate l)) "verify" id := by
  have acyclic : ∀ id, ¬ Relation.TransGen (Function.swap (Needs l)) id id := fun id cycle =>
    chained.acyclic id (Relation.transGen_swap.mp cycle)
  refine acyclic_induction acyclic fun id inside later => ?_
  obtain ⟨c,member,rfl⟩ := mem_map.mp inside
  rcases chained.followed c member with last | ⟨id,needs⟩
  · obtain ⟨before,rfl⟩ := getLast?_eq_some_iff.mp last
    have edge := depends_last cfg sinceDate (lastImplID_ne_empty fit (.inr (by simp)))
    rw [lastImplID_snoc] at edge
    exact .single edge
  · exact (later id (needs_mem needs) needs).tail (depends_of_needs fit needs)

end

theorem specTasks_described (fit : Fit l) : ∀ t ∈ specTasks cfg sinceDate l, t.description ≠ "" := by
  intro t member
  rcases mem_append.mp member with member | closing
  · rcases mem_append.mp member with planning | implementing
    · unfold planTasks at planning
      split at planning
      · simp only [mem_cons,not_mem_nil,or_false] at planning
        rcases planning with rfl | rfl
        · exact append_ne_empty _ (append_ne_empty _ (by decide))
        · exact append_ne_empty _ (append_ne_empty _ (by decide))
      · exact absurd planning not_mem_nil
    · obtain ⟨before,c,after,rfl,rfl⟩ := mem_implTasks.mp implementing
      exact fit.described c (by simp)
  · simp only [closingTasks,mem_cons,not_mem_nil,or_false] at closing
    rcases closing with rfl | rfl | rfl <;> simp

theorem runnable_iff_chained (fit : Fit l) (quote : Quote) (costTrend : String) (patterns : List String) :
    Runnable quote scaffolding (buildSynthesizedSpec cfg sinceDate costTrend patterns l) ↔ Chained cfg.strategy l := by
  constructor
  · intro runnable
    have valid : Valid (specTasks cfg sinceDate l) :=
      valid_of_accepted (List.Perm.refl _) (runnable.accepted _ (List.Perm.refl _))
    refine chained_of_valid fit valid fun c member => ?_
    have inside : c.id ∈ ids (specTasks cfg sinceDate l) :=
      mem_ids_specTasks.mpr (.inr (.inl (mem_map.mpr ⟨c,member,rfl⟩)))
    obtain ⟨t,task,same⟩ := mem_map.mp inside
    rw [← same]
    exact runnable.verified t task (same ▸ fit.unreserved c member)
  · intro chained
    have valid : Valid (specTasks cfg sinceDate l) := valid_of_chained fit chained
    refine ⟨fun order ordering => (accepted_iff ordering).mpr ⟨?_,?_,?_,specTasks_described fit,valid⟩,?_⟩
    · exact append_ne_empty _ (by decide)
    · exact append_ne_empty _ (append_ne_empty _ (append_ne_empty _ (append_ne_empty _ (append_ne_empty _
        (append_ne_empty _ (append_ne_empty _ (by decide)))))))
    · exact append_ne_nil_of_right_ne_nil _ (by simp [closingTasks])
    · intro t task unreserved
      have inside : t.id ∈ ids (specTasks cfg sinceDate l) := mem_map.mpr ⟨t,task,rfl⟩
      refine verified_of_chained fit chained t.id ?_
      rcases mem_ids_specTasks.mp inside with ⟨-,is | is⟩ | candidate | is | is | is
      case inr.inl => exact candidate
      all_goals exact absurd (by simp [is,scaffolding]) unreserved

end

end Mcpkit.CandidateChains
