import Mathlib.Data.List.Infix
import Mcpkit.RalphSpec

/-!
The two synthesizers of R&D cycles.
-/
namespace Mcpkit.SpecSynthesis
open ToolResults RalphSpec

/-! ### Candidates -/

inductive CycleStrategy where
  | full
  | maintenance
  | recovery
  | metaImprove
  | ecosystem
  | other (text : String)
  deriving DecidableEq

def CycleStrategy.text : CycleStrategy → String
  | .full => "full"
  | .maintenance => "maintenance"
  | .recovery => "recovery"
  | .metaImprove => "meta_improve"
  | .ecosystem => "ecosystem"
  | .other text => text

inductive Source where
  | roadmap
  | improvement
  | scaffold
  | other (text : String)
  deriving DecidableEq

inductive Complexity where
  | simple
  | moderate
  | complex
  | other (text : String)
  deriving DecidableEq

structure CandidateTask where
  id : String
  description : String
  source : Source
  priority : Int
  dependsOn : List String
  complexity : Complexity
  deriving DecidableEq

structure SynthesisConfig where
  cycleName : String
  roadmapPath : String
  strategy : CycleStrategy
  maxTasks : Int
  deriving DecidableEq

/-! ### The roadmap as a source -/

inductive ItemPriority where
  | high
  | low
  | other (text : String)
  deriving DecidableEq

structure WorkItem where
  id : String
  description : String
  package : String
  complete : Bool
  dependsOn : List String
  priority : ItemPriority
  deriving DecidableEq

structure Phase where
  name : String
  complete : Bool
  items : List WorkItem
  deriving DecidableEq

def nextPhase (phases : List Phase) : Option Phase := phases.find? (fun phase => !phase.complete)

def readyItems (phase : Phase) : List WorkItem :=
  phase.items.filter (fun item =>
    !item.complete && item.dependsOn.all (fun dep => phase.items.any (fun done => done.complete && done.id = dep)))

def itemComplexity : ItemPriority → Complexity
  | .high => .complex
  | .low => .simple
  | .other _ => .moderate

def fetchRoadmap (phases : List Phase) : List CandidateTask :=
  match nextPhase phases with
  | none => []
  | some phase => (readyItems phase).zipIdx.map (fun (item,i) =>
      ⟨item.id,item.description,.roadmap,i+10,item.dependsOn,itemComplexity item.priority⟩)

/-! ### What was learned -/

structure ImprovementNote where
  whatFailed : List String
  deriving DecidableEq

/-- `AvoidPatterns(10)`. The code ranges over a map; only the text of the specification depends on that order. -/
def avoidPatterns (notes : List ImprovementNote) : List String :=
  let window := notes.drop (notes.length-10)
  let failures := window.flatMap ImprovementNote.whatFailed
  failures.dedup.filter (fun f => max 1 (window.length/4) ≤ failures.count f)

variable (lower : Char → Char)

def containsFold (text part : String) : Bool := part.toList.map lower <:+: text.toList.map lower

inductive TaskMutation where
  | skip (taskID : String)
  | addVerify (taskID : String)
  | metaImprove
  deriving DecidableEq

def verifyWords : List String := ["verify","test","build","compile"]

def taskMutations (notes : List ImprovementNote) : List TaskMutation :=
  let failures := notes.flatMap ImprovementNote.whatFailed
  if notes = [] then []
  else
    ((failures.dedup.filter (fun f => max 1 (notes.length/2) ≤ failures.count f)).map .skip) ++
    (if notes.length/3 < failures.countP (fun f => verifyWords.any (containsFold lower f)) then [.addVerify "implement"]
      else []) ++
    (if notes.length%10 = 0 then [.metaImprove] else [])

/-! ### Choosing candidates -/

def filterAvoidPatterns (patterns : List String) (candidates : List CandidateTask) : List CandidateTask :=
  candidates.filter (fun c => !patterns.any (containsFold lower c.description))

def CycleStrategy.keeps : CycleStrategy → CandidateTask → Bool
  | .maintenance,c => c.source ≠ .roadmap
  | .ecosystem,c => c.source ≠ .roadmap ∨ c.complexity = .simple
  | .recovery,c => c.source = .improvement ∨ c.source = .scaffold
  | .metaImprove,c => c.source = .improvement
  | .full,_ => true
  | .other _,_ => true

def filterByStrategy (strategy : CycleStrategy) (candidates : List CandidateTask) : List CandidateTask :=
  candidates.filter strategy.keeps

def preVerify (c : CandidateTask) : CandidateTask :=
  ⟨c.id ++ "_pre_verify","Pre-verify after " ++ c.id ++ ": run build + vet before continuing.",.improvement,c.priority+1,
    [c.id],.simple⟩

def selfImprove : CandidateTask :=
  ⟨"self_improve","Run rdcycle_improve to analyze accumulated notes and apply recommendations.",.improvement,50,[],
    .simple⟩

variable (cfg : SynthesisConfig) (sinceDate : String) (candidates : List CandidateTask)

def applyMutation : TaskMutation → List CandidateTask
  | .skip _ => candidates
  | .addVerify taskID => candidates.flatMap (fun c => if c.id = taskID then [c,preVerify c] else [c])
  | .metaImprove => if candidates.any (·.id = "self_improve") then candidates else candidates ++ [selfImprove]

def applyMutations (mutations : List TaskMutation) : List CandidateTask :=
  mutations.foldl applyMutation candidates

/-- `sort.Slice` by priority: some order of the same candidates. -/
def Sorts (sort : List CandidateTask → List CandidateTask) : Prop :=
  ∀ l, (sort l).Perm l ∧ (sort l).Pairwise (fun a b => a.priority ≤ b.priority)

def truncate (maxTasks : Int) (candidates : List CandidateTask) : List CandidateTask :=
  if 0 < maxTasks then candidates.take maxTasks.toNat else candidates

variable (lower : Char → Char) (sort : List CandidateTask → List CandidateTask)

def choose (cfg : SynthesisConfig)
    (notes : List ImprovementNote) (candidates : List CandidateTask) : List CandidateTask :=
  applyMutations
    (truncate cfg.maxTasks
      (sort (filterByStrategy cfg.strategy (filterAvoidPatterns lower (avoidPatterns notes) candidates))))
    (taskMutations lower notes)

/-! ### Building the specification -/

def CycleStrategy.plans : CycleStrategy → Bool
  | .full | .ecosystem => true
  | _ => false

def CycleStrategy.base : CycleStrategy → String
  | .recovery | .maintenance => ""
  | _ => "plan"

/-- The loop over the candidates; `last` is `lastImplID`. -/
def implTasks : String → List CandidateTask → List Task
  | _,[] => []
  | last,c :: rest =>
    ⟨c.id,c.description,false,if c.dependsOn = [] ∧ last ≠ "" then [last] else c.dependsOn⟩ :: implTasks c.id rest

def lastImplID : String → List CandidateTask → String
  | last,[] => last
  | _,c :: rest => lastImplID c.id rest

def planTasks : List Task :=
  if cfg.strategy.plans then
    [⟨"scan","Run rdcycle_scan to check ecosystem activity since " ++ sinceDate ++ ".",false,[]⟩,
      ⟨"plan","Run rdcycle_plan with scan results and roadmap at " ++ cfg.roadmapPath ++ ".",false,["scan"]⟩]
  else []

def closingTasks (last : String) : List Task :=
  [⟨"verify","Run rdcycle_verify to execute make check. Fix issues and re-verify if needed.",false,
      if last ≠ "" then [last] else []⟩,
    ⟨"reflect","Record improvement notes for this cycle using rdcycle_notes.",false,["verify"]⟩,
    ⟨"schedule","Run rdcycle_schedule to write the next cycle's spec.",false,["reflect"]⟩]

def specDescription (costTrend : String) (patterns : List String) : String :=
  "Autonomous R&D cycle '" ++ cfg.cycleName ++ "' (strategy: " ++ cfg.strategy.text ++ ", since: " ++ sinceDate ++ ")." ++
  (if costTrend ≠ "stable" ∨ patterns ≠ [] then
    "\n\nLearning signals:" ++ (if costTrend ≠ "stable" then "\n- Cost trend: " ++ costTrend else "") ++
      String.join (patterns.map ("\n- Avoid: " ++ ·))
  else "")

/-- `buildSynthesizedSpec`; the date and the cost trend only go into texts. -/
def buildSynthesizedSpec (costTrend : String) (patterns : List String) (candidates : List CandidateTask) : Spec where
  name := "R&D Cycle: " ++ cfg.cycleName
  description := specDescription cfg sinceDate costTrend patterns
  tasks := planTasks cfg sinceDate ++ implTasks cfg.strategy.base candidates ++
    closingTasks (lastImplID cfg.strategy.base candidates)

def collect (fetched : List (Except String (List CandidateTask))) : List CandidateTask :=
  fetched.flatMap (fun result => result.toOption.getD [])

def synthesize (sinceDate costTrend : String)
    (cfg : SynthesisConfig) (notes : List ImprovementNote) (fetched : List (Except String (List CandidateTask))) :
    Except String Spec :=
  if cfg.cycleName = "" then .error "rdcycle: cycle_name is required for synthesis"
  else .ok (buildSynthesizedSpec cfg sinceDate costTrend (avoidPatterns notes)
    (choose lower sort cfg notes (collect fetched)))

/-! ### Specifications from plans -/

/-- What a specification is made of: the name of the next phase, ready items, suggestions. -/
structure PlanOutput where
  nextPhase : Option String
  readyItems : List WorkItem
  suggestions : List String
  deriving DecidableEq

def sanitizeTaskID (s : String) : String :=
  String.ofList (s.toList.map (fun c => lower (if c ∈ [' ','/','\\',':','.'] then '_' else c)))

def signal : String := "Ecosystem signal: "

def implementTask (item : WorkItem) : Task :=
  ⟨"implement_" ++ sanitizeTaskID lower item.id,
    "Implement " ++ item.id ++ ": " ++ item.description ++
      (if item.package ≠ "" then " (package: " ++ item.package ++ ")" else ""),
    false,["plan"]⟩

def investigateTask (suggestion : String) (i : Nat) : Option Task :=
  if signal.toList <+: suggestion.toList then
    some ⟨"investigate_" ++ toString i,String.ofList (suggestion.toList.drop signal.toList.length),false,["plan"]⟩
  else none

def dynamicTasks (plan : PlanOutput) : List Task :=
  plan.readyItems.map (implementTask lower) ++ plan.suggestions.zipIdx.filterMap (fun (text,i) => investigateTask text i)

/-- The tasks between the plan and the verification; a general one if there is no other. -/
def implementTasks (plan : PlanOutput) : List Task :=
  if dynamicTasks lower plan = [] then [⟨"implement","Implement changes based on plan suggestions.",false,["plan"]⟩]
  else dynamicTasks lower plan

def lessonsText (lessons : List String) : String :=
  if lessons = [] then "" else "\n\nLessons from previous cycles:\n" ++ String.join (lessons.map ("- " ++ · ++ "\n"))

def synthesizeSpec (quote : Quote) (plan : PlanOutput) (cycleName : String)
    (lessons : List String) : Except String Spec :=
  if cycleName = "" then .error "synthesize: cycle_name is required"
  else .ok {
    name := "R&D Cycle: " ++ cycleName
    description := "Autonomous R&D cycle: " ++ cycleName ++ "." ++
      (match plan.nextPhase with | some name => " Focus: phase " ++ quote name ++ "." | none => "") ++ lessonsText lessons
    tasks :=
      [⟨"scan","Run rdcycle_scan to check ecosystem activity.",false,[]⟩,
        ⟨"plan","Run rdcycle_plan with scan results.",false,["scan"]⟩] ++
      implementTasks lower plan ++
      [⟨"verify","Run rdcycle_verify to execute make check. Fix issues and re-verify if needed.",false,
          ids (implementTasks lower plan)⟩,
        ⟨"reflect",
          "Record improvement notes using rdcycle_notes: what worked, what failed, wasted iterations, cost, and suggestions.",
          false,["verify"]⟩,
        ⟨"report","Run rdcycle_report to generate research reports. Run rdcycle_commit to save changes.",false,
          ["reflect"]⟩,
        ⟨"schedule","Run rdcycle_schedule to write the next cycle's spec.",false,["report"]⟩] }

/-! ### What is asked of a specification -/

/-- The specification is accepted, whatever order the validator takes, and its verification
    depends, directly or not, on every task that is not one of the scaffolding. -/
structure Runnable (quote : Quote) (scaffolding : List String) (spec : Spec) : Prop where
  accepted : ∀ order, order.Perm (ids spec.tasks).dedup → validateSpec quote order spec = none
  verified : ∀ t ∈ spec.tasks, t.id ∉ scaffolding → Relation.TransGen (Depends spec.tasks) "verify" t.id

def scaffolding : List String := ["scan","plan","verify","reflect","schedule"]

def planScaffolding : List String := ["scan","plan","verify","reflect","report","schedule"]

def Names (id dep : String) : Prop :=
  ∃ c ∈ candidates, c.id = id ∧ dep ∈ c.dependsOn ∧ dep ∈ candidates.map CandidateTask.id

structure Eligible (candidates : List CandidateTask) : Prop where
  named : ∀ c ∈ candidates, c.id ≠ ""
  described : ∀ c ∈ candidates, c.description ≠ ""
  distinct : (candidates.map CandidateTask.id).Nodup
  unreserved : ∀ c ∈ candidates, c.id ∉ scaffolding
  plain : ∀ c ∈ candidates, ∀ c' ∈ candidates, c.id ≠ c'.id ++ "_pre_verify"
  acyclic : ∀ id, ¬ Relation.TransGen (Names candidates) id id

/-! ### When it is met -/

variable (l : List CandidateTask)

def Precedes (b c : CandidateTask) : Prop := ∃ before after, l = before ++ b :: c :: after

/-- What a candidate needs: the dependencies it names, or the candidate before it. -/
def Needs (id dep : String) : Prop :=
  ∃ c ∈ l, c.id = id ∧ (dep ∈ c.dependsOn ∨ (c.dependsOn = [] ∧ ∃ b, Precedes l b c ∧ b.id = dep))

/-- The strategy is a known one that is not self-improvement; every named dependency is there; no candidate needs
    itself; and each but the last is needed by another one. -/
structure Chained (strategy : CycleStrategy) (l : List CandidateTask) : Prop where
  planned : strategy.plans = true ∨ strategy = .recovery ∨ strategy = .maintenance
  known : ∀ c ∈ l, ∀ dep ∈ c.dependsOn,
    dep ∈ l.map CandidateTask.id ∨ (strategy.plans = true ∧ (dep = "scan" ∨ dep = "plan"))
  acyclic : ∀ id, ¬ Relation.TransGen (Needs l) id id
  followed : ∀ c ∈ l, l.getLast? = some c ∨ ∃ id, Needs l id c.id

end Mcpkit.SpecSynthesis
