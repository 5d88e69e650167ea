import Mcpkit.GoMaps
import Mcpkit.ToolResults
import Mcpkit.Transitions

/-!
Tasks. A tool call with task parameters makes a task and goes on in a goroutine, which sets the
task's result and then its status when the handler returns.
-/
namespace Mcpkit.TaskModel
open Transitions GoMaps ToolResults

inductive TaskStatus where
  | working
  | inputRequired
  | completed
  | failed
  | cancelled
  deriving DecidableEq

def TaskStatus.text : TaskStatus → String
  | .working => "working"
  | .inputRequired => "input_required"
  | .completed => "completed"
  | .failed => "failed"
  | .cancelled => "cancelled"

structure TaskInfo where
  taskId : String
  status : TaskStatus
  statusMessage : String
  lastUpdatedAt : Int
  deriving DecidableEq

def TaskStatus.isTerminal : TaskStatus → Bool
  | .completed => true
  | .failed => true
  | .cancelled => true
  | _ => false

/-- An entry. `past` is history: the statuses that it had before. -/
structure TaskEntry where
  task : TaskInfo
  result : Option CallToolResult
  expiresAt : Option Int
  past : List TaskStatus

variable (e : TaskEntry) (now : Int)

def TaskEntry.update (status : TaskStatus) (message : String) : TaskEntry :=
  { e with
    task := { e.task with status := status, statusMessage := message, lastUpdatedAt := now }
    past := e.past ++ [e.task.status] }

variable (result : Option CallToolResult)

def TaskEntry.setResult : TaskEntry := { e with result := result }

def TaskEntry.isExpired : Bool :=
  match e.expiresAt with
  | none => false
  | some expiresAt => expiresAt < now

def defaultTTL : Int := 600000000000

def create (id : String) (ttl : Int) : TaskEntry where
  task := ⟨id,.working,"working",now⟩
  result := none
  expiresAt := some (now+if ttl = 0 then defaultTTL else ttl)
  past := []

inductive TaskSupport where
  | unset
  | forbidden
  | optional
  | required
  deriving DecidableEq

inductive Route where
  | next
  | reject (result : CallToolResult)
  | task (ttl : Int)

/-- `TaskMiddleware`, for the task parameters of a request with their TTL in milliseconds. -/
def taskMiddleware (support : TaskSupport) (name : String) (params : Option (Option Int)) : Route :=
  match support with
  | .forbidden => .next
  | .unset => .next
  | _ =>
    match params with
    | none =>
      if support = .required then .reject (makeErrorResult ("[INVALID_PARAM] tool " ++ name ++ " requires task augmentation"))
      else .next
    | some ttlMs => .task (if 0 < ttlMs.getD 0 then ttlMs.getD 0*1000000 else 0)

/-- The goroutine of a task: in the handler, before `SetResult`, before its `Update`. -/
inductive Handler where
  | running
  | returned (result : Option CallToolResult)
  | updating (status : TaskStatus) (message : String)
  | done
  deriving DecidableEq

structure Task where
  entry : TaskEntry
  handler : Handler

/-- A `Cancel` before its snapshot, past its check, before `CancelFn`, or gone with its error. -/
inductive Cancel where
  | found (taskID : String) (i : Nat)
  | passed (i : Nat)
  | marked (i : Nat)
  | unknown (err : String)
  | returned (i : Nat) (err : Option String)
  deriving DecidableEq

/-- The tasks, which goroutines know by their index; the manager's map; and the calls of `Cancel`. -/
structure System where
  now : Int
  heap : List Task
  tasks : GoMap Nat
  cancels : List Cancel

def new : System := ⟨now,[],∅,[]⟩

abbrev Outcome := Except String (Option CallToolResult)

def finish : Outcome → Handler
  | .error err => .updating .failed err
  | .ok result => .returned result

def afterResult : Handler :=
  if isResultError result then .updating .failed "tool returned error" else .updating .completed "completed"

/-- `i` is a task, whose handler returns and whose result and status are set; `j` a call of `Cancel`, in its parts. -/
inductive Action where
  | advance (duration : Nat)
  | call (support : TaskSupport) (name : String) (params : Option (Option Int)) (id : String)
  | finish (i : Nat) (outcome : Outcome)
  | setResult (i : Nat)
  | update (i : Nat)
  | cancel (taskID : String)
  | check (j : Nat)
  | mark (j : Nat)
  | callCancelFn (j : Nat)
  | cleanup (expired : List String)

def System.expired (s : System) : Finset String :=
  s.tasks.keys.filter (fun id => ((s.tasks.lookup id).bind (s.heap[·]?)).any (fun t => t.entry.isExpired s.now))

def step (s : System) : Action → Option System
  | .advance duration => some { s with now := s.now+duration }
  | .call support name params id =>
    match taskMiddleware support name params with
    | .task ttl =>
      some { s with
        heap := s.heap ++ [⟨create s.now id ttl,.running⟩]
        tasks := s.tasks.insert id s.heap.length }
    | _ => some s
  | .finish i outcome =>
    match s.heap[i]? with
    | some ⟨entry,.running⟩ => some { s with heap := s.heap.set i ⟨entry,TaskModel.finish outcome⟩ }
    | _ => none
  | .setResult i =>
    match s.heap[i]? with
    | some ⟨entry,.returned result⟩ => some { s with heap := s.heap.set i ⟨entry.setResult result,afterResult result⟩ }
    | _ => none
  | .update i =>
    match s.heap[i]? with
    | some ⟨entry,.updating status message⟩ =>
      some { s with heap := s.heap.set i ⟨entry.update s.now status message,.done⟩ }
    | _ => none
  | .cancel taskID =>
    match s.tasks.lookup taskID with
    | none => some { s with cancels := s.cancels ++ [.unknown ("task " ++ taskID ++ " not found")] }
    | some i => some { s with cancels := s.cancels ++ [.found taskID i] }
  | .check j =>
    match s.cancels[j]? with
    | some (.found taskID i) =>
      match s.heap[i]? with
      | some t =>
        if t.entry.task.status.isTerminal then
          some { s with cancels := s.cancels.set j (.returned i (some
            ("task " ++ taskID ++ " is already in terminal state: " ++ t.entry.task.status.text))) }
        else some { s with cancels := s.cancels.set j (.passed i) }
      | none => none
    | _ => none
  | .mark j =>
    match s.cancels[j]? with
    | some (.passed i) =>
      match s.heap[i]? with
      | some t =>
        some { s with
          heap := s.heap.set i { t with entry := t.entry.update s.now .cancelled "cancelled by client" }
          cancels := s.cancels.set j (.marked i) }
      | none => none
    | _ => none
  | .callCancelFn j =>
    match s.cancels[j]? with
    | some (.marked i) => some { s with cancels := s.cancels.set j (.returned i none) }
    | _ => none
  | .cleanup expired => if expired.toFinset = s.expired then some { s with tasks := eraseAll s.tasks expired } else none

/-! ### What lets a step be taken -/

inductive Stepped (s : System) : Action → System → Prop
  | advance (duration : Nat) : Stepped s (.advance duration) { s with now := s.now+duration }
  | passed (support : TaskSupport) (name : String) (params : Option (Option Int)) (id : String) :
    Stepped s (.call support name params id) s
  | called (support : TaskSupport) (name : String) (params : Option (Option Int)) (id : String) (ttl : Int) :
    Stepped s (.call support name params id) { s with
      heap := s.heap ++ [⟨create s.now id ttl,.running⟩]
      tasks := s.tasks.insert id s.heap.length }
  | finish (i : Nat) (outcome : Outcome) (entry : TaskEntry) (here : s.heap[i]? = some ⟨entry,.running⟩) :
    Stepped s (.finish i outcome) { s with heap := s.heap.set i ⟨entry,TaskModel.finish outcome⟩ }
  | setResult (i : Nat) (entry : TaskEntry) (result : Option CallToolResult)
      (here : s.heap[i]? = some ⟨entry,.returned result⟩) :
    Stepped s (.setResult i) { s with heap := s.heap.set i ⟨entry.setResult result,afterResult result⟩ }
  | update (i : Nat) (entry : TaskEntry) (status : TaskStatus) (message : String)
      (here : s.heap[i]? = some ⟨entry,.updating status message⟩) :
    Stepped s (.update i) { s with heap := s.heap.set i ⟨entry.update s.now status message,.done⟩ }
  | unknown (taskID : String) (err : String) :
    Stepped s (.cancel taskID) { s with cancels := s.cancels ++ [.unknown err] }
  | found (taskID : String) (i : Nat) : Stepped s (.cancel taskID) { s with cancels := s.cancels ++ [.found taskID i] }
  | refused (j i : Nat) (taskID err : String) (t : Task) (call : s.cancels[j]? = some (.found taskID i))
      (here : s.heap[i]? = some t) (terminal : t.entry.task.status.isTerminal = true) :
    Stepped s (.check j) { s with cancels := s.cancels.set j (.returned i (some err)) }
  | checked (j i : Nat) (taskID : String) (t : Task) (call : s.cancels[j]? = some (.found taskID i))
      (here : s.heap[i]? = some t) (underway : t.entry.task.status.isTerminal = false) :
    Stepped s (.check j) { s with cancels := s.cancels.set j (.passed i) }
  | mark (j i : Nat) (t : Task) (call : s.cancels[j]? = some (.passed i)) (here : s.heap[i]? = some t) :
    Stepped s (.mark j) { s with
      heap := s.heap.set i { t with entry := t.entry.update s.now .cancelled "cancelled by client" }
      cancels := s.cancels.set j (.marked i) }
  | callCancelFn (j i : Nat) (call : s.cancels[j]? = some (.marked i)) :
    Stepped s (.callCancelFn j) { s with cancels := s.cancels.set j (.returned i none) }
  | cleanup (expired : List String) : Stepped s (.cleanup expired) { s with tasks := eraseAll s.tasks expired }

theorem step_cases {s s' : System} {a : Action} (moved : step s a = some s') : Stepped s a s' := by
  cases a with simp only [step] at moved
  | advance duration => cases moved; exact .advance duration
  | call support name params id =>
    split at moved
    · cases moved; exact .called support name params id _
    · cases moved; exact .passed support name params id
  | finish i outcome =>
    split at moved
    · rename_i entry here
      cases moved
      exact .finish i outcome entry here
    · cases moved
  | setResult i =>
    split at moved
    · rename_i entry result here
      cases moved
      exact .setResult i entry result here
    · cases moved
  | update i =>
    split at moved
    · rename_i entry status message here
      cases moved
      exact .update i entry status message here
    · cases moved
  | cancel taskID =>
    split at moved
    · cases moved; exact .unknown taskID _
    · cases moved; exact .found taskID _
  | check j =>
    split at moved
    · rename_i taskID i call
      split at moved
      · rename_i t here
        split at moved
        · rename_i terminal
          cases moved
          exact .refused j i taskID _ t call here terminal
        · rename_i underway
          cases moved
          exact .checked j i taskID t call here (Bool.eq_false_iff.mpr underway)
      · cases moved
    · cases moved
  | mark j =>
    split at moved
    · rename_i i call
      split at moved
      · rename_i t here
        cases moved
        exact .mark j i t call here
      · cases moved
    · cases moved
  | callCancelFn j =>
    split at moved
    · rename_i i call
      cases moved
      exact .callCancelFn j i call
    · cases moved
  | cleanup expired =>
    split at moved
    · cases moved; exact .cleanup expired
    · cases moved

end Mcpkit.TaskModel
