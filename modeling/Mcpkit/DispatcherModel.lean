import Mcpkit.DispatcherQueue
import Mcpkit.Transitions

/-!
The dispatcher as a transition system: `Submit`, `Shutdown` and the workers.
-/
namespace Mcpkit.DispatcherModel
open GoMaps DispatcherQueue Transitions
variable {T : Type}

structure Config (T : Type) where
  workers : Int
  queueSize : Int
  groupLimits : GoMap Int
  defaultPriority : Int
  priorityFunc : Option (T → Int)
  groupFunc : Option (T → String)

variable (cfg : Config T)

def Config.withDefaults (procs : Int) : Config T :=
  { cfg with
    workers := if cfg.workers ≤ 0 then procs else cfg.workers
    queueSize := if cfg.queueSize ≤ 0 then 1000 else cfg.queueSize
    defaultPriority := if cfg.defaultPriority = 0 ∧ cfg.priorityFunc.isNone then priorityNormal
      else cfg.defaultPriority }

/-- A configuration with its defaults has workers and room in the queue. -/
structure Settings (T : Type) extends Config T where
  staffed : 0 < workers
  room : 0 < queueSize

def settings (procs : Int) (some : 0 < procs) : Settings T where
  toConfig := cfg.withDefaults procs
  staffed := by simp only [Config.withDefaults]; split <;> omega
  room := by simp only [Config.withDefaults]; split <;> omega

/-- A worker before the lock, in `cond.Wait`, in a handler, past it, past the send of the result, or gone. -/
inductive Phase (T : Type) where
  | ready
  | waiting
  | running (job : Job T)
  | handled (job : Job T)
  | sent (job : Job T)
  | exited
  deriving DecidableEq

def Phase.held : Phase T → Option (Job T)
  | .running job => some job
  | .handled job => some job
  | .sent job => some job
  | _ => none

def Phase.executing : Phase T → Option (Job T)
  | .running job => some job
  | _ => none

def Phase.finishing : Phase T → Option (Job T)
  | .handled job => some job
  | .sent job => some job
  | _ => none

def Phase.unsent : Phase T → Option (Job T)
  | .running job => some job
  | .handled job => some job
  | _ => none

structure Dispatcher (T : Type) where
  queue : List (Job T)
  groups : GroupManager
  seq : Nat
  closed : Bool
  submitted : Nat
  completed : Nat
  failed : Nat
  workers : List (Phase T)
  /-- The number of jobs handed to `Submit` so far: each is a value of its own. -/
  calls : Nat
  accepted : List Nat
  started : List Nat
  answered : List Nat

def new (cfg : Settings T) : Dispatcher T where
  queue := []
  groups := newGroupManager cfg.groupLimits
  seq := 0
  closed := false
  submitted := 0
  completed := 0
  failed := 0
  workers := List.replicate cfg.workers.toNat .ready
  calls := 0
  accepted := []
  started := []
  answered := []

/-- `cond.Broadcast`: the waiting workers are about to lock again. -/
def Phase.wake : Phase T → Phase T
  | .waiting => .ready
  | phase => phase

variable (d : Dispatcher T)

def Dispatcher.broadcast : Dispatcher T := { d with workers := d.workers.map Phase.wake }

variable (job : Job T)

/-- The priority and the group of a job, from the configured functions if set. -/
def Config.prepare : Job T :=
  let job := match cfg.priorityFunc with
    | some f => { job with priority := f job.tool }
    | none => if job.priority = 0 then { job with priority := cfg.defaultPriority } else job
  match cfg.groupFunc with
  | some f => { job with group := f job.tool }
  | none => job

/-- `Submit` up to the wait for the result; the sequence number is a `uint64`. -/
def Dispatcher.submit : Except String (Dispatcher T) :=
  let job := cfg.prepare job
  if d.closed then .error "dispatcher is shut down"
  else if d.queue.length ≥ cfg.queueSize then .error "dispatcher queue is full"
  else
    let seq := (d.seq+1) % 2^64
    .ok (Dispatcher.broadcast { d with
      seq := seq
      queue := BinaryHeap.push Job.less d.queue { job with seq := seq }
      submitted := d.submitted+1
      accepted := d.accepted ++ [job.id] })

def Dispatcher.shutdown : Dispatcher T := Dispatcher.broadcast { d with closed := true }

def Dispatcher.move (w : Nat) (phase : Phase T) : Dispatcher T :=
  { d with workers := d.workers.set w phase }

def Dispatcher.pick (w : Nat) : Dispatcher T :=
  match dequeue d.queue d.groups with
  | some (job,queue) =>
    { d with queue := queue, groups := d.groups.acquire job.group, started := d.started ++ [job.id] }.move w (.running job)
  | none => if d.closed ∧ d.queue.length = 0 then d.move w .exited else d.move w .waiting

inductive Action (T : Type) where
  | submit (tool : T) (priority : Int) (group : String)
  | shutdown
  | pick (w : Nat)
  | handle (w : Nat) (failed : Bool)
  | send (w : Nat)
  | release (w : Nat)

def step (cfg : Settings T) (d : Dispatcher T) : Action T → Option (Dispatcher T)
  | .submit tool priority group =>
    let called := { d with calls := d.calls+1 }
    match called.submit cfg.toConfig ⟨d.calls,tool,priority,group,0⟩ with
    | .ok d => some d
    | .error _ => some called
  | .shutdown => some d.shutdown
  | .pick w =>
    match d.workers[w]? with
    | some .ready => some (d.pick w)
    | _ => none
  | .handle w failed =>
    match d.workers[w]? with
    | some (.running job) =>
      some ({ d with completed := d.completed+1, failed := d.failed+if failed then 1 else 0 }.move w (.handled job))
    | _ => none
  | .send w =>
    match d.workers[w]? with
    | some (.handled job) => some ({ d with answered := d.answered ++ [job.id] }.move w (.sent job))
    | _ => none
  | .release w =>
    match d.workers[w]? with
    | some (.sent job) => some (Dispatcher.broadcast ({ d with groups := d.groups.release job.group }.move w .ready))
    | _ => none

/-! ### What a step can do -/

inductive Stepped (cfg : Settings T) (d : Dispatcher T) : Action T → Dispatcher T → Prop
  | rejected (tool : T) (priority : Int) (group message : String)
      (reason : d.closed = true ∧ message = "dispatcher is shut down" ∨
        d.closed = false ∧ cfg.queueSize ≤ d.queue.length ∧ message = "dispatcher queue is full") :
    Stepped cfg d (.submit tool priority group) { d with calls := d.calls+1 }
  | accepted (tool : T) (priority : Int) (group : String) (job : Job T) (seq : Nat) (new : job.id = d.calls)
      (opened : d.closed = false) (room : d.queue.length < cfg.queueSize) :
    Stepped cfg d (.submit tool priority group) (Dispatcher.broadcast { d with
      calls := d.calls+1
      seq := seq
      queue := BinaryHeap.push Job.less d.queue job
      submitted := d.submitted+1
      accepted := d.accepted ++ [job.id] })
  | shutdown : Stepped cfg d .shutdown (Dispatcher.broadcast { d with closed := true })
  | took (w i : Nat) (job : Job T) (idle : d.workers[w]? = some .ready) (first : FirstEligible d.queue d.groups i job) :
    Stepped cfg d (.pick w) ({ d with
      queue := BinaryHeap.remove Job.less d.queue i
      groups := d.groups.acquire job.group
      started := d.started ++ [job.id] }.move w (.running job))
  | left (w : Nat) (idle : d.workers[w]? = some .ready) (closed : d.closed = true) (empty : d.queue = []) :
    Stepped cfg d (.pick w) (d.move w .exited)
  | slept (w : Nat) (idle : d.workers[w]? = some .ready)
      (blocked : ∀ job ∈ d.queue, d.groups.canAcquire job.group = false)
      (reason : d.closed = false ∨ d.queue ≠ []) :
    Stepped cfg d (.pick w) (d.move w .waiting)
  | handled (w : Nat) (job : Job T) (failed : Bool) (total : Nat) (busy : d.workers[w]? = some (.running job)) :
    Stepped cfg d (.handle w failed) ({ d with completed := d.completed+1, failed := total }.move w (.handled job))
  | sent (w : Nat) (job : Job T) (busy : d.workers[w]? = some (.handled job)) :
    Stepped cfg d (.send w) ({ d with answered := d.answered ++ [job.id] }.move w (.sent job))
  | released (w : Nat) (job : Job T) (busy : d.workers[w]? = some (.sent job)) :
    Stepped cfg d (.release w) (Dispatcher.broadcast ({ d with groups := d.groups.release job.group }.move w .ready))

@[simp] theorem prepare_id : (cfg.prepare job).id = job.id := by
  unfold Config.prepare
  split <;> split <;> [rfl; rfl; (split <;> rfl); (split <;> rfl)]

private theorem submit_cases (cfg : Settings T) (d : Dispatcher T) (tool : T) (priority : Int) (group : String)
    (d' : Dispatcher T) (moved : step cfg d (.submit tool priority group) = some d') :
    Stepped cfg d (.submit tool priority group) d' := by
  simp only [step,Dispatcher.submit] at moved
  by_cases closed : d.closed = true
  · rw [if_pos closed] at moved
    cases moved
    exact .rejected tool priority group _ (.inl ⟨closed,rfl⟩)
  · rw [if_neg closed] at moved
    by_cases full : d.queue.length ≥ cfg.queueSize
    · rw [if_pos full] at moved
      cases moved
      exact .rejected tool priority group _ (.inr ⟨by simpa using closed,full,rfl⟩)
    · rw [if_neg full] at moved
      cases moved
      exact .accepted tool priority group
        { cfg.prepare ⟨d.calls,tool,priority,group,0⟩ with seq := (d.seq+1) % 2^64 } _
        (prepare_id cfg.toConfig ⟨d.calls,tool,priority,group,0⟩) (by simpa using closed) (by omega)

private theorem pick_cases (cfg : Settings T) (d : Dispatcher T) (w : Nat) (idle : d.workers[w]? = some .ready) :
    Stepped cfg d (.pick w) (d.pick w) := by
  unfold Dispatcher.pick
  cases taken : dequeue d.queue d.groups with
  | some pair =>
    obtain ⟨job,queue⟩ := pair
    obtain ⟨i,first,same⟩ := dequeue_some taken
    subst same
    exact .took w i job idle first
  | none =>
    have blocked := dequeue_none.mp taken
    by_cases finished : d.closed = true ∧ d.queue.length = 0
    · simp only [finished,and_self,↓reduceIte]
      exact .left w idle finished.1 (List.length_eq_zero_iff.mp finished.2)
    · simp only [finished,↓reduceIte]
      refine .slept w idle blocked ?_
      by_cases closed : d.closed = true
      · exact .inr fun empty => finished ⟨closed,by rw [empty]; rfl⟩
      · exact .inl (by simpa using closed)

theorem step_cases {cfg : Settings T} {d d' : Dispatcher T} {a : Action T} (moved : step cfg d a = some d') :
    Stepped cfg d a d' := by
  cases a with simp only [step] at moved
  | submit tool priority group => exact submit_cases cfg d tool priority group d' moved
  | shutdown => cases moved; exact .shutdown
  | pick w =>
    split at moved
    · rename_i idle
      cases moved
      exact pick_cases cfg d w idle
    · cases moved
  | handle w failed =>
    split at moved
    · rename_i job busy
      cases moved
      exact .handled w job failed _ busy
    · cases moved
  | send w =>
    split at moved
    · rename_i job busy
      cases moved
      exact .sent w job busy
    · cases moved
  | release w =>
    split at moved
    · rename_i job busy
      cases moved
      exact .released w job busy
    · cases moved

/-! ### A dispatcher with a blocked head -/

def sampleSettings : Settings Unit where
  workers := 2
  queueSize := 10
  groupLimits := (∅ : GoMap Int).insert "g" 1
  defaultPriority := priorityNormal
  priorityFunc := none
  groupFunc := none
  staffed := by decide
  room := by decide

/-- A job holds the group `g` while another one heads the heap, before a normal and a high job outside the group. -/
def sampleActions : List (Action Unit) :=
  [.submit () priorityCritical "g",.pick 0,.submit () priorityCritical "g",.submit () priorityNormal "",
    .submit () priorityHigh ""]

def sampleBlocked : Dispatcher Unit :=
  (exec (step sampleSettings) free (new sampleSettings) sampleActions).getD (new sampleSettings)

theorem sampleBlocked_reachable : Reachable (step sampleSettings) free (new sampleSettings) sampleBlocked :=
  exec_reachable sampleActions .start rfl

end Mcpkit.DispatcherModel
