import Mathlib.Data.List.Basic
import Mcpkit.GoMaps
import Mcpkit.Transitions

/-!
The A2A server. `tasks/send` puts a new task under its id and starts a dispatch, which finds the
task by the id each time it updates it.
-/
namespace Mcpkit.A2AServer
open GoMaps Transitions List Finmap Option

/-! ### Tasks and push configurations -/

inductive TaskState where
  | submitted
  | working
  | inputNeeded
  | completed
  | canceled
  | failed
  deriving DecidableEq

def TaskState.isTerminal : TaskState → Bool
  | .completed => true
  | .canceled => true
  | .failed => true
  | _ => false

/-- A part; `rest` is its file, data and metadata. -/
structure Part (X : Type) where
  type : String
  text : String
  rest : Option X
  deriving DecidableEq

def textPart {X : Type} (text : String) : Part X := ⟨"text",text,none⟩

structure Message (X : Type) where
  role : String
  parts : List (Part X)
  deriving DecidableEq

structure Task (X : Type) where
  id : String
  state : TaskState
  messages : List (Message X)
  metadata : GoMap String
  created : Int
  updated : Int
  deriving DecidableEq

structure PushNotificationConfig where
  id : String
  taskID : String
  url : String
  token : String
  authentication : Option (String × String)
  deriving DecidableEq

structure TaskSendParams (X : Type) where
  id : String
  messages : List (Message X)
  metadata : GoMap String
  pushNotification : Option PushNotificationConfig

structure RPCError where
  code : Int
  message : String
  deriving DecidableEq

/-- `url.Parse` as far as it is looked at: the scheme and the host. -/
abbrev ParseURL := String → Option (String × String)

/-- `fresh` is the id that `uuid.New` would give. -/
def normalizePushConfig (parse : ParseURL) (config : PushNotificationConfig) (fallbackTaskID fresh : String) :
    Except String PushNotificationConfig :=
  let taskID := if config.taskID = "" then fallbackTaskID else config.taskID
  if taskID = "" then .error "taskId is required"
  else if config.url = "" then .error "url is required"
  else match parse config.url with
  | none => .error "url must be an absolute HTTP(S) URL"
  | some (scheme,host) =>
    if scheme = "" ∨ host = "" then .error "url must be an absolute HTTP(S) URL"
    else if scheme ≠ "http" ∧ scheme ≠ "https" then .error "url must use http or https"
    else .ok { config with taskID := taskID, id := if config.id = "" then fresh else config.id }

/-! ### The server -/

section
variable {X : Type}

/-- The server, with its tasks behind pointers; `supported` is what the agent card says about push notifications. -/
structure Server (X : Type) where
  supported : Bool
  objects : List (Task X)
  tasks : GoMap Nat
  pushConfigs : GoMap (GoMap PushNotificationConfig)

variable (supported : Bool)

def newServer : Server X := ⟨supported,[],∅,∅⟩

variable (s : Server X)

def Server.task (id : String) : Option (Task X) := (s.tasks.lookup id).bind fun p => s.objects[p]?

def Server.configs (taskID : String) : GoMap PushNotificationConfig := (s.pushConfigs.lookup taskID).getD ∅

def Server.storePushConfigLocked (config : PushNotificationConfig) : Server X :=
  { s with pushConfigs := s.pushConfigs.insert config.taskID ((s.configs config.taskID).insert config.id config) }

def Server.clearPushConfigs (taskID : String) : Server X := { s with pushConfigs := s.pushConfigs.erase taskID }

def TaskSendParams.taskID (params : TaskSendParams X) (fresh : String) : String := if params.id = "" then fresh else params.id

variable (parse : ParseURL)

def Server.sentConfig (s : Server X) (params : TaskSendParams X) (fresh freshConfig : String) :
    Except RPCError (Option PushNotificationConfig) :=
  match params.pushNotification with
  | none => .ok none
  | some config =>
    if !s.supported then .error ⟨-32003,"push notifications not supported"⟩
    else match normalizePushConfig parse config (params.taskID fresh) freshConfig with
    | .error err => .error ⟨-32602,err⟩
    | .ok config => .ok (some { config with taskID := params.taskID fresh })

/-- The lock section of `handleTaskSend`. -/
def Server.addTask (task : Task X) (config : Option PushNotificationConfig) : Server X :=
  let added := { s with objects := s.objects ++ [task], tasks := s.tasks.insert task.id s.objects.length }
  match config with
  | none => added
  | some config => added.storePushConfigLocked config

def sentTask (params : TaskSendParams X) (fresh : String) (now : Int) : Task X :=
  ⟨params.taskID fresh,.submitted,params.messages,params.metadata,now,now⟩

def Server.createPushConfig (s : Server X) (config : PushNotificationConfig) (fresh : String) :
    Except RPCError (Server X × PushNotificationConfig) :=
  if !s.supported then .error ⟨-32003,"push notifications not supported"⟩
  else match normalizePushConfig parse config config.taskID fresh with
  | .error err => .error ⟨-32602,err⟩
  | .ok normalized =>
    if normalized.taskID ∈ s.tasks then .ok (s.storePushConfigLocked normalized,normalized)
    else .error ⟨-32001,"task not found"⟩

def Server.deletePushConfig (taskID configID : String) : Except RPCError (Server X) :=
  if !s.supported then .error ⟨-32003,"push notifications not supported"⟩
  else if taskID = "" ∨ configID = "" then .error ⟨-32602,"taskId and id are required"⟩
  else if taskID ∉ s.tasks then .error ⟨-32001,"task not found"⟩
  else match s.pushConfigs.lookup taskID with
  | none => .ok s
  | some configs =>
    let left := configs.erase configID
    .ok { s with pushConfigs := if left = ∅ then s.pushConfigs.erase taskID else s.pushConfigs.insert taskID left }

/-- The lock section: the server, the task as it is then, and the pointer to it if it was changed. -/
def Server.updateTask (taskID : String) (mutate : Task X → Option (Task X)) :
    Option (Server X × Task X × Option Nat) :=
  match s.tasks.lookup taskID with
  | none => none
  | some p =>
    match s.objects[p]? with
    | none => none
    | some task =>
      match mutate task with
      | none => some (s,task,none)
      | some changed => some ({ s with objects := s.objects.set p changed },changed,some p)

/-- What each mutation of the source does: nothing to a task that has ended. -/
def Task.move (state : TaskState) (more : List (Message X)) (now : Int) (task : Task X) : Option (Task X) :=
  if task.state.isTerminal then none
  else some { task with state := state, messages := task.messages ++ more, updated := now }

def taskText (messages : List (Message X)) : String :=
  messages.foldl (fun text msg =>
    if msg.role = "user" then
      msg.parts.foldl (fun text part => if part.type = "text" then text ++ (part.text ++ " ") else text) text
    else text) ""

def findBestTool (tools : List String) : String := tools.headD ""

def outcome (tools : List String) (text : String) : TaskState × Message X :=
  if findBestTool tools = "" then (.failed,⟨"agent",[textPart "no matching tool found for this task"]⟩)
  else (.completed,⟨"agent",[textPart ("dispatched to tool: " ++ findBestTool tools ++ " (input: " ++ text ++ ")")]⟩)

/-! ### Runs -/

/-- `dispatchTask`: before its first update, before its last one, gone. -/
inductive Phase (X : Type) where
  | started
  | matching (messages : List (Message X))
  | done
  deriving DecidableEq

/-- A dispatch; `object` is history: the task it was started for. -/
structure Dispatch (X : Type) where
  id : String
  object : Nat
  phase : Phase X
  deriving DecidableEq

/-- `clears` are the calls of `clearPushConfigs` to come. The rest is history: what `tasks/get` returned, the
    tasks of the dispatches, and what subscribers were told. -/
structure System (X : Type) where
  server : Server X
  dispatches : List (Dispatch X)
  clears : List String
  gets : List (String × Option (Task X))
  changes : List (Nat × Nat)
  notices : List (TaskState × GoMap PushNotificationConfig)

def new : System X := ⟨newServer supported,[],[],[],[],[]⟩

/-- `tools` is what the registry lists; `fresh` and `freshConfig` are new ids. -/
inductive Action (X : Type) where
  | send (params : TaskSendParams X) (fresh freshConfig : String) (now : Int)
  | get (id : String)
  | cancel (id : String) (now : Int)
  | createPushConfig (config : PushNotificationConfig) (fresh : String)
  | deletePushConfig (taskID configID : String)
  | work (k : Nat) (now : Int)
  | finish (k : Nat) (tools : List String) (now : Int)
  | clear (k : Nat)

/-- `notifyTaskUpdate` up to `clearPushConfigs`. -/
def System.notifyTaskUpdate (s : System X) (taskID : String) (state : TaskState) : System X :=
  if s.server.configs taskID = ∅ then s
  else { s with
    notices := s.notices ++ [(state,s.server.configs taskID)]
    clears := if state.isTerminal then s.clears ++ [taskID] else s.clears }

/-- `updateTask` for a mutation, up to `clearPushConfigs`. -/
def System.updateTask (s : System X) (taskID : String) (state : TaskState) (more : List (Message X)) (now : Int) :
    Option (System X × Task X × Option Nat) :=
  (s.server.updateTask taskID (Task.move state more now)).map (fun (server,task,changed) =>
    (match changed with
      | none => s
      | some _ => ({ s with server := server } : System X).notifyTaskUpdate taskID task.state,task,changed))

def System.setDispatch (s : System X) (k : Nat) (d : Dispatch X) (phase : Phase X) (changed : Option Nat) : System X :=
  { s with
    dispatches := s.dispatches.set k { d with phase := phase }
    changes := s.changes ++ (changed.map fun p => (d.object,p)).toList }

def step (s : System X) : Action X → Option (System X)
  | .send params fresh freshConfig now =>
    match s.server.sentConfig parse params fresh freshConfig with
    | .error _ => some s
    | .ok config =>
      some { s with
        server := s.server.addTask (sentTask params fresh now) config
        dispatches := s.dispatches ++ [⟨params.taskID fresh,s.server.objects.length,.started⟩] }
  | .get id => some { s with gets := s.gets ++ [(id,s.server.task id)] }
  | .cancel id now =>
    match s.updateTask id .canceled [] now with
    | none => some s
    | some (s,_,_) => some s
  | .createPushConfig config fresh =>
    match s.server.createPushConfig parse config fresh with
    | .error _ => some s
    | .ok (server,_) => some { s with server := server }
  | .deletePushConfig taskID configID =>
    match s.server.deletePushConfig taskID configID with
    | .error _ => some s
    | .ok server => some { s with server := server }
  | .work k now =>
    match s.dispatches[k]? with
    | some d =>
      match d.phase with
      | .started =>
        match s.updateTask d.id .working [] now with
        | none => some (s.setDispatch k d .done none)
        | some (s,task,changed) =>
          some (s.setDispatch k d (if task.state.isTerminal then .done else .matching task.messages) changed)
      | _ => none
    | none => none
  | .finish k tools now =>
    match s.dispatches[k]? with
    | some d =>
      match d.phase with
      | .matching messages =>
        let (state,message) := outcome tools (taskText messages)
        match s.updateTask d.id state [message] now with
        | none => some (s.setDispatch k d .done none)
        | some (s,_,changed) => some (s.setDispatch k d .done changed)
      | _ => none
    | none => none
  | .clear k =>
    match s.clears[k]? with
    | some id => some { s with server := s.server.clearPushConfigs id, clears := s.clears.eraseIdx k }
    | none => none

/-! ### Finality -/

/-- A task that `tasks/get` has shown to have ended. -/
def System.Seen (s : System X) (id : String) : Prop :=
  ∃ entry ∈ s.gets, entry.1 = id ∧ ∃ task, entry.2 = some task ∧ task.state.isTerminal = true

/-- No step of a dispatch of the id is to come, nor one that clears its configurations. -/
def System.Settled (s : System X) (id : String) : Prop :=
  id ∉ s.clears ∧ ∀ d ∈ s.dispatches, d.id = id → d.phase = .done

/-- The later answer to a `tasks/get` shows the ended task of the earlier one. -/
def Agrees (first later : String × Option (Task X)) : Prop :=
  first.1 = later.1 → ∀ task, first.2 = some task → task.state.isTerminal = true →
    ∃ again, later.2 = some again ∧ again.state = task.state ∧ again.messages = task.messages

structure Final (s : System X) : Prop where
  gets : s.gets.Pairwise Agrees
  changes : ∀ change ∈ s.changes, change.1 = change.2
  cleared : ∀ id task, s.server.task id = some task → task.state.isTerminal = true → s.Settled id → s.server.configs id = ∅

/-- A task is sent under the id of one that was seen to have ended, or that has a dispatch under way; or a push
    configuration is made for a task that has ended, and no step that clears its configurations is to come. -/
def Disturbs (s : System X) : Action X → Prop
  | .send params fresh freshConfig _ => (∃ config, s.server.sentConfig parse params fresh freshConfig = .ok config) ∧
      params.taskID fresh ∈ s.server.tasks ∧
      (s.Seen (params.taskID fresh) ∨ ∃ d ∈ s.dispatches, d.id = params.taskID fresh ∧ d.phase ≠ .done)
  | .createPushConfig config fresh => ∃ server normalized, s.server.createPushConfig parse config fresh = .ok (server,normalized) ∧
      (∃ task, s.server.task normalized.taskID = some task ∧ task.state.isTerminal = true) ∧ normalized.taskID ∉ s.clears
  | _ => False

/-! ### Pointers -/

/-- Every id has a task, and no two have the same. -/
structure Server.Valid : Prop where
  inside : ∀ id p, s.tasks.lookup id = some p → p < s.objects.length
  own : ∀ id id' p, s.tasks.lookup id = some p → s.tasks.lookup id' = some p → id = id'

variable {srv srv' : Server X}

theorem valid_new : (newServer supported : Server X).Valid :=
  ⟨fun id p found => by simp [newServer] at found,fun id id' p found => by simp [newServer] at found⟩

theorem configs_store (srv : Server X) (config : PushNotificationConfig) (id : String) :
    (srv.storePushConfigLocked config).configs id =
      if id = config.taskID then (srv.configs id).insert config.id config else srv.configs id := by
  unfold Server.storePushConfigLocked Server.configs
  by_cases own : id = config.taskID
  · subst own
    simp
  · simp [own,lookup_insert_of_ne]

theorem addTask_objects (srv : Server X) (task : Task X) (config : Option PushNotificationConfig) :
    (srv.addTask task config).objects = srv.objects ++ [task] ∧
    (srv.addTask task config).tasks = srv.tasks.insert task.id srv.objects.length := by
  cases config <;> exact ⟨rfl,rfl⟩

theorem Server.Valid.addTask (valid : srv.Valid) (task : Task X) (config : Option PushNotificationConfig) :
    (srv.addTask task config).Valid := by
  obtain ⟨objects,tasks⟩ := addTask_objects srv task config
  have cases {id : String} {p : Nat} (found : (srv.addTask task config).tasks.lookup id = some p) :
      id = task.id ∧ p = srv.objects.length ∨ srv.tasks.lookup id = some p ∧ p < srv.objects.length := by
    rw [tasks] at found
    by_cases own : id = task.id
    · subst own
      rw [lookup_insert] at found
      cases found
      exact .inl ⟨rfl,rfl⟩
    · rw [lookup_insert_of_ne _ own] at found
      exact .inr ⟨found,valid.inside id p found⟩
  refine ⟨fun id p found => ?_,fun id id' p found found' => ?_⟩
  · rw [objects,length_append,length_singleton]
    rcases cases found with ⟨-,rfl⟩ | ⟨-,inside⟩ <;> omega
  · rcases cases found with ⟨rfl,rfl⟩ | ⟨old,inside⟩
    · rcases cases found' with ⟨rfl,-⟩ | ⟨-,inside'⟩
      · rfl
      · omega
    · rcases cases found' with ⟨-,rfl⟩ | ⟨old',-⟩
      · omega
      · exact valid.own id id' p old old'

theorem task_addTask (valid : srv.Valid) (task : Task X) (config : Option PushNotificationConfig) (id : String) :
    (srv.addTask task config).task id = if id = task.id then some task else srv.task id := by
  obtain ⟨objects,tasks⟩ := addTask_objects srv task config
  unfold Server.task
  rw [objects,tasks]
  by_cases own : id = task.id
  · subst own
    rw [lookup_insert,if_pos rfl,bind_some,getElem?_concat_length]
  · rw [lookup_insert_of_ne _ own,if_neg own]
    cases found : srv.tasks.lookup id with
    | none => rfl
    | some p => exact getElem?_append_left (valid.inside id p found)

variable {state : TaskState} {more : List (Message X)} {task : Task X} {changed : Option Nat}

theorem updateTask_spec (valid : srv.Valid) {id : String} {now : Int}
    (updated : srv.updateTask id (Task.move state more now) = some (srv',task,changed)) :
    (srv' = srv ∧ changed = none ∧ srv.task id = some task ∧ task.state.isTerminal = true) ∨
    ∃ p old, changed = some p ∧ srv.tasks.lookup id = some p ∧ srv.task id = some old ∧ old.state.isTerminal = false ∧
      task.state = state ∧ srv'.Valid ∧ srv'.tasks = srv.tasks ∧ srv'.objects.length = srv.objects.length ∧
      srv'.pushConfigs = srv.pushConfigs ∧ ∀ other, srv'.task other = if other = id then some task else srv.task other := by
  unfold Server.updateTask at updated
  split at updated
  · cases updated
  · rename_i p found
    split at updated
    · cases updated
    · rename_i old here
      have there : srv.task id = some old := by
        rw [Server.task,found]
        exact here
      cases ended : old.state.isTerminal with
      | true =>
        simp only [Task.move,ended,if_true] at updated
        cases updated
        exact .inl ⟨rfl,rfl,there,ended⟩
      | false =>
        simp only [Task.move,ended,Bool.false_eq_true,if_false] at updated
        cases updated
        refine .inr ⟨p,old,rfl,found,there,ended,rfl,⟨?_,valid.own⟩,rfl,length_set,rfl,fun other => ?_⟩
        · intro other q found'
          rw [length_set]
          exact valid.inside other q found'
        · show (srv.tasks.lookup other).bind (fun q => (srv.objects.set p _)[q]?) = _
          by_cases own : other = id
          · subst own
            rw [found,if_pos rfl,bind_some,getElem?_set_self (valid.inside _ p found)]
          · rw [if_neg own]
            cases found' : srv.tasks.lookup other with
            | none => simp [Server.task,found']
            | some q =>
              have apart : p ≠ q := by
                rintro rfl
                exact own (valid.own other id p found' found)
              rw [Server.task,found',bind_some,bind_some,getElem?_set_ne apart]

variable {normalized : PushNotificationConfig} {parse}

theorem createPushConfig_ok {config : PushNotificationConfig} {fresh : String}
    (created : srv.createPushConfig parse config fresh = .ok (srv',normalized)) :
    normalized.taskID ∈ srv.tasks ∧ srv' = srv.storePushConfigLocked normalized := by
  unfold Server.createPushConfig at created
  split at created
  · cases created
  · split at created
    · cases created
    · split at created
      · rename_i known
        cases created
        exact ⟨known,rfl⟩
      · cases created

theorem deletePushConfig_ok {taskID configID : String} (deleted : srv.deletePushConfig taskID configID = .ok srv') :
    srv'.objects = srv.objects ∧ srv'.tasks = srv.tasks ∧ ∀ id, srv.configs id = ∅ → srv'.configs id = ∅ := by
  unfold Server.deletePushConfig at deleted
  split at deleted
  · cases deleted
  · split at deleted
    · cases deleted
    · split at deleted
      · cases deleted
      · split at deleted
        · cases deleted
          exact ⟨rfl,rfl,fun id empty => empty⟩
        · rename_i configs found
          cases deleted
          refine ⟨rfl,rfl,fun id empty => ?_⟩
          simp only [Server.configs] at empty ⊢
          by_cases own : id = taskID
          · subst own
            rw [found] at empty
            have none : configs = ∅ := empty
            subst none
            have left : (∅ : GoMap PushNotificationConfig).erase configID = ∅ := rfl
            simp [left]
          · split
            · rw [lookup_erase_ne own]
              exact empty
            · rw [lookup_insert_of_ne _ own]
              exact empty

/-! ### What every run keeps -/

structure Kept (s : System X) : Prop where
  valid : s.server.Valid
  dispatches : ∀ d ∈ s.dispatches, d.phase ≠ .done → s.server.tasks.lookup d.id = some d.object
  seen : ∀ entry ∈ s.gets, Agrees entry (entry.1,s.server.task entry.1)
  gets : s.gets.Pairwise Agrees
  changes : ∀ change ∈ s.changes, change.1 = change.2
  cleared : ∀ id task, s.server.task id = some task → task.state.isTerminal = true →
    s.server.configs id = ∅ ∨ id ∈ s.clears

theorem kept_new : Kept (new supported : System X) := by
  refine ⟨valid_new supported,fun _ member => absurd member not_mem_nil,
    fun _ member => absurd member not_mem_nil,.nil,fun _ member => absurd member not_mem_nil,?_⟩
  intro id task found
  simp [new,newServer,Server.task] at found

theorem Kept.final {s : System X} (kept : Kept s) : Final s := by
  refine ⟨kept.gets,kept.changes,fun id task found ended settled => ?_⟩
  exact (kept.cleared id task found ended).resolve_right settled.1

variable {s s' : System X}

theorem Kept.ended (kept : Kept s) {entry : String × Option (Task X)} (member : entry ∈ s.gets) {task now : Task X}
    (shown : entry.2 = some task) (ended : task.state.isTerminal = true) (found : s.server.task entry.1 = some now) :
    now.state.isTerminal = true := by
  obtain ⟨again,there,state,-⟩ := kept.seen entry member rfl task shown ended
  cases found.symm.trans there
  rw [state]
  exact ended

theorem mem_clears_notify {id other : String} (member : other ∈ s.clears) :
    other ∈ (s.notifyTaskUpdate id state).clears := by
  unfold System.notifyTaskUpdate
  split
  · exact member
  · split
    · exact mem_append_left _ member
    · exact member

/-- A step that ends a task leaves it without configurations, or is to clear them. -/
theorem cleared_notify (s : System X) {id : String} (ended : state.isTerminal = true) :
    s.server.configs id = ∅ ∨ id ∈ (s.notifyTaskUpdate id state).clears := by
  by_cases empty : s.server.configs id = ∅
  · exact .inl empty
  · right
    simp only [System.notifyTaskUpdate,empty,if_false,ended,if_true]
    exact mem_append_right _ (mem_singleton_self id)

theorem notify_same (s : System X) (id : String) (state : TaskState) :
    (s.notifyTaskUpdate id state).server = s.server ∧ (s.notifyTaskUpdate id state).dispatches = s.dispatches ∧
    (s.notifyTaskUpdate id state).gets = s.gets ∧ (s.notifyTaskUpdate id state).changes = s.changes := by
  unfold System.notifyTaskUpdate
  split <;> exact ⟨rfl,rfl,rfl,rfl⟩

theorem Kept.update (kept : Kept s) {id : String} {now : Int}
    (updated : s.updateTask id state more now = some (s',task,changed)) :
    Kept s' ∧ s'.dispatches = s.dispatches ∧ s'.server.tasks = s.server.tasks ∧
    ∀ p, changed = some p → s.server.tasks.lookup id = some p := by
  obtain ⟨⟨server,after,pointer⟩,inner,same⟩ := map_eq_some_iff.mp updated
  rcases updateTask_spec kept.valid inner with ⟨rfl,rfl,-,-⟩ | ⟨p,old,rfl,found,before,going,reached,valid,tasks,-,configs,others⟩
  · cases same
    exact ⟨kept,rfl,rfl,nofun⟩
  · cases same
    obtain ⟨server',dispatches',gets',changes'⟩ :=
      notify_same ({ s with server := server } : System X) id task.state
    have stored (other : String) : server.configs other = s.server.configs other := by
      rw [Server.configs,configs]
      rfl
    refine ⟨⟨?_,?_,?_,?_,?_,?_⟩,dispatches',?_,?_⟩
    · rw [server']
      exact valid
    · rw [server',dispatches']
      rw [tasks]
      exact kept.dispatches
    · rw [server',gets']
      intro entry member same task shown ended
      have apart : entry.1 ≠ id := by
        rintro rfl
        rw [kept.ended member shown ended before] at going
        cases going
      rw [others,if_neg apart]
      exact kept.seen entry member rfl task shown ended
    · rw [gets']
      exact kept.gets
    · rw [changes']
      exact kept.changes
    · rw [server']
      intro other task there ended
      have there' : server.task other = some task := there
      rw [others] at there'
      by_cases own : other = id
      · subst own
        rw [if_pos rfl] at there'
        cases there'
        exact cleared_notify ({ s with server := server } : System X) ended
      · rw [if_neg own] at there'
        rw [stored]
        rcases kept.cleared other task there' ended with empty | pending
        · exact .inl empty
        · exact .inr (mem_clears_notify (s := { s with server := server }) pending)
    · rw [server']
      exact tasks
    · rintro q ⟨⟩
      exact found

variable {d : Dispatch X}

section
variable (kept : Kept s)
include kept

theorem Kept.setDispatch {k : Nat} (member : d ∈ s.dispatches) (underway : d.phase ≠ .done)
    {phase : Phase X} (right : ∀ p, changed = some p → s.server.tasks.lookup d.id = some p) :
    Kept (s.setDispatch k d phase changed) := by
  have own := kept.dispatches d member underway
  refine ⟨kept.valid,fun other there going => ?_,kept.seen,kept.gets,fun change there => ?_,kept.cleared⟩
  · rcases mem_or_eq_of_mem_set there with old | rfl
    · exact kept.dispatches other old going
    · exact own
  · rcases mem_append.mp there with old | new
    · exact kept.changes change old
    · cases changed with
      | none => cases new
      | some p =>
        cases mem_singleton.mp new
        exact some.inj (own.symm.trans (right p rfl))

theorem Kept.send {params : TaskSendParams X} {fresh freshConfig : String} {now : Int}
    {config : Option PushNotificationConfig} (sent : s.server.sentConfig parse params fresh freshConfig = .ok config)
    (calm : ¬ Disturbs parse s (.send params fresh freshConfig now)) : Kept { s with
      server := s.server.addTask (sentTask params fresh now) config
      dispatches := s.dispatches ++ [⟨params.taskID fresh,s.server.objects.length,.started⟩] } := by
  have tasks := (addTask_objects s.server (sentTask params fresh now) config).2
  have others (id : String) := task_addTask kept.valid (sentTask params fresh now) config id
  refine ⟨kept.valid.addTask _ _,fun d member going => ?_,fun entry member same task shown ended => ?_,kept.gets,
    kept.changes,fun id task found ended => ?_⟩
  · rw [tasks]
    rcases mem_append.mp member with old | new
    · have found := kept.dispatches d old going
      have apart : d.id ≠ params.taskID fresh := by
        intro own
        have known := mem_of_lookup_eq_some found
        rw [own] at known
        exact calm ⟨⟨config,sent⟩,known,.inr ⟨d,old,own,going⟩⟩
      exact (lookup_insert_of_ne _ apart).trans found
    · cases mem_singleton.mp new
      exact lookup_insert _
  · obtain ⟨again,there,right⟩ := kept.seen entry member rfl task shown ended
    have apart : entry.1 ≠ params.taskID fresh := by
      intro own
      obtain ⟨p,known,-⟩ := bind_eq_some_iff.mp there
      have known := mem_of_lookup_eq_some known
      rw [own] at known
      exact calm ⟨⟨config,sent⟩,known,.inl ⟨entry,member,own,task,shown,ended⟩⟩
    refine ⟨again,?_,right⟩
    exact (others entry.1).trans ((if_neg apart).trans there)
  · have found' : (if id = params.taskID fresh then some (sentTask params fresh now) else s.server.task id) = some task :=
      (others id).symm.trans found
    by_cases own : id = params.taskID fresh
    · rw [if_pos own] at found'
      cases found'
      cases ended
    · rw [if_neg own] at found'
      have same : (s.server.addTask (sentTask params fresh now) config).configs id = s.server.configs id := by
        cases config with
        | none => rfl
        | some config =>
          have names : config.taskID = params.taskID fresh := by
            unfold Server.sentConfig at sent
            split at sent
            · cases sent
            · split at sent
              · cases sent
              · split at sent
                · cases sent
                · cases sent
                  rfl
          refine (configs_store _ config id).trans ?_
          rw [if_neg (names ▸ own)]
          rfl
      rcases kept.cleared id task found' ended with empty | pending
      · exact .inl (same.trans empty)
      · exact .inr pending

theorem Kept.createPushConfig {config : PushNotificationConfig} {fresh : String}
    {server : Server X} (created : s.server.createPushConfig parse config fresh = .ok (server,normalized))
    (calm : ¬ Disturbs parse s (.createPushConfig config fresh)) : Kept { s with server := server } := by
  obtain ⟨-,rfl⟩ := createPushConfig_ok created
  refine ⟨⟨kept.valid.inside,kept.valid.own⟩,kept.dispatches,kept.seen,kept.gets,kept.changes,fun id task found ended => ?_⟩
  have found' : s.server.task id = some task := found
  rw [configs_store]
  by_cases own : id = normalized.taskID
  · subst own
    right
    by_contra settled
    exact calm ⟨_,normalized,created,⟨task,found',ended⟩,settled⟩
  · rw [if_neg own]
    exact kept.cleared id task found' ended

theorem Kept.deletePushConfig {taskID configID : String} {server : Server X}
    (deleted : s.server.deletePushConfig taskID configID = .ok server) : Kept { s with server := server } := by
  obtain ⟨objects,tasks,empties⟩ := deletePushConfig_ok deleted
  have same (id : String) : server.task id = s.server.task id := by rw [Server.task,Server.task,objects,tasks]
  refine ⟨⟨?_,?_⟩,?_,fun entry member => ?_,kept.gets,kept.changes,fun id task found ended => ?_⟩
  · rw [objects,tasks]
    exact kept.valid.inside
  · rw [tasks]
    exact kept.valid.own
  · rw [tasks]
    exact kept.dispatches
  · rw [same]
    exact kept.seen entry member
  · rcases kept.cleared id task ((same id).symm.trans found) ended with empty | pending
    · exact .inl (empties id empty)
    · exact .inr pending

theorem Kept.clear {k : Nat} {id : String} (here : s.clears[k]? = some id) :
    Kept { s with server := s.server.clearPushConfigs id, clears := s.clears.eraseIdx k } := by
  refine ⟨⟨kept.valid.inside,kept.valid.own⟩,kept.dispatches,kept.seen,kept.gets,kept.changes,fun other task found ended => ?_⟩
  show ((s.server.pushConfigs.erase id).lookup other).getD ∅ = ∅ ∨ other ∈ s.clears.eraseIdx k
  by_cases own : other = id
  · subst own
    rw [lookup_erase]
    exact .inl rfl
  · rw [lookup_erase_ne own]
    rcases kept.cleared other task found ended with empty | pending
    · exact .inl empty
    · right
      obtain ⟨j,there⟩ := mem_iff_getElem?.mp pending
      refine mem_eraseIdx_iff_getElem?.mpr ⟨j,?_,there⟩
      rintro rfl
      exact own (some.inj (there.symm.trans here))

theorem Kept.get (id : String) : Kept { s with gets := s.gets ++ [(id,s.server.task id)] } := by
  refine ⟨kept.valid,kept.dispatches,forall_mem_snoc kept.seen ?_,?_,kept.changes,kept.cleared⟩
  · exact fun _ task shown ended => ⟨task,shown,rfl,rfl⟩
  · refine pairwise_append.mpr ⟨kept.gets,pairwise_singleton _ _,fun entry old new member => ?_⟩
    cases mem_singleton.mp member
    rintro rfl
    exact kept.seen entry old rfl

theorem Kept.updateDispatch {k : Nat} {now : Int} {phase : Phase X} (here : s.dispatches[k]? = some d)
    (underway : d.phase ≠ .done) (updated : s.updateTask d.id state more now = some (s',task,changed)) :
    Kept (s'.setDispatch k d phase changed) := by
  obtain ⟨kept',dispatches,tasks,pointer⟩ := kept.update updated
  exact kept'.setDispatch (dispatches ▸ mem_of_getElem? here) underway (tasks ▸ pointer)

theorem Kept.step {a : Action X} (calm : ¬ Disturbs parse s a) (stepped : step parse s a = some s') : Kept s' := by
  cases a with simp only [A2AServer.step] at stepped
  | send params fresh freshConfig now =>
    split at stepped
    · cases stepped
      exact kept
    · rename_i sent
      cases stepped
      exact kept.send sent calm
  | get id =>
    cases stepped
    exact kept.get id
  | cancel id now =>
    split at stepped
    · cases stepped
      exact kept
    · rename_i updated
      cases stepped
      exact (kept.update updated).1
  | createPushConfig config fresh =>
    split at stepped
    · cases stepped
      exact kept
    · rename_i created
      cases stepped
      exact kept.createPushConfig created calm
  | deletePushConfig taskID configID =>
    split at stepped
    · cases stepped
      exact kept
    · rename_i deleted
      cases stepped
      exact kept.deletePushConfig deleted
  | work k now =>
    split at stepped
    · rename_i d here
      split at stepped
      · rename_i started
        have underway : d.phase ≠ .done := by rw [started]; nofun
        split at stepped
        · cases stepped
          exact kept.setDispatch (mem_of_getElem? here) underway nofun
        · rename_i updated
          cases stepped
          exact kept.updateDispatch here underway updated
      · cases stepped
    · cases stepped
  | finish k tools now =>
    split at stepped
    · rename_i d here
      split at stepped
      · rename_i matching
        have underway : d.phase ≠ .done := by rw [matching]; nofun
        split at stepped
        · cases stepped
          exact kept.setDispatch (mem_of_getElem? here) underway nofun
        · rename_i updated
          cases stepped
          exact kept.updateDispatch here underway updated
      · cases stepped
    · cases stepped
  | clear k =>
    split at stepped
    · rename_i here
      cases stepped
      exact kept.clear here
    · cases stepped

end

/-! ### After a step that disturbs -/

theorem updateTask_of_ended {id : String} {now : Int} (found : s.server.task id = some task)
    (ended : task.state.isTerminal = true) : s.updateTask id state more now = some (s,task,none) := by
  obtain ⟨p,known,here⟩ := bind_eq_some_iff.mp found
  simp only [System.updateTask,Server.updateTask,known,here,Task.move,ended,if_true,map_some]

theorem updateTask_of_going {id : String} {p : Nat} (state : TaskState) (more : List (Message X)) (now : Int)
    (known : s.server.tasks.lookup id = some p) (here : s.server.objects[p]? = some task)
    (going : task.state.isTerminal = false) :
    ∃ s' task', s.updateTask id state more now = some (s',task',some p) := by
  simp only [System.updateTask,Server.updateTask,known,here,Task.move,going,Bool.false_eq_true,if_false,map_some]
  exact ⟨_,_,rfl⟩

/-- A dispatch that is under way takes its next step, and what it changes is on record. -/
theorem dispatch_changes (parse : ParseURL) {k : Nat} {p : Nat} (here : s.dispatches[k]? = some d)
    (underway : d.phase ≠ .done) (known : s.server.tasks.lookup d.id = some p)
    (object : s.server.objects[p]? = some task) (going : task.state.isTerminal = false) :
    ∃ s', Reachable (A2AServer.step parse) free s s' ∧ (d.object,p) ∈ s'.changes := by
  cases phase : d.phase with
  | started =>
    obtain ⟨t,task',updated⟩ := updateTask_of_going .working [] 0 known object going
    refine ⟨_,.next (.work k 0) .start trivial (by simp only [A2AServer.step,here,phase,updated]; rfl),?_⟩
    exact mem_append_right _ (mem_singleton_self _)
  | matching messages =>
    obtain ⟨t,task',updated⟩ := updateTask_of_going (outcome [] (taskText messages) : _ × Message X).1
      [(outcome [] (taskText messages)).2] 0 known object going
    refine ⟨_,.next (.finish k [] 0) .start trivial (by simp only [A2AServer.step,here,phase,updated]; rfl),?_⟩
    exact mem_append_right _ (mem_singleton_self _)
  | done => exact absurd phase underway

theorem dispatch_ends (parse : ParseURL) {k : Nat} (here : s.dispatches[k]? = some d)
    (underway : d.phase ≠ .done) (found : s.server.task d.id = some task) (ended : task.state.isTerminal = true) :
    Reachable (A2AServer.step parse) free s { s with dispatches := s.dispatches.set k { d with phase := .done } } := by
  have same : s.setDispatch k d .done none = { s with dispatches := s.dispatches.set k { d with phase := .done } } := by
    simp [System.setDispatch]
  rw [← same]
  cases phase : d.phase with
  | started =>
    refine .next (.work k 0) .start trivial ?_
    simp only [A2AServer.step,here,phase,updateTask_of_ended found ended,ended,if_true]
  | matching messages =>
    refine .next (.finish k [] 0) .start trivial ?_
    simp only [A2AServer.step,here,phase,updateTask_of_ended found ended]
  | done => exact absurd phase underway

def Dispatch.runs (id : String) (d : Dispatch X) : Bool :=
  decide (d.id = id) && match d.phase with
    | .done => false
    | _ => true

theorem runs_iff {id : String} : d.runs id = true ↔ d.id = id ∧ d.phase ≠ .done := by
  unfold Dispatch.runs
  cases d.phase <;> simp

theorem dispatches_end (parse : ParseURL) {id : String} (ended : task.state.isTerminal = true) (n : Nat) :
    ∀ {s : System X}, s.server.task id = some task → s.dispatches.countP (Dispatch.runs id) = n →
      ∃ s', Reachable (A2AServer.step parse) free s s' ∧ s'.server = s.server ∧ s'.clears = s.clears ∧
        ∀ d ∈ s'.dispatches, d.id = id → d.phase = .done := by
  induction n with
  | zero =>
    intro s found none
    refine ⟨s,.start,rfl,rfl,fun d member own => ?_⟩
    have still := List.countP_eq_zero.mp none d member
    by_contra going
    exact still (runs_iff.mpr ⟨own,going⟩)
  | succ n ih =>
    intro s found count
    have some_ : 0 < s.dispatches.countP (Dispatch.runs id) := by omega
    obtain ⟨d,member,runs⟩ := List.countP_pos_iff.mp some_
    obtain ⟨k,here⟩ := mem_iff_getElem?.mp member
    obtain ⟨inside,at_k⟩ := List.getElem?_eq_some_iff.mp here
    obtain ⟨own,going⟩ := runs_iff.mp runs
    have one := dispatch_ends parse here going (own ▸ found) ended
    have fewer : (s.dispatches.set k { d with phase := .done }).countP (Dispatch.runs id) = n := by
      have stopped : ({ d with phase := .done } : Dispatch X).runs id = false := by simp [Dispatch.runs]
      rw [countP_set inside,at_k,runs,stopped]
      simp
      omega
    obtain ⟨s',reached,rest⟩ := ih (s := { s with dispatches := s.dispatches.set k { d with phase := .done } }) found fewer
    exact ⟨s',one.trans reached,rest⟩

theorem Kept.breaks {a : Action X} (kept : Kept s) (disturbs : Disturbs parse s a)
    (stepped : A2AServer.step parse s a = some s') :
    ∃ s'', Reachable (A2AServer.step parse) free s' s'' ∧ ¬ Final s'' := by
  cases a with
  | send params fresh freshConfig now =>
    obtain ⟨⟨config,sent⟩,known,cause⟩ := disturbs
    simp only [A2AServer.step,sent,some.injEq] at stepped
    subst stepped
    obtain ⟨objects,tasks⟩ := addTask_objects s.server (sentTask params fresh now) config
    rcases cause with ⟨entry,member,own,task,shown,ended⟩ | ⟨d,member,own,going⟩
    · refine ⟨_,.next (.get (params.taskID fresh)) .start trivial rfl,fun final => ?_⟩
      have pairs := (pairwise_append.mp final.gets).2.2 entry member _ (mem_singleton_self _)
      obtain ⟨again,there,state,-⟩ := pairs own task shown ended
      have new := (task_addTask kept.valid (sentTask params fresh now) config (params.taskID fresh)).trans (if_pos rfl)
      cases new.symm.trans there
      rw [← state] at ended
      cases ended
    · have old := kept.dispatches d member going
      have inside := kept.valid.inside _ _ old
      obtain ⟨k,here⟩ := mem_iff_getElem?.mp member
      have found : (s.server.addTask (sentTask params fresh now) config).tasks.lookup d.id = some s.server.objects.length := by
        rw [tasks,own]
        exact lookup_insert _
      have object : (s.server.addTask (sentTask params fresh now) config).objects[s.server.objects.length]? =
          some (sentTask params fresh now) := by
        rw [objects]
        exact getElem?_concat_length
      obtain ⟨s'',reached,changed⟩ := dispatch_changes parse (s := { s with
        server := s.server.addTask (sentTask params fresh now) config
        dispatches := s.dispatches ++ [⟨params.taskID fresh,s.server.objects.length,.started⟩] }) (k := k) (d := d)
        (getElem?_append_some here) going found object rfl
      refine ⟨s'',reached,fun final => ?_⟩
      have same := final.changes _ changed
      omega
  | createPushConfig config fresh =>
    obtain ⟨server,normalized,created,⟨task,found,ended⟩,settled⟩ := disturbs
    obtain ⟨-,rfl⟩ := createPushConfig_ok created
    simp only [A2AServer.step,created,some.injEq] at stepped
    subst stepped
    obtain ⟨s'',reached,server,clears,done⟩ := dispatches_end parse ended _
      (s := { s with server := s.server.storePushConfigLocked normalized }) found rfl
    refine ⟨s'',reached,fun final => ?_⟩
    have empty := final.cleared normalized.taskID task (server ▸ found) ended ⟨clears ▸ settled,done⟩
    rw [server] at empty
    have stored := configs_store s.server normalized normalized.taskID
    have both := congrArg (fun configs => configs.lookup normalized.id) (stored.symm.trans empty)
    simp at both
  | _ => exact absurd disturbs id

/-- In every run in which no step disturbs, tasks are final. After a step that disturbs, they
    can be seen not to be. -/
theorem server_final_iff (parse : ParseURL) (supported : Bool)
    (reached : Reachable (A2AServer.step parse) (fun s a => ¬ Disturbs parse s a) (new supported) s) :
    Final s ∧ ∀ a s', Disturbs parse s a → A2AServer.step parse s a = some s' →
      ∃ s'', Reachable (A2AServer.step parse) free s' s'' ∧ ¬ Final s'' := by
  have kept : Kept s := reached.invariant (I := Kept) (kept_new supported)
    (fun s a s' kept calm moved => kept.step calm moved)
  exact ⟨kept.final,fun a s' disturbs stepped => kept.breaks disturbs stepped⟩

instance (s : System X) (id : String) : Decidable (s.Seen id) :=
  inferInstanceAs (Decidable (∃ entry ∈ s.gets, entry.1 = id ∧ ∃ task ∈ entry.2, task.state.isTerminal = true))

instance (phase : Phase X) : Decidable (phase ≠ .done) :=
  match phase with
  | .done => .isFalse fun going => going rfl
  | .started | .matching _ => .isTrue nofun

private instance isOk {ε α : Type} (x : Except ε α) (p : α → Prop) [DecidablePred p] : Decidable (∃ a, x = .ok a ∧ p a) :=
  match x with
  | .error _ => .isFalse nofun
  | .ok a => decidable_of_iff (p a) (by simp)

instance (parse : ParseURL) (s : System X) : ∀ a, Decidable (Disturbs parse s a)
  | .send params fresh freshConfig _ =>
    decidable_of_iff ((∃ config, s.server.sentConfig parse params fresh freshConfig = .ok config ∧ True) ∧
      params.taskID fresh ∈ s.server.tasks ∧
      (s.Seen (params.taskID fresh) ∨ ∃ d ∈ s.dispatches, d.id = params.taskID fresh ∧ d.phase ≠ .done))
      (by simp [Disturbs])
  | .createPushConfig config fresh =>
    decidable_of_iff (∃ made, s.server.createPushConfig parse config fresh = .ok made ∧
      ((∃ task ∈ s.server.task made.2.taskID, task.state.isTerminal = true) ∧ made.2.taskID ∉ s.clears))
      (by simp [Disturbs])
  | .get _ | .cancel _ _ | .deletePushConfig _ _ | .work _ _ | .finish _ _ _ | .clear _ => .isFalse id

end

def sampleParse : ParseURL := fun _ => some ("https","host")

def sampleSend : Action Unit := .send ⟨"t",[⟨"user",[textPart "hi"]⟩],∅,none⟩ "" "" 0

def sampleConfig : PushNotificationConfig := ⟨"c","t","https://host","",none⟩

def sampleRun : List (Action Unit) :=
  [sampleSend,.createPushConfig sampleConfig "",.work 0 1,.finish 0 ["search"] 2,.clear 0,.get "t"]

def sampleShown : System Unit :=
  (exec (step sampleParse) (fun s a => ¬ Disturbs sampleParse s a) (new true) sampleRun).getD (new true)

def sampleResent : System Unit :=
  (exec (step sampleParse) free (new true) (sampleRun ++ [sampleSend,.get "t"])).getD (new true)

def sampleCrossed : System Unit :=
  (exec (step sampleParse) free (new true) [sampleSend,sampleSend,.work 0 1]).getD (new true)

def sampleStuck : System Unit :=
  (exec (step sampleParse) free (new true) (sampleRun ++ [.createPushConfig sampleConfig ""])).getD (new true)

theorem server_final_sample :
    sampleShown.gets.map (fun entry => entry.2.map Task.state) = [some .completed] ∧ sampleShown.changes = [(0,0),(0,0)] ∧
    sampleShown.server.configs "t" = ∅ ∧ Final sampleShown :=
  ⟨by decide,by decide,by decide,
    (server_final_iff sampleParse true (exec_reachable sampleRun .start rfl)).1⟩

/-- A completed task is shown as submitted; a dispatch changes another task; a completed task keeps its subscriber. -/
theorem resend_and_subscribe_break_finality : Reachable (step sampleParse) free (new true) sampleResent ∧
    sampleResent.gets.map (fun entry => entry.2.map Task.state) = [some .completed,some .submitted] ∧
    Reachable (step sampleParse) free (new true) sampleCrossed ∧ (0,1) ∈ sampleCrossed.changes ∧
    Reachable (step sampleParse) free (new true) sampleStuck ∧
    (sampleStuck.server.task "t").map Task.state = some .completed ∧ sampleStuck.server.configs "t" ≠ ∅ ∧
    ¬ Final sampleResent ∧ ¬ Final sampleCrossed ∧ ¬ Final sampleStuck := by
  have shown : sampleResent.gets.map (fun entry => (entry.1,entry.2.map Task.state)) =
      [("t",some .completed),("t",some .submitted)] := by decide
  have changed : (0,1) ∈ sampleCrossed.changes := by decide
  have state : (sampleStuck.server.task "t").map Task.state = some .completed := by decide
  have stored : sampleStuck.server.configs "t" ≠ ∅ := by decide
  refine ⟨exec_reachable (sampleRun ++ [sampleSend,.get "t"]) .start rfl,by decide,
    exec_reachable [sampleSend,sampleSend,.work 0 1] .start rfl,changed,
    exec_reachable (sampleRun ++ [.createPushConfig sampleConfig ""]) .start rfl,state,stored,
    fun final => ?_,fun final => ?_,fun final => ?_⟩
  · obtain ⟨first,rest,list,one,two⟩ := map_eq_cons_iff.mp shown
    obtain ⟨later,only,last⟩ := map_eq_singleton_iff.mp two
    have pairs := final.gets
    rw [list,only] at pairs
    have agrees := (pairwise_cons.mp pairs).1 later (mem_singleton_self later)
    obtain ⟨names,before⟩ := Prod.mk.inj one
    obtain ⟨names',after⟩ := Prod.mk.inj last
    obtain ⟨task,task_is,completed⟩ := map_eq_some_iff.mp before
    obtain ⟨again,again_is,same,-⟩ := agrees (names.trans names'.symm) task task_is (by rw [completed]; rfl)
    rw [again_is,map_some,same,completed] at after
    cases after
  · exact absurd (final.changes _ changed) (by decide)
  · obtain ⟨task,found,completed⟩ := map_eq_some_iff.mp state
    refine stored (final.cleared "t" task found (by rw [completed]; rfl) ⟨by decide,?_⟩)
    decide

/-! ### Ended tasks -/

/-- What had ended is as it was. -/
def Ended (s t : System X) : Prop := ∀ (p : Nat) task, s.server.objects[p]? = some task → task.state.isTerminal = true →
  t.server.objects[p]? = some task

theorem ended_of_objects (same : s'.server.objects = s.server.objects) : Ended s s' := fun _ _ there _ => same ▸ there

theorem updateTask_ended {id : String} {now : Int}
    (updated : s.updateTask id state more now = some (s',task,changed)) : Ended s s' := by
  intro q ended there terminal
  obtain ⟨⟨server,task,changed⟩,moved,same⟩ := map_eq_some_iff.mp updated
  unfold Server.updateTask at moved
  split at moved
  · cases moved
  · rename_i p found
    split at moved
    · cases moved
    · rename_i old here
      split at moved
      · cases moved
        cases same
        exact there
      · rename_i change
        cases moved
        cases same
        have apart : p ≠ q := by
          rintro rfl
          cases here.symm.trans there
          simp [Task.move,terminal] at change
        rw [(notify_same _ id _).1]
        exact (getElem?_set_ne apart).trans there

theorem step_ended {a : Action X} (moved : step parse s a = some s') : Ended s s' := by
  cases a with simp only [step] at moved
  | send params fresh freshConfig now =>
    split at moved <;> cases moved
    · exact ended_of_objects rfl
    · intro p task there _
      simp only [(addTask_objects _ _ _).1,getElem?_append_some there]
  | get id => cases moved; exact ended_of_objects rfl
  | cancel id now =>
    split at moved <;> cases moved
    · exact ended_of_objects rfl
    · exact updateTask_ended ‹_›
  | createPushConfig config fresh =>
    split at moved <;> cases moved
    · exact ended_of_objects rfl
    · rename_i created
      obtain ⟨-,rfl⟩ := createPushConfig_ok created
      exact ended_of_objects rfl
  | deletePushConfig taskID configID =>
    split at moved <;> cases moved
    · exact ended_of_objects rfl
    · rename_i deleted
      exact ended_of_objects (deletePushConfig_ok deleted).1
  | work k now | finish k tools now =>
    split at moved
    · split at moved
      · split at moved <;> cases moved
        · exact ended_of_objects rfl
        · rename_i updated
          exact fun p task there => updateTask_ended updated p task there
      · cases moved
    · cases moved
  | clear k =>
    split at moved <;> cases moved
    exact ended_of_objects rfl

/-- Whatever is sent, a task that has ended never changes; only its id can become that of another one. -/
theorem always_ended (parse : ParseURL) (s : System X) (actions : List (Action X)) :
    Always (step parse) (Ended s) s actions :=
  always_of_preserved (fun ended moved p task there terminal =>
    step_ended moved p task (ended p task there terminal) terminal) actions (ended_of_objects rfl)

end Mcpkit.A2AServer
