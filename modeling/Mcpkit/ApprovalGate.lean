import Mcpkit.GoMaps
import Mcpkit.Transitions

/-!
The approval gate. The middleware submits a request to the store, polls the store for a response
and calls the tool's handler if the response approves.
-/
namespace Mcpkit.ApprovalGate
open GoMaps Transitions List Finmap Option
variable {R : Type}

/-! ### The store -/

inductive Decision where
  | approved
  | denied
  | modified
  | other (text : String)
  deriving DecidableEq

structure ApprovalRequest where
  id : String
  toolName : String
  action : String
  context : String
  urgency : String
  expiresAt : Option Int
  createdAt : Int
  deriving DecidableEq

structure ApprovalResponse where
  requestID : String
  decision : Decision
  value : String
  comment : String
  timestamp : Int
  deriving DecidableEq

structure InMemoryApprovalStore where
  requests : GoMap ApprovalRequest
  responses : GoMap ApprovalResponse

def newInMemoryApprovalStore : InMemoryApprovalStore := ⟨∅,∅⟩

variable (quote : String → String) (st : InMemoryApprovalStore)

def InMemoryApprovalStore.submit (req : ApprovalRequest) :
    Except String InMemoryApprovalStore :=
  if req.id ∈ st.requests then .error ("hitools: approval request " ++ quote req.id ++ " already exists")
  else .ok { st with requests := st.requests.insert req.id req }

def InMemoryApprovalStore.respond (resp : ApprovalResponse) :
    Except String InMemoryApprovalStore :=
  if resp.requestID ∉ st.requests then
    .error ("hitools: approval request " ++ quote resp.requestID ++ " not found")
  else if resp.requestID ∈ st.responses then
    .error ("hitools: approval request " ++ quote resp.requestID ++ " already resolved")
  else .ok { st with responses := st.responses.insert resp.requestID resp }

def InMemoryApprovalStore.getResponse (requestID : String) : Option ApprovalResponse :=
  st.responses.lookup requestID

/-! ### The middleware -/

/-- A tool and the arguments it is called with, as `%v` prints them if there are any. -/
structure Tool where
  name : String
  toolName : String
  description : String
  arguments : Option String
  deriving DecidableEq

structure ApprovalMiddlewareConfig where
  shouldApprove : Option (Tool → Bool)
  defaultUrgency : String
  timeout : Int
  quote : String → String

variable (config : ApprovalMiddlewareConfig) (tool : Tool)

def ApprovalMiddlewareConfig.gates : Bool :=
  match config.shouldApprove with
  | none => false
  | some shouldApprove => shouldApprove tool

def formatToolContext : String :=
  let desc := if tool.description = "" then tool.toolName else tool.description
  match tool.arguments with
  | none => "Tool: " ++ tool.toolName ++ "\nDescription: " ++ desc
  | some args => "Tool: " ++ tool.toolName ++ "\nDescription: " ++ desc ++ "\nArguments: " ++ args

def approvalRequest (id : String) (now : Int) : ApprovalRequest where
  id := id
  toolName := tool.name
  action := "Execute tool " ++ config.quote tool.name
  context := formatToolContext tool
  urgency := if config.defaultUrgency = "" then "normal" else config.defaultUrgency
  expiresAt := if 0 < config.timeout then some (now+config.timeout) else none
  createdAt := now

inductive Result (R : Type) where
  | error (text : String)
  | handler (outcome : R)
  deriving DecidableEq

/-- A call; `submitting` is before `Submit`, and `polling` before a turn of the loop with its `select`. -/
inductive Phase (R : Type) where
  | called
  | submitting (req : ApprovalRequest)
  | notifying
  | polling (deadline : Option Int) (interval : Int)
  | selecting (deadline : Option Int) (interval since : Int)
  | responding (resp : ApprovalResponse)
  | running
  | returned (result : Result R)
  deriving DecidableEq

/-- `cancelled` and `entered` are history: the responses that the store had taken when the context was cancelled,
    and how often the handler was entered. -/
structure Call (R : Type) where
  tool : Tool
  phase : Phase R
  request : Option ApprovalRequest
  cancelled : Option Nat
  entered : Nat
  deriving DecidableEq

/-- What a call does next; `generate` with the random id or the error, `done` and `timer` are
    the cases of the `select`. -/
inductive Move (R : Type) where
  | generate (id : Except String String)
  | submit
  | wait
  | poll
  | done
  | timer
  | decide
  | finish (outcome : R)

variable (call : Call R)

def Call.enter : Call R := { call with phase := .running, entered := call.entered+1 }

def Call.fail (text : String) : Call R := { call with phase := .returned (.error text) }

def backOff (interval : Int) : Int :=
  if interval < 500000000 then
    if 500000000 < interval*2 then 500000000 else interval*2
  else interval

def Call.generate (config : ApprovalMiddlewareConfig) (now : Int) (call : Call R) (id : Except String String) : Call R :=
  if config.gates call.tool then
    match id with
    | .error err => call.fail ("[APPROVAL_ERROR] failed to generate request ID: hitools: generate approval ID: " ++ err)
    | .ok id => { call with phase := .submitting (approvalRequest config call.tool id now) }
  else call.enter

def Call.done (deadline : Option Int) (now : Int) : Bool :=
  call.cancelled.isSome || deadline.any fun deadline => decide (deadline ≤ now)

def Call.act (resp : ApprovalResponse) : Call R :=
  match resp.decision with
  | .approved => call.enter
  | .modified => call.enter
  | .denied =>
    call.fail (if resp.comment = "" then "[APPROVAL_DENIED] tool call denied by human"
      else "[APPROVAL_DENIED] " ++ resp.comment)
  | .other text => call.fail ("[APPROVAL_ERROR] unknown decision: " ++ config.quote text)

def Call.move (st : InMemoryApprovalStore) (now : Int) (call : Call R) :
    Move R → Option (Call R × InMemoryApprovalStore)
  | .generate id =>
    match call.phase with
    | .called => some (call.generate config now id,st)
    | _ => none
  | .submit =>
    match call.phase with
    | .submitting req =>
      match st.submit config.quote req with
      | .error err => some (call.fail ("[APPROVAL_ERROR] failed to submit request: " ++ err),st)
      | .ok st => some ({ call with phase := .notifying, request := some req },st)
    | _ => none
  | .wait =>
    match call.phase with
    | .notifying =>
      let deadline := if 0 < config.timeout then some (now+config.timeout) else none
      some ({ call with phase := .polling deadline 50000000 },st)
    | _ => none
  | .poll =>
    match call.phase,call.request with
    | .polling deadline interval,some req =>
      match st.getResponse req.id with
      | some resp => some ({ call with phase := .responding resp },st)
      | none => some ({ call with phase := .selecting deadline interval now },st)
    | _,_ => none
  | .done =>
    match call.phase,call.request with
    | .selecting deadline _ _,some req =>
      if call.done deadline now then
        some (call.fail ("[APPROVAL_TIMEOUT] approval request " ++ config.quote req.id ++ " timed out or was cancelled"),st)
      else none
    | _,_ => none
  | .timer =>
    match call.phase with
    | .selecting deadline interval since =>
      if since+interval ≤ now then some ({ call with phase := .polling deadline (backOff interval) },st) else none
    | _ => none
  | .decide =>
    match call.phase with
    | .responding resp => some (call.act config resp,st)
    | _ => none
  | .finish outcome =>
    match call.phase with
    | .running => some ({ call with phase := .returned (.handler outcome) },st)
    | _ => none

/-! ### Runs -/

/-- `accepted` is history: the responses that the store has taken, with the time. -/
structure System (R : Type) where
  store : InMemoryApprovalStore
  now : Int
  calls : List (Call R)
  accepted : List (ApprovalResponse × Int)

def new (now : Int) : System R := ⟨newInMemoryApprovalStore,now,[],[]⟩

inductive Action (R : Type) where
  | call (tool : Tool)
  | run (i : Nat) (move : Move R)
  | respond (resp : ApprovalResponse)
  | cancel (i : Nat)
  | advance (time : Nat)

variable (s : System R)

def step : Action R → Option (System R)
  | .call tool => some { s with calls := s.calls ++ [⟨tool,.called,none,none,0⟩] }
  | .run i move =>
    match s.calls[i]? with
    | some call =>
      (call.move config s.store s.now move).map fun (call,st) => { s with store := st, calls := s.calls.set i call }
    | none => none
  | .respond resp =>
    match s.store.respond config.quote resp with
    | .error _ => some s
    | .ok st => some { s with store := st, accepted := s.accepted ++ [(resp,s.now)] }
  | .cancel i =>
    match s.calls[i]? with
    | some call =>
      some { s with calls := s.calls.set i { call with cancelled := some (call.cancelled.getD s.accepted.length) } }
    | none => none
  | .advance time => some { s with now := s.now+time }

/-! ### The gate -/

def Decision.proceeds : Decision → Bool
  | .approved => true
  | .modified => true
  | _ => false

/-- The response came before the request had expired and before the context was cancelled. -/
def Timely (req : ApprovalRequest) (k : Nat) (time : Int) : Prop :=
  (∀ deadline, req.expiresAt = some deadline → time ≤ deadline) ∧ ∀ n, call.cancelled = some n → k < n

variable (accepted : List (ApprovalResponse × Int))

structure Answers (call : Call R) (req : ApprovalRequest) (k : Nat)
    (resp : ApprovalResponse) (time : Int) : Prop where
  request : call.request = some req
  taken : accepted[k]? = some (resp,time)
  names : resp.requestID = req.id

def System.ids : List (Option String) :=
  s.calls.map fun call => call.request.map ApprovalRequest.id

structure Gate : Prop where
  once : ∀ call ∈ s.calls, call.entered ≤ 1
  approved : ∀ call ∈ s.calls, config.gates call.tool = true → call.entered ≠ 0 →
    ∃ req k resp time, Answers s.accepted call req k resp time ∧ resp.decision.proceeds = true ∧ Timely call req k time
  refused : ∀ call ∈ s.calls, config.gates call.tool = true → ∀ req k resp time,
    Answers s.accepted call req k resp time → ¬ (resp.decision.proceeds = true ∧ Timely call req k time) → call.entered = 0
  own : ∀ (i j : Nat) (id : String), s.ids[i]? = some (some id) → s.ids[j]? = some (some id) → i = j
  single : s.accepted.Pairwise fun first later => first.1.requestID ≠ later.1.requestID

def Phase.waits : Phase R → Bool
  | .notifying => true
  | .polling _ _ => true
  | .selecting _ _ _ => true
  | _ => false

/-- The store takes a response that lets a waiting call go on, when its request has expired
    or its context was cancelled. -/
def Late : Action R → Prop
  | .respond resp => resp.decision.proceeds = true ∧ resp.requestID ∉ s.store.responses ∧
      ∃ call ∈ s.calls, call.phase.waits = true ∧ ∃ req, call.request = some req ∧ req.id = resp.requestID ∧
        ((∃ deadline, req.expiresAt = some deadline ∧ deadline < s.now) ∨ ∃ n, call.cancelled = some n)
  | _ => False

/-! ### What every run keeps -/

def Phase.before : Phase R → Bool
  | .running => false
  | .returned _ => false
  | _ => true

def Phase.asks : Phase R → Bool
  | .responding _ => true
  | phase => phase.waits

def Phase.gated : Phase R → Bool
  | .submitting _ => true
  | phase => phase.asks

structure Call.Fine (call : Call R) : Prop where
  fresh : call.phase.before = true → call.entered = 0
  once : call.entered ≤ 1
  asked : call.phase.asks = true → ∃ req, call.request = some req
  answered : ∀ resp, call.phase = .responding resp → ∃ req k time, Answers accepted call req k resp time
  timely : call.phase.asks = true → ∀ req k resp time, Answers accepted call req k resp time →
    resp.decision.proceeds = true → Timely call req k time
  approved : config.gates call.tool = true → call.entered ≠ 0 →
    ∃ req k resp time, Answers accepted call req k resp time ∧ resp.decision.proceeds = true ∧ Timely call req k time
  gated : call.phase.gated = true → config.gates call.tool = true
  past : ∀ n, call.cancelled = some n → n ≤ accepted.length

def Taken (st : InMemoryApprovalStore) (accepted : List (ApprovalResponse × Int)) : Prop :=
  ∀ id resp, st.responses.lookup id = some resp ↔
    ∃ (k : Nat) (time : Int), accepted[k]? = some (resp,time) ∧ resp.requestID = id

structure Kept : Prop where
  calls : ∀ call ∈ s.calls, call.Fine config s.accepted
  own : ∀ (i j : Nat) (id : String), s.ids[i]? = some (some id) → s.ids[j]? = some (some id) → i = j
  stored : ∀ (i : Nat) (id : String), s.ids[i]? = some (some id) → id ∈ s.store.requests
  known : ∀ entry ∈ s.accepted, entry.1.requestID ∈ s.store.requests
  taken : Taken s.store s.accepted
  single : s.accepted.Pairwise fun first later => first.1.requestID ≠ later.1.requestID

theorem kept_new (now : Int) : Kept config (new now : System R) := by
  refine ⟨fun _ member => absurd member not_mem_nil,nofun,nofun,
    fun _ member => absurd member not_mem_nil,fun id resp => ?_,.nil⟩
  simp [new,newInMemoryApprovalStore]

theorem Answers.unique {accepted : List (ApprovalResponse × Int)} {call : Call R} {req req' : ApprovalRequest} {k k' : Nat}
    {resp resp' : ApprovalResponse} {time time' : Int}
    (single : accepted.Pairwise fun first later => first.1.requestID ≠ later.1.requestID)
    (one : Answers accepted call req k resp time) (two : Answers accepted call req' k' resp' time') :
    req = req' ∧ k = k' ∧ resp = resp' ∧ time = time' := by
  have same : req = req' := Option.some.inj (one.request.symm.trans two.request)
  subst same
  have ids : resp.requestID = resp'.requestID := one.names.trans two.names.symm
  obtain ⟨inside,here⟩ := List.getElem?_eq_some_iff.mp one.taken
  obtain ⟨inside',here'⟩ := List.getElem?_eq_some_iff.mp two.taken
  have pairs := List.pairwise_iff_getElem.mp single
  have places : k = k' := by
    rcases Nat.lt_trichotomy k k' with less | same | more
    · have apart := pairs k k' inside inside' less
      rw [here,here'] at apart
      exact absurd ids apart
    · exact same
    · have apart := pairs k' k inside' inside more
      rw [here,here'] at apart
      exact absurd ids.symm apart
  subst places
  cases one.taken.symm.trans two.taken
  exact ⟨rfl,rfl,rfl,rfl⟩

theorem Kept.gate {config : ApprovalMiddlewareConfig} {s : System R} (kept : Kept config s) : Gate config s := by
  refine ⟨fun call member => (kept.calls call member).once,fun call member => (kept.calls call member).approved,
    fun call member gated req k resp time answers refused => ?_,kept.own,kept.single⟩
  by_contra entered
  obtain ⟨req',k',resp',time',answers',proceeds,timely⟩ := (kept.calls call member).approved gated entered
  obtain ⟨rfl,rfl,rfl,rfl⟩ := answers.unique kept.single answers'
  exact refused ⟨proceeds,timely⟩

open Call

section
variable {config accepted} {call call' : Call R}
  {st st' : InMemoryApprovalStore} {now : Int}

section
variable (fine : call.Fine config accepted)
include fine

theorem Call.Fine.fail (before : call.phase.before = true) (text : String) : (call.fail text).Fine config accepted :=
  ⟨nofun,fine.once,nofun,nofun,nofun,fun _ entered => absurd (fine.fresh before) entered,nofun,fine.past⟩

theorem Call.Fine.enter (before : call.phase.before = true)
    (approved : config.gates call.tool = true → ∃ req k resp time, Answers accepted call req k resp time ∧
      resp.decision.proceeds = true ∧ Timely call req k time) : call.enter.Fine config accepted := by
  refine ⟨nofun,?_,nofun,nofun,nofun,fun gated _ => ?_,nofun,fine.past⟩
  · show call.entered+1 ≤ 1
    rw [fine.fresh before]
  · obtain ⟨req,k,resp,time,⟨request,taken,names⟩,rest⟩ := approved gated
    exact ⟨req,k,resp,time,⟨request,taken,names⟩,rest⟩

theorem Call.Fine.stay (asks : call.phase.asks = true) (before : call.phase.before = true)
    {phase : Phase R} (waits : phase.waits = true) : ({ call with phase := phase } : Call R).Fine config accepted := by
  have unentered := fine.fresh before
  have gated := fine.gated (by cases phase : call.phase <;> simp_all [Phase.gated,Phase.asks,Phase.waits])
  refine ⟨fun _ => unentered,fine.once,fun _ => fine.asked asks,?_,?_,fun _ entered => absurd unentered entered,
    fun _ => gated,fine.past⟩
  · rintro resp rfl
    cases waits
  · rintro - req k resp time ⟨request,taken,names⟩ proceeds
    exact fine.timely asks req k resp time ⟨request,taken,names⟩ proceeds

theorem Call.Fine.generate (called : call.phase = .called) (id : Except String String) :
    (call.generate config now id).Fine config accepted := by
  have before : call.phase.before = true := by rw [called]; rfl
  have unentered := fine.fresh before
  unfold Call.generate
  split
  · rename_i gated
    split
    · exact fine.fail before _
    · exact ⟨fun _ => unentered,fine.once,nofun,nofun,nofun,fun _ entered => absurd unentered entered,fun _ => gated,
        fine.past⟩
  · rename_i ungated
    exact fine.enter before fun gated => absurd gated ungated

end

variable {resp : ApprovalResponse}

theorem Call.Fine.act (fine : call.Fine config accepted) (responding : call.phase = .responding resp) :
    (call.act config resp).Fine config accepted := by
  have before : call.phase.before = true := by rw [responding]; rfl
  have approved (proceeds : resp.decision.proceeds = true) : ∃ req k resp time, Answers accepted call req k resp time ∧
      resp.decision.proceeds = true ∧ Timely call req k time := by
    obtain ⟨req,k,time,answers⟩ := fine.answered resp responding
    exact ⟨req,k,resp,time,answers,proceeds,fine.timely (by rw [responding]; rfl) req k resp time answers proceeds⟩
  unfold Call.act
  split
  · rename_i decision
    exact fine.enter before fun _ => approved (by rw [decision]; rfl)
  · rename_i decision
    exact fine.enter before fun _ => approved (by rw [decision]; rfl)
  · exact fine.fail before _
  · exact fine.fail before _

theorem generate_request (config : ApprovalMiddlewareConfig) (now : Int) (call : Call R) (id : Except String String) :
    (call.generate config now id).request = call.request := by
  unfold generate
  split
  · split <;> rfl
  · rfl

theorem act_request (config : ApprovalMiddlewareConfig) (call : Call R) (resp : ApprovalResponse) :
    (call.act config resp).request = call.request := by
  unfold act
  split <;> rfl

/-- What a move does: the call stays fine, and the store stays as it is or takes the request of the call. -/
theorem Call.Fine.move (fine : call.Fine config accepted) (known : ∀ entry ∈ accepted, entry.1.requestID ∈ st.requests)
    (taken : Taken st accepted) {move : Move R} (moved : call.move config st now move = some (call',st')) :
    call'.Fine config accepted ∧ (call'.request = call.request ∧ st' = st ∨
      ∃ req, call'.request = some req ∧ req.id ∉ st.requests ∧ st' = { st with requests := st.requests.insert req.id req }) := by
  cases move with simp only [Call.move] at moved
  | generate id =>
    split at moved
    · rename_i called
      cases moved
      exact ⟨fine.generate called id,.inl ⟨generate_request config now call id,rfl⟩⟩
    · cases moved
  | submit =>
    split at moved
    · rename_i req submitting
      have unentered := fine.fresh (by rw [submitting]; rfl)
      unfold InMemoryApprovalStore.submit at moved
      by_cases exists_ : req.id ∈ st.requests
      · simp only [exists_,if_true] at moved
        cases moved
        exact ⟨fine.fail (by rw [submitting]; rfl) _,.inl ⟨rfl,rfl⟩⟩
      · simp only [exists_,if_false] at moved
        cases moved
        refine ⟨⟨fun _ => unentered,fine.once,fun _ => ⟨req,rfl⟩,nofun,?_,fun _ entered => absurd unentered entered,
          fun _ => fine.gated (by rw [submitting]; rfl),fine.past⟩,.inr ⟨req,rfl,exists_,rfl⟩⟩
        -- a response that the store has taken is to a request it had
        rintro - req' k resp time ⟨request,there,names⟩ -
        cases request
        have had := known _ (mem_of_getElem? there)
        rw [names] at had
        exact absurd had exists_
    · cases moved
  | wait =>
    split at moved
    · rename_i notifying
      cases moved
      exact ⟨fine.stay (by rw [notifying]; rfl) (by rw [notifying]; rfl) rfl,.inl ⟨rfl,rfl⟩⟩
    · cases moved
  | poll =>
    split at moved
    · rename_i deadline interval req polling request
      split at moved
      · rename_i resp found
        cases moved
        have unentered := fine.fresh (by rw [polling]; rfl)
        refine ⟨⟨fun _ => unentered,fine.once,fun _ => ⟨req,request⟩,?_,?_,fun _ entered => absurd unentered entered,
          fun _ => fine.gated (by rw [polling]; rfl),fine.past⟩,.inl ⟨rfl,rfl⟩⟩
        · rintro resp' ⟨⟩
          obtain ⟨k,time,there,names⟩ := (taken req.id resp).mp found
          exact ⟨req,k,time,request,there,names⟩
        · rintro - req' k resp' time ⟨request',there,names⟩ proceeds
          exact fine.timely (by rw [polling]; rfl) req' k resp' time ⟨request',there,names⟩ proceeds
      · cases moved
        exact ⟨fine.stay (by rw [polling]; rfl) (by rw [polling]; rfl) rfl,.inl ⟨rfl,rfl⟩⟩
    · cases moved
  | done =>
    split at moved
    · rename_i selecting request
      split at moved
      · cases moved
        exact ⟨fine.fail (by rw [selecting]; rfl) _,.inl ⟨rfl,rfl⟩⟩
      · cases moved
    · cases moved
  | timer =>
    split at moved
    · rename_i selecting
      split at moved
      · cases moved
        exact ⟨fine.stay (by rw [selecting]; rfl) (by rw [selecting]; rfl) rfl,.inl ⟨rfl,rfl⟩⟩
      · cases moved
    · cases moved
  | decide =>
    split at moved
    · rename_i resp responding
      cases moved
      exact ⟨fine.act responding,.inl ⟨act_request config call resp,rfl⟩⟩
    · cases moved
  | finish outcome =>
    split at moved
    · cases moved
      refine ⟨⟨nofun,fine.once,nofun,nofun,nofun,fun gated entered => ?_,nofun,fine.past⟩,.inl ⟨rfl,rfl⟩⟩
      obtain ⟨req,k,resp,time,⟨request,there,names⟩,rest⟩ := fine.approved gated entered
      exact ⟨req,k,resp,time,⟨request,there,names⟩,rest⟩
    · cases moved

theorem Call.Fine.cancel (fine : call.Fine config accepted) :
    ({ call with cancelled := some (call.cancelled.getD accepted.length) } : Call R).Fine config accepted := by
  have before {req : ApprovalRequest} {k : Nat} {resp : ApprovalResponse} {time : Int}
      (there : accepted[k]? = some (resp,time)) (timely : Timely call req k time) :
      Timely ({ call with cancelled := some (call.cancelled.getD accepted.length) } : Call R) req k time := by
    refine ⟨timely.1,fun n cancelled => ?_⟩
    cases cancelled
    cases earlier : call.cancelled with
    | none => exact lt_of_getElem? there
    | some n => exact timely.2 n earlier
  refine ⟨fine.fresh,fine.once,fine.asked,fun resp responding => ?_,?_,fun gated entered => ?_,fine.gated,?_⟩
  · obtain ⟨req,k,time,request,there,names⟩ := fine.answered resp responding
    exact ⟨req,k,time,request,there,names⟩
  · rintro asks req k resp time ⟨request,there,names⟩ proceeds
    exact before there (fine.timely asks req k resp time ⟨request,there,names⟩ proceeds)
  · obtain ⟨req,k,resp,time,⟨request,there,names⟩,proceeds,timely⟩ := fine.approved gated entered
    exact ⟨req,k,resp,time,⟨request,there,names⟩,proceeds,before there timely⟩
  · rintro n ⟨⟩
    cases earlier : call.cancelled with
    | none => exact Nat.le_refl _
    | some n => exact fine.past n earlier

private theorem concat_cases {α : Type} {l : List α} {k : Nat} {last entry : α} (there : (l ++ [last])[k]? = some entry) :
    l[k]? = some entry ∨ k = l.length ∧ last = entry := by
  by_cases earlier : k < l.length
  · rw [getElem?_append_left earlier] at there
    exact .inl there
  · have inside := lt_of_getElem? there
    rw [length_append,length_singleton] at inside
    have at_end : k = l.length := by omega
    subst at_end
    rw [getElem?_concat_length] at there
    exact .inr ⟨rfl,some.inj there⟩

theorem Answers.append {req : ApprovalRequest} {k : Nat} {time : Int}
    (answers : Answers accepted call req k resp time) (entry : ApprovalResponse × Int) :
    Answers (accepted ++ [entry]) call req k resp time := by
  refine ⟨answers.request,?_,answers.names⟩
  exact getElem?_append_some answers.taken

theorem Answers.of_append {req : ApprovalRequest} {k : Nat} {time : Int}
    {entry : ApprovalResponse × Int} (answers : Answers (accepted ++ [entry]) call req k resp time) :
    Answers accepted call req k resp time ∨ k = accepted.length ∧ entry = (resp,time) := by
  rcases concat_cases answers.taken with earlier | last
  · exact .inl ⟨answers.request,earlier,answers.names⟩
  · exact .inr last

theorem Call.Fine.accept (fine : call.Fine config accepted)
    (timely : call.phase.asks = true → ∀ req, call.request = some req → resp.requestID = req.id →
      resp.decision.proceeds = true → Timely call req accepted.length now) :
    call.Fine config (accepted ++ [(resp,now)]) := by
  refine ⟨fine.fresh,fine.once,fine.asked,fun resp responding => ?_,fun asks req k resp' time answers proceeds => ?_,
    fun gated entered => ?_,fine.gated,fun n cancelled => ?_⟩
  · obtain ⟨req,k,time,answers⟩ := fine.answered resp responding
    exact ⟨req,k,time,answers.append _⟩
  · rcases answers.of_append with earlier | ⟨rfl,last⟩
    · exact fine.timely asks req k resp' time earlier proceeds
    · cases last
      exact timely asks req answers.request answers.names proceeds
  · obtain ⟨req,k,resp,time,answers,rest⟩ := fine.approved gated entered
    exact ⟨req,k,resp,time,answers.append _,rest⟩
  · have bound := fine.past n cancelled
    rw [length_append]
    omega

theorem Taken.append (taken : Taken st accepted) (unresolved : resp.requestID ∉ st.responses) :
    Taken { st with responses := st.responses.insert resp.requestID resp } (accepted ++ [(resp,now)]) := by
  intro id resp'
  by_cases own : id = resp.requestID
  · subst own
    simp only [lookup_insert]
    constructor
    · rintro ⟨⟩
      exact ⟨accepted.length,now,getElem?_concat_length,rfl⟩
    · rintro ⟨k,time,there,names⟩
      rcases concat_cases there with earlier | ⟨-,last⟩
      · have found := (taken resp.requestID resp').mpr ⟨k,time,earlier,names⟩
        exact absurd (mem_of_lookup_eq_some found) unresolved
      · cases last
        rfl
  · rw [lookup_insert_of_ne _ own,taken id resp']
    constructor
    · rintro ⟨k,time,there,names⟩
      refine ⟨k,time,?_,names⟩
      exact getElem?_append_some there
    · rintro ⟨k,time,there,names⟩
      rcases concat_cases there with earlier | ⟨-,last⟩
      · exact ⟨k,time,earlier,names⟩
      · cases last
        exact absurd names.symm own

end

section
variable {config} {s s' : System R}

theorem Kept.set (kept : Kept config s) {i : Nat} {call : Call R} (fine : call.Fine config s.accepted) :
    ∀ other ∈ s.calls.set i call, other.Fine config s.accepted := forall_mem_set kept.calls fine

theorem ids_set {i : Nat} {call new : Call R} (here : s.calls[i]? = some call) (same : new.request = call.request) :
    ({ s with calls := s.calls.set i new } : System R).ids = s.ids := by
  have unchanged : s.ids[i]? = some (new.request.map ApprovalRequest.id) := by
    rw [System.ids,getElem?_map,here,same]
    rfl
  obtain ⟨inside,at_i⟩ := List.getElem?_eq_some_iff.mp unchanged
  show (s.calls.set i new).map _ = _
  rw [map_set,← at_i]
  exact set_getElem_self inside

section
variable (kept : Kept config s)
include kept

theorem Kept.setCall {i : Nat} {call new : Call R} (here : s.calls[i]? = some call)
    (same : new.request = call.request) (fine : new.Fine config s.accepted) :
    Kept config { s with calls := s.calls.set i new } := by
  have ids := ids_set here same
  refine ⟨kept.set fine,?_,?_,kept.known,kept.taken,kept.single⟩
  · rw [ids]
    exact kept.own
  · rw [ids]
    exact kept.stored

theorem Kept.submit {i : Nat} {new : Call R} {req : ApprovalRequest}
    (request : new.request = some req) (absent : req.id ∉ s.store.requests) (fine : new.Fine config s.accepted) :
    Kept config { s with
      store := { s.store with requests := s.store.requests.insert req.id req }, calls := s.calls.set i new } := by
  have grows {id : String} (had : id ∈ s.store.requests) : id ∈ s.store.requests.insert req.id req :=
    mem_insert.mpr (.inr had)
  -- the place `i` has the new id, and no other place can have it
  have places {j : Nat} {id : String} (there : (s.ids.set i (some req.id))[j]? = some (some id)) :
      j = i ∧ id = req.id ∨ id ≠ req.id ∧ s.ids[j]? = some (some id) := by
    by_cases own : i = j
    · subst own
      have inside : i < s.ids.length := by simpa using (lt_of_getElem? there)
      rw [getElem?_set_self inside] at there
      cases there
      exact .inl ⟨rfl,rfl⟩
    · rw [getElem?_set_ne own] at there
      refine .inr ⟨?_,there⟩
      rintro rfl
      exact absent (kept.stored j _ there)
  have ids : ({ s with
      store := { s.store with requests := s.store.requests.insert req.id req }, calls := s.calls.set i new } : System R).ids =
      s.ids.set i (some req.id) := by
    simp only [System.ids,map_set,request,map_some]
  refine ⟨kept.set fine,fun j k id first second => ?_,fun j id there => ?_,fun entry taken => grows (kept.known entry taken),
    kept.taken,kept.single⟩
  · rw [ids] at first second
    rcases places first with ⟨rfl,rfl⟩ | ⟨other,old⟩
    · rcases places second with ⟨rfl,-⟩ | ⟨other,-⟩
      · rfl
      · exact absurd rfl other
    · rcases places second with ⟨-,own⟩ | ⟨-,old'⟩
      · exact absurd own other
      · exact kept.own j k id old old'
  · rw [ids] at there
    rcases places there with ⟨-,rfl⟩ | ⟨-,old⟩
    · exact mem_insert.mpr (.inl rfl)
    · exact grows (kept.stored j id old)

theorem Kept.respond {resp : ApprovalResponse} (punctual : ¬ Late s (.respond resp))
    (requested : resp.requestID ∈ s.store.requests) (unresolved : resp.requestID ∉ s.store.responses) :
    Kept config { s with
      store := { s.store with responses := s.store.responses.insert resp.requestID resp }
      accepted := s.accepted ++ [(resp,s.now)] } := by
  refine ⟨fun call member => ?_,kept.own,kept.stored,?_,kept.taken.append unresolved,?_⟩
  · have fine := kept.calls call member
    refine fine.accept fun asks req request names proceeds => ?_
    have waits : call.phase.waits = true := by
      cases phase : call.phase with
      | responding other =>
        -- it has its response, and the store takes no second one
        obtain ⟨req',k,time,request',there,names'⟩ := fine.answered other phase
        cases request.symm.trans request'
        have found := (kept.taken req.id other).mpr ⟨k,time,there,names'⟩
        rw [names] at unresolved
        exact absurd (mem_of_lookup_eq_some found) unresolved
      | _ =>
        rw [phase] at asks
        exact asks
    have due (cause : (∃ deadline, req.expiresAt = some deadline ∧ deadline < s.now) ∨ ∃ n, call.cancelled = some n) : False :=
      punctual ⟨proceeds,unresolved,call,member,waits,req,request,names.symm,cause⟩
    refine ⟨fun deadline expires => ?_,fun n cancelled => (due (.inr ⟨n,cancelled⟩)).elim⟩
    by_contra after
    exact due (.inl ⟨deadline,expires,by omega⟩)
  · exact forall_mem_snoc kept.known requested
  · refine pairwise_append.mpr ⟨kept.single,pairwise_singleton _ _,fun entry old new member same => ?_⟩
    cases mem_singleton.mp member
    obtain ⟨k,there⟩ := mem_iff_getElem?.mp old
    have found := (kept.taken resp.requestID entry.1).mpr ⟨k,entry.2,there,same⟩
    exact unresolved (mem_of_lookup_eq_some found)

theorem Kept.step {a : Action R} (punctual : ¬ Late s a) (stepped : step config s a = some s') :
    Kept config s' := by
  cases a with
  | call tool =>
    cases stepped
    have ids : ({ s with calls := s.calls ++ [⟨tool,.called,none,none,0⟩] } : System R).ids = s.ids ++ [none] := by
      simp only [System.ids,map_append,map_cons,map_nil,map_none]
    have old {i : Nat} {id : String} (there : (s.ids ++ [none])[i]? = some (some id)) : s.ids[i]? = some (some id) := by
      rcases concat_cases there with old | ⟨-,last⟩
      · exact old
      · cases last
    refine ⟨forall_mem_snoc kept.calls ?_,fun i j id first second => ?_,fun i id there => ?_,kept.known,kept.taken,
      kept.single⟩
    · exact ⟨fun _ => rfl,Nat.zero_le 1,nofun,nofun,nofun,fun _ entered => absurd rfl entered,nofun,nofun⟩
    · rw [ids] at first second
      exact kept.own i j id (old first) (old second)
    · rw [ids] at there
      exact kept.stored i id (old there)
  | run i move =>
    simp only [ApprovalGate.step] at stepped
    split at stepped
    · rename_i call here
      obtain ⟨⟨call',st⟩,moved,rfl⟩ := map_eq_some_iff.mp stepped
      have fine := kept.calls call (mem_of_getElem? here)
      obtain ⟨fine',⟨same,rfl⟩ | ⟨req,request,absent,rfl⟩⟩ := fine.move kept.known kept.taken moved
      · exact kept.setCall here same fine'
      · exact kept.submit request absent fine'
    · cases stepped
  | respond resp =>
    simp only [ApprovalGate.step,InMemoryApprovalStore.respond] at stepped
    by_cases requested : resp.requestID ∈ s.store.requests
    · by_cases resolved : resp.requestID ∈ s.store.responses
      · simp only [requested,resolved,not_true_eq_false,if_false,if_true] at stepped
        cases stepped
        exact kept
      · simp only [requested,resolved,not_true_eq_false,if_false] at stepped
        cases stepped
        exact kept.respond punctual requested resolved
    · simp only [requested,not_false_eq_true,if_true] at stepped
      cases stepped
      exact kept
  | cancel i =>
    simp only [ApprovalGate.step] at stepped
    split at stepped
    · rename_i call here
      cases stepped
      exact kept.setCall here rfl (kept.calls call (mem_of_getElem? here)).cancel
    · cases stepped
  | advance time =>
    cases stepped
    exact ⟨kept.calls,kept.own,kept.stored,kept.known,kept.taken,kept.single⟩

end

/-! ### After a late response -/

/-- Some run from here has the call enter the handler, with no other response taken. -/
def Enters (config : ApprovalMiddlewareConfig) (t : System R) (i : Nat) (call : Call R) : Prop :=
  ∃ t' call', Reachable (ApprovalGate.step config) free t t' ∧ t'.accepted = t.accepted ∧ t'.calls[i]? = some call' ∧
    call'.tool = call.tool ∧ call'.request = call.request ∧ call'.cancelled = call.cancelled ∧
    call'.entered = call.entered+1

variable {t : System R} {i : Nat} {call} {req : ApprovalRequest} {resp : ApprovalResponse}

theorem Enters.before {a : Action R} {t' : System R} {phase : Phase R} (stepped : ApprovalGate.step config t a = some t')
    (same : t'.accepted = t.accepted) (enters : Enters config t' i { call with phase := phase }) : Enters config t i call := by
  obtain ⟨t'',call',reached,taken,rest⟩ := enters
  exact ⟨t'',call',(Reachable.next a .start trivial stepped).trans reached,taken.trans same,rest⟩

theorem step_run {move : Move R} {call' : Call R} (here : t.calls[i]? = some call)
    (moved : call.move config t.store t.now move = some (call',t.store)) :
    ApprovalGate.step config t (.run i move) = some { t with calls := t.calls.set i call' } := by
  simp only [ApprovalGate.step,here,moved,map_some]

theorem enters_of_responding (here : t.calls[i]? = some call) (responding : call.phase = .responding resp)
    (proceeds : resp.decision.proceeds = true) : Enters config t i call := by
  have acts : call.act config resp = call.enter := by
    unfold act
    cases decision : resp.decision with
    | approved | modified => rfl
    | denied | other text => rw [decision] at proceeds; cases proceeds
  have moved : call.move config t.store t.now .decide = some (call.enter,t.store) := by
    simp only [move,responding,acts]
  exact ⟨_,call.enter,.next _ .start trivial (step_run here moved),rfl,getElem?_set_some here,rfl,rfl,rfl,rfl⟩

theorem enters_of_polling {deadline : Option Int} {interval : Int} (here : t.calls[i]? = some call)
    (request : call.request = some req) (polling : call.phase = .polling deadline interval)
    (answered : t.store.responses.lookup req.id = some resp) (proceeds : resp.decision.proceeds = true) :
    Enters config t i call := by
  have moved : call.move config t.store t.now .poll = some ({ call with phase := .responding resp },t.store) := by
    simp only [move,polling,request,InMemoryApprovalStore.getResponse,answered]
  exact Enters.before (step_run here moved) rfl (enters_of_responding (getElem?_set_some here) rfl proceeds)

theorem enters_of_waits (here : t.calls[i]? = some call) (request : call.request = some req)
    (waits : call.phase.waits = true) (answered : t.store.responses.lookup req.id = some resp)
    (proceeds : resp.decision.proceeds = true) : Enters config t i call := by
  have inside := lt_of_getElem? here
  cases phase : call.phase with
  | notifying =>
    have moved : call.move config t.store t.now .wait = some ({ call with
        phase := .polling (if 0 < config.timeout then some (t.now+config.timeout) else none) 50000000 },t.store) := by
      simp only [move,phase]
    exact Enters.before (step_run here moved) rfl
      (enters_of_polling (getElem?_set_self inside) request rfl answered proceeds)
  | polling deadline interval => exact enters_of_polling here request phase answered proceeds
  | selecting deadline interval since =>
    have late : since+interval ≤ t.now+(since+interval-t.now).toNat := by omega
    have moved : call.move config t.store (t.now+(since+interval-t.now).toNat) .timer =
        some ({ call with phase := .polling deadline (backOff interval) },t.store) := by
      simp only [move,phase,late,if_true]
    have passed : ApprovalGate.step config t (.advance (since+interval-t.now).toNat) =
        some { t with now := t.now+(since+interval-t.now).toNat } := rfl
    exact Enters.before passed rfl (Enters.before (step_run here moved) rfl
      (enters_of_polling (getElem?_set_self inside) request rfl answered proceeds))
  | _ => rw [phase] at waits; cases waits

theorem Kept.breaks {a : Action R} (kept : Kept config s) (late : Late s a) (stepped : ApprovalGate.step config s a = some s') :
    ∃ s'', Reachable (ApprovalGate.step config) free s' s'' ∧ ¬ Gate config s'' := by
  cases a with
  | respond resp =>
    obtain ⟨proceeds,unresolved,call,member,waits,req,request,names,cause⟩ := late
    obtain ⟨i,here⟩ := mem_iff_getElem?.mp member
    have fine := kept.calls call member
    have requested : resp.requestID ∈ s.store.requests := by
      rw [← names]
      refine kept.stored i req.id ?_
      rw [System.ids,getElem?_map,here,map_some,request]
      rfl
    simp only [ApprovalGate.step,InMemoryApprovalStore.respond,requested,unresolved,not_true_eq_false,if_false,
      some.injEq] at stepped
    subst stepped
    have enters : Enters config { s with
        store := { s.store with responses := s.store.responses.insert resp.requestID resp }
        accepted := s.accepted ++ [(resp,s.now)] } i call :=
      enters_of_waits here request waits (by rw [names]; exact lookup_insert _) proceeds
    obtain ⟨s'',call',reached,taken,there,tool,request',cancelled,entered⟩ := enters
    refine ⟨s'',reached,fun gate => ?_⟩
    have answers : Answers s''.accepted call' req s.accepted.length resp s.now := by
      refine ⟨request'.trans request,?_,names.symm⟩
      rw [taken]
      exact getElem?_concat_length
    have gated : config.gates call'.tool = true := by
      rw [tool]
      refine fine.gated ?_
      cases phase : call.phase <;> simp_all [Phase.gated,Phase.asks,Phase.waits]
    have none := gate.refused call' (mem_of_getElem? there) gated req _ resp s.now answers fun right => ?_
    · omega
    · rcases cause with ⟨deadline,expires,after⟩ | ⟨n,before⟩
      · have bound := right.2.1 deadline expires
        omega
      · have bound := right.2.2 n (cancelled.trans before)
        have past := fine.past n before
        omega
  | _ => exact absurd late id

/-- In every run in which no approval comes late to a waiting call, the gate holds. After a
    step in which one does, the call can enter the handler. -/
theorem approval_gate_iff (config : ApprovalMiddlewareConfig) (now : Int)
    (reached : Reachable (ApprovalGate.step config) (fun s a => ¬ Late s a) (new now) s) :
    Gate config s ∧ ∀ a s', Late s a → ApprovalGate.step config s a = some s' →
      ∃ s'', Reachable (ApprovalGate.step config) free s' s'' ∧ ¬ Gate config s'' := by
  have kept : Kept config s := reached.invariant (I := Kept config) (kept_new config now)
    (fun s a s' kept punctual moved => kept.step punctual moved)
  exact ⟨kept.gate,fun a s' late stepped => kept.breaks late stepped⟩

end

instance (s : System R) : ∀ a, Decidable (Late s a)
  | .respond resp => decidable_of_iff (resp.decision.proceeds = true ∧ resp.requestID ∉ s.store.responses ∧
      ∃ call ∈ s.calls, call.phase.waits = true ∧ ∃ req ∈ call.request, req.id = resp.requestID ∧
        ((∃ deadline ∈ req.expiresAt, deadline < s.now) ∨ call.cancelled.isSome = true))
      (by simp [Late,Option.isSome_iff_exists])
  | .call _ | .run _ _ | .cancel _ | .advance _ => .isFalse id

def sampleConfig : ApprovalMiddlewareConfig := ⟨some fun _ => true,"",1000000000,fun text => text⟩

def sampleWaiting : List (Action Unit) :=
  [.call ⟨"deploy","deploy","",none⟩,.run 0 (.generate (.ok "apr-1")),.run 0 .submit,.run 0 .wait,.run 0 .poll]

def sampleApproval : ApprovalResponse := ⟨"apr-1",.approved,"","",0⟩

def sampleInTime : List (Action Unit) :=
  sampleWaiting ++ [.advance 60000000,.respond sampleApproval,.run 0 .timer,.run 0 .poll,.run 0 .decide]

def sampleApproved : System Unit :=
  (exec (step sampleConfig) (fun s a => ¬ Late s a) (new 0) sampleInTime).getD (new 0)

/-- The approval comes after the deadline, and the `select` takes its timer. -/
def sampleTooLate : List (Action Unit) :=
  sampleWaiting ++ [.advance 1100000000,.respond sampleApproval,.run 0 .timer,.run 0 .poll,.run 0 .decide]

def sampleEntered : System Unit := (exec (step sampleConfig) free (new 0) sampleTooLate).getD (new 0)

theorem approval_gate_sample :
    sampleApproved.calls.map Call.entered = [1] ∧ sampleApproved.accepted = [(sampleApproval,60000000)] ∧
    Gate sampleConfig sampleApproved :=
  ⟨by decide,by decide,(approval_gate_iff sampleConfig 0 (exec_reachable sampleInTime .start rfl)).1⟩

/-- The handler is entered, on a response that was recorded after the request had expired. -/
theorem late_approval_enters :
    Reachable (step sampleConfig) free (new 0) sampleEntered ∧ sampleEntered.calls.map Call.entered = [1] ∧
    sampleEntered.calls.map (fun call => call.request.map ApprovalRequest.expiresAt) = [some (some 1000000000)] ∧
    sampleEntered.accepted = [(sampleApproval,1100000000)] ∧ ¬ Gate sampleConfig sampleEntered := by
  have entered : sampleEntered.calls.map entered = [1] := by decide
  have accepted : sampleEntered.accepted = [(sampleApproval,1100000000)] := by decide
  have expires : sampleEntered.calls.map (fun call => call.request.map ApprovalRequest.expiresAt) =
      [some (some 1000000000)] := by decide
  have reached : Reachable (step sampleConfig) free (new 0) sampleEntered := exec_reachable sampleTooLate .start rfl
  refine ⟨reached,entered,expires,accepted,fun gate => ?_⟩
  obtain ⟨call,only,one⟩ := map_eq_singleton_iff.mp entered
  rw [only] at expires
  have member : call ∈ sampleEntered.calls := by rw [only]; exact mem_singleton_self call
  obtain ⟨req,k,resp,time,answers,-,timely⟩ := gate.approved call member rfl (by rw [one]; nofun)
  have taken := mem_of_getElem? answers.taken
  rw [accepted] at taken
  cases mem_singleton.mp taken
  have deadline : req.expiresAt = some 1000000000 := by simpa [answers.request] using expires
  exact absurd (timely.1 _ deadline) (by decide)

end Mcpkit.ApprovalGate
