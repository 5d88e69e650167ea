import Mcpkit.WorkflowGraph

/-!
The workflow engine: checkpoints and their stores, compensation, `Run` and `Resume`.
-/
namespace Mcpkit.WorkflowEngine
open GoMaps WorkflowGraph

inductive RunStatus where
  | completed
  | failed
  | stopped
  deriving DecidableEq, Repr

structure RunResult (V : Type) where
  runID : String
  status : RunStatus
  finalState : State V
  steps : Int
  error : String

structure Checkpoint (V : Type) where
  runID : String
  state : State V
  currentNode : String
  step : Int
  savedAt : Int

structure CheckpointStore (S V : Type) where
  save : Checkpoint V → S → Option String × S
  load : String → S → Except String (Option (Checkpoint V))
  delete : String → S → Option String × S

/-- The in-memory store is a map from run identifiers; it never fails. -/
abbrev MemoryStore (V : Type) := GoMap (Checkpoint V)

def memoryCheckpointStore {V : Type} : CheckpointStore (MemoryStore V) V where
  save cp s := (none,s.insert cp.runID cp)
  load runID s := .ok (s.lookup runID)
  delete runID s := (none,s.erase runID)

structure Hooks (W V : Type) where
  onNodeStart : Option (String → State V → W → W) := none
  onNodeEnd : Option (String → State V → W → W) := none
  onNodeError : Option (String → String → W → W) := none
  onCheckpoint : Option (Checkpoint V → W → W) := none
  onCycleDetected : Option (String → Int → W → W) := none
  onCompensationStart : Option (String → W → W) := none
  onCompensationEnd : Option (String → Option String → W → W) := none

section
variable {W V : Type} (h : Hooks W V) (name : String)

def Hooks.callNodeStart (state : State V) (world : W) : W :=
  (h.onNodeStart.map (fun hook => hook name state world)).getD world
def Hooks.callNodeEnd (state : State V) (world : W) : W :=
  (h.onNodeEnd.map (fun hook => hook name state world)).getD world
def Hooks.callNodeError (err : String) (world : W) : W :=
  (h.onNodeError.map (fun hook => hook name err world)).getD world
def Hooks.callCheckpoint (cp : Checkpoint V) (world : W) : W :=
  (h.onCheckpoint.map (fun hook => hook cp world)).getD world
def Hooks.callCycleDetected (step : Int) (world : W) : W :=
  (h.onCycleDetected.map (fun hook => hook name step world)).getD world
def Hooks.callCompensationStart (world : W) : W :=
  (h.onCompensationStart.map (fun hook => hook name world)).getD world
def Hooks.callCompensationEnd (err : Option String) (world : W) : W :=
  (h.onCompensationEnd.map (fun hook => hook name err world)).getD world
end

/-- The context and the clock of a session, as the engine observes them. -/
structure Env (W : Type) where
  ctxErr : W → Option String × W
  now : W → Int × W

def Env.Live {W : Type} (env : Env W) : Prop := ∀ world, (env.ctxErr world).1 = none

variable (W S V : Type)

structure EngineConfig where
  maxSteps : Int
  defaultNodeTimeout : Int
  checkpointStore : Option (CheckpointStore S V)
  hooks : Hooks W V
  nodeMiddleware : List (NodeMiddleware W V)
  compensateOnFailure : Bool

/-- An engine holds a validated graph and a positive step limit. -/
structure Engine where
  graph : WorkflowGraph.Graph W V
  config : EngineConfig W S V
  valid : graph.validate = .ok ()
  positive : 0 < config.maxSteps

structure Execution (W V : Type) where
  node : String
  input : State V
  output : State V
  err : Option String
  effects : List (SagaEffect W V)

/-- The world, the store and the compensation stack, then what the session did so far. -/
structure Session where
  world : W
  store : S
  stack : Option (List (CompensationRecord W V))
  trace : List (Execution W V)
  saved : List (Checkpoint V)
  compensated : List (CompensationRecord W V × Option String)

/-- What a part of a turn leads to: a return, or going on with a value. -/
inductive Progress (W S V α : Type) where
  | stop (result : Except String (RunResult V)) (m : Session W S V)
  | go (value : α) (m : Session W S V)

open Engine

section
variable {W S V : Type} (cfg : EngineConfig W S V)

def EngineConfig.withDefaults : EngineConfig W S V :=
  { cfg with
    maxSteps := if cfg.maxSteps ≤ 0 then 1000 else cfg.maxSteps
    defaultNodeTimeout := if cfg.defaultNodeTimeout ≤ 0 then 30000000000 else cfg.defaultNodeTimeout }

theorem EngineConfig.withDefaults_positive : 0 < cfg.withDefaults.maxSteps := by
  simp only [EngineConfig.withDefaults]
  split
  · decide
  · omega

def newEngine (graph : WorkflowGraph.Graph W V) (cfg : EngineConfig W S V) : Except String (Engine W S V) :=
  match valid : graph.validate with
  | .error err => .error err
  | .ok () => .ok ⟨graph,cfg.withDefaults,valid,cfg.withDefaults_positive⟩

def Session.start (world : W) (store : S) : Session W S V := ⟨world,store,none,[],[],[]⟩

def Session.invoked (m : Session W S V) : List (CompensationRecord W V) := m.compensated.map Prod.fst

variable (e : Engine W S V) (world : W) (m : Session W S V) (store : S)

@[simp] theorem Session.start_invoked : (Session.start world store : Session W S V).invoked = [] := rfl
@[simp] theorem Session.start_store : (Session.start world store : Session W S V).store = store := rfl
@[simp] theorem Session.start_trace : (Session.start world store : Session W S V).trace = [] := rfl
@[simp] theorem Session.start_saved : (Session.start world store : Session W S V).saved = [] := rfl

/-- A node call is over: it left a world, and the stack took its pushes. -/
def Session.called (m : Session W S V) (x : Execution W V) (world : W) : Session W S V :=
  { m with world := world, trace := m.trace ++ [x], stack := m.stack.map (· ++ pushes x.effects) }

/-- The first edge decides: a condition is asked, an unconditional edge taken. -/
def Engine.resolveNext (e : Engine W S V) (n : Node W V) (state : State V) (world : W) : Except String String × W :=
  match n.edges with
  | [] => (.error s!"workflow: node {n.name.quote} has no edges",world)
  | .conditional condition :: _ =>
    let (target,world) := condition state world
    if target = endNode then (.ok endNode,world)
    else if (e.graph.nodes.lookup target).isNone then
      (.error s!"workflow: conditional edge from {n.name.quote} returned unknown node {target.quote}",world)
    else (.ok target,world)
  | .unconditional target :: _ => (.ok target,world)

/-- One compensation with its hooks; its error goes to the hook only. -/
def Engine.compensate (e : Engine W S V) (m : Session W S V) (r : CompensationRecord W V) : Session W S V :=
  let world := e.config.hooks.callCompensationStart r.nodeName m.world
  let (err,world) := r.compensate r.state world
  { m with
    world := e.config.hooks.callCompensationEnd r.nodeName err world
    compensated := m.compensated ++ [(r,err)] }

def Engine.runCompensation (e : Engine W S V) (m : Session W S V) (records : List (CompensationRecord W V)) :
    Session W S V :=
  records.reverse.foldl e.compensate m

def Engine.timeout (e : Engine W S V) (n : Node W V) : Int :=
  if n.timeout ≤ 0 then e.config.defaultNodeTimeout else n.timeout

def Engine.nodeFunc (e : Engine W S V) (n : Node W V) (name : String) : NodeFunc W V :=
  wrapNodeFunc n.fn name e.config.nodeMiddleware

/-- The checkpoint after a completed node, when a store is configured. -/
def Engine.checkpoint (e : Engine W S V) (env : Env W) (runID : String) (step : Int) (currentNode : String)
    (state : State V) (m : Session W S V) : Option String × Session W S V :=
  match e.config.checkpointStore with
  | none => (none,m)
  | some store =>
    let (now,world) := env.now m.world
    let cp : Checkpoint V := ⟨runID,state,currentNode,step+1,now⟩
    match store.save cp m.store with
    | (some err,s) => (some err,{ m with world := world, store := s })
    | (none,s) =>
      (none,{ m with world := e.config.hooks.callCheckpoint cp world, store := s, saved := m.saved ++ [cp] })

/-- The first half of a turn: context check, node call and checkpoint. A failed node runs the compensations. -/
def Engine.visit (e : Engine W S V) (env : Env W) (runID : String) (step : Int) (currentNode : String)
    (state : State V) (m : Session W S V) : Progress W S V (Node W V × State V) :=
  match env.ctxErr m.world with
  | (some err,world) => .stop (.ok ⟨runID,.stopped,state,step,err⟩) { m with world := world }
  | (none,world) =>
    match e.graph.nodes.lookup currentNode with
    | none => .stop (.error s!"workflow: node {currentNode.quote} not found during execution") { m with world := world }
    | some n =>
      let (now,world) := env.now world
      let state := { state with step := step, nodeName := currentNode, updatedAt := now }
      let world := e.config.hooks.callNodeStart currentNode state world
      let c := (e.nodeFunc n currentNode).call ⟨e.timeout n,m.stack.isSome⟩ state.clone world
      let m := m.called ⟨currentNode,state,c.state,c.err,c.effects⟩ c.world
      match c.err with
      | some err =>
        let m := { m with world := e.config.hooks.callNodeError currentNode err m.world }
        let m := match m.stack with
          | some records => e.runCompensation m records
          | none => m
        .stop (.ok ⟨runID,.failed,state,step+1,s!"node {currentNode.quote}: {err}"⟩) m
      | none =>
        let m := { m with world := e.config.hooks.callNodeEnd currentNode c.state m.world }
        match e.checkpoint env runID step currentNode c.state m with
        | (some err,m) => .stop (.error s!"workflow: checkpoint save: {err}") m
        | (none,m) => .go (n,c.state) m

def Engine.cleanUp (e : Engine W S V) (runID : String) (m : Session W S V) : Session W S V :=
  match e.config.checkpointStore with
  | none => m
  | some store => { m with store := (store.delete runID m.store).2 }

def Engine.advance (e : Engine W S V) (runID : String) (step : Int) (currentNode : String) (n : Node W V)
    (state : State V) (m : Session W S V) : Progress W S V String :=
  match e.resolveNext n state m.world with
  | (.error err,world) => .stop (.error err) { m with world := world }
  | (.ok nextNode,world) =>
    if nextNode = endNode then
      .stop (.ok ⟨runID,.completed,state,step+1,""⟩) (e.cleanUp runID { m with world := world })
    else
      .go nextNode { m with
        world := if nextNode = currentNode then e.config.hooks.callCycleDetected currentNode (step+1) world
          else world }

/-- The loop of `Run` and of `Resume` with `remaining` turns left. -/
def Engine.loop (e : Engine W S V) (env : Env W) (runID : String) :
    Nat → Int → String → State V → Session W S V → Except String (RunResult V) × Session W S V
  | 0,_,_,state,m => (.ok ⟨runID,.failed,state,e.config.maxSteps,s!"max steps ({e.config.maxSteps}) exceeded"⟩,m)
  | remaining+1,step,currentNode,state,m =>
    match e.visit env runID step currentNode state m with
    | .stop result m => (result,m)
    | .go (n,state) m =>
      match e.advance runID step currentNode n state m with
      | .stop result m => (result,m)
      | .go nextNode m => e.loop env runID remaining (step+1) nextNode state m

def Engine.withStack (e : Engine W S V) (m : Session W S V) : Session W S V :=
  { m with stack := if e.config.compensateOnFailure then some [] else none }

@[simp] theorem Engine.withStack_store : (e.withStack m).store = m.store := rfl
@[simp] theorem Engine.withStack_trace : (e.withStack m).trace = m.trace := rfl
@[simp] theorem Engine.withStack_saved : (e.withStack m).saved = m.saved := rfl

@[simp] theorem Engine.withStack_isSome : (e.withStack m).stack.isSome = e.config.compensateOnFailure := by
  cases saga : e.config.compensateOnFailure <;> simp [withStack,saga]

def Engine.run (e : Engine W S V) (env : Env W) (runID : String) (initial : State V) (m : Session W S V) :
    Except String (RunResult V) × Session W S V :=
  e.loop env runID e.config.maxSteps.toNat 0 e.graph.start initial.clone (e.withStack m)

/-- `Resume` once the checkpoint is loaded: the run goes on after its node. -/
def Engine.resumeFrom (e : Engine W S V) (env : Env W) (runID : String) (cp : Checkpoint V) (m : Session W S V) :
    Except String (RunResult V) × Session W S V :=
  match e.graph.nodes.lookup cp.currentNode with
  | none => (.error s!"workflow: checkpoint node {cp.currentNode.quote} not found in graph",m)
  | some n =>
    match e.resolveNext n cp.state m.world with
    | (.error err,world) => (.error err,{ m with world := world })
    | (.ok nextNode,world) =>
      let m := { m with world := world }
      if nextNode = endNode then (.ok ⟨runID,.completed,cp.state,cp.step,""⟩,e.cleanUp runID m)
      else if e.config.maxSteps-cp.step ≤ 0 then
        (.ok ⟨runID,.failed,cp.state,cp.step,
          s!"max steps ({e.config.maxSteps}) already reached at checkpoint"⟩,m)
      else e.loop env runID (e.config.maxSteps-cp.step).toNat cp.step nextNode cp.state (e.withStack m)

def Engine.resume (e : Engine W S V) (env : Env W) (runID : String) (m : Session W S V) :
    Except String (RunResult V) × Session W S V :=
  match e.config.checkpointStore with
  | none => (.error "workflow: no checkpoint store configured",m)
  | some store =>
    match store.load runID m.store with
    | .error err => (.error s!"workflow: load checkpoint: {err}",m)
    | .ok none => (.error s!"workflow: no checkpoint found for run {runID.quote}",m)
    | .ok (some cp) => e.resumeFrom env runID cp m

/-! ### What a turn can do -/

/-- The engine called the function of the node `n`, found under `node`, on the
    state `state` with the fields of this step. -/
structure Ran (e : Engine W S V) (step : Int) (node : String) (state : State V) (hasStack : Bool)
    (n : Node W V) (x : Execution W V) : Prop where
  found : e.graph.nodes.lookup node = some n
  name : x.node = node
  input : ∃ now, x.input = { state with step := step, nodeName := node, updatedAt := now }
  called : ∃ before after, (e.nodeFunc n node).call ⟨e.timeout n,hasStack⟩ x.input before =
    ⟨x.output,x.err,x.effects,after⟩

/-- The checkpoint `cp` is in the configured store of `m'`, if there is one. -/
inductive Kept (e : Engine W S V) (cp : Checkpoint V) (m m' : Session W S V) : Prop
  | nowhere (absent : e.config.checkpointStore = none) (store : m'.store = m.store) (saved : m'.saved = m.saved)
  | stored (store : CheckpointStore S V) (present : e.config.checkpointStore = some store)
      (written : store.save cp m.store = (none,m'.store)) (saved : m'.saved = m.saved ++ [cp])

inductive Visited (e : Engine W S V) (env : Env W) (runID : String) (step : Int) (node : String) (state : State V)
    (m : Session W S V) : Progress W S V (Node W V × State V) → Prop
  | cancelled (err : String) (world : W) (observed : (env.ctxErr m.world).1 = some err) :
    Visited e env runID step node state m (.stop (.ok ⟨runID,.stopped,state,step,err⟩) { m with world := world })
  | missing (message : String) (world : W) (absent : e.graph.nodes.lookup node = none)
      (text : message = s!"workflow: node {node.quote} not found during execution") :
    Visited e env runID step node state m (.stop (.error message) { m with world := world })
  | failed (n : Node W V) (x : Execution W V) (err message : String) (m' : Session W S V)
      (ran : Ran e step node state m.stack.isSome n x) (failure : x.err = some err)
      (trace : m'.trace = m.trace ++ [x]) (store : m'.store = m.store) (saved : m'.saved = m.saved)
      (invoked : m'.invoked = m.invoked ++ ((m.stack.map (· ++ pushes x.effects)).getD []).reverse) :
    Visited e env runID step node state m (.stop (.ok ⟨runID,.failed,x.input,step+1,message⟩) m')
  | unsaved (n : Node W V) (x : Execution W V) (message err : String) (store : CheckpointStore S V)
      (cp : Checkpoint V) (m' : Session W S V) (ran : Ran e step node state m.stack.isSome n x)
      (success : x.err = none) (present : e.config.checkpointStore = some store)
      (refused : (store.save cp m.store).1 = some err) (trace : m'.trace = m.trace ++ [x])
      (invoked : m'.invoked = m.invoked) :
    Visited e env runID step node state m (.stop (.error message) m')
  | done (n : Node W V) (x : Execution W V) (savedAt : Int) (m' : Session W S V)
      (ran : Ran e step node state m.stack.isSome n x) (success : x.err = none)
      (trace : m'.trace = m.trace ++ [x]) (kept : Kept e ⟨runID,x.output,node,step+1,savedAt⟩ m m')
      (invoked : m'.invoked = m.invoked) (stack : m'.stack = m.stack.map (· ++ pushes x.effects)) :
    Visited e env runID step node state m (.go (n,x.output) m')

inductive Advanced (e : Engine W S V) (runID : String) (step : Int) (n : Node W V) (state : State V)
    (m : Session W S V) : Progress W S V String → Prop
  | unresolved (err : String) (world : W) (resolved : (e.resolveNext n state m.world).1 = .error err) :
    Advanced e runID step n state m (.stop (.error err) { m with world := world })
  | completed (world : W) (resolved : (e.resolveNext n state m.world).1 = .ok endNode) :
    Advanced e runID step n state m
      (.stop (.ok ⟨runID,.completed,state,step+1,""⟩) (e.cleanUp runID { m with world := world }))
  | next (node : String) (world : W) (resolved : (e.resolveNext n state m.world).1 = .ok node)
      (more : node ≠ endNode) :
    Advanced e runID step n state m (.go node { m with world := world })

variable (records : List (CompensationRecord W V))

private theorem compensate_all : ∀ m : Session W S V, ∃ world compensated, records.foldl e.compensate m =
        { m with world := world, compensated := compensated } ∧
      compensated.map Prod.fst = m.invoked ++ records := by
  induction records with
  | nil => intro m; exact ⟨m.world,m.compensated,rfl,by simp [Session.invoked]⟩
  | cons r rest ih =>
    intro m
    obtain ⟨world,compensated,ran,invoked⟩ := ih (e.compensate m r)
    refine ⟨world,compensated,by simpa [compensate] using ran,?_⟩
    simpa [compensate,Session.invoked] using invoked

/-- A compensation that fails does not keep the earlier records from theirs. -/
theorem runCompensation_invokes :
    ∃ world compensated, e.runCompensation m records = { m with world := world, compensated := compensated } ∧
      compensated.map Prod.fst = m.invoked ++ records.reverse :=
  compensate_all e records.reverse m

theorem visit_cases (env : Env W) (runID : String) (step : Int) (node : String) (state : State V) (m : Session W S V) :
    Visited e env runID step node state m (e.visit env runID step node state m) := by
  unfold visit
  rcases observed : env.ctxErr m.world with ⟨_ | err,world⟩
  · cases found : e.graph.nodes.lookup node with
    | none => exact .missing _ world found rfl
    | some n =>
      simp only [State.clone_eq]
      generalize stamp : ({ state with step := step, nodeName := node, updatedAt := (env.now world).1 } : State V) = input
      generalize e.config.hooks.callNodeStart node input (env.now world).2 = begun
      generalize call : (e.nodeFunc n node).call ⟨e.timeout n,m.stack.isSome⟩ input begun = c
      have ran : Ran e step node state m.stack.isSome n ⟨node,input,c.state,c.err,c.effects⟩ :=
        ⟨found,rfl,⟨_,stamp.symm⟩,⟨begun,c.world,call⟩⟩
      simp only [Session.called]
      cases failure : c.err with
      | some err =>
        rw [failure] at ran
        cases stack : m.stack with
        | none => exact .failed n _ err _ _ ran rfl rfl rfl rfl (by simp [Session.invoked,stack])
        | some records =>
          simp only [Option.map_some]
          generalize session : Session.mk _ _ _ _ _ _ = failedSession
          obtain ⟨after,compensated,executed,invoked⟩ :=
            runCompensation_invokes e failedSession (records ++ pushes c.effects)
          rw [executed]
          subst session
          exact .failed n _ err _ _ ran rfl rfl rfl rfl (by simpa [Session.invoked,stack] using invoked)
      | none =>
        rw [failure] at ran
        simp only [checkpoint]
        cases present : e.config.checkpointStore with
        | none => exact .done n _ 0 _ ran rfl rfl (.nowhere present rfl rfl) rfl rfl
        | some store =>
          simp only
          generalize saving : Checkpoint.mk _ _ _ _ _ = cp
          rcases written : store.save cp m.store with ⟨_ | err,s⟩
          · subst saving
            exact .done n _ _ _ ran rfl rfl (.stored store present written rfl) rfl rfl
          · exact .unsaved n _ _ err store cp _ ran rfl present (by rw [written]) rfl rfl
  · exact .cancelled err world (by rw [observed])

theorem advance_cases (runID : String) (step : Int) (node : String) (n : Node W V) (state : State V)
    (m : Session W S V) : Advanced e runID step n state m (e.advance runID step node n state m) := by
  unfold advance
  rcases answer : e.resolveNext n state m.world with ⟨err | next,world⟩
  · exact .unresolved err world (by rw [answer])
  · by_cases ended : next = endNode
    · subst ended
      exact .completed world (by rw [answer])
    · simp only [ended,↓reduceIte]
      exact .next next _ (by rw [answer]) ended

inductive Resumed (e : Engine W S V) (env : Env W) (runID : String) (cp : Checkpoint V)
    (m : Session W S V) : Except String (RunResult V) × Session W S V → Prop
  | missing (message : String) (absent : e.graph.nodes.lookup cp.currentNode = none) :
    Resumed e env runID cp m (.error message,m)
  | unresolved (n : Node W V) (err : String) (world : W) (found : e.graph.nodes.lookup cp.currentNode = some n)
      (resolved : (e.resolveNext n cp.state m.world).1 = .error err) :
    Resumed e env runID cp m (.error err,{ m with world := world })
  | completed (n : Node W V) (world : W) (found : e.graph.nodes.lookup cp.currentNode = some n)
      (resolved : (e.resolveNext n cp.state m.world).1 = .ok endNode) :
    Resumed e env runID cp m
      (.ok ⟨runID,.completed,cp.state,cp.step,""⟩,e.cleanUp runID { m with world := world })
  | exhausted (n : Node W V) (node message : String) (world : W)
      (found : e.graph.nodes.lookup cp.currentNode = some n)
      (resolved : (e.resolveNext n cp.state m.world).1 = .ok node) (more : node ≠ endNode)
      (reached : e.config.maxSteps-cp.step ≤ 0) :
    Resumed e env runID cp m (.ok ⟨runID,.failed,cp.state,cp.step,message⟩,{ m with world := world })
  | looped (n : Node W V) (node : String) (world : W) (found : e.graph.nodes.lookup cp.currentNode = some n)
      (resolved : (e.resolveNext n cp.state m.world).1 = .ok node) (more : node ≠ endNode)
      (left : 0 < e.config.maxSteps-cp.step) :
    Resumed e env runID cp m (e.loop env runID (e.config.maxSteps-cp.step).toNat cp.step node cp.state
      (e.withStack { m with world := world }))

theorem resumeFrom_cases (env : Env W) (runID : String) (cp : Checkpoint V) (m : Session W S V) :
    Resumed e env runID cp m (e.resumeFrom env runID cp m) := by
  unfold resumeFrom
  cases found : e.graph.nodes.lookup cp.currentNode with
  | none => exact .missing _ found
  | some n =>
    cases answer : e.resolveNext n cp.state m.world with
    | mk resolved world =>
      have first : (e.resolveNext n cp.state m.world).1 = resolved := by rw [answer]
      cases resolved with
      | error err => simpa only [answer] using Resumed.unresolved n err world found first
      | ok node =>
        simp only [answer]
        by_cases ended : node = endNode
        · subst ended
          exact .completed n world found first
        · by_cases reached : e.config.maxSteps-cp.step ≤ 0
          · simp only [ended,reached,↓reduceIte]
            exact .exhausted n node _ world found first ended reached
          · simp only [ended,reached,↓reduceIte]
            exact .looped n node world found first ended (by omega)

/-! ### Over a memory store -/

def Engine.InMemory (e : Engine W (MemoryStore V) V) : Prop := e.config.checkpointStore = some memoryCheckpointStore

theorem kept_memory {e : Engine W (MemoryStore V) V} (memory : e.InMemory) {cp : Checkpoint V}
    {m m' : Session W (MemoryStore V) V} (kept : Kept e cp m m') :
    m'.store = m.store.insert cp.runID cp ∧ m'.saved = m.saved ++ [cp] := by
  cases kept with
  | nowhere absent store saved => rw [memory] at absent; cases absent
  | stored store present written saved =>
    rw [memory] at present
    cases present
    exact ⟨((Prod.mk.inj written).2).symm,saved⟩

theorem save_memory {e : Engine W (MemoryStore V) V} (memory : e.InMemory)
    {store : CheckpointStore (MemoryStore V) V} (present : e.config.checkpointStore = some store)
    (cp : Checkpoint V) (s : MemoryStore V) : (store.save cp s).1 = none := by
  rw [memory] at present
  cases present
  rfl

theorem cleanUp_memory {e : Engine W (MemoryStore V) V} (memory : e.InMemory) (runID : String)
    (m : Session W (MemoryStore V) V) : e.cleanUp runID m = { m with store := m.store.erase runID } := by
  have present : e.config.checkpointStore = some memoryCheckpointStore := memory
  simp only [cleanUp,present,memoryCheckpointStore]

theorem resume_cases (e : Engine W (MemoryStore V) V) (memory : e.InMemory) (env : Env W) (runID : String)
    (m : Session W (MemoryStore V) V) : (m.store.lookup runID = none ∧ e.resume env runID m =
      (.error s!"workflow: no checkpoint found for run {runID.quote}",m)) ∨
    ∃ cp, m.store.lookup runID = some cp ∧ e.resume env runID m = e.resumeFrom env runID cp m := by
  have present : e.config.checkpointStore = some memoryCheckpointStore := memory
  unfold resume
  simp only [present,memoryCheckpointStore]
  cases m.store.lookup runID with
  | none => exact .inl ⟨rfl,rfl⟩
  | some cp => exact .inr ⟨cp,rfl,rfl⟩

end

/-! ### The engine of the compensation tests

The nodes `a` and `b` are compensable, `c` fails. The checkpoint hook of `a`
cancels the context, as in the test of `Resume`. -/

def sampleForward (name : String) : UserFunc Nat String := fun _ s world => ((s.set name "true",none),world)

def sampleFailure (message : String) : UserFunc Nat String := fun _ s world => ((s,some message),world)

def sampleCompensate (err : Option String) : CompensateFunc Nat String := fun _ world => (err,world)

def sampleGraph : Except String (WorkflowGraph.Graph Nat String) := do
  let g ← newGraph.addCompensableNode "a" (sampleForward "a") (some (sampleCompensate none)) []
  let g ← g.addCompensableNode "b" (sampleForward "b") (some (sampleCompensate (some "b compensate error"))) []
  let g ← g.addNode "c" (some (.plain (sampleFailure "c failed"))) []
  let g ← g.addEdge "a" "b"
  let g ← g.addEdge "b" "c"
  let g ← g.addEdge "c" endNode
  g.setStart "a"

def sampleEngine : Engine Nat (MemoryStore String) String where
  graph := sampleGraph.toOption.getD newGraph
  config :=
    { maxSteps := 10, defaultNodeTimeout := 1000000000, checkpointStore := some memoryCheckpointStore
      hooks := { onCheckpoint := some (fun cp world => if cp.currentNode = "a" then world+1 else world) }
      nodeMiddleware := [], compensateOnFailure := true }
  valid := rfl
  positive := by decide

def sampleCancelled : Env Nat where
  ctxErr world := (if world = 0 then none else some "context canceled",world)
  now world := (0,world)

def sampleLive : Env Nat where
  ctxErr world := (none,world)
  now world := (1,world)

end Mcpkit.WorkflowEngine
