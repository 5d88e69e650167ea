import Mcpkit.GoMaps

/-!
Workflow graphs: the state that flows through them, node functions with what they do to the
compensation stack of their context, and the builders that check a graph.
-/
namespace Mcpkit.WorkflowGraph
open GoMaps

/-- The state passed between nodes; `data` holds values of any type. -/
structure State (V : Type) where
  data : GoMap V
  metadata : GoMap String
  step : Int
  nodeName : String
  updatedAt : Int

variable {V : Type}

def newState (now : Int) : State V := ⟨∅,∅,0,"",now⟩

variable (s : State V)

/-- A copy with maps of its own; the maps of the model are values already. -/
def State.clone : State V :=
  { data := s.data, metadata := s.metadata, step := s.step, nodeName := s.nodeName, updatedAt := s.updatedAt }

@[simp] theorem State.clone_eq : s.clone = s := rfl

def State.set (key : String) (value : V) : State V :=
  { s.clone with data := s.clone.data.insert key value }

def endNode : String := "__END__"

section
variable (W V : Type)

/-- What a node function reads of its context: the timeout set by the engine, and whether a compensation stack is
    stored. The rest of a context belongs to the world. -/
structure NodeContext where
  timeout : Int
  hasStack : Bool

/-- A function handed in by the user: the returned state, the error and the world it leaves. It cannot reach the
    compensation stack, whose context key is not exported. -/
def UserFunc := NodeContext → State V → W → (State V × Option String) × W

def CompensateFunc := State V → W → Option String × W

structure CompensationRecord where
  nodeName : String
  compensate : CompensateFunc W V
  state : State V

/-- What a node call does about sagas: a compensable forward function returned
    without an error, and a record was pushed on the stack of the context. -/
inductive SagaEffect where
  | completed (record : CompensationRecord W V)
  | pushed (record : CompensationRecord W V)

def EdgeCondition := State V → W → String × W
end

section
variable {W V : Type}

def completions : List (SagaEffect W V) → List (CompensationRecord W V)
  | [] => []
  | .completed r :: rest => r :: completions rest
  | .pushed _ :: rest => completions rest

def pushes : List (SagaEffect W V) → List (CompensationRecord W V)
  | [] => []
  | .completed _ :: rest => pushes rest
  | .pushed r :: rest => r :: pushes rest

@[simp] theorem completions_append (a b : List (SagaEffect W V)) :
    completions (a ++ b) = completions a ++ completions b := by
  induction a with
  | nil => rfl
  | cons effect rest ih => cases effect <;> simp [completions,ih]

/-- What a node call returns, what it did to the stack of its context and the world it leaves. -/
structure Call (W V : Type) where
  state : State V
  err : Option String
  effects : List (SagaEffect W V)
  world : W

/-- A node function of the graph. Only the wrapper of `addCompensableNode` knows the stack, so every completed
    forward call below it has pushed its record if the context holds a stack. -/
structure NodeFunc (W V : Type) where
  call : NodeContext → State V → W → Call W V
  recorded : ∀ ctx s w, pushes (call ctx s w).effects =
    if ctx.hasStack then completions (call ctx s w).effects else []

def NodeFunc.plain (fn : UserFunc W V) : NodeFunc W V where
  call ctx s w := ⟨(fn ctx s w).1.1,(fn ctx s w).1.2,[],(fn ctx s w).2⟩
  recorded ctx s w := by cases ctx.hasStack <;> rfl

/-- The wrapper of `AddCompensableNode` pushes a record with a clone of the state, if the context holds a stack. -/
def NodeFunc.compensable (name : String) (forward : UserFunc W V) (compensate : CompensateFunc W V) : NodeFunc W V where
  call ctx s w :=
    match forward ctx s w with
    | ((newState,some err),w) => ⟨newState,some err,[],w⟩
    | ((newState,none),w) =>
      let record := ⟨name,compensate,newState.clone⟩
      ⟨newState,none,.completed record :: if ctx.hasStack then [.pushed record] else [],w⟩
  recorded ctx s w := by
    rcases forward ctx s w with ⟨⟨newState,_ | err⟩,w'⟩
    · cases ctx.hasStack <;> rfl
    · cases ctx.hasStack <;> rfl

def NodeMiddleware (W V : Type) := String → NodeFunc W V → NodeFunc W V

def wrapNodeFunc (fn : NodeFunc W V) (name : String) (mw : List (NodeMiddleware W V)) : NodeFunc W V :=
  mw.foldr (fun m wrapped => m name wrapped) fn

inductive Edge (W V : Type) where
  | unconditional (target : String)
  | conditional (condition : EdgeCondition W V)

structure Node (W V : Type) where
  name : String
  fn : NodeFunc W V
  timeout : Int
  edges : List (Edge W V)

/-- The nodes of a graph in some order of iteration, and the start node. -/
structure Graph (W V : Type) where
  nodes : AList (fun _ : String => Node W V)
  start : String

def newGraph : Graph W V := ⟨∅,""⟩

variable (g : Graph W V) (name : String)

def Graph.addNode (fn : Option (NodeFunc W V)) (opts : List (Int → Int)) :
    Except String (Graph W V) :=
  if name = "" then .error "workflow: node name cannot be empty"
  else if name = endNode then .error s!"workflow: {endNode.quote} is reserved"
  else
    match fn with
    | none => .error s!"workflow: node {name.quote} handler cannot be nil"
    | some fn =>
      if (g.nodes.lookup name).isSome then .error s!"workflow: duplicate node {name.quote}"
      else .ok { g with nodes := g.nodes.insert name ⟨name,fn,opts.foldl (fun cfg opt => opt cfg) 0,[]⟩ }

/-- `AddCompensableNode` checks the compensation, then adds the wrapper. -/
def Graph.addCompensableNode (forward : UserFunc W V)
    (compensate : Option (CompensateFunc W V)) (opts : List (Int → Int)) : Except String (Graph W V) :=
  match compensate with
  | none => .error s!"workflow: compensate function cannot be nil for node {name.quote}"
  | some compensate => g.addNode name (some (.compensable name forward compensate)) opts

def Graph.appendEdge (n : Node W V) (from_ : String) (edge : Edge W V) : Graph W V :=
  { g with nodes := g.nodes.insert from_ { n with edges := n.edges ++ [edge] } }

def Graph.addEdge (from_ target : String) : Except String (Graph W V) :=
  match g.nodes.lookup from_ with
  | none => .error s!"workflow: unknown source node {from_.quote}"
  | some n =>
    if target ≠ endNode ∧ (g.nodes.lookup target).isNone then
      .error s!"workflow: unknown target node {target.quote}"
    else .ok (g.appendEdge n from_ (.unconditional target))

def Graph.addConditionalEdge (from_ : String) (condition : Option (EdgeCondition W V)) : Except String (Graph W V) :=
  match g.nodes.lookup from_ with
  | none => .error s!"workflow: unknown source node {from_.quote}"
  | some n =>
    match condition with
    | none => .error s!"workflow: condition cannot be nil for node {from_.quote}"
    | some condition => .ok (g.appendEdge n from_ (.conditional condition))

def Graph.setStart : Except String (Graph W V) :=
  if (g.nodes.lookup name).isSome then .ok { g with start := name }
  else .error s!"workflow: unknown start node {name.quote}"

def Graph.danglingEdge (g : Graph W V) : List (Edge W V) → Option String
  | [] => none
  | .conditional _ :: rest => g.danglingEdge rest
  | .unconditional target :: rest =>
    if target ≠ endNode ∧ (g.nodes.lookup target).isNone then some target else g.danglingEdge rest

def Graph.validateNodes (g : Graph W V) : List ((_ : String) × Node W V) → Except String Unit
  | [] => .ok ()
  | ⟨name,n⟩ :: rest =>
    match g.danglingEdge n.edges with
    | some target => .error s!"workflow: node {name.quote} has edge to unknown node {target.quote}"
    | none =>
      if n.edges.length = 0 then .error s!"workflow: node {name.quote} has no outgoing edges"
      else g.validateNodes rest

def Graph.validate : Except String Unit :=
  if g.start = "" then .error "workflow: no start node set"
  else if g.nodes.entries.length = 0 then .error "workflow: graph has no nodes"
  else g.validateNodes g.nodes.entries

end
end Mcpkit.WorkflowGraph
