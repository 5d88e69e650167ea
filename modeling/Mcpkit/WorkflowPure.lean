import Mcpkit.WorkflowSessions

/-!
Workflows whose functions are pure, and the path that a run of one takes: a function of the
initial state alone, with no context, clock, store or hooks.
-/
namespace Mcpkit.WorkflowPure
open WorkflowGraph WorkflowEngine WorkflowSessions List

variable (V : Type)

/-- What a node call computes, with the compensable calls that completed in it, by node and snapshot. -/
structure Answer where
  state : State V
  err : Option String
  completed : List (String × State V)

structure Turn where
  node : String
  input : State V
  answer : Answer V

/-- How a run ends: with an error, or with a status, a final state and a number of steps. -/
abbrev Outcome := Except String (RunStatus × State V × Int)

structure Path where
  outcome : Outcome V
  turns : List (Turn V)

structure Workflow where
  call : String → State V → Option (Answer V)
  next : String → State V → Except String String

open Workflow

section
variable {V : Type}

def stampless (s : State V) : State V := { s with updatedAt := 0 }


def Path.after (path : Path V) (turns : List (Turn V)) : Path V := ⟨path.outcome,turns ++ path.turns⟩

@[simp] theorem Path.after_after (path : Path V) (a b : List (Turn V)) : (path.after b).after a = path.after (a ++ b) := by
  simp [Path.after]

/-- From a completed node: the edge fails, ends the run or leads to a target. -/
def Workflow.onward (w : Workflow V) (go : String → Path V) (step : Int) (node : String) (state : State V) : Path V :=
  match w.next node state with
  | .error err => ⟨.error err,[]⟩
  | .ok target => if target = endNode then ⟨.ok (.completed,state,step),[]⟩ else go target

def Workflow.path (w : Workflow V) (maxSteps : Int) : Nat → Int → String → State V → Path V
  | 0,_,_,state => ⟨.ok (.failed,state,maxSteps),[]⟩
  | remaining+1,step,node,state =>
    let input := { state with step := step, nodeName := node }
    match w.call node input with
    | none => ⟨.error s!"workflow: node {node.quote} not found during execution",[]⟩
    | some answer =>
      match answer.err with
      | some _ => ⟨.ok (.failed,input,step+1),[⟨node,input,answer⟩]⟩
      | none =>
        (w.onward (fun target => w.path maxSteps remaining (step+1) target answer.state) (step+1) node
          answer.state).after [⟨node,input,answer⟩]

/-- The path from the end of a node that returned `state` as its `step`-th. -/
def Workflow.pathAfter (w : Workflow V) (maxSteps : Int) (remaining : Nat) (step : Int) (node : String)
    (state : State V) : Path V :=
  w.onward (fun target => w.path maxSteps remaining step target state) step node state

variable {w : Workflow V} {maxSteps : Int} {node : String} {state : State V} {remaining : Nat} {step : Int}

theorem path_missing (absent : w.call node { state with step := step, nodeName := node } = none) :
    w.path maxSteps (remaining+1) step node state =
      ⟨.error s!"workflow: node {node.quote} not found during execution",[]⟩ := by
  simp only [path,absent]

theorem path_failed
    {answer : Answer V} {err : String} (called : w.call node { state with step := step, nodeName := node } = some answer)
    (failure : answer.err = some err) : w.path maxSteps (remaining+1) step node state =
      ⟨.ok (.failed,{ state with step := step, nodeName := node },step+1),
        [⟨node,{ state with step := step, nodeName := node },answer⟩]⟩ := by
  simp only [path,called,failure]

theorem path_called
    {answer : Answer V} (called : w.call node { state with step := step, nodeName := node } = some answer)
    (success : answer.err = none) : w.path maxSteps (remaining+1) step node state =
      (w.pathAfter maxSteps remaining (step+1) node answer.state).after
        [⟨node,{ state with step := step, nodeName := node },answer⟩] := by
  simp only [path,pathAfter,called,success]

theorem pathAfter_error {err : String} (resolved : w.next node state = .error err) :
    w.pathAfter maxSteps remaining step node state = ⟨.error err,[]⟩ := by
  simp only [pathAfter,onward,resolved]

theorem pathAfter_end (resolved : w.next node state = .ok endNode) :
    w.pathAfter maxSteps remaining step node state = ⟨.ok (.completed,state,step),[]⟩ := by
  simp only [pathAfter,onward,resolved,↓reduceIte]

theorem pathAfter_next {target : String} (resolved : w.next node state = .ok target) (more : target ≠ endNode) :
    w.pathAfter maxSteps remaining step node state = w.path maxSteps remaining step target state := by
  simp only [pathAfter,onward,resolved,more,↓reduceIte]

end

variable {W S V : Type}

/-! ### Engines that implement a pure workflow -/

def snapshot (r : CompensationRecord W V) : String × State V := (r.nodeName,stampless r.state)

def answer (c : Call W V) : Answer V := ⟨stampless c.state,c.err,(completions c.effects).map snapshot⟩

def turn (x : Execution W V) : Turn V :=
  ⟨x.node,stampless x.input,⟨stampless x.output,x.err,(completions x.effects).map snapshot⟩⟩

def outcome (result : Except String (RunResult V)) : Outcome V :=
  result.map (fun r => (r.status,stampless r.finalState,r.steps))

/-- The function of a node reads neither the world nor the time at which the
    engine stamped the state: what it computes depends on the rest of the state. -/
def Pure (fn : NodeFunc W V) : Prop := ∀ ctx s s' world world', stampless s = stampless s' →
  answer (fn.call ctx s world) = answer (fn.call ctx s' world')

variable (e : Engine W S V)

/-- Every node function, inside its middleware, and every edge condition is pure. -/
structure Deterministic : Prop where
  nodes : ∀ node n, e.graph.nodes.lookup node = some n → Pure (e.nodeFunc n node)
  conditions : ∀ node n, e.graph.nodes.lookup node = some n → ∀ condition, .conditional condition ∈ n.edges →
    ∀ s s' world world', stampless s = stampless s' → (condition s world).1 = (condition s' world').1

/-- The same for a function handed in by the user. -/
def PureUser (fn : UserFunc W V) : Prop := ∀ ctx s s' world world', stampless s = stampless s' →
  stampless (fn ctx s world).1.1 = stampless (fn ctx s' world').1.1 ∧
    (fn ctx s world).1.2 = (fn ctx s' world').1.2

theorem PureUser.plain {fn : UserFunc W V} (pure : PureUser fn) : Pure (.plain fn) := by
  intro ctx s s' world world' same
  obtain ⟨state,err⟩ := pure ctx s s' world world' same
  simp only [answer,NodeFunc.plain,state,err]

theorem PureUser.compensable {fn : UserFunc W V} (pure : PureUser fn) (name : String) (compensate : CompensateFunc W V) :
    Pure (.compensable name fn compensate) := by
  intro ctx s s' world world' same
  obtain ⟨state,err⟩ := pure ctx s s' world world' same
  simp only [NodeFunc.compensable]
  generalize fn ctx s world = one at state err ⊢
  generalize fn ctx s' world' = other at state err ⊢
  obtain ⟨⟨out,failure⟩,after⟩ := one
  obtain ⟨⟨out',failure'⟩,after'⟩ := other
  subst err
  cases failure with
  | none => cases ctx.hasStack <;> simp [answer,completions,snapshot,state]
  | some failure => simp [answer,state]

/-- The engine computes the workflow `w`, in contexts as both entry points make them. -/
structure Implements (w : Workflow V) : Prop where
  missing : ∀ node s, e.graph.nodes.lookup node = none → w.call node s = none
  called : ∀ node n s world, e.graph.nodes.lookup node = some n →
    w.call node (stampless s) =
      some (answer ((e.nodeFunc n node).call ⟨e.timeout n,e.config.compensateOnFailure⟩ s world))
  resolved : ∀ node n s world, e.graph.nodes.lookup node = some n →
    (e.resolveNext n s world).1 = w.next node (stampless s)

/-- The functions of the engine, called in one fixed world. -/
def pureWorkflow (world : W) : Workflow V where
  call node s := (e.graph.nodes.lookup node).map (fun n =>
    answer ((e.nodeFunc n node).call ⟨e.timeout n,e.config.compensateOnFailure⟩ s world))
  next node s :=
    match e.graph.nodes.lookup node with
    | none => .error ""
    | some n => (e.resolveNext n s world).1

private theorem resolveNext_congr (n : Node W V) {s s' : State V} {world world' : W}
    (same : ∀ condition, .conditional condition ∈ n.edges → (condition s world).1 = (condition s' world').1) :
    (e.resolveNext n s world).1 = (e.resolveNext n s' world').1 := by
  unfold Engine.resolveNext
  cases edges : n.edges with
  | nil => rfl
  | cons edge rest =>
    cases edge with
    | unconditional target => rfl
    | conditional condition =>
      have chosen := same condition (by simp [edges])
      dsimp only
      rw [chosen]
      split
      · rfl
      · split
        · rfl
        · rfl

variable {e}

theorem deterministic_implements (deterministic : Deterministic e) (world : W) :
    Implements e (pureWorkflow e world) where
  missing node s absent := by simp [pureWorkflow,absent]
  called node n s world' found := by
    simp only [pureWorkflow,found,Option.map_some,Option.some.injEq]
    exact deterministic.nodes node n found _ _ _ _ _ rfl
  resolved node n s world' found := by
    simp only [pureWorkflow,found]
    exact resolveNext_congr e n (fun condition edge => deterministic.conditions node n found condition edge _ _ _ _ rfl)

/-! ### Sessions follow the path -/

/-- A session goes on from `m` to `out` along a path from `step`; each saved checkpoint splits it into the calls
    made up to it and the path after it. -/
structure Follows (e : Engine W S V) (w : Workflow V) (env : Env W) (remaining : Nat) (step : Int) (path : Path V)
    (m : Session W S V) (out : Except String (RunResult V) × Session W S V) (made : List (Execution W V))
    (cps : List (Checkpoint V)) : Prop where
  trace : out.2.trace = m.trace ++ made
  saved : out.2.saved = m.saved ++ cps
  whole : env.Live → path = ⟨outcome out.1,made.map turn⟩
  cut : ∀ k cp, cps[k]? = some cp → k < remaining ∧ k < made.length ∧ cp.step = step+k+1 ∧
    (∃ n, e.graph.nodes.lookup cp.currentNode = some n) ∧
    path = (w.pathAfter e.config.maxSteps (remaining-(k+1)) cp.step cp.currentNode (stampless cp.state)).after
      ((made.take (k+1)).map turn)

variable {w : Workflow V}

private theorem follows_idle {env : Env W}
    {path : Path V} {m m' : Session W S V} {result : Except String (RunResult V)}
    (trace : m'.trace = m.trace) (saved : m'.saved = m.saved) (whole : env.Live → path = ⟨outcome result,[]⟩) :
    Follows e w env remaining step path m (result,m') [] [] where
  trace := by simpa using trace
  saved := by simpa using saved
  whole := whole
  cut k cp inside := by simp at inside

variable {node : String} {n : Node W V}

private theorem ran_called (implements : Implements e w)
    {state : State V} {hasStack : Bool} {x : Execution W V}
    (ran : Ran e step node state hasStack n x) (stack : hasStack = e.config.compensateOnFailure) :
    turn x = ⟨node,{ stampless state with step := step, nodeName := node },(turn x).answer⟩ ∧
    w.call node { stampless state with step := step, nodeName := node } = some (turn x).answer := by
  obtain ⟨now,input⟩ := ran.input
  obtain ⟨before,after,called⟩ := ran.called
  have same : stampless x.input = { stampless state with step := step, nodeName := node } := by rw [input]; rfl
  have computed := implements.called node n x.input before ran.found
  rw [stack] at called
  rw [called,same] at computed
  exact ⟨by rw [turn,ran.name,same],computed⟩

private theorem Follows.cons {env : Env W}
    {x : Execution W V} {cp : Checkpoint V} {m m₁ : Session W S V}
    {out : Except String (RunResult V) × Session W S V} {made : List (Execution W V)} {cps : List (Checkpoint V)}
    (found : e.graph.nodes.lookup node = some n) (holds : cp.state = x.output ∧ cp.currentNode = node ∧ cp.step = step+1)
    (trace : m₁.trace = m.trace ++ [x]) (saved : m₁.saved = m.saved ++ [cp])
    (rest : Follows e w env remaining (step+1)
      (w.pathAfter e.config.maxSteps remaining (step+1) node (stampless x.output)) m₁ out made cps) :
    Follows e w env (remaining+1) step
      ((w.pathAfter e.config.maxSteps remaining (step+1) node (stampless x.output)).after [turn x])
      m out (x :: made) (cp :: cps) where
  trace := by rw [rest.trace,trace]; simp
  saved := by rw [rest.saved,saved]; simp
  whole live := by rw [rest.whole live]; rfl
  cut k cp' inside := by
    obtain ⟨state,current,counted⟩ := holds
    cases k with
    | zero =>
      simp only [getElem?_cons_zero,Option.some.injEq] at inside
      subst inside
      exact ⟨by omega,by simp,by simpa using counted,⟨n,current ▸ found⟩,by simp [state,current,counted]⟩
    | succ k =>
      obtain ⟨inTime,done,steps,known,split⟩ := rest.cut k cp' (by simpa using inside)
      refine ⟨by omega,by simpa using done,by rw [steps]; push_cast; ring,known,?_⟩
      rw [split]
      simp

theorem loop_follows {e : Engine W (MemoryStore V) V} (implements : Implements e w)
    (memory : e.InMemory) (env : Env W) (runID : String) :
    ∀ (remaining : Nat) (step : Int) (node : String) (state : State V) (m : Session W (MemoryStore V) V),
      m.stack.isSome = e.config.compensateOnFailure →
      ∃ made cps, Follows e w env remaining step (w.path e.config.maxSteps remaining step node (stampless state)) m
        (e.loop env runID remaining step node state m) made cps := by
  intro remaining
  induction remaining with
  | zero => intro step node state m stack; exact ⟨[],[],follows_idle rfl rfl (fun _ => rfl)⟩
  | succ remaining ih =>
    intro step node state m stack
    rw [Engine.loop]
    have visited := visit_cases e env runID step node state m
    generalize e.visit env runID step node state m = progress at visited ⊢
    cases visited with
    | cancelled err world observed =>
      exact ⟨[],[],follows_idle rfl rfl (fun live => by rw [live] at observed; cases observed)⟩
    | missing message world absent text =>
      refine ⟨[],[],follows_idle rfl rfl (fun _ => ?_)⟩
      rw [path_missing (implements.missing node _ absent),text]
      rfl
    | failed n x err message m' ran failure trace store saved invoked =>
      obtain ⟨same,called⟩ := ran_called implements ran stack
      refine ⟨[x],[],trace,by simp [saved],fun _ => ?_,by simp⟩
      rw [path_failed called failure,← same]
      simp only [outcome,Except.map,map_cons,map_nil]
      rw [show stampless x.input = (turn x).input from rfl,same]
    | unsaved n x message err store cp m' ran success present refused trace invoked =>
      rw [save_memory memory present] at refused
      cases refused
    | done n x savedAt m₁ ran success trace kept invoked grown =>
      obtain ⟨store,saved⟩ := kept_memory memory kept
      obtain ⟨same,called⟩ := ran_called implements ran stack
      rw [path_called called success,← same]
      have next := implements.resolved node n x.output m₁.world ran.found
      have advanced := advance_cases e runID step node n x.output m₁
      dsimp only
      generalize e.advance runID step node n x.output m₁ = progress at advanced ⊢
      suffices rest : ∃ made cps, Follows e w env remaining (step+1)
          (w.pathAfter e.config.maxSteps remaining (step+1) node (stampless x.output)) m₁ _ made cps by
        obtain ⟨made,cps,rest⟩ := rest
        exact ⟨_,_,Follows.cons ran.found ⟨rfl,rfl,rfl⟩ trace saved rest⟩
      cases advanced with
      | unresolved err world resolved =>
        refine ⟨[],[],follows_idle rfl rfl (fun _ => ?_)⟩
        exact pathAfter_error (next.symm.trans resolved)
      | completed world resolved =>
        rw [cleanUp_memory memory]
        refine ⟨[],[],follows_idle rfl rfl (fun _ => ?_)⟩
        exact pathAfter_end (next.symm.trans resolved)
      | next target world resolved more =>
        rw [pathAfter_next (next.symm.trans resolved) more]
        obtain ⟨made,cps,rest⟩ := ih (step+1) target x.output { m₁ with world := world } (by simp [grown,stack])
        exact ⟨made,cps,rest.trace,rest.saved,rest.whole,rest.cut⟩

theorem resumeFrom_follows {e : Engine W (MemoryStore V) V} (implements : Implements e w)
    (memory : e.InMemory) (env : Env W) (runID : String) (cp : Checkpoint V) (m : Session W (MemoryStore V) V)
    (found : e.graph.nodes.lookup cp.currentNode = some n) (within : cp.step ≤ e.config.maxSteps) :
    ∃ made cps, Follows e w env (e.config.maxSteps-cp.step).toNat cp.step
      (w.pathAfter e.config.maxSteps (e.config.maxSteps-cp.step).toNat cp.step cp.currentNode (stampless cp.state)) m
      (e.resumeFrom env runID cp m) made cps := by
  have next := implements.resolved cp.currentNode n cp.state m.world found
  have resumed := resumeFrom_cases e env runID cp m
  generalize e.resumeFrom env runID cp m = out at resumed ⊢
  cases resumed with
  | missing message absent => rw [absent] at found; cases found
  | unresolved n' err world found' resolved =>
    cases found.symm.trans found'
    exact ⟨[],[],follows_idle rfl rfl (fun _ => pathAfter_error (next.symm.trans resolved))⟩
  | completed n' world found' resolved =>
    cases found.symm.trans found'
    rw [cleanUp_memory memory]
    exact ⟨[],[],follows_idle rfl rfl (fun _ => pathAfter_end (next.symm.trans resolved))⟩
  | exhausted n' target message world found' resolved more reached =>
    cases found.symm.trans found'
    refine ⟨[],[],follows_idle rfl rfl (fun _ => ?_)⟩
    have last : cp.step = e.config.maxSteps := by omega
    rw [pathAfter_next (next.symm.trans resolved) more,last]
    simp [path,outcome,Except.map]
  | looped n' target world found' resolved more left =>
    cases found.symm.trans found'
    rw [pathAfter_next (next.symm.trans resolved) more]
    obtain ⟨made,cps,follows⟩ := loop_follows implements memory env runID (e.config.maxSteps-cp.step).toNat cp.step
      target cp.state (e.withStack { m with world := world }) (by simp)
    exact ⟨made,cps,follows.trace,follows.saved,follows.whole,follows.cut⟩

/-! ### The test engine is deterministic -/

private theorem sampleForward_pure (name : String) : PureUser (sampleForward name) := by
  intro ctx s s' world world' same
  have set (t : State String) : stampless (t.set name "true") = (stampless t).set name "true" := rfl
  exact ⟨by simp only [sampleForward,set,same],rfl⟩

private theorem sample_nodes {n : Node Nat String} (found : sampleEngine.graph.nodes.lookup node = some n) :
    n = ⟨"c",.plain (sampleFailure "c failed"),0,[.unconditional endNode]⟩ ∨
    n = ⟨"b",.compensable "b" (sampleForward "b") (sampleCompensate (some "b compensate error")),0,
      [.unconditional "c"]⟩ ∨
    n = ⟨"a",.compensable "a" (sampleForward "a") (sampleCompensate none),0,[.unconditional "b"]⟩ := by
  have member : (⟨node,n⟩ : (_ : String) × Node Nat String) ∈ sampleEngine.graph.nodes.entries :=
    AList.mem_lookup_iff.mp found
  change _ ∈ [_,_,_] at member
  simp only [mem_cons,not_mem_nil,or_false,Sigma.mk.injEq,heq_eq_eq] at member
  rcases member with ⟨-,same⟩ | ⟨-,same⟩ | ⟨-,same⟩
  · exact .inl same
  · exact .inr (.inl same)
  · exact .inr (.inr same)

theorem sampleEngine_deterministic : Deterministic sampleEngine where
  nodes node n found := by
    rcases sample_nodes found with rfl | rfl | rfl
    · exact PureUser.plain (fun _ _ _ _ _ same => ⟨same,rfl⟩)
    · exact (sampleForward_pure "b").compensable "b" _
    · exact (sampleForward_pure "a").compensable "a" _
  conditions node n found condition edge := by
    rcases sample_nodes found with rfl | rfl | rfl <;> simp at edge

end Mcpkit.WorkflowPure
