import Mcpkit.GatewayBreaker
import Mcpkit.RegistryModel

/-!
The gateway: the upstreams by name, the tools they brought into the registry, and for each
registered name the upstream that brought it.
-/
namespace Mcpkit.GatewayModel
open GoMaps RegistryModel GatewayBreaker List

structure UpstreamConfig where
  name : String
  allowedTools : List String
  policy : UpstreamPolicy

variable (config : UpstreamConfig)

def UpstreamConfig.allowsTool (name : String) : Bool :=
  config.allowedTools.isEmpty || config.allowedTools.contains name

structure Upstream where
  config : UpstreamConfig
  resilience : Option UpstreamResilience
  client : Nat
  tools : List Tool

def syncTools (listed : List Tool) : List Tool :=
  listed.filter fun tool => config.allowsTool tool.name

def connected (client : Nat) (listed : List Tool) : Upstream where
  config := config
  resilience := newUpstreamResilience config.policy
  client := client
  tools := syncTools config listed

def namespacedName (ns toolName : String) : String := ns ++ "." ++ toolName

/-- The proxy for a tool of an upstream, inside the layers of the upstream's policy or bare. -/
structure Proxy where
  upstreamName : String
  originalToolName : String
  wrapped : Bool
  deriving DecidableEq

structure Gateway where
  upstreams : GoMap Upstream
  toolMap : GoMap String
  reg : DynamicRegistry Proxy
  closed : Bool

def newGateway (config : Config) : Gateway := ⟨∅,∅,newDynamicRegistry config,false⟩

inductive AddError where
  | errGatewayClosed
  | errDuplicateUpstream (name : String)
  | connecting (name err : String)
  | syncing (name err : String)
  deriving DecidableEq

variable (g : Gateway)

def Gateway.check (config : UpstreamConfig) : Option AddError :=
  if g.closed then some .errGatewayClosed
  else if config.name ∈ g.upstreams then some (.errDuplicateUpstream config.name)
  else none

def registerTool (u : Upstream) (g : Gateway) (tool : Tool) : Gateway :=
  let nsName := namespacedName u.config.name tool.name
  { g with
    toolMap := g.toolMap.insert nsName u.config.name
    reg := g.reg.addTool (define { tool with name := nsName } ⟨u.config.name,tool.name,u.resilience.isSome⟩) }

/-- The second look, which does not ask again whether the gateway is closed. -/
def Gateway.commit (u : Upstream) : Except AddError Gateway :=
  if u.config.name ∈ g.upstreams then .error (.errDuplicateUpstream u.config.name)
  else .ok (u.tools.foldl (registerTool u) { g with upstreams := g.upstreams.insert u.config.name u })

/-- `AddUpstream` when nothing comes between its steps, with how the connection and the listing of the tools end. -/
def Gateway.addUpstream (config : UpstreamConfig) (client : Except String Nat) (listed : Except String (List Tool)) :
    Except AddError (Nat × Gateway) :=
  match g.check config with
  | some err => .error err
  | none =>
    match client with
    | .error err => .error (.connecting config.name err)
    | .ok client =>
      match listed with
      | .error err => .error (.syncing config.name err)
      | .ok listed =>
        let u := connected config client listed
        (g.commit u).map fun g => (u.tools.length,g)

variable (name : String) (toRemove : List String)

/-- The names that `RemoveUpstream` collects, in the order of its loop, which Go leaves open. -/
def Gateway.Collects : Prop :=
  toRemove.toFinset = g.toolMap.keys.filter fun nsName => g.toolMap.lookup nsName = some name

instance (g : Gateway) (name : String) (toRemove : List String) : Decidable (g.Collects name toRemove) :=
  inferInstanceAs (Decidable (_ = _))

/-- `RemoveUpstream` of an upstream that exists, up to the closing of its client. -/
def Gateway.removeUpstream : Gateway where
  upstreams := g.upstreams.erase name
  toolMap := eraseAll g.toolMap toRemove
  reg := toRemove.foldl (fun reg nsName => (reg.removeTool nsName).2) g.reg
  closed := g.closed

variable (nsName : String)

/-- What a call of a registered tool is forwarded to: the proxy looks the upstream up when it is called. -/
def Gateway.forwards : Option (Upstream × String) :=
  match g.reg.tools.lookup nsName with
  | none => none
  | some td => (g.upstreams.lookup td.handler.upstreamName).map fun u => (u,td.handler.originalToolName)

/-! ### Names -/

theorem namespacedName_inj {ns tool tool' : String} (same : namespacedName ns tool = namespacedName ns tool') :
    tool = tool' := by
  unfold namespacedName at same
  have lists := congrArg String.toList same
  simp only [String.toList_append,append_cancel_left_eq] at lists
  exact String.toList_inj.mp lists

/-! ### What the operations do to the maps -/

def Gateway.bound : Option (String × String) :=
  (g.reg.tools.lookup nsName).map fun td => (td.handler.upstreamName,td.handler.originalToolName)

variable (u : Upstream)

theorem registerTool_owner (tool : Tool) (nsName : String) : (registerTool u g tool).toolMap.lookup nsName =
      if nsName = namespacedName u.config.name tool.name then some u.config.name else g.toolMap.lookup nsName := by
  split
  · rename_i same
    rw [same]
    exact Finmap.lookup_insert _
  · rename_i different
    exact Finmap.lookup_insert_of_ne _ different

theorem registerTool_bound (tool : Tool) (nsName : String) : (registerTool u g tool).bound nsName =
      if nsName = namespacedName u.config.name tool.name then some (u.config.name,tool.name) else g.bound nsName := by
  unfold Gateway.bound registerTool
  rw [addTool_lookup]
  by_cases same : nsName = namespacedName u.config.name tool.name
  · simp [same,define]
  · simp [same,define]

variable (tools : List Tool)

theorem register_bound_own {nsName : String} : ∀ {g : Gateway} {tool : Tool},
    tool ∈ tools → nsName = namespacedName u.config.name tool.name →
    (tools.foldl (registerTool u) g).bound nsName = some (u.config.name,tool.name) := by
  -- from the back, where the last turn decides
  induction tools using reverseRecOn with
  | nil => intro g tool member; cases member
  | append_singleton rest last ih =>
    intro g tool member named
    rw [foldl_append,foldl_cons,foldl_nil,registerTool_bound]
    split
    · rename_i same
      rw [namespacedName_inj (named.symm.trans same)]
    · rename_i different
      rcases mem_append.mp member with listed | listed
      · exact ih listed named
      · cases mem_singleton.mp listed
        exact absurd named different

theorem register_bound_other {nsName : String} : ∀ {g : Gateway},
    (∀ tool ∈ tools, nsName ≠ namespacedName u.config.name tool.name) →
    (tools.foldl (registerTool u) g).bound nsName = g.bound nsName := by
  induction tools with
  | nil => intro g away; rfl
  | cons first rest ih =>
    intro g away
    rw [foldl_cons,ih fun tool listed => away tool (mem_cons_of_mem _ listed),registerTool_bound,
      if_neg (away first mem_cons_self)]

def Gateway.Agrees : Prop := ∀ nsName, g.toolMap.lookup nsName = (g.bound nsName).map (·.1)

theorem register_agrees : ∀ {g : Gateway}, g.Agrees → (tools.foldl (registerTool u) g).Agrees := by
  induction tools with
  | nil => intro g agrees; exact agrees
  | cons first rest ih =>
    intro g agrees
    refine ih fun nsName => ?_
    rw [registerTool_owner,registerTool_bound,agrees nsName]
    split <;> rfl

theorem register_kept : ∀ g : Gateway, (tools.foldl (registerTool u) g).upstreams = g.upstreams ∧
    (tools.foldl (registerTool u) g).closed = g.closed := by
  induction tools with
  | nil => intro g; exact ⟨rfl,rfl⟩
  | cons first rest ih => intro g; exact ih _

theorem removeUpstream_bound :
    (g.removeUpstream name toRemove).bound nsName = if nsName ∈ toRemove then none else g.bound nsName := by
  unfold Gateway.bound Gateway.removeUpstream
  rw [removeAll_lookup]
  split <;> rfl

theorem removeUpstream_agrees {g : Gateway} (agrees : g.Agrees) : (g.removeUpstream name toRemove).Agrees := by
  intro nsName
  have owner : (g.removeUpstream name toRemove).toolMap.lookup nsName = _ := lookup_eraseAll toRemove nsName g.toolMap
  rw [owner,removeUpstream_bound,agrees nsName]
  split <;> rfl

theorem Gateway.Collects.mem_iff {g : Gateway} {name : String} {toRemove : List String}
    (collects : g.Collects name toRemove) (nsName : String) :
    nsName ∈ toRemove ↔ g.toolMap.lookup nsName = some name := by
  rw [← mem_toFinset,collects,Finset.mem_filter,Finmap.mem_keys]
  refine ⟨And.right,fun owner => ⟨?_,owner⟩⟩
  exact Finmap.lookup_isSome.mp (by rw [owner]; rfl)

end Mcpkit.GatewayModel
