import Mcpkit.RegistryModel

/-!
Federation with peer gateways. Each peer is polled for its tools, which come into the registry
under a federated name, each with a handler that forwards to the peer.
-/
namespace Mcpkit.FederationModel
open GoMaps RegistryModel List
variable {L : Type}

structure ToolInfo where
  name : String
  description : String
  peer : String
  deriving DecidableEq

structure FederationConfig where
  peers : List String
  namespaced : Bool

def trimPrefix (start text : List Char) : List Char := if start.isPrefixOf text then text.drop start.length else text

def sanitize (r : Char) : Char :=
  if ('a' ≤ r ∧ r ≤ 'z') ∨ ('A' ≤ r ∧ r ≤ 'Z') ∨ ('0' ≤ r ∧ r ≤ '9') ∨ r = '_' then r else '_'

def peerNamespace (endpoint : String) : String :=
  let ns := trimPrefix "http://".toList (trimPrefix "https://".toList endpoint.toList)
  String.ofList ((ns.takeWhile (· ≠ '/')).map sanitize)

variable (cfg : FederationConfig)

def FederationConfig.federatedToolName (endpoint toolName : String) : String :=
  if cfg.namespaced then peerNamespace endpoint ++ "/" ++ toolName else toolName

/-- A handler in the registry: the proxy for a tool of a peer, or one that was there before. -/
inductive Handler (L : Type) where
  | peer (endpoint originalToolName : String)
  | native (handler : L)
  deriving DecidableEq

structure PeerState where
  client : Bool
  tools : List ToolInfo
  lastSeen : Int
  healthy : Bool

structure Federation (L : Type) where
  peers : GoMap PeerState
  reg : DynamicRegistry (Handler L)

def newFederation (reg : DynamicRegistry (Handler L)) : Federation L := ⟨∅,reg⟩

/-- `getOrCreatePeer`; the state is put into the map with its changes. -/
def Federation.getOrCreatePeer (f : Federation L) (endpoint : String) : PeerState :=
  (f.peers.lookup endpoint).getD ⟨false,[],0,false⟩

/-- Whether a connection can be made, if one is needed, and what `listTools` returns. -/
structure Outcome where
  connects : Bool
  listing : Option (List Tool)

variable (endpoint : String)

def FederationConfig.federated (tool : Tool) : Tool :=
  { tool with name := cfg.federatedToolName endpoint tool.name }

def FederationConfig.namesOf (tools : List ToolInfo) : List String :=
  tools.map fun ti => cfg.federatedToolName endpoint ti.name

def descriptor (tools : List Tool) (name : String) : Tool := (tools.find? (fun t => t.name = name)).getD ⟨"","",""⟩

variable (oldNames : List String) (tools : List Tool) (reg : DynamicRegistry (Handler L))

/-- One turn of the loop that adds new tools; a tool under a known name is skipped. -/
def FederationConfig.addNew (ti : ToolInfo) : DynamicRegistry (Handler L) :=
  if cfg.federatedToolName endpoint ti.name ∈ oldNames then reg
  else reg.addTool (define
    { descriptor tools ti.name with name := cfg.federatedToolName endpoint ti.name } (.peer endpoint ti.name))

/-- The two loops of `discoverPeer`; the order in which names are removed does not matter. -/
def FederationConfig.update (oldTools newTools : List ToolInfo)
    (tools : List Tool) (reg : DynamicRegistry (Handler L)) : DynamicRegistry (Handler L) :=
  let dropped := (cfg.namesOf endpoint oldTools).filter (· ∉ cfg.namesOf endpoint newTools)
  let reg := dropped.foldl (fun reg name => (reg.removeTool name).2) reg
  newTools.foldl (cfg.addNew endpoint (cfg.namesOf endpoint oldTools) tools) reg

def infos : List ToolInfo :=
  tools.map fun t => ⟨t.name,t.description,endpoint⟩

def Federation.discoverPeer (f : Federation L) (cfg : FederationConfig) (endpoint : String) (outcome : Outcome)
    (now : Int) : Federation L :=
  let ps := f.getOrCreatePeer endpoint
  if ps.client = false ∧ outcome.connects = false then
    { f with peers := f.peers.insert endpoint { ps with healthy := false } }
  else
    match outcome.listing with
    | none => { f with peers := f.peers.insert endpoint { ps with client := false, healthy := false } }
    | some tools =>
      { peers := f.peers.insert endpoint ⟨true,infos endpoint tools,now,true⟩
        reg := cfg.update endpoint ps.tools (infos endpoint tools) tools f.reg }

/-! ### Names -/

open FederationConfig

theorem federatedToolName_inj {endpoint tool tool' : String}
    (same : cfg.federatedToolName endpoint tool = cfg.federatedToolName endpoint tool') : tool = tool' := by
  unfold federatedToolName at same
  split at same
  · have lists := congrArg String.toList same
    simp only [String.toList_append,append_cancel_left_eq] at lists
    exact String.toList_inj.mp lists
  · exact same

@[simp] theorem namesOf_infos :
    cfg.namesOf endpoint (infos endpoint tools) = tools.map fun t => cfg.federatedToolName endpoint t.name := by
  simp [namesOf,infos]

theorem descriptor_eq {tools : List Tool} {t : Tool} (listed : t ∈ tools)
    (one : ∀ t' ∈ tools, t'.name = t.name → t' = t) : descriptor tools t.name = t := by
  unfold descriptor
  cases found : tools.find? (fun t' => t'.name = t.name) with
  | none => simpa using find?_eq_none.mp found t listed
  | some t' => exact one t' (mem_of_find?_eq_some found) (by simpa using find?_some found)

/-! ### What a poll does to the registry -/

def entry (name : String) : Option (Tool × Handler L) :=
  (reg.tools.lookup name).map fun td => (td.tool,td.handler)

theorem addNew_entry (ti : ToolInfo) (name : String) : entry (cfg.addNew endpoint oldNames tools reg ti) name =
      if name = cfg.federatedToolName endpoint ti.name ∧ name ∉ oldNames then
        some ({ descriptor tools ti.name with name := name },.peer endpoint ti.name)
      else entry reg name := by
  unfold addNew entry
  by_cases known : cfg.federatedToolName endpoint ti.name ∈ oldNames
  · rw [if_pos known,if_neg]
    rintro ⟨rfl,unknown⟩
    exact unknown known
  · rw [if_neg known,addTool_lookup]
    by_cases same : name = cfg.federatedToolName endpoint ti.name
    · subst same; simp [define,known]
    · simp [define,same]

theorem addNew_loop (infos : List ToolInfo) (reg : DynamicRegistry (Handler L)) (name : String) :
    (∀ ti ∈ infos, name = cfg.federatedToolName endpoint ti.name → name ∉ oldNames →
      entry (infos.foldl (cfg.addNew endpoint oldNames tools) reg) name =
        some ({ descriptor tools ti.name with name := name },.peer endpoint ti.name)) ∧
    ((name ∈ oldNames ∨ ∀ ti ∈ infos, name ≠ cfg.federatedToolName endpoint ti.name) →
      entry (infos.foldl (cfg.addNew endpoint oldNames tools) reg) name = entry reg name) := by
  -- from the back, where the last turn decides
  induction infos using reverseRecOn with
  | nil => simp
  | append_singleton rest last ih =>
    obtain ⟨own,other⟩ := ih
    rw [foldl_append,foldl_cons,foldl_nil,addNew_entry]
    refine ⟨fun ti member named unknown => ?_,fun apart => ?_⟩
    · split
      · rename_i here
        rw [federatedToolName_inj cfg (named.symm.trans here.1)]
      · rename_i elsewhere
        rcases mem_append.mp member with listed | listed
        · exact own ti listed named unknown
        · cases mem_singleton.mp listed
          exact absurd ⟨named,unknown⟩ elsewhere
    · rw [if_neg,other (apart.imp_right fun away ti listed => away ti (mem_append_left _ listed))]
      rintro ⟨same,unknown⟩
      rcases apart with known | away
      · exact unknown known
      · exact away last (mem_append_right _ (mem_singleton_self _)) same

theorem entry_removeAll (names : List String) (reg : DynamicRegistry (Handler L)) (name : String) :
    entry (names.foldl (fun reg name => (reg.removeTool name).2) reg) name =
      if name ∈ names then none else entry reg name := by
  unfold entry
  rw [removeAll_lookup]
  split <;> rfl

section
variable (cfg : FederationConfig) (endpoint : String) (oldTools : List ToolInfo) (tools : List Tool)
  (reg : DynamicRegistry (Handler L)) {name : String}

theorem update_kept (old : name ∈ cfg.namesOf endpoint oldTools)
    (new : name ∈ cfg.namesOf endpoint (infos endpoint tools)) :
    entry (cfg.update endpoint oldTools (infos endpoint tools) tools reg) name = entry reg name := by
  unfold update
  rw [(addNew_loop cfg endpoint _ tools _ _ name).2 (.inl old),entry_removeAll,if_neg]
  exact fun dropped => of_decide_eq_true (mem_filter.mp dropped).2 new

theorem update_dropped (old : name ∈ cfg.namesOf endpoint oldTools)
    (gone : name ∉ cfg.namesOf endpoint (infos endpoint tools)) :
    entry (cfg.update endpoint oldTools (infos endpoint tools) tools reg) name = none := by
  unfold update
  rw [(addNew_loop cfg endpoint _ tools _ _ name).2 (.inl old),entry_removeAll,if_pos]
  exact mem_filter.mpr ⟨old,by simpa using gone⟩

theorem update_added (unknown : name ∉ cfg.namesOf endpoint oldTools) {t : Tool} (listed : t ∈ tools)
    (named : name = cfg.federatedToolName endpoint t.name) :
    entry (cfg.update endpoint oldTools (infos endpoint tools) tools reg) name =
      some ({ descriptor tools t.name with name := name },.peer endpoint t.name) := by
  exact (addNew_loop cfg endpoint _ tools _ _ name).1 ⟨t.name,t.description,endpoint⟩
    (mem_map.mpr ⟨t,listed,rfl⟩) named unknown

theorem update_other (unknown : name ∉ cfg.namesOf endpoint oldTools)
    (away : name ∉ cfg.namesOf endpoint (infos endpoint tools)) :
    entry (cfg.update endpoint oldTools (infos endpoint tools) tools reg) name = entry reg name := by
  unfold update
  rw [(addNew_loop cfg endpoint _ tools _ _ name).2 (.inr fun ti member same => away
    (mem_map.mpr ⟨ti,member,same.symm⟩)),entry_removeAll,if_neg]
  exact fun dropped => unknown (mem_filter.mp dropped).1

end
end Mcpkit.FederationModel
