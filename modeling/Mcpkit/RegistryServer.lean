import Mcpkit.RegistryModel
import Mcpkit.Transitions

/-!
A registry wired to a server. `RegisterWithServer` puts the tools on the server, takes the set of
their names, and registers a callback, in three steps.
-/
namespace Mcpkit.RegistryServer
open Transitions GoMaps RegistryModel Finmap
variable {H : Type}

/-- What a tool on the server was made from: the definition, which gives the descriptor
    and the handler, and whether the name was marked for deferred loading. -/
structure Published (H : Type) where
  definition : ToolDefinition H
  deferred : Bool
  deriving DecidableEq

variable (d : DynamicRegistry H)

/-- `AddToolToServer` for a name of the registry: a server tool is known by its name. -/
def publishTool (server : GoMap (Published H)) (name : String) : GoMap (Published H) :=
  match d.tools.lookup name with
  | none => server
  | some td => server.insert td.tool.name ⟨td,decide (name ∈ d.deferred)⟩

/-- The loop of `ToolRegistry.RegisterWithServer`, in an order that Go leaves open. -/
def registerWithServer (order : List String) (server : GoMap (Published H)) : GoMap (Published H) :=
  order.foldl (publishTool d) server

def addMissing (prev : Finset String) (order : List String) (server : GoMap (Published H)) : GoMap (Published H) :=
  order.foldl (fun server name => if name ∈ prev then server else publishTool d server name) server

inductive Wiring where
  | new
  | registered
  | captured
  | wired
  deriving DecidableEq

/-- The registry and the server; `prev` belongs to the callback, and `current` is its set of names while it runs.
    `writers` have changed the registry and are yet to notify. -/
structure System (H : Type) where
  reg : DynamicRegistry H
  server : GoMap (Published H)
  wiring : Wiring
  prev : Finset String
  current : Option (Finset String)
  writers : Nat

def start : System H := ⟨d,∅,.new,∅,none,0⟩

/-- The lock sections of the registry's methods, `RegisterWithServer`, and `notify`, which runs the callback in
    two parts. -/
inductive Action (H : Type) where
  | addTool (td : ToolDefinition H)
  | removeTool (name : String)
  | registerModule (tools : List (ToolDefinition H))
  | registerWithServer (order : List String)
  | capture
  | onChange
  | notify (order : List String)
  | removeMissing (removed : List String)

variable (s : System H)

def step : Action H → Option (System H)
  | .addTool td => some { s with reg := s.reg.addTool td, writers := s.writers+1 }
  | .removeTool name =>
    let (existed,reg) := s.reg.removeTool name
    some { s with reg := reg, writers := if existed then s.writers+1 else s.writers }
  | .registerModule tools => some { s with reg := s.reg.registerModule tools, writers := s.writers+1 }
  | .registerWithServer order =>
    if s.wiring = .new ∧ order.toFinset = s.reg.tools.keys then
      some { s with server := registerWithServer s.reg order s.server, wiring := .registered }
    else none
  | .capture => if s.wiring = .registered then some { s with prev := s.reg.tools.keys, wiring := .captured } else none
  | .onChange => if s.wiring = .captured then some { s with wiring := .wired } else none
  | .notify order =>
    if s.writers = 0 then none
    else if s.wiring = .wired then
      if s.current = none ∧ order.toFinset = s.reg.tools.keys then
        some { s with
          server := addMissing s.reg s.prev order s.server
          current := some s.reg.tools.keys
          writers := s.writers-1 }
      else none
    else some { s with writers := s.writers-1 }
  | .removeMissing removed =>
    match s.current with
    | none => none
    | some current =>
      if removed.toFinset = s.prev \ current then
        some { s with server := eraseAll s.server removed, prev := current, current := none }
      else none

/-- `RegisterWithServer`, all changes and all callbacks are over. -/
def Finished : Prop := s.wiring = .wired ∧ s.writers = 0 ∧ s.current = none

def onServer (server : GoMap (Published H)) (name : String) : Option (ToolDefinition H) :=
  (server.lookup name).map (·.definition)

/-- When all is over the server has the tools of the registry, with their definitions. -/
def Mirrored : Prop := Finished s → ∀ name, onServer s.server name = s.reg.tools.lookup name

/-- The names that the next callback will take for known. -/
def known : Finset String := s.current.getD s.prev

/-- With these tools a name that the callback takes for known has a definition that is not on the server. -/
def Replaces (reg : DynamicRegistry H) : Prop :=
  (s.wiring = .captured ∨ s.wiring = .wired) ∧
    ∃ name ∈ known s, ∃ td, reg.tools.lookup name = some td ∧ onServer s.server name ≠ some td

/-- What escapes the callback: a definition that replaces one of a known name; tools that changed before the
    capture of the names; names that changed since then, when the callback is registered too late. -/
def Escapes : Action H → Prop
  | .addTool td => Replaces s (s.reg.addTool td)
  | .registerModule tools => Replaces s (s.reg.registerModule tools)
  | .capture => ∃ name, onServer s.server name ≠ s.reg.tools.lookup name
  | .onChange => s.writers = 0 ∧ s.reg.tools.keys ≠ s.prev
  | _ => False

/-! ### What a step does -/

inductive Stepped (s : System H) : Action H → System H → Prop
  | addTool (td : ToolDefinition H) :
    Stepped s (.addTool td) { s with reg := s.reg.addTool td, writers := s.writers+1 }
  | removeTool (name : String) :
    Stepped s (.removeTool name) { s with
      reg := (s.reg.removeTool name).2
      writers := if (s.reg.removeTool name).1 then s.writers+1 else s.writers }
  | registerModule (tools : List (ToolDefinition H)) :
    Stepped s (.registerModule tools) { s with reg := s.reg.registerModule tools, writers := s.writers+1 }
  | registerWithServer (order : List String) (new : s.wiring = .new) (all : order.toFinset = s.reg.tools.keys) :
    Stepped s (.registerWithServer order) { s with
      server := RegistryServer.registerWithServer s.reg order s.server
      wiring := .registered }
  | capture (registered : s.wiring = .registered) :
    Stepped s .capture { s with prev := s.reg.tools.keys, wiring := .captured }
  | onChange (captured : s.wiring = .captured) : Stepped s .onChange { s with wiring := .wired }
  | unheard (order : List String) (unwired : s.wiring ≠ .wired) :
    Stepped s (.notify order) { s with writers := s.writers-1 }
  | notify (order : List String) (wired : s.wiring = .wired) (idle : s.current = none)
      (all : order.toFinset = s.reg.tools.keys) :
    Stepped s (.notify order) { s with
      server := addMissing s.reg s.prev order s.server
      current := some s.reg.tools.keys
      writers := s.writers-1 }
  | removeMissing (removed : List String) {current : Finset String} (running : s.current = some current)
      (all : removed.toFinset = s.prev \ current) :
    Stepped s (.removeMissing removed) { s with
      server := eraseAll s.server removed
      prev := current
      current := none }

variable {s s' : System H}

theorem step_cases {a : Action H} (moved : step s a = some s') : Stepped s a s' := by
  cases a with rw [step] at moved
  | addTool td => cases moved; exact .addTool td
  | removeTool name => cases moved; exact .removeTool name
  | registerModule tools => cases moved; exact .registerModule tools
  | registerWithServer order =>
    split at moved
    · rename_i first
      cases moved
      exact .registerWithServer order first.1 first.2
    · cases moved
  | capture =>
    split at moved
    · rename_i registered
      cases moved
      exact .capture registered
    · cases moved
  | onChange =>
    split at moved
    · rename_i captured
      cases moved
      exact .onChange captured
    · cases moved
  | notify order =>
    split at moved
    · cases moved
    · split at moved
      · rename_i wired
        split at moved
        · rename_i idle
          cases moved
          exact .notify order wired idle.1 idle.2
        · cases moved
      · rename_i unwired
        cases moved
        exact .unheard order unwired
  | removeMissing removed =>
    split at moved
    · cases moved
    · rename_i current running
      split at moved
      · rename_i all
        cases moved
        exact .removeMissing removed running all
      · cases moved

/-! ### Names are keys -/

def Keyed (d : DynamicRegistry H) : Prop := ∀ name td, d.tools.lookup name = some td → td.tool.name = name

theorem newDynamicRegistry_keyed (config : Config) : Keyed (newDynamicRegistry config : DynamicRegistry H) := by
  intro name td registered
  simp [newDynamicRegistry] at registered

variable {d}

theorem addTool_keyed (keyed : Keyed d) (td : ToolDefinition H) : Keyed (d.addTool td) := by
  intro name found registered
  rw [addTool_lookup] at registered
  split at registered
  · rename_i same
    cases registered
    exact same.symm
  · exact keyed name found registered

theorem removeTool_keyed (keyed : Keyed d) (removed : String) : Keyed (d.removeTool removed).2 := by
  intro name found registered
  rw [removeTool_lookup] at registered
  split at registered
  · cases registered
  · exact keyed name found registered

theorem registerModule_keyed (tools : List (ToolDefinition H)) : ∀ {d : DynamicRegistry H}, Keyed d →
    Keyed (d.registerModule tools) := by
  induction tools with
  | nil => intro d keyed; exact keyed
  | cons first rest ih => intro d keyed; exact ih (addTool_keyed keyed first)

/-! ### The loops -/

theorem publishTool_definition (keyed : Keyed d) (server : GoMap (Published H)) (name other : String) :
    onServer (publishTool d server name) other =
      if other = name then (d.tools.lookup name).or (onServer server other) else onServer server other := by
  unfold publishTool onServer
  cases registered : d.tools.lookup name with
  | none => simp
  | some td =>
    dsimp only
    rw [keyed name td registered]
    by_cases same : other = name
    · subst same; simp
    · simp [same,lookup_insert_of_ne _ same]

theorem addMissing_definition (keyed : Keyed d) (prev : Finset String) (order : List String)
    (name : String) : ∀ server : GoMap (Published H), onServer (addMissing d prev order server) name =
      if name ∈ order ∧ name ∉ prev then (d.tools.lookup name).or (onServer server name)
      else onServer server name := by
  induction order with
  | nil => intro server; simp [addMissing]
  | cons first rest ih =>
    intro server
    rw [addMissing,List.foldl_cons,← addMissing,ih]
    by_cases old : name ∈ prev
    · by_cases known : first ∈ prev
      · simp [old,known]
      · have different : name ≠ first := fun same => known (same ▸ old)
        simp [old,known,publishTool_definition keyed,different]
    · by_cases same : name = first
      · subst same
        by_cases again : name ∈ rest
        · simp [old,again,publishTool_definition keyed,← Option.or_assoc]
        · simp [old,again,publishTool_definition keyed]
      · by_cases known : first ∈ prev
        · simp [old,known,same]
        · simp [old,known,same,publishTool_definition keyed]

theorem registerWithServer_eq (d : DynamicRegistry H) (order : List String) (server : GoMap (Published H)) :
    registerWithServer d order server = addMissing d ∅ order server := by
  simp [registerWithServer,addMissing]

variable {order : List String}

theorem registerWithServer_definition (keyed : Keyed d) (all : order.toFinset = d.tools.keys) (name : String) :
    onServer (registerWithServer d order ∅) name = d.tools.lookup name := by
  have nothing : onServer (∅ : GoMap (Published H)) name = none := by simp [onServer]
  rw [registerWithServer_eq,addMissing_definition keyed,nothing]
  split
  · rw [Option.or_none]
  · rename_i absent
    rw [← List.mem_toFinset,all,mem_keys] at absent
    simp only [Finset.notMem_empty,not_false_eq_true,and_true] at absent
    exact (lookup_eq_none.mpr absent).symm

theorem eraseAll_definition (server : GoMap (Published H)) (removed : List String) (name : String) :
    onServer (eraseAll server removed) name = if name ∈ removed then none else onServer server name := by
  unfold onServer
  rw [lookup_eraseAll]
  split
  · rfl
  · rfl

theorem notify_definition (keyed : Keyed d) (prev : Finset String) (all : order.toFinset = d.tools.keys)
    (server : GoMap (Published H)) (name : String) : onServer (addMissing d prev order server) name =
      if name ∈ d.tools ∧ name ∉ prev then d.tools.lookup name else onServer server name := by
  have listed : name ∈ order ↔ name ∈ d.tools := by rw [← List.mem_toFinset,all,mem_keys]
  rw [addMissing_definition keyed]
  simp only [listed]
  split
  · rename_i new
    obtain ⟨td,registered⟩ := mem_iff.mp new.1
    rw [registered]
    rfl
  · rfl

/-! ### Runs in which nothing escapes -/

/-- Once the names are captured, the server has those of the last and of the current turn of the callback, and a
    notification is due if the registry has others. -/
structure Tracked (s : System H) : Prop where
  names : ∀ name, (onServer s.server name).isSome ↔ name ∈ s.prev ∨ name ∈ known s
  definitions : ∀ name ∈ known s, ∀ td, s.reg.tools.lookup name = some td → onServer s.server name = some td
  due : s.wiring = .wired → s.reg.tools.keys = known s ∨ 0 < s.writers

structure Orderly (s : System H) : Prop where
  keyed : Keyed s.reg
  idle : s.wiring ≠ .wired → s.current = none
  tracked : s.wiring = .captured ∨ s.wiring = .wired → Tracked s

theorem start_orderly (keyed : Keyed d) : Orderly (start d) where
  keyed := keyed
  idle := fun _ => rfl
  tracked := fun bound => by simp [start] at bound

section
variable (orderly : Orderly s)
include orderly

theorem Orderly.write {reg : DynamicRegistry H} (keyed : Keyed reg)
    (kept : ¬ Replaces s reg) : Orderly { s with reg := reg, writers := s.writers+1 } where
  keyed := keyed
  idle := orderly.idle
  tracked := by
    intro bound
    have tracked := orderly.tracked bound
    refine ⟨tracked.names,?_,fun _ => .inr (Nat.succ_pos _)⟩
    intro name listed td registered
    by_contra differs
    exact kept ⟨bound,name,listed,td,registered,differs⟩

theorem Orderly.not_replaces (removed : String) : ¬ Replaces s (s.reg.removeTool removed).2 := by
  rintro ⟨bound,name,listed,td,registered,differs⟩
  rw [removeTool_lookup] at registered
  split at registered
  · cases registered
  · exact differs ((orderly.tracked bound).definitions name listed td registered)

theorem Orderly.removeTool (name : String) : Orderly { s with
      reg := (s.reg.removeTool name).2
      writers := if (s.reg.removeTool name).1 then s.writers+1 else s.writers } := by
  cases existed : (s.reg.removeTool name).1 with
  | true => exact orderly.write (removeTool_keyed orderly.keyed name) (orderly.not_replaces name)
  | false =>
    have same : (s.reg.removeTool name).2 = s.reg := by
      unfold DynamicRegistry.removeTool at existed ⊢
      split at existed
      · cases existed
      · rename_i absent
        rw [if_neg absent]
    rw [same]
    exact orderly

theorem Orderly.capture (unwired : s.wiring = .registered)
    (same : ∀ name, onServer s.server name = s.reg.tools.lookup name) :
    Orderly { s with prev := s.reg.tools.keys, wiring := .captured } where
  keyed := orderly.keyed
  idle := fun _ => orderly.idle (by rw [unwired]; decide)
  tracked := by
    intro _
    have idle := orderly.idle (by rw [unwired]; decide)
    refine ⟨fun name => ?_,fun name _ td registered => (same name).trans registered,fun wired => by cases wired⟩
    simp only [same,known,idle,Option.getD_none,or_self,mem_keys]
    exact lookup_isSome

theorem Orderly.onChange (captured : s.wiring = .captured)
    (due : ¬ (s.writers = 0 ∧ s.reg.tools.keys ≠ s.prev)) : Orderly { s with wiring := .wired } where
  keyed := orderly.keyed
  idle := fun unwired => absurd rfl unwired
  tracked := by
    intro _
    have idle := orderly.idle (by rw [captured]; decide)
    obtain ⟨names,definitions,-⟩ := orderly.tracked (.inl captured)
    refine ⟨names,definitions,fun _ => ?_⟩
    by_cases writing : s.writers = 0
    · left
      by_contra changed
      exact due ⟨writing,by simpa [known,idle] using changed⟩
    · exact .inr (Nat.pos_of_ne_zero writing)

theorem Orderly.notify (wired : s.wiring = .wired) (idle : s.current = none)
    (all : order.toFinset = s.reg.tools.keys) : Orderly { s with
      server := addMissing s.reg s.prev order s.server
      current := some s.reg.tools.keys
      writers := s.writers-1 } where
  keyed := orderly.keyed
  idle := fun unwired => absurd wired unwired
  tracked := by
    intro _
    obtain ⟨names,definitions,-⟩ := orderly.tracked (.inr wired)
    simp only [known,idle,Option.getD_none,or_self] at names definitions
    refine ⟨fun name => ?_,fun name listed td registered => ?_,fun _ => .inl rfl⟩
    · rw [notify_definition orderly.keyed s.prev all]
      simp only [known,Option.getD_some,mem_keys]
      split
      · rename_i new
        simp [new.1,lookup_isSome]
      · rw [names]
        tauto
    · rw [notify_definition orderly.keyed s.prev all]
      split
      · exact registered
      · rename_i old
        have present : name ∈ s.reg.tools := mem_of_lookup_eq_some registered
        have before : name ∈ s.prev := by
          by_contra new
          exact old ⟨present,new⟩
        exact definitions name before td registered

theorem Orderly.removeMissing {current : Finset String}
    (running : s.current = some current) {removed : List String} (all : removed.toFinset = s.prev \ current) :
    Orderly { s with server := eraseAll s.server removed, prev := current, current := none } where
  keyed := orderly.keyed
  idle := fun _ => rfl
  tracked := by
    intro bound
    obtain ⟨names,definitions,due⟩ := orderly.tracked bound
    simp only [known,running,Option.getD_some] at names definitions due
    have gone : ∀ name, name ∈ removed ↔ name ∈ s.prev ∧ name ∉ current := by
      intro name
      rw [← List.mem_toFinset,all,Finset.mem_sdiff]
    refine ⟨fun name => ?_,fun name listed td registered => ?_,due⟩
    · rw [eraseAll_definition]
      simp only [known,Option.getD_none,or_self]
      split
      · rename_i member
        simp [((gone name).mp member).2]
      · rename_i member
        rw [gone] at member
        rw [names]
        tauto
    · rw [eraseAll_definition,if_neg (fun member => ((gone name).mp member).2 listed)]
      exact definitions name listed td registered

theorem Orderly.unheard (unwired : s.wiring ≠ .wired) : Orderly { s with writers := s.writers-1 } where
  keyed := orderly.keyed
  idle := orderly.idle
  tracked := by
    intro bound
    obtain ⟨names,definitions,-⟩ := orderly.tracked bound
    exact ⟨names,definitions,fun wired => absurd wired unwired⟩

theorem Orderly.step {a : Action H} (kept : ¬ Escapes s a)
    (moved : RegistryServer.step s a = some s') : Orderly s' := by
  cases step_cases moved with
  | addTool td => exact orderly.write (addTool_keyed orderly.keyed td) kept
  | removeTool name => exact orderly.removeTool name
  | registerModule tools => exact orderly.write (registerModule_keyed tools orderly.keyed) kept
  | registerWithServer order new all =>
    exact ⟨orderly.keyed,fun _ => orderly.idle (by rw [new]; decide),fun bound => by simp at bound⟩
  | capture registered =>
    refine orderly.capture registered (fun name => ?_)
    by_contra differs
    exact kept ⟨name,differs⟩
  | onChange captured => exact orderly.onChange captured kept
  | unheard order unwired => exact orderly.unheard unwired
  | notify order wired idle all => exact orderly.notify wired idle all
  | removeMissing removed running all => exact orderly.removeMissing running all

theorem Orderly.mirrored : Mirrored s := by
  rintro ⟨wired,silent,idle⟩ name
  obtain ⟨names,definitions,due⟩ := orderly.tracked (.inr wired)
  have keys : s.reg.tools.keys = s.prev := by
    rcases due wired with same | writing
    · simpa [known,idle] using same
    · omega
  simp only [known,idle,Option.getD_none,or_self] at names definitions
  cases registered : s.reg.tools.lookup name with
  | some td =>
    have present : name ∈ s.prev := keys ▸ mem_keys.mpr (mem_of_lookup_eq_some registered)
    exact definitions name present td registered
  | none =>
    have absent : name ∉ s.prev := by
      rw [← keys,mem_keys]
      exact lookup_eq_none.mp registered
    rw [← names name] at absent
    exact Option.not_isSome_iff_eq_none.mp absent

end

/-! ### What escapes is never mended -/

/-- A name about which the server is wrong, and the callback sees no difference. -/
structure Stuck (s : System H) (name : String) : Prop where
  idle : s.current = none
  keyed : Keyed s.reg
  unseen : name ∈ s.prev ↔ name ∈ s.reg.tools
  differs : onServer s.server name ≠ s.reg.tools.lookup name

variable {name : String}

theorem Stuck.turn (stuck : Stuck s name) (wired : s.wiring = .wired) (writing : s.writers ≠ 0) :
    ∃ s', Reachable step free s s' ∧ Stuck s' name ∧ s'.wiring = .wired ∧ s'.writers = s.writers-1 := by
  let middle : System H := { s with
    server := addMissing s.reg s.prev s.reg.tools.keys.toList s.server
    current := some s.reg.tools.keys
    writers := s.writers-1 }
  let removed := (s.prev \ s.reg.tools.keys).toList
  let after : System H := { middle with
    server := eraseAll middle.server removed
    prev := s.reg.tools.keys
    current := none }
  have first : step s (.notify s.reg.tools.keys.toList) = some middle := by simp [step,writing,wired,stuck.idle,middle]
  have second : step middle (.removeMissing removed) = some after := by simp [step,middle,removed,after]
  have untouched : onServer after.server name = onServer s.server name := by
    have kept : name ∉ removed := by
      simp only [removed,Finset.mem_toList,Finset.mem_sdiff,mem_keys,stuck.unseen]
      tauto
    have old : ¬ (name ∈ s.reg.tools ∧ name ∉ s.prev) := by
      rw [stuck.unseen]
      tauto
    rw [eraseAll_definition,if_neg kept,notify_definition stuck.keyed s.prev (Finset.toList_toFinset _),if_neg old]
  refine ⟨after,(Reachable.start.next _ trivial first).next _ trivial second,?_,wired,rfl⟩
  exact ⟨rfl,stuck.keyed,mem_keys,fun same => stuck.differs (untouched.symm.trans same)⟩

theorem Stuck.drains : ∀ (writers : Nat) {s : System H}, s.writers = writers → Stuck s name →
    s.wiring = .wired → ∃ s', Reachable step free s s' ∧ ¬ Mirrored s' := by
  intro writers
  induction writers with
  | zero =>
    intro s silent stuck wired
    exact ⟨s,.start,fun mirrored => stuck.differs (mirrored ⟨wired,silent,stuck.idle⟩ name)⟩
  | succ writers ih =>
    intro s writing stuck wired
    obtain ⟨t,turn,stuck',wired',fewer⟩ := stuck.turn wired (by omega)
    obtain ⟨s',later,wrong⟩ := ih (by omega) stuck' wired'
    exact ⟨s',turn.trans later,wrong⟩

theorem Stuck.breaks (stuck : Stuck s name)
    (bound : s.wiring = .captured ∨ s.wiring = .wired) : ∃ s', Reachable step free s s' ∧ ¬ Mirrored s' := by
  rcases bound with captured | wired
  · have registered : step s .onChange = some { s with wiring := .wired } := by simp [step,captured]
    have stuck' : Stuck { s with wiring := .wired } name := ⟨stuck.idle,stuck.keyed,stuck.unseen,stuck.differs⟩
    obtain ⟨s',later,wrong⟩ := stuck'.drains _ rfl rfl
    exact ⟨s',(Reachable.start.next _ trivial registered).trans later,wrong⟩
  · exact stuck.drains _ rfl wired

theorem Replaces.breaks (replaces : Replaces s s'.reg) (keyed : Keyed s'.reg)
    (server : s'.server = s.server) (wiring : s'.wiring = s.wiring) (prev : s'.prev = s.prev)
    (current : s'.current = s.current) : ∃ s'', Reachable step free s' s'' ∧ ¬ Mirrored s'' := by
  obtain ⟨bound,name,listed,td,registered,differs⟩ := replaces
  have present : name ∈ s'.reg.tools := mem_of_lookup_eq_some registered
  have wrong : onServer s'.server name ≠ s'.reg.tools.lookup name := by
    rw [server,registered]
    exact differs
  rw [← wiring] at bound
  rw [known,← current,← prev] at listed
  cases running : s'.current with
  | none =>
    rw [running,Option.getD_none] at listed
    exact Stuck.breaks ⟨running,keyed,⟨fun _ => present,fun _ => listed⟩,wrong⟩ bound
  | some names =>
    rw [running,Option.getD_some] at listed
    -- the callback first takes away what it found missing, and that is not this name
    let removed := (s'.prev \ names).toList
    let after : System H := { s' with server := eraseAll s'.server removed, prev := names, current := none }
    have finished : step s' (.removeMissing removed) = some after := by simp [step,running,removed,after]
    have kept : name ∉ removed := by simp [removed,listed]
    have stuck : Stuck after name := by
      refine ⟨rfl,keyed,⟨fun _ => present,fun _ => listed⟩,?_⟩
      rw [eraseAll_definition,if_neg kept]
      exact wrong
    obtain ⟨s'',later,unlike⟩ := stuck.breaks bound
    exact ⟨s'',(Reachable.start.next _ trivial finished).trans later,unlike⟩

theorem Escapes.breaks {a : Action H} (orderly : Orderly s) (escapes : Escapes s a)
    (moved : step s a = some s') : ∃ s'', Reachable step free s' s'' ∧ ¬ Mirrored s'' := by
  cases step_cases moved with
  | addTool td => exact Replaces.breaks escapes (addTool_keyed orderly.keyed td) rfl rfl rfl rfl
  | registerModule tools => exact Replaces.breaks escapes (registerModule_keyed tools orderly.keyed) rfl rfl rfl rfl
  | capture registered =>
    obtain ⟨name,differs⟩ := escapes
    have stuck : Stuck { s with prev := s.reg.tools.keys, wiring := .captured } name :=
      ⟨orderly.idle (by rw [registered]; decide),orderly.keyed,mem_keys,differs⟩
    exact stuck.breaks (.inl rfl)
  | onChange captured =>
    obtain ⟨silent,changed⟩ := escapes
    have idle := orderly.idle (by rw [captured]; decide)
    refine ⟨_,.start,fun mirrored => changed ?_⟩
    have same := mirrored ⟨rfl,silent,idle⟩
    -- the names on the server are those that were captured
    ext name
    rw [mem_keys,← lookup_isSome,← same name,(orderly.tracked (.inl captured)).names name,known,idle,
      Option.getD_none,or_self]
  | removeTool name | registerWithServer order new all | unheard order unwired => exact escapes.elim
  | notify order wired idle all | removeMissing removed running all => exact escapes.elim

/-- When all calls and callbacks are over the server has the tools of the registry, if
    nothing escaped the callback; what escapes it once can stay wrong for good. -/
theorem published_iff (d : DynamicRegistry H) (keyed : Keyed d) {s : System H}
    (reached : Reachable step (fun s a => ¬ Escapes s a) (start d) s) :
    Mirrored s ∧ ∀ a s', Escapes s a → step s a = some s' → ∃ s'', Reachable step free s' s'' ∧ ¬ Mirrored s'' := by
  have orderly : Orderly s :=
    reached.invariant (start_orderly keyed) (fun _ _ _ before kept moved => before.step kept moved)
  exact ⟨orderly.mirrored,fun a s' escapes moved => escapes.breaks orderly moved⟩

/-! ### A tool that is replaced, and one that comes too early -/

theorem capture_undisturbed (order : List String) (keyed : Keyed s.reg) (empty : s.server = ∅)
    (moved : step s (.registerWithServer order) = some s') : ¬ Escapes s' .capture := by
  cases step_cases moved with
  | registerWithServer order new all =>
    rintro ⟨name,differs⟩
    rw [empty] at differs
    exact differs (registerWithServer_definition keyed all name)

def empty : DynamicRegistry String := newDynamicRegistry ⟨none,id⟩

variable (handler : String)

def search : ToolDefinition String := define ⟨"search","",""⟩ handler

def after (actions : List (Action String)) : System String := (exec step free (start empty) actions).getD (start empty)

def wire : List (Action String) := [.registerWithServer [],.capture,.onChange]

def add : List (Action String) :=
  [.addTool (search handler),.notify ["search"],.removeMissing []]

/-- The same while `RegisterWithServer` is about to capture the names. -/
def addEarly : List (Action String) :=
  [.registerWithServer [],.addTool (search handler),.capture,.onChange,.notify ["search"],.removeMissing []]

/-- After a replacement the server has the old handler, and a tool that was added too early is not on the server. -/
theorem replacement_is_not_published : Reachable step free (start empty) (after (wire ++ add "old" ++ add "new")) ∧
    (onServer (after (wire ++ add "old" ++ add "new")).server "search").map (·.handler) = some "old" ∧
    ((after (wire ++ add "old" ++ add "new")).reg.tools.lookup "search").map (·.handler) = some "new" ∧
    ¬ Mirrored (after (wire ++ add "old" ++ add "new")) ∧
    Reachable step free (start empty) (after (addEarly "old")) ∧
    onServer (after (addEarly "old")).server "search" = none ∧
    ((after (addEarly "old")).reg.tools.lookup "search").map (·.handler) = some "old" ∧
    ¬ Mirrored (after (addEarly "old")) := by
  have stale : (onServer (after (wire ++ add "old" ++ add "new")).server "search").map (·.handler) = some "old" := by
    decide
  have current : ((after (wire ++ add "old" ++ add "new")).reg.tools.lookup "search").map (·.handler) = some "new" := by
    decide
  have missing : onServer (after (addEarly "old")).server "search" = none := by decide
  have present : ((after (addEarly "old")).reg.tools.lookup "search").map (·.handler) = some "old" := by decide
  refine ⟨exec_reachable (wire ++ add "old" ++ add "new") .start rfl,stale,current,fun mirrored => ?_,
    exec_reachable (addEarly "old") .start rfl,missing,present,fun mirrored => ?_⟩
  · rw [mirrored ⟨rfl,rfl,rfl⟩,current] at stale
    exact absurd stale (by decide)
  · rw [← mirrored ⟨rfl,rfl,rfl⟩,missing] at present
    cases present

theorem published_sample : Finished (after (wire ++ add "old")) ∧ Mirrored (after (wire ++ add "old")) ∧
    ∃ s, Reachable step free (after (wire ++ add "old" ++ [.addTool (search "new")])) s ∧ ¬ Mirrored s := by
  have nothing : known (after wire) = ∅ := rfl
  have something : known (after (wire ++ add "old")) = {"search"} := by decide
  have wired : Reachable step (fun s a => ¬ Escapes s a) (start empty) (after wire) := by
    refine .next .onChange (.next .capture (.next (.registerWithServer []) .start (fun escapes => escapes)
      (rfl : _ = some (after [.registerWithServer []]))) ?_ (rfl : _ = some (after [.registerWithServer [],.capture])))
      ?_ rfl
    · exact capture_undisturbed [] (newDynamicRegistry_keyed _) rfl (rfl : step (start empty) _ = _)
    · exact fun escapes => escapes.2 rfl
  have run : Reachable step (fun s a => ¬ Escapes s a) (start empty) (after (wire ++ add "old")) := by
    refine .next (.removeMissing []) (.next (.notify ["search"]) (.next (.addTool (search "old")) wired ?_
      (rfl : _ = some (after (wire ++ [.addTool (search "old")])))) (fun escapes => escapes)
      (rfl : _ = some (after (wire ++ [.addTool (search "old"),.notify ["search"]])))) (fun escapes => escapes) rfl
    rintro ⟨-,name,listed,-⟩
    rw [nothing] at listed
    cases listed
  have both := published_iff empty (newDynamicRegistry_keyed _) run
  refine ⟨⟨rfl,rfl,rfl⟩,both.1,both.2 (.addTool (search "new")) _ ⟨.inr rfl,"search",?_,search "new",?_,?_⟩ rfl⟩
  · rw [something]
    exact Finset.mem_singleton_self _
  · decide
  · decide

end Mcpkit.RegistryServer
