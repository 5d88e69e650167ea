import Mcpkit.GatewayModel

/-!
Which upstream owns which registered tool, over any sequence of successful `AddUpstream` and
`RemoveUpstream` calls.
-/
namespace Mcpkit.GatewayOwnership
open Transitions GoMaps RegistryModel GatewayBreaker GatewayModel List Finmap

inductive Action where
  | addUpstream (config : UpstreamConfig) (client : Nat) (listed : List Tool)
  | removeUpstream (name : String) (toRemove : List String)

variable (g : Gateway)

def step : Action → Option Gateway
  | .addUpstream config client listed =>
    match g.addUpstream config (.ok client) (.ok listed) with
    | .ok (_,g) => some g
    | .error _ => none
  | .removeUpstream name toRemove =>
    if name ∈ g.upstreams ∧ g.Collects name toRemove then some (g.removeUpstream name toRemove) else none

def Offers (name tool : String) : Prop :=
  ∃ u, g.upstreams.lookup name = some u ∧ ∃ t ∈ u.tools, t.name = tool

/-- There is one registered tool for each tool of each upstream, and removing another upstream leaves it alone. -/
structure Owned : Prop where
  registered : ∀ nsName, nsName ∈ g.reg.tools ↔ ∃ name tool, Offers g name tool ∧ nsName = namespacedName name tool
  distinct : ∀ name tool name' tool', Offers g name tool → Offers g name' tool' →
    namespacedName name tool = namespacedName name' tool' → name = name' ∧ tool = tool'
  routed : ∀ name tool, Offers g name tool →
    ∃ u, g.upstreams.lookup name = some u ∧ g.forwards (namespacedName name tool) = some (u,tool)
  removal : ∀ x toRemove, x ∈ g.upstreams → g.Collects x toRemove → ∀ name tool, name ≠ x → Offers g name tool →
    Offers (g.removeUpstream x toRemove) name tool ∧
    (g.removeUpstream x toRemove).reg.tools.lookup (namespacedName name tool) =
      g.reg.tools.lookup (namespacedName name tool) ∧
    (g.removeUpstream x toRemove).forwards (namespacedName name tool) = g.forwards (namespacedName name tool)

/-- The call adds an upstream with a tool whose joined name is that of a tool of a registered upstream. -/
def Clashes : Action → Prop
  | .addUpstream config _ listed => ∃ tool ∈ syncTools config listed, ∃ name other,
      Offers g name other ∧ namespacedName config.name tool.name = namespacedName name other
  | .removeUpstream _ _ => False

/-! ### What a step does -/

variable {g g' : Gateway} {config : UpstreamConfig} {listed : List Tool}

open Gateway

theorem addUpstream_eq {client : Nat}
    (moved : step g (.addUpstream config client listed) = some g') : config.name ∉ g.upstreams ∧
    g' = (syncTools config listed).foldl (registerTool (connected config client listed))
      { g with upstreams := g.upstreams.insert config.name (connected config client listed) } := by
  simp only [step,addUpstream] at moved
  cases checked : g.check config with
  | some err => simp [checked] at moved
  | none =>
    have absent : config.name ∉ g.upstreams := by
      intro present
      unfold check at checked
      split at checked <;> cases checked
    simp only [checked,commit] at moved
    rw [if_neg (show (connected config client listed).config.name ∉ g.upstreams from absent)] at moved
    cases moved
    exact ⟨absent,rfl⟩

variable {toRemove : List String}

theorem removeUpstream_eq {name : String} (moved : step g (.removeUpstream name toRemove) = some g') :
    name ∈ g.upstreams ∧ g.Collects name toRemove ∧ g' = g.removeUpstream name toRemove := by
  simp only [step] at moved
  split at moved
  · rename_i allowed
    cases moved
    exact ⟨allowed.1,allowed.2,rfl⟩
  · cases moved

theorem offers_addUpstream {client : Nat}
    (moved : step g (.addUpstream config client listed) = some g') (name tool : String) : Offers g' name tool ↔
      name = config.name ∧ (∃ t ∈ syncTools config listed, t.name = tool) ∨ name ≠ config.name ∧ Offers g name tool := by
  obtain ⟨absent,rfl⟩ := addUpstream_eq moved
  unfold Offers
  rw [(register_kept ..).1]
  by_cases same : name = config.name
  · subst same
    simp [connected]
  · simp [same]

theorem offers_removeUpstream (g : Gateway) (x : String) (toRemove : List String) (name tool : String) :
    Offers (g.removeUpstream x toRemove) name tool ↔ name ≠ x ∧ Offers g name tool := by
  unfold Offers removeUpstream
  by_cases same : name = x
  · subst same; simp
  · simp [lookup_erase_ne same,same]

/-! ### The invariant -/

/-- A registered name stands for a pair exactly if the pair is offered and has that name, and the tool map agrees. -/
structure Kept (g : Gateway) : Prop where
  agrees : g.Agrees
  bound : ∀ nsName name tool, g.bound nsName = some (name,tool) ↔
    Offers g name tool ∧ nsName = namespacedName name tool

theorem kept_new (config : Config) : Kept (newGateway config) where
  agrees nsName := by simp [newGateway,bound,newDynamicRegistry]
  bound nsName name tool := by simp [newGateway,Offers,bound,newDynamicRegistry]

section
variable (kept : Kept g)
include kept

theorem Kept.addUpstream {client : Nat} (apart : ¬ Clashes g (.addUpstream config client listed))
    (moved : step g (.addUpstream config client listed) = some g') : Kept g' := by
  have offers := offers_addUpstream moved
  obtain ⟨absent,rfl⟩ := addUpstream_eq moved
  refine ⟨register_agrees _ _ kept.agrees,fun nsName name tool => ?_⟩
  by_cases own : ∃ t ∈ syncTools config listed, nsName = namespacedName config.name t.name
  · obtain ⟨t,member,named⟩ := own
    rw [register_bound_own (connected config client listed) _ member named]
    constructor
    · intro bound
      cases bound
      exact ⟨(offers _ _).mpr (.inl ⟨rfl,t,member,rfl⟩),named⟩
    · rintro ⟨offered,named'⟩
      rcases (offers _ _).mp offered with ⟨rfl,-⟩ | ⟨-,earlier⟩
      · rw [namespacedName_inj (named.symm.trans named')]
        rfl
      · exact absurd ⟨t,member,name,tool,earlier,named.symm.trans named'⟩ apart
  · have away : ∀ t ∈ syncTools config listed, nsName ≠ namespacedName config.name t.name :=
      fun t member named => own ⟨t,member,named⟩
    rw [register_bound_other (connected config client listed) _ away]
    refine (kept.bound nsName name tool).trans ?_
    constructor
    · rintro ⟨offered,named⟩
      refine ⟨(offers _ _).mpr (.inr ⟨?_,offered⟩),named⟩
      rintro rfl
      obtain ⟨u,present,-⟩ := offered
      exact absent (Finmap.mem_iff.mpr ⟨u,present⟩)
    · rintro ⟨offered,named⟩
      rcases (offers _ _).mp offered with ⟨rfl,t,member,rfl⟩ | ⟨-,earlier⟩
      · exact absurd named (away t member)
      · exact ⟨earlier,named⟩

theorem Kept.collects_iff {x : String} (collects : g.Collects x toRemove)
    {nsName name tool : String} (bound : g.bound nsName = some (name,tool)) : nsName ∈ toRemove ↔ name = x := by
  rw [collects.mem_iff,kept.agrees,bound]
  simp

theorem Kept.removeUpstream {x : String} (collects : g.Collects x toRemove) : Kept (g.removeUpstream x toRemove) := by
  refine ⟨removeUpstream_agrees x toRemove kept.agrees,fun nsName name tool => ?_⟩
  rw [removeUpstream_bound,offers_removeUpstream]
  constructor
  · intro bound
    split at bound
    · cases bound
    · rename_i kept'
      obtain ⟨offered,named⟩ := (kept.bound nsName name tool).mp bound
      exact ⟨⟨fun same => kept' ((kept.collects_iff collects bound).mpr same),offered⟩,named⟩
  · rintro ⟨⟨different,offered⟩,named⟩
    have bound := (kept.bound nsName name tool).mpr ⟨offered,named⟩
    rw [if_neg fun member => different ((kept.collects_iff collects bound).mp member)]
    exact bound

theorem Kept.step {a : Action} (apart : ¬ Clashes g a) (moved : GatewayOwnership.step g a = some g') : Kept g' := by
  cases a with
  | addUpstream config client listed => exact kept.addUpstream apart moved
  | removeUpstream name toRemove =>
    obtain ⟨-,collects,rfl⟩ := removeUpstream_eq moved
    exact kept.removeUpstream collects

theorem Kept.forwards {name tool : String} {u : Upstream} (present : g.upstreams.lookup name = some u)
    (offered : Offers g name tool) : g.forwards (namespacedName name tool) = some (u,tool) := by
  have bound := (kept.bound _ name tool).mpr ⟨offered,rfl⟩
  obtain ⟨td,found,pair⟩ := Option.map_eq_some_iff.mp bound
  cases pair
  unfold Gateway.forwards
  rw [found]
  dsimp only
  rw [present]
  rfl

theorem Kept.owned : Owned g where
  registered nsName := by
    rw [mem_iff]
    constructor
    · rintro ⟨td,found⟩
      have bound : g.bound nsName = some (td.handler.upstreamName,td.handler.originalToolName) := by
        simp [Gateway.bound,found]
      exact ⟨_,_,(kept.bound _ _ _).mp bound⟩
    · rintro ⟨name,tool,offered⟩
      obtain ⟨td,found,-⟩ := Option.map_eq_some_iff.mp ((kept.bound nsName name tool).mpr offered)
      exact ⟨td,found⟩
  distinct name tool name' tool' offered offered' same := by
    have first := (kept.bound _ name tool).mpr ⟨offered,rfl⟩
    rw [same,(kept.bound _ name' tool').mpr ⟨offered',rfl⟩] at first
    cases first
    exact ⟨rfl,rfl⟩
  routed name tool offered := by
    obtain ⟨u,present,listed⟩ := offered
    exact ⟨u,present,kept.forwards present ⟨u,present,listed⟩⟩
  removal x toRemove _ collects name tool different offered := by
    have still := (offers_removeUpstream g x toRemove name tool).mpr ⟨different,offered⟩
    have bound := (kept.bound _ name tool).mpr ⟨offered,rfl⟩
    have stays : namespacedName name tool ∉ toRemove :=
      fun member => different ((kept.collects_iff collects bound).mp member)
    obtain ⟨u,present,listed⟩ := offered
    have present' : (g.removeUpstream x toRemove).upstreams.lookup name = some u :=
      (lookup_erase_ne different).trans present
    refine ⟨still,?_,?_⟩
    · exact (removeAll_lookup toRemove _ g.reg).trans (if_neg stays)
    · rw [(kept.removeUpstream collects).forwards present' still,kept.forwards present ⟨u,present,listed⟩]

end

theorem clash_breaks {a : Action} (clash : Clashes g a) (moved : step g a = some g') : ¬ Owned g' := by
  intro owned
  cases a with
  | removeUpstream name toRemove => exact clash
  | addUpstream config client listed =>
    obtain ⟨tool,member,name,other,offered,same⟩ := clash
    have offers := offers_addUpstream moved
    obtain ⟨absent,-⟩ := addUpstream_eq moved
    have different : name ≠ config.name := by
      rintro rfl
      obtain ⟨u,present,-⟩ := offered
      exact absent (Finmap.mem_iff.mpr ⟨u,present⟩)
    have added : Offers g' config.name tool.name := (offers _ _).mpr (.inl ⟨rfl,tool,member,rfl⟩)
    have kept : Offers g' name other := (offers _ _).mpr (.inr ⟨different,offered⟩)
    exact different (owned.distinct _ _ _ _ added kept same).1.symm

/-- In every run without a clash of joined names the tools are owned and routed as
    they should be, and the first clash ends this. -/
theorem tools_owned_iff (config : Config) {g : Gateway}
    (reached : Reachable step (fun g a => ¬ Clashes g a) (newGateway config) g) :
    Owned g ∧ ∀ a g', Clashes g a → step g a = some g' → ¬ Owned g' := by
  have kept : Kept g := reached.invariant (kept_new config) fun _ _ _ kept apart moved => kept.step apart moved
  exact ⟨kept.owned,fun a g' clash moved => clash_breaks clash moved⟩

/-! ### Two upstreams with dots in their names -/

def plainConfig : Config := ⟨none,id⟩

def addition (name : String) (client : Nat) (tool : String) : Action :=
  .addUpstream ⟨name,[],⟨none,false,0,none⟩⟩ client [⟨tool,"",""⟩]

def first : Gateway := (step (newGateway plainConfig) (addition "a" 0 "b.c")).getD (newGateway plainConfig)

def second : Gateway := (step first (addition "a.b" 1 "c")).getD first

theorem first_reached : Reachable step (fun g a => ¬ Clashes g a) (newGateway plainConfig) first := by
  refine .next (addition "a" 0 "b.c") .start ?_ rfl
  rintro ⟨tool,-,name,other,⟨u,present,-⟩,-⟩
  simp [newGateway] at present

theorem tools_owned_sample : Owned first ∧ ¬ Owned second := by
  have both := tools_owned_iff plainConfig first_reached
  refine ⟨both.1,both.2 (addition "a.b" 1 "c") second ?_ rfl⟩
  exact ⟨⟨"c","",""⟩,by decide,"a","b.c",⟨connected ⟨"a",[],⟨none,false,0,none⟩⟩ 0 [⟨"b.c","",""⟩],rfl,_,
    mem_singleton_self _,rfl⟩,by decide⟩

/-- The tool `b.c` of the upstream `a` is routed to the upstream `a.b`, and removing the latter removes it. -/
theorem joined_name_is_stolen :
    Reachable step free (newGateway plainConfig) second ∧ Offers second "a" "b.c" ∧ Offers second "a.b" "c" ∧
    (second.forwards "a.b.c").map (fun target => (target.1.config.name,target.2)) = some ("a.b","c") ∧
    second.Collects "a.b" ["a.b.c"] ∧ Offers (second.removeUpstream "a.b" ["a.b.c"]) "a" "b.c" ∧
    "a.b.c" ∉ (second.removeUpstream "a.b" ["a.b.c"]).reg.tools := by
  have run : Reachable step free (newGateway plainConfig) second :=
    (Reachable.start.next (addition "a" 0 "b.c") trivial (rfl : _ = some first)).next (addition "a.b" 1 "c") trivial rfl
  have offered : Offers second "a" "b.c" := ⟨connected ⟨"a",[],⟨none,false,0,none⟩⟩ 0 [⟨"b.c","",""⟩],rfl,_,
    mem_singleton_self _,rfl⟩
  refine ⟨run,offered,⟨connected ⟨"a.b",[],⟨none,false,0,none⟩⟩ 1 [⟨"c","",""⟩],rfl,_,mem_singleton_self _,rfl⟩,
    by decide,by decide,?_,by decide⟩
  exact (offers_removeUpstream second "a.b" ["a.b.c"] "a" "b.c").mpr ⟨by decide,offered⟩

end Mcpkit.GatewayOwnership
