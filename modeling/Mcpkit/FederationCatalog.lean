import Mcpkit.FederationModel
import Mcpkit.Transitions

/-!
What the registry knows about the catalogs of the peers, over any history of polls. Each poll
compares the names of a peer with those of its last listing, and nothing else.
-/
namespace Mcpkit.FederationCatalog
open Transitions GoMaps RegistryModel FederationModel List Finmap
variable {L : Type}

/-- The federation and, for each peer, the last listing that it returned. -/
structure System (L : Type) where
  fed : Federation L
  listings : GoMap (List Tool)

def start (reg : DynamicRegistry (Handler L)) : System L := ⟨newFederation reg,∅⟩

/-- A poll of a peer. A round of `discoverAll` polls the configured peers in order. -/
structure Action where
  endpoint : String
  outcome : Outcome
  now : Int

def heard (s : System L) (a : Action) : Option (List Tool) :=
  if (s.fed.getOrCreatePeer a.endpoint).client = false ∧ a.outcome.connects = false then none else a.outcome.listing

variable (cfg : FederationConfig) (s : System L)

def step (a : Action) : Option (System L) :=
  if a.endpoint ∈ cfg.peers then
    some {
      fed := s.fed.discoverPeer cfg a.endpoint a.outcome a.now
      listings := match heard s a with
        | none => s.listings
        | some tools => s.listings.insert a.endpoint tools }
  else none

def round (catalog : String → List Tool) : List Action :=
  cfg.peers.map fun endpoint => ⟨endpoint,⟨true,some (catalog endpoint)⟩,0⟩

def System.catalog (endpoint : String) : List Tool := (s.listings.lookup endpoint).getD []

/-- The registry has every advertised tool with its current descriptor and a handler for a peer that advertises
    it, and no other federated tool. -/
structure Converged : Prop where
  present : ∀ endpoint, ∀ t ∈ s.catalog endpoint, ∃ other, ∃ t' ∈ s.catalog other,
    cfg.federatedToolName other t'.name = cfg.federatedToolName endpoint t.name ∧
    entry s.fed.reg (cfg.federatedToolName endpoint t.name) = some (cfg.federated endpoint t,.peer other t'.name)
  absent : ∀ name tool endpoint toolName, entry s.fed.reg name = some (tool,.peer endpoint toolName) →
    ∃ other, ∃ t ∈ s.catalog other, cfg.federatedToolName other t.name = name

/-- A listing fits: each name stands for one descriptor, the one that the peers have given so far, and no other
    peer advertises a name that this one drops. -/
structure Fits (endpoint : String) (tools : List Tool) : Prop where
  single : ∀ t ∈ tools, ∀ t' ∈ tools, t'.name = t.name → t' = t
  agreed : ∀ t ∈ tools, ∀ other, ∀ t' ∈ s.catalog other,
    cfg.federatedToolName other t'.name = cfg.federatedToolName endpoint t.name →
    cfg.federated other t' = cfg.federated endpoint t
  exclusive : ∀ t ∈ s.catalog endpoint, (∀ t' ∈ tools, t'.name ≠ t.name) → ∀ other, other ≠ endpoint →
    ∀ t' ∈ s.catalog other, cfg.federatedToolName other t'.name ≠ cfg.federatedToolName endpoint t.name

def Misfits (a : Action) : Prop :=
  ∃ tools, heard s a = some tools ∧ ¬ Fits cfg s a.endpoint tools

/-! ### What a poll does -/

/-- The federation remembers the names of the last listing of each peer. -/
def Remembers : Prop :=
  ∀ endpoint, (s.fed.getOrCreatePeer endpoint).tools.map (·.name) = (s.catalog endpoint).map (·.name)

/-- A poll that gets no listing changes neither the registry nor what is remembered. -/
structure Silent (s s' : System L) : Prop where
  reg : s'.fed.reg = s.fed.reg
  catalog : ∀ endpoint, s'.catalog endpoint = s.catalog endpoint
  tools : ∀ endpoint, (s'.fed.getOrCreatePeer endpoint).tools = (s.fed.getOrCreatePeer endpoint).tools

/-- A poll that gets a listing updates the registry and replaces the listing. -/
structure Listed (s s' : System L) (endpoint : String) (tools : List Tool) : Prop where
  reg : s'.fed.reg =
    cfg.update endpoint (s.fed.getOrCreatePeer endpoint).tools (infos endpoint tools) tools s.fed.reg
  own : s'.catalog endpoint = tools
  other : ∀ e, e ≠ endpoint → s'.catalog e = s.catalog e
  tools : (s'.fed.getOrCreatePeer endpoint).tools = infos endpoint tools
  others : ∀ e, e ≠ endpoint → s'.fed.getOrCreatePeer e = s.fed.getOrCreatePeer e

open Federation

theorem getOrCreatePeer_insert (f : Federation L) (endpoint other : String) (ps : PeerState)
    (reg : DynamicRegistry (Handler L)) :
    getOrCreatePeer { peers := f.peers.insert endpoint ps, reg := reg } other =
      if other = endpoint then ps else f.getOrCreatePeer other := by
  split
  · rename_i same
    rw [same]
    exact congrArg (Option.getD · _) (lookup_insert _)
  · rename_i different
    exact congrArg (Option.getD · _) (lookup_insert_of_ne _ different)

variable {cfg : FederationConfig} {s s' : System L} {a : Action}

theorem step_silent (moved : step cfg s a = some s') (nothing : heard s a = none) : Silent s s' := by
  unfold step at moved
  split at moved
  · cases moved
    rw [nothing]
    have tools : ∀ (ps : PeerState) (reg : DynamicRegistry (Handler L)) (endpoint : String),
        ps.tools = (s.fed.getOrCreatePeer a.endpoint).tools →
        (getOrCreatePeer { peers := s.fed.peers.insert a.endpoint ps, reg := reg } endpoint).tools =
          (s.fed.getOrCreatePeer endpoint).tools := by
      intro ps reg endpoint same
      rw [getOrCreatePeer_insert]
      split
      · rename_i here
        rw [here,same]
      · rfl
    unfold heard at nothing
    unfold discoverPeer
    split at nothing
    · rename_i unreachable
      rw [if_pos unreachable]
      exact ⟨rfl,fun _ => rfl,fun endpoint => tools _ _ endpoint rfl⟩
    · rename_i reachable
      rw [if_neg reachable,nothing]
      exact ⟨rfl,fun _ => rfl,fun endpoint => tools _ _ endpoint rfl⟩
  · cases moved

open FederationCatalog.System

theorem step_listed {tools : List Tool}
    (moved : step cfg s a = some s') (listing : heard s a = some tools) : Listed cfg s s' a.endpoint tools := by
  unfold step at moved
  split at moved
  · cases moved
    rw [listing]
    unfold heard at listing
    unfold discoverPeer
    split at listing
    · cases listing
    · rename_i reachable
      rw [if_neg reachable,listing]
      refine ⟨rfl,?_,fun e different => ?_,?_,fun e different => ?_⟩
      · simp [catalog]
      · simp [catalog,lookup_insert_of_ne _ different]
      · rw [getOrCreatePeer_insert,if_pos rfl]
      · rw [getOrCreatePeer_insert,if_neg different]
  · cases moved

theorem Remembers.step (remembers : Remembers s)
    (moved : FederationCatalog.step cfg s a = some s') : Remembers s' := by
  intro endpoint
  cases listing : heard s a with
  | none =>
    have silent := step_silent moved listing
    rw [silent.tools,silent.catalog,remembers]
  | some tools =>
    have listed := step_listed moved listing
    by_cases same : endpoint = a.endpoint
    · subst same
      rw [listed.tools,listed.own]
      simp [infos]
    · rw [listed.others endpoint same,listed.other endpoint same,remembers]

theorem Remembers.mem_names (remembers : Remembers s) (cfg : FederationConfig) {endpoint name : String} :
    name ∈ cfg.namesOf endpoint (s.fed.getOrCreatePeer endpoint).tools ↔
      ∃ t ∈ s.catalog endpoint, cfg.federatedToolName endpoint t.name = name := by
  have names : cfg.namesOf endpoint (s.fed.getOrCreatePeer endpoint).tools =
      (s.catalog endpoint).map fun t => cfg.federatedToolName endpoint t.name := by
    have mapped := congrArg (List.map (cfg.federatedToolName endpoint)) (remembers endpoint)
    rw [map_map,map_map] at mapped
    exact mapped
  rw [names,mem_map]

theorem mem_infos (cfg : FederationConfig) (endpoint : String) {name : String} {tools : List Tool} :
    name ∈ cfg.namesOf endpoint (infos endpoint tools) ↔
      ∃ t ∈ tools, cfg.federatedToolName endpoint t.name = name := by
  rw [namesOf_infos,mem_map]

/-! ### Listings that fit -/

theorem Converged.agree (converged : Converged cfg s) {e e' : String} {t t' : Tool} (first : t ∈ s.catalog e)
    (second : t' ∈ s.catalog e') (same : cfg.federatedToolName e' t'.name = cfg.federatedToolName e t.name) :
    cfg.federated e' t' = cfg.federated e t := by
  obtain ⟨_,_,_,_,held⟩ := converged.present e t first
  obtain ⟨_,_,_,_,held'⟩ := converged.present e' t' second
  rw [same,held] at held'
  exact (congrArg Prod.fst (Option.some.inj held')).symm

section
variable {cfg : FederationConfig} {s s' : System L} {endpoint : String} {tools : List Tool}
variable (listed : Listed cfg s s' endpoint tools) (converged : Converged cfg s) (remembers : Remembers s)
include listed converged remembers

theorem Listed.present_own (fits : Fits cfg s endpoint tools) {t : Tool} (member : t ∈ tools) :
    ∃ other, ∃ t' ∈ s'.catalog other,
      cfg.federatedToolName other t'.name = cfg.federatedToolName endpoint t.name ∧
      entry s'.fed.reg (cfg.federatedToolName endpoint t.name) =
        some (cfg.federated endpoint t,.peer other t'.name) := by
  have new := (mem_infos cfg endpoint).mpr ⟨t,member,rfl⟩
  rw [listed.reg]
  by_cases old : cfg.federatedToolName endpoint t.name ∈ cfg.namesOf endpoint (s.fed.getOrCreatePeer endpoint).tools
  · obtain ⟨before,advertised,named⟩ := (remembers.mem_names cfg).mp old
    obtain ⟨other,t',by',same,held⟩ := converged.present endpoint before advertised
    rw [update_kept cfg endpoint _ tools _ old new]
    rw [named,fits.agreed t member endpoint before advertised named] at held
    by_cases here : other = endpoint
    · subst here
      have one : t'.name = t.name := federatedToolName_inj cfg (same.trans named)
      rw [one] at held
      exact ⟨other,t,listed.own ▸ member,rfl,held⟩
    · exact ⟨other,t',(listed.other other here).symm ▸ by',same.trans named,held⟩
  · refine ⟨endpoint,t,listed.own ▸ member,rfl,?_⟩
    rw [update_added cfg endpoint _ tools _ old member rfl,descriptor_eq member (fits.single t member)]
    rfl

theorem Listed.present_other (fits : Fits cfg s endpoint tools) {e : String} (different : e ≠ endpoint) {t : Tool}
    (member : t ∈ s.catalog e) : ∃ other, ∃ t' ∈ s'.catalog other,
      cfg.federatedToolName other t'.name = cfg.federatedToolName e t.name ∧
      entry s'.fed.reg (cfg.federatedToolName e t.name) = some (cfg.federated e t,.peer other t'.name) := by
  by_cases new : cfg.federatedToolName e t.name ∈ cfg.namesOf endpoint (infos endpoint tools)
  · obtain ⟨t₁,member₁,named⟩ := (mem_infos cfg endpoint).mp new
    rw [← named,fits.agreed t₁ member₁ e t member named.symm]
    exact listed.present_own converged remembers fits member₁
  · have old : cfg.federatedToolName e t.name ∉ cfg.namesOf endpoint (s.fed.getOrCreatePeer endpoint).tools := by
      intro old
      obtain ⟨before,advertised,named⟩ := (remembers.mem_names cfg).mp old
      refine fits.exclusive before advertised (fun t₁ member₁ same => new ?_) e different t member named.symm
      exact (mem_infos cfg endpoint).mpr ⟨t₁,member₁,by rw [same,named]⟩
    obtain ⟨other,t',by',same,held⟩ := converged.present e t member
    have elsewhere : other ≠ endpoint := by
      rintro rfl
      exact old ((remembers.mem_names cfg).mpr ⟨t',by',same⟩)
    refine ⟨other,t',(listed.other other elsewhere).symm ▸ by',same,?_⟩
    rw [listed.reg,update_other cfg endpoint _ tools _ old new,held]

theorem Listed.converges (fits : Fits cfg s endpoint tools) : Converged cfg s' := by
  constructor
  · intro e t member
    by_cases same : e = endpoint
    · subst same
      rw [listed.own] at member
      exact listed.present_own converged remembers fits member
    · rw [listed.other e same] at member
      exact listed.present_other converged remembers fits same member
  · intro name tool e toolName held
    rw [listed.reg] at held
    by_cases new : name ∈ cfg.namesOf endpoint (infos endpoint tools)
    · obtain ⟨t,member,named⟩ := (mem_infos cfg endpoint).mp new
      exact ⟨endpoint,t,listed.own ▸ member,named⟩
    · by_cases old : name ∈ cfg.namesOf endpoint (s.fed.getOrCreatePeer endpoint).tools
      · rw [update_dropped cfg endpoint _ tools _ old new] at held
        cases held
      · rw [update_other cfg endpoint _ tools _ old new] at held
        obtain ⟨other,t,member,named⟩ := converged.absent name tool e toolName held
        have elsewhere : other ≠ endpoint := by
          rintro rfl
          exact old ((remembers.mem_names cfg).mpr ⟨t,member,named⟩)
        exact ⟨other,t,(listed.other other elsewhere).symm ▸ member,named⟩

theorem Listed.fits (after : Converged cfg s') : Fits cfg s endpoint tools := by
  have member : ∀ t ∈ tools, t ∈ s'.catalog endpoint := fun t listing => listed.own.symm ▸ listing
  constructor
  · intro t first t' second same
    have one := after.agree (member t first) (member t' second) (congrArg _ same)
    obtain ⟨name',description',schema'⟩ := t'
    cases same
    simp only [FederationConfig.federated,Tool.mk.injEq,true_and] at one
    rw [one.1,one.2]
  · intro t first other t' second same
    by_cases here : other = endpoint
    · subst here
      have old := (remembers.mem_names cfg).mpr ⟨t',second,same⟩
      have new := (mem_infos cfg other).mpr ⟨t,first,rfl⟩
      obtain ⟨_,_,_,_,held⟩ := converged.present other t' second
      obtain ⟨_,_,_,_,held'⟩ := after.present other t (member t first)
      rw [listed.reg,update_kept cfg other _ tools _ old new,← same,held] at held'
      exact congrArg Prod.fst (Option.some.inj held')
    · exact after.agree (member t first) ((listed.other other here).symm ▸ second) same
  · intro t advertised dropped other elsewhere t' second same
    have old := (remembers.mem_names cfg).mpr ⟨t,advertised,rfl⟩
    have gone : cfg.federatedToolName endpoint t.name ∉ cfg.namesOf endpoint (infos endpoint tools) := by
      intro new
      obtain ⟨t₁,listing,named⟩ := (mem_infos cfg endpoint).mp new
      exact dropped t₁ listing (federatedToolName_inj cfg named)
    obtain ⟨_,_,_,_,held⟩ := after.present other t' ((listed.other other elsewhere).symm ▸ second)
    rw [same,listed.reg,update_dropped cfg endpoint _ tools _ old gone] at held
    cases held

end

structure Alike (s s' : System L) : Prop where
  entries : ∀ name, entry s'.fed.reg name = entry s.fed.reg name
  catalogs : ∀ endpoint, s'.catalog endpoint = s.catalog endpoint

theorem Alike.converged (alike : Alike s s') (converged : Converged cfg s) : Converged cfg s' := by
  constructor
  · intro endpoint t member
    rw [alike.catalogs] at member
    obtain ⟨other,t',by',same,held⟩ := converged.present endpoint t member
    exact ⟨other,t',(alike.catalogs other).symm ▸ by',same,(alike.entries _).trans held⟩
  · intro name tool endpoint toolName held
    obtain ⟨other,t,member,named⟩ := converged.absent name tool endpoint toolName ((alike.entries _).symm.trans held)
    exact ⟨other,t,(alike.catalogs other).symm ▸ member,named⟩

theorem Silent.alike (silent : Silent s s') : Alike s s' :=
  ⟨fun name => by rw [silent.reg],silent.catalog⟩

/-! ### Rounds without news -/

theorem relisted_alike {endpoint : String} (remembers : Remembers s)
    (listed : Listed cfg s s' endpoint (s.catalog endpoint)) : Alike s s' := by
  constructor
  · intro name
    have same : name ∈ cfg.namesOf endpoint (infos endpoint (s.catalog endpoint)) ↔
        name ∈ cfg.namesOf endpoint (s.fed.getOrCreatePeer endpoint).tools := by
      rw [mem_infos,remembers.mem_names]
    rw [listed.reg]
    by_cases old : name ∈ cfg.namesOf endpoint (s.fed.getOrCreatePeer endpoint).tools
    · exact update_kept cfg endpoint _ _ _ old (same.mpr old)
    · exact update_other cfg endpoint _ _ _ old fun new => old (same.mp new)
  · intro e
    by_cases here : e = endpoint
    · rw [here,listed.own]
    · exact listed.other e here

theorem relist_run (cfg : FederationConfig) (catalog : String → List Tool) (endpoints : List String) :
    ∀ {s : System L}, Remembers s → (∀ e, s.catalog e = catalog e) → (∀ e ∈ endpoints, e ∈ cfg.peers) →
    ∃ s', exec (step cfg) free s (endpoints.map fun e => ⟨e,⟨true,some (catalog e)⟩,0⟩) = some s' ∧ Alike s s' := by
  induction endpoints with
  | nil => intro s _ _ _; exact ⟨s,rfl,⟨fun _ => rfl,fun _ => rfl⟩⟩
  | cons first rest ih =>
    intro s remembers same configured
    obtain ⟨middle,moved⟩ : ∃ middle, step cfg s ⟨first,⟨true,some (catalog first)⟩,0⟩ = some middle := by
      unfold step
      rw [if_pos (configured first mem_cons_self)]
      exact ⟨_,rfl⟩
    have listed : Listed cfg s middle first (s.catalog first) := step_listed moved (by simp [heard,same])
    have alike := relisted_alike remembers listed
    obtain ⟨s',later,alike'⟩ := ih (remembers.step moved) (fun e => (alike.catalogs e).trans (same e))
      (fun e member => configured e (mem_cons_of_mem _ member))
    refine ⟨s',?_,fun name => (alike'.entries name).trans (alike.entries name),
      fun e => (alike'.catalogs e).trans (alike.catalogs e)⟩
    rw [map_cons,exec_next trivial moved,later]

theorem Alike.symm (alike : Alike s s') : Alike s' s :=
  ⟨fun name => (alike.entries name).symm,fun e => (alike.catalogs e).symm⟩

/-! ### Histories -/

theorem start_remembers (reg : DynamicRegistry (Handler L)) : Remembers (start reg) := by
  intro endpoint
  simp [start,newFederation,getOrCreatePeer,catalog]

theorem start_converged (cfg : FederationConfig) {reg : DynamicRegistry (Handler L)}
    (natives : ∀ name td, reg.tools.lookup name = some td → ∃ h, td.handler = .native h) :
    Converged cfg (start reg) := by
  constructor
  · intro endpoint t member
    simp [start,catalog] at member
  · intro name tool endpoint toolName held
    obtain ⟨td,found,same⟩ := Option.map_eq_some_iff.mp held
    obtain ⟨h,native⟩ := natives name td found
    have handler : td.handler = .peer endpoint toolName := congrArg Prod.snd same
    rw [native] at handler
    cases handler

theorem step_converged (converged : Converged cfg s)
    (remembers : Remembers s) (fits : ¬ Misfits cfg s a) (moved : step cfg s a = some s') : Converged cfg s' := by
  cases listing : heard s a with
  | none => exact (step_silent moved listing).alike.converged converged
  | some tools =>
    exact (step_listed moved listing).converges converged remembers (not_not.mp fun bad => fits ⟨tools,listing,bad⟩)

/-- In every history of polls whose listings fit, the registry agrees with what the peers advertise. The first
    listing that does not fit ends this, and another round of the same does not mend it. -/
theorem catalog_converges_iff (cfg : FederationConfig) {reg : DynamicRegistry (Handler L)}
    (natives : ∀ name td, reg.tools.lookup name = some td → ∃ h, td.handler = .native h) {s : System L}
    (reached : Reachable (step cfg) (fun s a => ¬ Misfits cfg s a) (start reg) s) :
    Converged cfg s ∧ ∀ a s', Misfits cfg s a → step cfg s a = some s' →
      ∃ s'', exec (step cfg) free s' (round cfg s'.catalog) = some s'' ∧ ¬ Converged cfg s'' := by
  have both : Converged cfg s ∧ Remembers s :=
    reached.invariant (I := fun s => Converged cfg s ∧ Remembers s) ⟨start_converged cfg natives,start_remembers reg⟩
      (fun _ _ _ held fits moved => ⟨step_converged held.1 held.2 fits moved,held.2.step moved⟩)
  refine ⟨both.1,fun a s' misfits moved => ?_⟩
  obtain ⟨tools,listing,bad⟩ := misfits
  have broken : ¬ Converged cfg s' :=
    fun after => bad ((step_listed moved listing).fits both.1 both.2 after)
  obtain ⟨s'',again,alike⟩ := relist_run cfg s'.catalog cfg.peers (both.2.step moved) (fun _ => rfl) fun _ member => member
  exact ⟨s'',again,fun after => broken (alike.symm.converged after)⟩

/-! ### Two peers without prefixes -/

def empty : DynamicRegistry (Handler Unit) := newDynamicRegistry ⟨none,id⟩

def pair : FederationConfig := ⟨["http://a","http://b"],false⟩

def search (description : String) : Tool := ⟨"search",description,""⟩

def changed : System Unit := (exec (step pair) free (start empty)
  (round pair (fun _ => [search "old"]) ++ round pair fun _ => [search "new"])).getD (start empty)

def dropped : System Unit := (exec (step pair) free (start empty)
  (round pair (fun _ => [search "old"]) ++
    round pair fun e => if e = "http://a" then [] else [search "old"])).getD (start empty)

/-- The registry still has `old` after a round without it, and misses a tool that a peer lists. -/
theorem listings_are_missed : Reachable (step pair) free (start empty) changed ∧
    changed.catalog "http://a" = [search "new"] ∧ changed.catalog "http://b" = [search "new"] ∧
    entry changed.fed.reg "search" = some (search "old",.peer "http://b" "search") ∧ ¬ Converged pair changed ∧
    Reachable (step pair) free (start empty) dropped ∧
    dropped.catalog "http://a" = [] ∧ dropped.catalog "http://b" = [search "old"] ∧
    entry dropped.fed.reg "search" = none ∧ ¬ Converged pair dropped := by
  have stale : entry changed.fed.reg "search" = some (search "old",.peer "http://b" "search") := by decide
  have lost : entry dropped.fed.reg "search" = none := by decide
  have lists : changed.catalog "http://a" = [search "new"] := by decide
  have remains : dropped.catalog "http://b" = [search "old"] := by decide
  refine ⟨exec_reachable (round pair (fun _ => [search "old"]) ++ round pair fun _ => [search "new"]) .start rfl,
    lists,by decide,stale,fun converged => ?_,
    exec_reachable (round pair (fun _ => [search "old"]) ++
      round pair fun e => if e = "http://a" then [] else [search "old"]) .start rfl,
    by decide,remains,lost,fun converged => ?_⟩
  · obtain ⟨_,_,_,_,held⟩ := converged.present "http://a" (search "new") (by rw [lists]; exact mem_singleton_self _)
    have descriptors : search "old" = search "new" := congrArg Prod.fst (Option.some.inj (stale.symm.trans held))
    exact absurd descriptors (by decide)
  · obtain ⟨_,_,_,_,held⟩ := converged.present "http://b" (search "old") (by rw [remains]; exact mem_singleton_self _)
    cases lost.symm.trans held

def listing (description : String) : Action := ⟨"http://a",⟨true,some [search description]⟩,0⟩

def listedOnce : System Unit := (step pair (start empty) (listing "old")).getD (start empty)

theorem catalog_converges_sample : Converged pair listedOnce ∧ ∀ s', step pair listedOnce (listing "new") = some s' →
      ∃ s'', exec (step pair) free s' (round pair s'.catalog) = some s'' ∧ ¬ Converged pair s'' := by
  have fits : ¬ Misfits pair (start empty) (listing "old") := by
    rintro ⟨tools,heard,misfit⟩
    cases heard
    refine misfit ⟨fun t first t' second _ => ?_,fun t _ other t' none => ?_,fun t none => ?_⟩
    · exact (List.mem_singleton.mp second).trans (List.mem_singleton.mp first).symm
    · simp [start,catalog] at none
    · simp [start,catalog] at none
  have run : Reachable (step pair) (fun s a => ¬ Misfits pair s a) (start empty) listedOnce := .next _ .start fits rfl
  have natives : ∀ name td, empty.tools.lookup name = some td → ∃ h, td.handler = Handler.native h := by
    simp [empty,newDynamicRegistry]
  have both := catalog_converges_iff pair natives run
  have catalog : listedOnce.catalog "http://a" = [search "old"] := by decide
  refine ⟨both.1,fun s' moved => both.2 _ s' ⟨[search "new"],rfl,fun fits => ?_⟩ moved⟩
  exact absurd (fits.agreed (search "new") (mem_singleton_self _) "http://a" (search "old")
    (by rw [catalog]; exact mem_singleton_self _) rfl) (by decide)

end Mcpkit.FederationCatalog
