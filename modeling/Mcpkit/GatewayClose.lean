import Mcpkit.GatewayModel

/-!
Closing the gateway while upstreams are being added. `AddUpstream` asks whether the gateway is
closed in its first lock section only; between that and its second lock section, in which it
registers the upstream, it connects and lists the tools.
-/
namespace Mcpkit.GatewayClose
open Transitions GoMaps RegistryModel GatewayBreaker GatewayModel List Finmap

/-- How far an `AddUpstream` call has come after its first lock section. -/
inductive Phase where
  | connecting (config : UpstreamConfig)
  | syncing (config : UpstreamConfig) (client : Nat)
  | registering (u : Upstream)

def Phase.client : Phase → Option Nat
  | .connecting _ => none
  | .syncing _ client => some client
  | .registering u => some u.client

/-- The last two fields are history: the names registered when `Close` returned, and the upstreams inserted since. -/
structure System where
  gateway : Gateway
  calls : List Phase
  closing : List Nat
  opened : Nat
  shut : Finset Nat
  atClose : Finset String
  late : List String

def new (config : Config) : System := ⟨newGateway config,[],[],0,∅,∅,[]⟩

def clients (g : Gateway) : Finset Nat :=
  g.upstreams.keys.biUnion fun name => ((g.upstreams.lookup name).map (·.client)).toFinset

/-- The lock sections of `AddUpstream`, of `RemoveUpstream` and of `Close`, and what happens between them. -/
inductive Action where
  | check (config : UpstreamConfig)
  | connect (i : Nat) (reached : Bool)
  | sync (i : Nat) (listed : Option (List Tool))
  | register (i : Nat)
  | removeUpstream (name : String) (toRemove : List String)
  | closeClient (i : Nat)
  | close

variable (s : System)

def step : Action → Option System
  | .check config =>
    match s.gateway.check config with
    | some _ => some s
    | none => some { s with calls := s.calls ++ [.connecting config] }
  | .connect i reached =>
    match s.calls[i]? with
    | some (.connecting config) =>
      if reached then some { s with calls := s.calls.set i (.syncing config s.opened), opened := s.opened+1 }
      else some { s with calls := s.calls.eraseIdx i }
    | _ => none
  | .sync i listed =>
    match s.calls[i]? with
    | some (.syncing config client) =>
      match listed with
      | some listed => some { s with calls := s.calls.set i (.registering (connected config client listed)) }
      | none => some { s with calls := s.calls.eraseIdx i, closing := s.closing ++ [client] }
    | _ => none
  | .register i =>
    match s.calls[i]? with
    | some (.registering u) =>
      match s.gateway.commit u with
      | .ok g => some { s with
          gateway := g
          calls := s.calls.eraseIdx i
          late := if s.gateway.closed then s.late ++ [u.config.name] else s.late }
      | .error _ => some { s with calls := s.calls.eraseIdx i, closing := s.closing ++ [u.client] }
    | _ => none
  | .removeUpstream name toRemove =>
    match s.gateway.upstreams.lookup name with
    | some u =>
      if s.gateway.Collects name toRemove then
        some { s with gateway := s.gateway.removeUpstream name toRemove, closing := s.closing ++ [u.client] }
      else none
    | none => none
  | .closeClient i =>
    match s.closing[i]? with
    | some client => some { s with closing := s.closing.eraseIdx i, shut := insert client s.shut }
    | none => none
  | .close =>
    if s.gateway.closed then none
    else some { s with
      gateway := { s.gateway with closed := true }
      shut := s.shut ∪ clients s.gateway
      atClose := s.gateway.reg.tools.keys }

/-- A closed gateway: no upstream and no tool has come since, and every client that was ever opened is closed, or
    a call that is not over yet holds it. -/
structure Final : Prop where
  inserted : s.late = []
  tools : s.gateway.reg.tools.keys ⊆ s.atClose
  clients : ∀ client < s.opened, client ∈ s.shut ∨ client ∈ s.closing ∨ ∃ call ∈ s.calls, call.client = some client

def StaysClosed : Prop := s.gateway.closed = true → Final s

/-- The gateway is closed while an `AddUpstream` call is between its lock sections. -/
def Overlaps : Action → Prop
  | .close => s.calls ≠ []
  | _ => False

instance (s : System) : ∀ a, Decidable (Overlaps s a)
  | .close => match h : s.calls with
    | [] => .isFalse fun overlaps => overlaps h
    | _ :: _ => .isTrue (by simp [Overlaps,h])
  | .check _ => .isFalse id
  | .connect _ _ => .isFalse id
  | .sync _ _ => .isFalse id
  | .register _ => .isFalse id
  | .removeUpstream _ _ => .isFalse id
  | .closeClient _ => .isFalse id

/-! ### Runs without an overlap -/

/-- A client is closed, or about to be, or held by a call or a registered upstream. -/
def Accounted (client : Nat) : Prop :=
  client ∈ s.shut ∨ client ∈ s.closing ∨ (∃ call ∈ s.calls, call.client = some client) ∨
  ∃ name u, s.gateway.upstreams.lookup name = some u ∧ u.client = client

/-- While the gateway is open every client is accounted for; afterwards no call is left that could add one. -/
structure Orderly : Prop where
  inserted : s.late = []
  accounted : ∀ client < s.opened, Accounted s client
  finished : s.gateway.closed = true → s.calls = [] ∧ s.gateway.reg.tools.keys ⊆ s.atClose ∧
    ∀ name u, s.gateway.upstreams.lookup name = some u → u.client ∈ s.shut

variable {u : Upstream}

theorem mem_clients {g : Gateway} {name : String} (present : g.upstreams.lookup name = some u) :
    u.client ∈ clients g := by
  refine Finset.mem_biUnion.mpr ⟨name,mem_keys.mpr (mem_iff.mpr ⟨u,present⟩),?_⟩
  simp [present]

variable {i client : Nat}

theorem mem_set_or {α : Type} {l : List α} {x : α} (y : α) (member : x ∈ l) : l[i]? = some x ∨ x ∈ l.set i y := by
  obtain ⟨j,found⟩ := mem_iff_getElem?.mp member
  by_cases same : i = j
  · subst same; exact .inl found
  · exact .inr (mem_iff_getElem?.mpr ⟨j,by rw [getElem?_set_ne same,found]⟩)

theorem mem_eraseIdx_or {α : Type} {l : List α} {x : α} (member : x ∈ l) : l[i]? = some x ∨ x ∈ l.eraseIdx i := by
  obtain ⟨j,found⟩ := mem_iff_getElem?.mp member
  by_cases same : j = i
  · subst same; exact .inl found
  · exact .inr (mem_eraseIdx_iff_getElem?.mpr ⟨j,same,found⟩)

theorem orderly_new (config : Config) : Orderly (new config) where
  inserted := rfl
  accounted client low := absurd low (Nat.not_lt_zero client)
  finished closed := by cases closed

variable {s s' : System}

theorem orderly_of_open (isOpen : s.gateway.closed = false) (inserted : s.late = [])
    (accounted : ∀ client < s.opened, Accounted s client) : Orderly s where
  inserted := inserted
  accounted := accounted
  finished closed := by cases isOpen.symm.trans closed

variable {phase : Phase}

theorem Orderly.closed_of_call (orderly : Orderly s) (here : s.calls[i]? = some phase) : s.gateway.closed = false := by
  cases closed : s.gateway.closed with
  | false => rfl
  | true =>
    rw [(orderly.finished closed).1] at here
    cases here

section
variable (accounted : Accounted s client) (here : s.calls[i]? = some phase)
include accounted here

theorem Accounted.set_call (next : Phase)
    (taken : phase.client = some client → next.client = some client) (opened : Nat) :
    Accounted { s with calls := s.calls.set i next, opened := opened } client := by
  rcases accounted with closed | closing | ⟨call,member,holds⟩ | registered
  · exact .inl closed
  · exact .inr (.inl closing)
  · rcases mem_set_or next member with same | other
    · cases here.symm.trans same
      exact .inr (.inr (.inl ⟨next,mem_iff_getElem?.mpr ⟨i,getElem?_set_some here⟩,taken holds⟩))
    · exact .inr (.inr (.inl ⟨call,other,holds⟩))
  · exact .inr (.inr (.inr registered))

theorem Accounted.erase_call (closing : List Nat)
    (late : List String) (taken : phase.client = some client → client ∈ closing) (more : s.closing ⊆ closing) :
    Accounted { s with calls := s.calls.eraseIdx i, closing := closing, late := late } client := by
  rcases accounted with closed | about | ⟨call,member,holds⟩ | registered
  · exact .inl closed
  · exact .inr (.inl (more about))
  · rcases mem_eraseIdx_or member with same | other
    · cases here.symm.trans same
      exact .inr (.inl (taken holds))
    · exact .inr (.inr (.inl ⟨call,other,holds⟩))
  · exact .inr (.inr (.inr registered))

theorem Accounted.drop_call {own : Nat} (holds : phase.client = some own) :
    Accounted { s with calls := s.calls.eraseIdx i, closing := s.closing ++ [own] } client := by
  refine accounted.erase_call here _ _ (fun held => ?_) (subset_append_left _ _)
  cases holds.symm.trans held
  exact mem_append_right _ (mem_singleton_self _)

end

variable {config : UpstreamConfig}

theorem Orderly.check (orderly : Orderly s) (moved : step s (.check config) = some s') : Orderly s' := by
  simp only [step] at moved
  split at moved
  · cases moved; exact orderly
  · rename_i passed
    cases moved
    have isOpen : s.gateway.closed = false := by
      cases closed : s.gateway.closed with
      | false => rfl
      | true => simp [Gateway.check,closed] at passed
    refine orderly_of_open isOpen orderly.inserted fun client low => ?_
    rcases orderly.accounted client low with closed | closing | ⟨call,member,holds⟩ | registered
    · exact .inl closed
    · exact .inr (.inl closing)
    · exact .inr (.inr (.inl ⟨call,mem_append_left _ member,holds⟩))
    · exact .inr (.inr (.inr registered))

theorem Orderly.connect {reached : Bool} (orderly : Orderly s)
    (moved : step s (.connect i reached) = some s') : Orderly s' := by
  simp only [step] at moved
  split at moved
  · rename_i config here
    have isOpen := orderly.closed_of_call here
    split at moved
    · cases moved
      refine orderly_of_open isOpen orderly.inserted fun client low => ?_
      by_cases new : client = s.opened
      · refine .inr (.inr (.inl ⟨_,mem_iff_getElem?.mpr ⟨i,getElem?_set_some here⟩,?_⟩))
        rw [new]
        rfl
      · have before : client < s.opened := lt_of_le_of_ne (Nat.le_of_lt_succ low) new
        exact (orderly.accounted client before).set_call here _ (by simp [Phase.client]) _
    · cases moved
      refine orderly_of_open isOpen orderly.inserted fun client low => ?_
      exact (orderly.accounted client low).erase_call here _ _ (by simp [Phase.client]) (List.Subset.refl _)
  · cases moved

theorem Orderly.sync {listed : Option (List Tool)} (orderly : Orderly s)
    (moved : step s (.sync i listed) = some s') : Orderly s' := by
  simp only [step] at moved
  split at moved
  · rename_i config client here
    have isOpen := orderly.closed_of_call here
    cases listed with
    | some listed =>
      cases moved
      refine orderly_of_open isOpen orderly.inserted fun other low => ?_
      exact (orderly.accounted other low).set_call here (.registering (connected config client listed)) id _
    | none =>
      cases moved
      exact orderly_of_open isOpen orderly.inserted fun other low => (orderly.accounted other low).drop_call here rfl
  · cases moved

theorem commit_upstreams (g : Gateway) (u : Upstream) (name : String) :
    (u.tools.foldl (registerTool u) { g with upstreams := g.upstreams.insert u.config.name u }).upstreams.lookup name =
      (g.upstreams.insert u.config.name u).lookup name := by
  rw [(register_kept ..).1]

theorem Accounted.register (accounted : Accounted s client) (here : s.calls[i]? = some (.registering u))
    (free' : u.config.name ∉ s.gateway.upstreams) (late : List String) : Accounted { s with
      gateway := u.tools.foldl (registerTool u)
        { s.gateway with upstreams := s.gateway.upstreams.insert u.config.name u }
      calls := s.calls.eraseIdx i
      late := late } client := by
  rcases accounted with closed | closing | ⟨call,member,holds⟩ | ⟨name,v,registered,same⟩
  · exact .inl closed
  · exact .inr (.inl closing)
  · rcases mem_eraseIdx_or member with this | other
    · cases here.symm.trans this
      have found := (commit_upstreams s.gateway u u.config.name).trans (lookup_insert _)
      exact .inr (.inr (.inr ⟨u.config.name,u,found,Option.some.inj holds⟩))
    · exact .inr (.inr (.inl ⟨call,other,holds⟩))
  · have different : name ≠ u.config.name := by
      rintro rfl
      exact free' (mem_iff.mpr ⟨v,registered⟩)
    refine .inr (.inr (.inr ⟨name,v,(commit_upstreams s.gateway u name).trans ?_,same⟩))
    rw [lookup_insert_of_ne _ different,registered]

section
variable (orderly : Orderly s)
include orderly

theorem Orderly.register (moved : step s (.register i) = some s') : Orderly s' := by
  simp only [step] at moved
  split at moved
  · rename_i u here
    have isOpen := orderly.closed_of_call here
    unfold Gateway.commit at moved
    by_cases present : u.config.name ∈ s.gateway.upstreams
    · rw [if_pos present] at moved
      cases moved
      exact orderly_of_open isOpen orderly.inserted fun other low => (orderly.accounted other low).drop_call here rfl
    · rw [if_neg present] at moved
      cases moved
      refine orderly_of_open ((register_kept u u.tools _).2.trans isOpen) ?_
        (fun other low => (orderly.accounted other low).register here present _)
      rw [isOpen]
      exact orderly.inserted
  · cases moved

theorem Orderly.removeUpstream {name : String} {toRemove : List String}
    (moved : step s (.removeUpstream name toRemove) = some s') : Orderly s' := by
  simp only [step] at moved
  split at moved
  · rename_i u present
    split at moved
    · cases moved
      refine ⟨orderly.inserted,fun other low => ?_,fun closed => ?_⟩
      · rcases orderly.accounted other low with closed | closing | held | ⟨name',v,registered,client⟩
        · exact .inl closed
        · exact .inr (.inl (mem_append_left _ closing))
        · exact .inr (.inr (.inl held))
        · by_cases same : name' = name
          · subst same
            cases present.symm.trans registered
            exact .inr (.inl (mem_append_right _ (by simp [client])))
          · exact .inr (.inr (.inr ⟨name',v,(lookup_erase_ne same).trans registered,client⟩))
      · obtain ⟨none,tools,clients⟩ := orderly.finished closed
        refine ⟨none,fun nsName member => tools ?_,fun name' v registered => ?_⟩
        · obtain ⟨td,found⟩ := mem_iff.mp (mem_keys.mp member)
          have lookup := removeAll_lookup toRemove nsName s.gateway.reg
          rw [show (toRemove.foldl (fun reg nsName => (reg.removeTool nsName).2) s.gateway.reg).tools.lookup nsName =
            some td from found] at lookup
          split at lookup
          · cases lookup
          · exact mem_keys.mpr (mem_iff.mpr ⟨td,lookup.symm⟩)
        · by_cases same : name' = name
          · subst same
            cases (lookup_erase _ _).symm.trans registered
          · exact clients name' v ((lookup_erase_ne same).symm.trans registered)
    · cases moved
  · cases moved

theorem Orderly.closeClient (moved : step s (.closeClient i) = some s') : Orderly s' := by
  simp only [step] at moved
  split at moved
  · rename_i client here
    cases moved
    refine ⟨orderly.inserted,fun other low => ?_,fun closed => ?_⟩
    · rcases orderly.accounted other low with closed | closing | rest
      · exact .inl (Finset.mem_insert_of_mem closed)
      · rcases mem_eraseIdx_or closing with same | later
        · cases here.symm.trans same
          exact .inl (Finset.mem_insert_self _ _)
        · exact .inr (.inl later)
      · exact .inr (.inr rest)
    · obtain ⟨none,tools,clients⟩ := orderly.finished closed
      exact ⟨none,tools,fun name u registered => Finset.mem_insert_of_mem (clients name u registered)⟩
  · cases moved

theorem Orderly.close (alone : ¬ Overlaps s .close) (moved : step s .close = some s') : Orderly s' := by
  simp only [step] at moved
  split at moved
  · cases moved
  · cases moved
    refine ⟨orderly.inserted,fun other low => ?_,fun _ => ⟨not_not.mp alone,Finset.Subset.refl _,?_⟩⟩
    · rcases orderly.accounted other low with closed | rest
      · exact .inl (Finset.mem_union_left _ closed)
      · exact .inr rest
    · intro name u registered
      exact Finset.mem_union_right _ (mem_clients registered)

theorem orderly_step {a : Action} (alone : ¬ Overlaps s a) (moved : step s a = some s') : Orderly s' := by
  cases a with
  | check config => exact orderly.check moved
  | connect i reached => exact orderly.connect moved
  | sync i listed => exact orderly.sync moved
  | register i => exact orderly.register moved
  | removeUpstream name toRemove => exact orderly.removeUpstream moved
  | closeClient i => exact orderly.closeClient moved
  | close => exact orderly.close alone moved

theorem Orderly.staysClosed : StaysClosed s := by
  intro closed
  obtain ⟨none,tools,clients⟩ := orderly.finished closed
  refine ⟨orderly.inserted,tools,fun client low => ?_⟩
  rcases orderly.accounted client low with closed | closing | held | ⟨name,u,registered,same⟩
  · exact .inl closed
  · exact .inr (.inl closing)
  · exact .inr (.inr held)
  · exact .inl (same ▸ clients name u registered)

end

/-! ### After an overlap -/

theorem exists_collects (g : Gateway) (name : String) : ∃ toRemove, g.Collects name toRemove :=
  ⟨(g.toolMap.keys.filter fun nsName => g.toolMap.lookup nsName = some name).toList,Finset.toList_toFinset _⟩

variable {rest : List Phase}

section
variable (closed : s.gateway.closed = true)
include closed

theorem register_breaks (calls : s.calls = .registering u :: rest)
    (free' : u.config.name ∉ s.gateway.upstreams) : ∃ s', Reachable step free s s' ∧ ¬ StaysClosed s' := by
  have committed : s.gateway.commit u = .ok (u.tools.foldl (registerTool u)
      { s.gateway with upstreams := s.gateway.upstreams.insert u.config.name u }) := if_neg free'
  have moved : step s (.register 0) = some { s with
      gateway := u.tools.foldl (registerTool u)
        { s.gateway with upstreams := s.gateway.upstreams.insert u.config.name u }
      calls := rest
      late := s.late ++ [u.config.name] } := by
    simp [step,calls,committed,closed]
  refine ⟨_,.next (.register 0) .start trivial moved,fun stays => ?_⟩
  have inserted := (stays ((register_kept u u.tools _).2.trans closed)).inserted
  simp at inserted

theorem registering_breaks (calls : s.calls = .registering u :: rest) :
    ∃ s', Reachable step free s s' ∧ ¬ StaysClosed s' := by
  cases taken : s.gateway.upstreams.lookup u.config.name with
  | none => exact register_breaks closed calls (lookup_eq_none.mp taken)
  | some other =>
    obtain ⟨toRemove,collects⟩ := exists_collects s.gateway u.config.name
    have moved : step s (.removeUpstream u.config.name toRemove) =
        some { s with
          gateway := s.gateway.removeUpstream u.config.name toRemove
          closing := s.closing ++ [other.client] } := by
      simp only [step,taken,if_pos collects]
    obtain ⟨s',later,breaks⟩ := register_breaks
      (s := { s with
        gateway := s.gateway.removeUpstream u.config.name toRemove
        closing := s.closing ++ [other.client] })
      closed calls (lookup_eq_none.mp (lookup_erase _ _))
    exact ⟨s',(Reachable.start.next _ trivial moved).trans later,breaks⟩

theorem syncing_breaks
    (calls : s.calls = .syncing config client :: rest) : ∃ s', Reachable step free s s' ∧ ¬ StaysClosed s' := by
  have moved : step s (.sync 0 (some [])) =
      some { s with calls := .registering (connected config client []) :: rest } := by
    simp only [step,calls]
    rfl
  obtain ⟨s',later,breaks⟩ := registering_breaks
    (s := { s with calls := .registering (connected config client []) :: rest }) closed rfl
  exact ⟨s',(Reachable.start.next _ trivial moved).trans later,breaks⟩

theorem connecting_breaks
    (calls : s.calls = .connecting config :: rest) : ∃ s', Reachable step free s s' ∧ ¬ StaysClosed s' := by
  have moved : step s (.connect 0 true) =
      some { s with calls := .syncing config s.opened :: rest, opened := s.opened+1 } := by
    simp only [step,calls]
    rfl
  obtain ⟨s',later,breaks⟩ := syncing_breaks
    (s := { s with calls := .syncing config s.opened :: rest, opened := s.opened+1 }) closed rfl
  exact ⟨s',(Reachable.start.next _ trivial moved).trans later,breaks⟩

end

/-- A call that `Close` has overtaken can still register its upstream. -/
theorem overlap_breaks {a : Action} (overlaps : Overlaps s a) (moved : step s a = some s') :
    ∃ s'', Reachable step free s' s'' ∧ ¬ StaysClosed s'' := by
  cases a with
  | close =>
    simp only [step] at moved
    split at moved
    · cases moved
    · cases moved
      cases calls : s.calls with
      | nil => exact absurd calls overlaps
      | cons call rest =>
        cases call with
        | connecting config => exact connecting_breaks rfl rfl
        | syncing config client => exact syncing_breaks rfl rfl
        | registering u => exact registering_breaks rfl rfl
  | check config | connect i reached | sync i listed | register i => exact overlaps.elim
  | removeUpstream name toRemove | closeClient i => exact overlaps.elim

/-- In every run in which `Close` meets no `AddUpstream` call between its lock sections, a closed gateway stays
    closed; once it meets one, the run can go on to an upstream on the closed gateway. -/
theorem close_final_iff (config : Config) {s : System}
    (reached : Reachable step (fun s a => ¬ Overlaps s a) (new config) s) :
    StaysClosed s ∧ ∀ a s', Overlaps s a → step s a = some s' →
      ∃ s'', Reachable step free s' s'' ∧ ¬ StaysClosed s'' := by
  have orderly : Orderly s :=
    reached.invariant (orderly_new config) fun _ _ _ orderly alone moved => orderly_step orderly alone moved
  exact ⟨orderly.staysClosed,fun a s' overlaps moved => overlap_breaks overlaps moved⟩

/-! ### A call overtaken by `Close` -/

def plain : Config := ⟨none,id⟩

def github : UpstreamConfig := ⟨"github",[],⟨none,false,0,none⟩⟩

def inOrder : System := (exec step (fun s a => ¬ Overlaps s a) (new plain)
  [.check github,.connect 0 true,.sync 0 (some [⟨"search","",""⟩]),.register 0,.close]).getD (new plain)

def overtaken : System := (exec step free (new plain)
  [.check github,.connect 0 true,.close,.sync 0 (some [⟨"search","",""⟩]),.register 0]).getD (new plain)

def beforeClose : System := (exec step (fun s a => ¬ Overlaps s a) (new plain) [.check github]).getD (new plain)

theorem close_final_sample : StaysClosed inOrder ∧ inOrder.gateway.closed = true ∧
    ∀ s', step beforeClose .close = some s' → ∃ s'', Reachable step free s' s'' ∧ ¬ StaysClosed s'' := by
  have run : Reachable step (fun s a => ¬ Overlaps s a) (new plain) inOrder :=
    exec_reachable [.check github,.connect 0 true,.sync 0 (some [⟨"search","",""⟩]),.register 0,.close] .start rfl
  have checked : Reachable step (fun s a => ¬ Overlaps s a) (new plain) beforeClose :=
    exec_reachable [.check github] .start rfl
  have calls : beforeClose.calls = [.connecting github] := rfl
  have overlaps : Overlaps beforeClose .close := by
    change beforeClose.calls ≠ []
    exact cons_ne_nil _ _
  exact ⟨(close_final_iff plain run).1,rfl,fun s' moved => (close_final_iff plain checked).2 .close s' overlaps moved⟩

/-- The upstream and its tool are there, on a closed gateway, and the client is open. -/
theorem close_is_overlooked :
    Reachable step free (new plain) overtaken ∧ overtaken.gateway.closed = true ∧ overtaken.late = ["github"] ∧
    "github.search" ∈ overtaken.gateway.reg.tools ∧ overtaken.calls.length = 0 ∧ overtaken.closing = [] ∧
    0 < overtaken.opened ∧ 0 ∉ overtaken.shut ∧ ¬ StaysClosed overtaken := by
  have run : Reachable step free (new plain) overtaken :=
    exec_reachable [.check github,.connect 0 true,.close,.sync 0 (some [⟨"search","",""⟩]),.register 0] .start rfl
  refine ⟨run,rfl,rfl,by decide,rfl,rfl,by decide,by decide,fun stays => ?_⟩
  cases (stays rfl).inserted

end Mcpkit.GatewayClose
