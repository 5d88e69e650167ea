import Mathlib
import Mcpkit.FederationModel
import Mcpkit.RWLocks
import Mcpkit.Transitions

/-!
The locks of the federation and of its peers, as its goroutines take them. `RouteCall` takes the
read lock of the peer that it has found a second time, in `snapshot`, while it holds it.
-/
namespace Mcpkit.FederationLocks
open Transitions GoMaps FederationModel RWLocks List Finmap

/-- `Federation.mu`, and `peerState.mu` of each peer. -/
inductive Lock where
  | federation
  | peer (endpoint : String)
  deriving DecidableEq

/-- The methods that go through all peers under the federation's read lock. -/
inductive Job where
  | routeCall (toolName : String)
  | allTools
  | peers
  deriving DecidableEq

/-- What `getOrCreatePeer` is called for: a proxy handler or `discoverPeer`. -/
inductive Purpose where
  | proxy
  | discover
  deriving DecidableEq

/-- A goroutine in the loop over the peers, in `RouteCall`, `getOrCreatePeer`, the proxy handler or `discoverPeer`. -/
inductive Goroutine where
  | start (job : Job)
  | visit (job : Job) (rest : List String)
  | reading (job : Job) (endpoint : String) (rest : List String)
  | snapshot (endpoint : String)
  | found (endpoint : String)
  | leaving
  | create (purpose : Purpose) (endpoint : String)
  | createWait (purpose : Purpose) (endpoint : String)
  | creating (purpose : Purpose) (endpoint : String)
  | proxy (endpoint : String)
  | proxyReading (endpoint : String)
  | calling (endpoint : String)
  | discover (endpoint : String)
  | discoverWait (endpoint : String)
  | discovering (endpoint : String)
  | done
  deriving DecidableEq

def Goroutine.readLocks : Goroutine → List Lock
  | .visit _ _ => [.federation]
  | .reading _ endpoint _ => [.federation,.peer endpoint]
  | .snapshot endpoint => [.federation,.peer endpoint]
  | .found endpoint => [.federation,.peer endpoint]
  | .leaving => [.federation]
  | .proxyReading endpoint => [.peer endpoint]
  | _ => []

def Goroutine.writeLocks : Goroutine → List Lock
  | .creating _ _ => [.federation]
  | .discovering endpoint => [.peer endpoint]
  | _ => []

def Goroutine.waitLocks : Goroutine → List Lock
  | .createWait _ _ => [.federation]
  | .discoverWait endpoint => [.peer endpoint]
  | _ => []

def usage : Usage Goroutine Lock where
  reads g k := k ∈ g.readLocks
  writes g k := k ∈ g.writeLocks
  waits g k := k ∈ g.waitLocks

instance (procs : List Goroutine) : ∀ ask, Decidable (Enabled usage procs ask)
  | .finished => .isFalse id
  | .free => .isTrue trivial
  | .read k => inferInstanceAs (Decidable (∀ g ∈ procs, ¬ k ∈ g.writeLocks ∧ ¬ k ∈ g.waitLocks))
  | .announce k => inferInstanceAs (Decidable (∀ g ∈ procs, ¬ k ∈ g.writeLocks ∧ ¬ k ∈ g.waitLocks))
  | .write k => inferInstanceAs (Decidable (∀ g ∈ procs, ¬ k ∈ g.readLocks))

/-- The names of the tools that each known peer lists, and the goroutines. -/
structure System where
  peers : GoMap (List String)
  goroutines : List Goroutine

def new : System := ⟨∅,[]⟩

variable (cfg : FederationConfig) (peers : GoMap (List String))

def owns (endpoint : String) : Job → Bool
  | .routeCall toolName =>
    ((peers.lookup endpoint).getD []).any fun tool => cfg.federatedToolName endpoint tool = toolName
  | .allTools => false
  | .peers => false

def asks : Goroutine → Ask Lock
  | .start _ => .read .federation
  | .visit _ [] => .free
  | .visit _ (endpoint :: _) => .read (.peer endpoint)
  | .reading job endpoint _ => if owns cfg peers endpoint job then .read (.peer endpoint) else .free
  | .snapshot _ => .free
  | .found _ => .free
  | .leaving => .free
  | .create _ _ => .announce .federation
  | .createWait _ _ => .write .federation
  | .creating _ _ => .free
  | .proxy endpoint => .read (.peer endpoint)
  | .proxyReading _ => .free
  | .calling _ => .free
  | .discover endpoint => .announce (.peer endpoint)
  | .discoverWait endpoint => .write (.peer endpoint)
  | .discovering _ => .free
  | .done => .finished

/-- The goroutine after its next operation; `order` is the order of the peers in the loop. -/
def advance (order : List String) : Goroutine → Goroutine
  | .start job => .visit job order
  | .visit _ [] => .done
  | .visit job (endpoint :: rest) => .reading job endpoint rest
  | .reading job endpoint rest => if owns cfg peers endpoint job then .snapshot endpoint else .visit job rest
  | .snapshot endpoint => .found endpoint
  | .found _ => .leaving
  | .leaving => .done
  | .create purpose endpoint => .createWait purpose endpoint
  | .createWait purpose endpoint => .creating purpose endpoint
  | .creating .proxy endpoint => .proxy endpoint
  | .creating .discover endpoint => .discover endpoint
  | .proxy endpoint => .proxyReading endpoint
  | .proxyReading endpoint => .calling endpoint
  | .calling _ => .done
  | .discover endpoint => .discoverWait endpoint
  | .discoverWait endpoint => .discovering endpoint
  | .discovering _ => .done
  | .done => .done

/-- `getOrCreatePeer` adds a missing peer, and `discoverPeer` stores the listing, if it got one. -/
def write (listing : Option (List String)) : Goroutine → GoMap (List String)
  | .creating _ endpoint => if endpoint ∈ peers then peers else peers.insert endpoint []
  | .discovering endpoint => match listing with
    | some tools => peers.insert endpoint tools
    | none => peers
  | _ => peers

def Enumerates (order : List String) : Goroutine → Prop
  | .start _ => order.Nodup ∧ order.toFinset = peers.keys
  | _ => True

instance (peers : GoMap (List String)) (order : List String) : ∀ g, Decidable (Enumerates peers order g)
  | .start _ => inferInstanceAs (Decidable (_ ∧ _))
  | .visit _ _ => .isTrue trivial
  | .reading _ _ _ => .isTrue trivial
  | .snapshot _ => .isTrue trivial
  | .found _ => .isTrue trivial
  | .leaving => .isTrue trivial
  | .create _ _ => .isTrue trivial
  | .createWait _ _ => .isTrue trivial
  | .creating _ _ => .isTrue trivial
  | .proxy _ => .isTrue trivial
  | .proxyReading _ => .isTrue trivial
  | .calling _ => .isTrue trivial
  | .discover _ => .isTrue trivial
  | .discoverWait _ => .isTrue trivial
  | .discovering _ => .isTrue trivial
  | .done => .isTrue trivial

/-- A call of a method, of a proxy handler or of `discoverPeer`; and the next operation of the `i`-th goroutine. -/
inductive Action where
  | go (job : Job)
  | goFor (purpose : Purpose) (endpoint : String)
  | run (i : Nat) (order : List String) (listing : Option (List String))

variable (s : System)

def step : Action → Option System
  | .go job => some { s with goroutines := s.goroutines ++ [.start job] }
  | .goFor purpose endpoint => some { s with goroutines := s.goroutines ++ [.create purpose endpoint] }
  | .run i order listing =>
    match s.goroutines[i]? with
    | none => none
    | some g =>
      if Enabled usage s.goroutines (asks cfg s.peers g) ∧ Enumerates s.peers order g then
        some {
          peers := write s.peers listing g
          goroutines := s.goroutines.set i (advance cfg s.peers order g) }
      else none

def Running (_ : System) : Action → Prop
  | .go _ => False
  | .goFor _ _ => False
  | .run _ _ _ => True

def Live : Prop :=
  ∃ s', Reachable (step cfg) Running s s' ∧ ∀ g ∈ s'.goroutines, g = .done

/-- The peer whose write lock the goroutine is about to ask for. -/
def Goroutine.announces : Goroutine → Option String
  | .discover endpoint => some endpoint
  | _ => none

/-- The peer whose read lock the goroutine holds and will take again. -/
def Goroutine.rereads : Goroutine → Option String
  | .reading job endpoint _ => if owns cfg peers endpoint job then some endpoint else none
  | _ => none

/-- `discoverPeer` announces its write while a `RouteCall` is before its second read lock of the peer. -/
def Jams : Action → Prop
  | .go _ => False
  | .goFor _ _ => False
  | .run i _ _ => ∃ endpoint ∈ s.goroutines[i]?.bind Goroutine.announces,
      ∃ g ∈ s.goroutines, g.rereads cfg s.peers = some endpoint

instance (cfg : FederationConfig) (s : System) : ∀ a, Decidable (Jams cfg s a)
  | .go _ => .isFalse id
  | .goFor _ _ => .isFalse id
  | .run i _ _ => inferInstanceAs (Decidable (∃ endpoint ∈ s.goroutines[i]?.bind Goroutine.announces, _))

/-! ### What a step does -/

open Goroutine

section
variable {cfg} {s s' : System} {g : Goroutine} {endpoint : String} {peers}

theorem rereads_reading (rereads : g.rereads cfg peers = some endpoint) :
    ∃ job rest, g = .reading job endpoint rest ∧ owns cfg peers endpoint job = true := by
  cases g with
  | reading job e rest =>
    simp only [Goroutine.rereads] at rereads
    split at rereads
    · rename_i owned
      cases rereads
      exact ⟨job,rest,rfl,owned⟩
    · cases rereads
  | _ => cases rereads

variable {i : Nat} {order : List String} {listing : Option (List String)}

theorem run_cases (moved : step cfg s (.run i order listing) = some s') :
    ∃ g, s.goroutines[i]? = some g ∧ Enabled usage s.goroutines (asks cfg s.peers g) ∧ Enumerates s.peers order g ∧
      s' = ⟨write s.peers listing g,s.goroutines.set i (advance cfg s.peers order g)⟩ := by
  simp only [step] at moved
  split at moved
  · cases moved
  · rename_i g here
    split at moved
    · rename_i allowed
      cases moved
      exact ⟨g,here,allowed.1,allowed.2,rfl⟩
    · cases moved

theorem mem_set_cases {l : List Goroutine} {h : Goroutine} (member : h ∈ l.set i g) : h = g ∨ h ∈ l :=
  (mem_or_eq_of_mem_set member).symm

section
variable (enabled : Enabled usage s.goroutines (asks cfg s.peers g))
include enabled

theorem advance_reads {k : Lock}
    (reads : k ∈ (advance cfg s.peers order g).readLocks) : k ∈ g.readLocks ∨ Unclaimed usage s.goroutines k := by
  cases g with
  | start job => cases mem_singleton.mp reads; exact .inr enabled
  | visit job rest =>
    cases rest with
    | nil => cases reads
    | cons endpoint rest =>
      rcases mem_cons.mp reads with rfl | last
      · exact .inl (mem_singleton_self _)
      · cases mem_singleton.mp last; exact .inr enabled
  | reading job endpoint rest =>
    simp only [advance] at reads
    split at reads
    · exact .inl reads
    · exact .inl (mem_cons.mpr (.inl (mem_singleton.mp reads)))
  | snapshot endpoint => exact .inl reads
  | found endpoint => exact .inl (mem_cons.mpr (.inl (mem_singleton.mp reads)))
  | proxy endpoint => cases mem_singleton.mp reads; exact .inr enabled
  | creating purpose endpoint => cases purpose <;> cases reads
  | _ => cases reads

theorem advance_writes {k : Lock}
    (writes : k ∈ (advance cfg s.peers order g).writeLocks) : Unread usage s.goroutines k := by
  cases g with
  | createWait purpose endpoint | discoverWait endpoint => cases mem_singleton.mp writes; exact enabled
  | visit job rest => cases rest <;> cases writes
  | reading job endpoint rest =>
    simp only [advance] at writes
    split at writes <;> cases writes
  | creating purpose endpoint => cases purpose <;> cases writes
  | _ => cases writes

end

theorem advance_waits
    (waits : .peer endpoint ∈ (advance cfg s.peers order g).waitLocks) : g.announces = some endpoint := by
  cases g with
  | discover e => cases mem_singleton.mp waits; rfl
  | create purpose e => cases mem_singleton.mp waits
  | visit job rest => cases rest <;> cases waits
  | reading job e rest =>
    simp only [advance] at waits
    split at waits <;> cases waits
  | creating purpose e => cases purpose <;> cases waits
  | _ => cases waits

/-- A goroutine that is about to take a read lock again has just taken it, when no writer was there. -/
theorem advance_rereads (enabled : Enabled usage s.goroutines (asks cfg s.peers g))
    (rereads : (advance cfg s.peers order g).rereads cfg peers = some endpoint) :
    Unclaimed usage s.goroutines (.peer endpoint) ∧ (advance cfg s.peers order g).waitLocks = [] := by
  cases g with
  | visit job rest =>
    cases rest with
    | nil => cases rereads
    | cons e rest =>
      simp only [advance,Goroutine.rereads] at rereads
      split at rereads
      · cases rereads; exact ⟨enabled,rfl⟩
      · cases rereads
  | reading job e rest =>
    simp only [advance] at rereads
    split at rereads <;> cases rereads
  | creating purpose e => cases purpose <;> cases rereads
  | _ => cases rereads

/-! ### Readers and writers -/

/-- No goroutine holds a lock for writing while one holds it for reading. -/
def Exclusive (s : System) : Prop := ∀ g ∈ s.goroutines, ∀ h ∈ s.goroutines, ∀ k ∈ g.readLocks, k ∉ h.writeLocks

theorem readLocks_writeLocks {k : Lock} (reads : k ∈ g.readLocks) : g.writeLocks = [] := by
  cases g <;> first | rfl | cases reads

section
variable (exclusive : Exclusive s)
include exclusive

theorem Exclusive.run (moved : step cfg s (.run i order listing) = some s') : Exclusive s' := by
  obtain ⟨g,here,enabled,-,rfl⟩ := run_cases moved
  have member := mem_of_getElem? here
  intro x inside y inside' k reads writes
  rcases mem_set_cases inside with rfl | old
  · rcases mem_set_cases inside' with rfl | old'
    · rw [readLocks_writeLocks reads] at writes
      cases writes
    · rcases advance_reads enabled reads with before | unclaimed
      · exact exclusive g member y old' k before writes
      · exact (unclaimed y old').1 writes
  · rcases mem_set_cases inside' with rfl | old'
    · exact advance_writes enabled writes x old reads
    · exact exclusive x old y old' k reads writes

theorem Exclusive.spawn (reads : g.readLocks = []) (writes : g.writeLocks = []) :
    Exclusive { s with goroutines := s.goroutines ++ [g] } := by
  intro x inside y inside' k held claimed
  rcases mem_append.mp inside with old | new
  · rcases mem_append.mp inside' with old' | new'
    · exact exclusive x old y old' k held claimed
    · cases mem_singleton.mp new'
      rw [writes] at claimed
      cases claimed
  · cases mem_singleton.mp new
    rw [reads] at held
    cases held

theorem Exclusive.step {a : Action} (moved : FederationLocks.step cfg s a = some s') : Exclusive s' := by
  cases a with
  | go job | goFor purpose endpoint => cases moved; exact exclusive.spawn rfl rfl
  | run i order listing => exact exclusive.run moved

theorem rereads_write {h : Goroutine} (reader : h ∈ s.goroutines) (writer : g ∈ s.goroutines)
    (listing : Option (List String)) : h.rereads cfg (write s.peers listing g) = h.rereads cfg s.peers := by
  cases h with
  | reading job endpoint rest =>
    have same : ((write s.peers listing g).lookup endpoint).getD [] = (s.peers.lookup endpoint).getD [] := by
      cases g with
      | creating purpose e =>
        simp only [write]
        split
        · rfl
        · rename_i absent
          by_cases here : endpoint = e
          · subst here
            rw [lookup_insert,lookup_eq_none.mpr absent]
            rfl
          · rw [lookup_insert_of_ne _ here]
      | discovering e =>
        have different : endpoint ≠ e := by
          rintro rfl
          exact exclusive _ reader _ writer (.peer endpoint) (by simp [readLocks])
            (mem_singleton_self _)
        cases listing with
        | none => rfl
        | some tools => simp only [write]; rw [lookup_insert_of_ne _ different]
      | _ => rfl
    have owned : owns cfg (write s.peers listing g) endpoint job = owns cfg s.peers endpoint job := by
      cases job with
      | routeCall toolName => simp only [owns,same]
      | allTools | peers => rfl
    simp only [rereads]
    rw [owned]
  | _ => rfl

end

/-- No writer is announced for a lock that a goroutine is about to take again. -/
def Clear (cfg : FederationConfig) (s : System) : Prop :=
  ∀ g ∈ s.goroutines, ∀ endpoint, g.rereads cfg s.peers = some endpoint →
    ∀ h ∈ s.goroutines, .peer endpoint ∉ h.waitLocks

theorem Clear.run (clear : Clear cfg s) (exclusive : Exclusive s) (calm : ¬ Jams cfg s (.run i order listing))
    (moved : step cfg s (.run i order listing) = some s') : Clear cfg s' := by
  obtain ⟨g,here,enabled,-,rfl⟩ := run_cases moved
  have member := mem_of_getElem? here
  intro x inside endpoint rereads y inside' waits
  rcases mem_set_cases inside with rfl | old
  · obtain ⟨unclaimed,quiet⟩ := advance_rereads enabled rereads
    rcases mem_set_cases inside' with rfl | old'
    · rw [quiet] at waits
      cases waits
    · exact (unclaimed y old').2 waits
  · rw [rereads_write exclusive old member] at rereads
    rcases mem_set_cases inside' with rfl | old'
    · refine calm ⟨endpoint,?_,x,old,rereads⟩
      rw [here]
      exact advance_waits waits
    · exact clear x old endpoint rereads y old' waits

theorem Clear.spawn (clear : Clear cfg s) (rereads : g.rereads cfg s.peers = none)
    (waits : g.waitLocks = []) : Clear cfg { s with goroutines := s.goroutines ++ [g] } := by
  intro x inside endpoint again y inside' waiting
  rcases mem_append.mp inside with old | new
  · rcases mem_append.mp inside' with old' | new'
    · exact clear x old endpoint again y old' waiting
    · cases mem_singleton.mp new'
      rw [waits] at waiting
      cases waiting
  · cases mem_singleton.mp new
    cases rereads.symm.trans again

theorem Clear.step {a : Action} (clear : Clear cfg s) (exclusive : Exclusive s) (calm : ¬ Jams cfg s a)
    (moved : FederationLocks.step cfg s a = some s') : Clear cfg s' := by
  cases a with
  | go job | goFor purpose endpoint => cases moved; exact clear.spawn rfl rfl
  | run i order listing => exact clear.run exclusive calm moved

/-! ### Progress -/

def rank : Lock → Nat
  | .federation => 0
  | .peer _ => 1

theorem asks_finished (finished : asks cfg peers g = .finished) : g = .done := by
  cases g with
  | visit job rest => cases rest <;> cases finished
  | reading job endpoint rest =>
    simp only [asks] at finished
    split at finished <;> cases finished
  | done => rfl
  | _ => cases finished

theorem reread_enabled (exclusive : Exclusive s) (member : g ∈ s.goroutines)
    (rereads : g.rereads cfg s.peers = some endpoint) (clear : ∀ h ∈ s.goroutines, .peer endpoint ∉ h.waitLocks) :
    Enabled usage s.goroutines (asks cfg s.peers g) := by
  obtain ⟨job,rest,rfl,owned⟩ := rereads_reading rereads
  simp only [asks,owned,↓reduceIte]
  intro h inside
  exact ⟨exclusive _ member h inside (.peer endpoint) (by simp [readLocks]),clear h inside⟩

theorem ordered (exclusive : Exclusive s) (clear : Clear cfg s) (member : g ∈ s.goroutines) :
    Ordered usage rank (asks cfg s.peers) s.goroutines g := by
  refine ⟨fun finished k => ?_,fun k waits => ?_,fun k held asked holds => ?_⟩
  · cases asks_finished finished
    exact ⟨not_mem_nil,not_mem_nil,not_mem_nil⟩
  · cases g with
    | createWait purpose endpoint | discoverWait endpoint => cases mem_singleton.mp waits; rfl
    | _ => cases waits
  · cases g with
    | visit job rest =>
      cases rest with
      | nil => cases asked
      | cons endpoint rest =>
        cases asked
        rcases holds with reads | writes
        · cases mem_singleton.mp reads; exact .inl Nat.zero_lt_one
        · cases writes
    | reading job endpoint rest =>
      cases owned : owns cfg s.peers endpoint job with
      | true =>
        have rereads : (reading job endpoint rest).rereads cfg s.peers = some endpoint := by
          simp [rereads,owned]
        exact .inr (reread_enabled exclusive member rereads (clear _ member endpoint rereads))
      | false => simp [asks,owned,Ask.lock] at asked
    -- the others hold no lock or ask for none
    | start job | create purpose endpoint | createWait purpose endpoint | proxy endpoint | discover endpoint
    | discoverWait endpoint => rcases holds with reads | writes <;> [cases reads; cases writes]
    | _ => cases asked

/-- Some goroutine can go on, and not by an announcement that jams. -/
theorem calm_progress (exclusive : Exclusive s) (clear : Clear cfg s) (member : g ∈ s.goroutines)
    (unfinished : g ≠ .done) :
    ∃ i order s', ¬ Jams cfg s (.run i order none) ∧ step cfg s (.run i order none) = some s' := by
  have runs : ∀ h ∈ s.goroutines, Enabled usage s.goroutines (asks cfg s.peers h) →
      (∀ endpoint, h.announces = some endpoint → ∀ x ∈ s.goroutines, x.rereads cfg s.peers ≠ some endpoint) →
      ∃ i order s', ¬ Jams cfg s (.run i order none) ∧ step cfg s (.run i order none) = some s' := by
    intro h inside enabled calm
    obtain ⟨i,here⟩ := mem_iff_getElem?.mp inside
    refine ⟨i,s.peers.keys.toList,
      ⟨write s.peers none h,s.goroutines.set i (advance cfg s.peers s.peers.keys.toList h)⟩,?_,?_⟩
    · rintro ⟨endpoint,announced,x,inside',rereads⟩
      rw [here] at announced
      exact calm endpoint announced x inside' rereads
    · have enumerates : Enumerates s.peers s.peers.keys.toList h := by
        cases h with
        | start job => exact ⟨Finset.nodup_toList _,Finset.toList_toFinset _⟩
        | _ => trivial
      simp only [step,here]
      exact if_pos ⟨enabled,enumerates⟩
  obtain ⟨h,inside,enabled⟩ := progress (fun g inside => ordered exclusive clear inside) member
    (fun finished => unfinished (asks_finished finished))
  by_cases calm : ∀ endpoint, h.announces = some endpoint → ∀ x ∈ s.goroutines, x.rereads cfg s.peers ≠ some endpoint
  · exact runs h inside enabled calm
  · simp only [not_forall,not_not] at calm
    obtain ⟨endpoint,_,x,inside',rereads⟩ := calm
    refine runs x inside' (reread_enabled exclusive inside' rereads (clear x inside' endpoint rereads)) ?_
    intro e announced
    obtain ⟨job,rest,rfl,-⟩ := rereads_reading rereads
    cases announced

/-! ### Goroutines come to their end -/

def Goroutine.additions : Goroutine → Nat
  | .create .discover _ => 2
  | .createWait .discover _ => 2
  | .creating .discover _ => 2
  | .create .proxy _ => 1
  | .createWait .proxy _ => 1
  | .creating .proxy _ => 1
  | .discover _ => 1
  | .discoverWait _ => 1
  | .discovering _ => 1
  | _ => 0

/-- A bound on the peers that there will ever be, unless goroutines are added. -/
def System.bound (s : System) : Nat := s.peers.keys.card+(s.goroutines.map Goroutine.additions).sum

def Goroutine.left (n : Nat) : Goroutine → Nat
  | .start _ => 4*n+3
  | .visit _ rest => 4*rest.length+2
  | .reading _ _ rest => 4*rest.length+5
  | .snapshot _ => 4
  | .found _ => 3
  | .leaving => 2
  | .create _ _ => 7
  | .createWait _ _ => 6
  | .creating _ _ => 5
  | .proxy _ => 3
  | .proxyReading _ => 2
  | .calling _ => 1
  | .discover _ => 3
  | .discoverWait _ => 2
  | .discovering _ => 1
  | .done => 0

def System.left (s : System) : Nat := (s.goroutines.map (Goroutine.left s.bound)).sum

theorem left_mono {m n : Nat} (le : m ≤ n) (g : Goroutine) : g.left m ≤ g.left n := by
  cases g with
  | start job => simp only [left]; omega
  | _ => exact le_rfl

theorem sum_set {w : Goroutine → Nat} {l : List Goroutine} (here : l[i]? = some g)
    (g' : Goroutine) : ((l.set i g').map w).sum+w g = (l.map w).sum+w g' := by
  induction l generalizing i with
  | nil => cases here
  | cons first rest ih =>
    cases i with
    | zero =>
      cases here
      simp only [set_cons_zero,map_cons,sum_cons]
      omega
    | succ i =>
      have later := ih (i := i) here
      simp only [set_cons_succ,map_cons,sum_cons]
      omega

theorem card_insert_le (peers : GoMap (List String)) (endpoint : String) (tools : List String) :
    (peers.insert endpoint tools).keys.card ≤ peers.keys.card+1 := by
  have keys : (peers.insert endpoint tools).keys ⊆ insert endpoint peers.keys := by
    intro name member
    rcases mem_insert.mp (mem_keys.mp member) with same | old
    · exact Finset.mem_insert.mpr (.inl same)
    · exact Finset.mem_insert.mpr (.inr (mem_keys.mpr old))
  exact (Finset.card_le_card keys).trans (Finset.card_insert_le _ _)

theorem advance_additions (cfg : FederationConfig) (peers : GoMap (List String)) (order : List String)
    (listing : Option (List String)) (g : Goroutine) :
    (write peers listing g).keys.card+(advance cfg peers order g).additions ≤ peers.keys.card+g.additions := by
  cases g with
  | creating purpose endpoint =>
    have grows := card_insert_le peers endpoint []
    simp only [write]
    split <;> cases purpose <;> simp only [advance,additions] <;> omega
  | discovering endpoint =>
    cases listing with
    | none => simp [write,advance,additions]
    | some tools => simpa [write,advance,additions] using card_insert_le peers endpoint tools
  | create purpose endpoint | createWait purpose endpoint => cases purpose <;> exact le_rfl
  | visit job rest => cases rest <;> exact le_rfl
  | reading job endpoint rest =>
    simp only [write,advance]
    split <;> exact le_rfl
  | _ => exact le_rfl

theorem advance_left {n : Nat} (enabled : Enabled usage s.goroutines (asks cfg peers g))
    (enumerates : Enumerates peers order g) (few : peers.keys.card ≤ n) :
    (advance cfg peers order g).left n < g.left n := by
  cases g with
  | start job =>
    obtain ⟨nodup,keys⟩ := enumerates
    have length : order.length = peers.keys.card := by rw [← keys,toFinset_card_of_nodup nodup]
    simp only [advance,left]
    omega
  | visit job rest =>
    cases rest with
    | nil => simp [advance,left]
    | cons endpoint rest => simp only [advance,left,length_cons]; omega
  | reading job endpoint rest =>
    simp only [advance]
    split <;> simp only [left] <;> omega
  | creating purpose endpoint => cases purpose <;> simp [advance,left]
  | done => exact absurd enabled id
  | _ => simp [advance,left]

theorem run_left (moved : step cfg s (.run i order listing) = some s') : s'.left < s.left := by
  obtain ⟨g,here,enabled,enumerates,rfl⟩ := run_cases moved
  have additions := sum_set (w := additions) here (advance cfg s.peers order g)
  have paid := advance_additions cfg s.peers order listing g
  have bound : (System.mk (write s.peers listing g) (s.goroutines.set i (advance cfg s.peers order g))).bound ≤
      s.bound := by
    simp only [System.bound]
    omega
  have fewer := sum_set (w := left s.bound) here (advance cfg s.peers order g)
  have less : (advance cfg s.peers order g).left s.bound < g.left s.bound :=
    advance_left enabled enumerates (Nat.le_add_right _ _)
  calc System.left _ ≤ ((s.goroutines.set i (advance cfg s.peers order g)).map (left s.bound)).sum :=
        sum_le_sum fun h _ => left_mono bound h
    _ < s.left := by simp only [System.left]; omega

theorem live_of_clear (n : Nat) : ∀ {s : System}, s.left = n → Exclusive s → Clear cfg s → Live cfg s := by
  induction n using Nat.strong_induction_on with
  | _ n ih =>
    intro s few exclusive clear
    by_cases ended : ∀ g ∈ s.goroutines, g = .done
    · exact ⟨s,.start,ended⟩
    · simp only [not_forall] at ended
      obtain ⟨g,member,unfinished⟩ := ended
      obtain ⟨i,order,s₁,calm,moved⟩ := calm_progress exclusive clear member unfinished
      have less := run_left moved
      obtain ⟨s',later,finished⟩ := ih s₁.left (few ▸ less) rfl (exclusive.step moved) (clear.step exclusive calm moved)
      exact ⟨s',(Reachable.start.next _ trivial moved).trans later,finished⟩

/-! ### A jam is for good -/

/-- A reader is about to take a lock again for which a writer waits. -/
structure Jammed (cfg : FederationConfig) (s : System) (i j : Nat) (endpoint : String) : Prop where
  exclusive : Exclusive s
  writer : s.goroutines[i]? = some (.discoverWait endpoint)
  reader : ∃ g, s.goroutines[j]? = some g ∧ g.rereads cfg s.peers = some endpoint

theorem Jammed.run {j k : Nat} (jammed : Jammed cfg s i j endpoint)
    (moved : step cfg s (.run k order listing) = some s') : Jammed cfg s' i j endpoint := by
  have exclusive := jammed.exclusive.step moved
  obtain ⟨g,here,enabled,-,rfl⟩ := run_cases moved
  obtain ⟨reader,there,rereads⟩ := jammed.reader
  have member := mem_of_getElem? there
  obtain ⟨job,rest,rfl,owned⟩ := rereads_reading rereads
  have notWriter : k ≠ i := by
    rintro rfl
    cases here.symm.trans jammed.writer
    exact enabled _ member (mem_cons_of_mem _ (mem_singleton_self _))
  have notReader : k ≠ j := by
    rintro rfl
    cases here.symm.trans there
    simp only [asks,owned,↓reduceIte] at enabled
    exact (enabled _ (mem_of_getElem? jammed.writer)).2 (mem_singleton_self _)
  refine ⟨exclusive,?_,.reading job endpoint rest,?_,?_⟩
  · rw [getElem?_set_ne notWriter,jammed.writer]
  · rw [getElem?_set_ne notReader,there]
  · rw [rereads_write jammed.exclusive member (mem_of_getElem? here),rereads]

theorem Jammed.not_live {j : Nat} (jammed : Jammed cfg s i j endpoint) : ¬ Live cfg s := by
  rintro ⟨s',reached,finished⟩
  have still : Jammed cfg s' i j endpoint := by
    refine reached.invariant (I := fun s => Jammed cfg s i j endpoint) jammed fun s a s' jammed running moved => ?_
    cases a with
    | go job | goFor purpose e => exact running.elim
    | run k order listing => exact jammed.run moved
  cases finished _ (mem_of_getElem? still.writer)

theorem jams_jammed {a : Action} (exclusive : Exclusive s) (jams : Jams cfg s a) (moved : step cfg s a = some s') :
    ∃ i j endpoint, Jammed cfg s' i j endpoint := by
  cases a with
  | go job | goFor purpose endpoint => exact jams.elim
  | run i order listing =>
    obtain ⟨endpoint,announced,x,inside,rereads⟩ := jams
    have after := exclusive.step moved
    obtain ⟨g,here,enabled,-,rfl⟩ := run_cases moved
    rw [here] at announced
    obtain ⟨j,there⟩ := mem_iff_getElem?.mp inside
    have discover : g = .discover endpoint := by
      cases g with
      | discover e => cases announced; rfl
      | _ => cases announced
    subst discover
    have apart : i ≠ j := by
      rintro rfl
      cases here.symm.trans there
      cases rereads
    refine ⟨i,j,endpoint,after,?_,x,?_,?_⟩
    · exact getElem?_set_some here
    · rw [getElem?_set_ne apart,there]
    · exact rereads

/-- In every run in which no `discoverPeer` announces its write between the two read locks of a `RouteCall` at the
    peer, the goroutines can always come to their end; after such an announcement they cannot. -/
theorem locks_live_iff (cfg : FederationConfig) {s : System}
    (reached : Reachable (step cfg) (fun s a => ¬ Jams cfg s a) new s) :
    Live cfg s ∧ ∀ a s', Jams cfg s a → step cfg s a = some s' → ¬ Live cfg s' := by
  have both : Exclusive s ∧ Clear cfg s := by
    refine reached.invariant (I := fun s => Exclusive s ∧ Clear cfg s) ⟨?_,?_⟩ fun s a s' held calm moved => ?_
    · intro g member; cases member
    · intro g member; cases member
    · exact ⟨held.1.step moved,held.2.step held.1 calm moved⟩
  refine ⟨live_of_clear _ rfl both.1 both.2,fun a s' jams moved => ?_⟩
  obtain ⟨i,j,endpoint,jammed⟩ := jams_jammed both.1 jams moved
  exact jammed.not_live

end

/-! ### A call and a poll -/

def solo : FederationConfig := ⟨["p"],false⟩

def polled : List Action :=
  [.goFor .discover "p",.run 0 [] none,.run 0 [] none,.run 0 [] none,.run 0 [] none,.run 0 [] none,
    .run 0 [] (some ["search"])]

/-- A call holds the read lock of the peer, and a second poll is about to ask for the write lock. -/
def crossing : List Action :=
  polled ++ [.go (.routeCall "search"),.goFor .discover "p",.run 2 [] none,.run 2 [] none,.run 2 [] none,
    .run 1 ["p"] none,.run 1 [] none]

def before : System := (exec (step solo) (fun s a => ¬ Jams solo s a) new crossing).getD new

def jammed : System := (exec (step solo) free new (crossing ++ [.run 2 [] none])).getD new

theorem locks_live_sample : Live solo before ∧ ∀ s', step solo before (.run 2 [] none) = some s' → ¬ Live solo s' := by
  have run : Reachable (step solo) (fun s a => ¬ Jams solo s a) new before :=
    exec_reachable crossing .start (by rfl)
  have both := locks_live_iff solo run
  exact ⟨both.1,fun s' moved => both.2 (.run 2 [] none) s' (by decide) moved⟩

/-- `RouteCall` and `discoverPeer` wait for each other. -/
theorem call_and_poll_deadlock : Reachable (step solo) free new jammed ∧
    jammed.goroutines = [.done,.reading (.routeCall "search") "p" [],.discoverWait "p"] ∧
    (∀ i order listing, step solo jammed (.run i order listing) = none) ∧ ¬ Live solo jammed := by
  have goroutines : jammed.goroutines = [.done,.reading (.routeCall "search") "p" [],.discoverWait "p"] := by
    decide
  have stuck : ∀ i order listing, step solo jammed (.run i order listing) = none := by
    intro i order listing
    have blocked : ∀ g ∈ jammed.goroutines, ¬ Enabled usage jammed.goroutines (asks solo jammed.peers g) := by
      decide
    cases here : jammed.goroutines[i]? with
    | none => simp only [step,here]
    | some g =>
      simp only [step,here]
      exact if_neg fun allowed => blocked g (mem_of_getElem? here) allowed.1
  have waiting : Jammed solo jammed 2 1 "p" :=
    ⟨by unfold Exclusive; decide,by decide,.reading (.routeCall "search") "p" [],by decide,
      by decide⟩
  exact ⟨exec_reachable (crossing ++ [.run 2 [] none]) .start (by rfl),goroutines,stuck,waiting.not_live⟩

end Mcpkit.FederationLocks
