import Mathlib.Data.List.Duplicate
import Mathlib.Data.Nat.Digits.Defs
import Mcpkit.Delimited
import Mcpkit.GoMaps
import Mcpkit.GoSort

/-!
Routing of sessions by consistent hashing. A session goes to the node that is nearest ahead of it
on the ring, so an upstream that comes or goes moves its own sessions only
(`consistentHash_stable`).
-/
namespace Mcpkit.AffinityRouter
open GoMaps GoSort List

/-! ### The ring -/

structure Node where
  hash : UInt32
  upstream : String
  deriving DecidableEq

/-- The number of a replica; from ten on its digits are backwards. -/
def replicaText (i : Nat) : List Char :=
  if i < 10 then [Char.ofNat (i+48)] else (Nat.digits 10 i).map fun d => Char.ofNat (48+d)

def virtualKey (u : String) (i : Nat) : String := u ++ ":" ++ String.ofList (replicaText i)

def effectiveReplicas (replicas : Int) : Nat := if replicas ≤ 0 then 100 else replicas.toNat

abbrev HashSorter := Sorter fun a b : Node => a.hash < b.hash

section
variable (crc : String → UInt32) (upstreams : List String)

def ring (replicas : Nat) : List Node :=
  upstreams.flatMap fun u => (List.range replicas).map fun i => ⟨crc (virtualKey u i),u⟩

/-- `sort.Search` for the first node that is not before `h`, and around the end. -/
def search (h : UInt32) (ring : List Node) : Option Node :=
  let idx := ring.findIdx fun n => h ≤ n.hash
  ring[if idx = ring.length then 0 else idx]?

def consistentHash (sorter : HashSorter) (sessionID : String) (upstreams : List String) (replicas : Int) : String :=
  match upstreams with
  | [] => ""
  | [u] => u
  | _ =>
    ((search (crc sessionID) (sorter.sort (ring crc upstreams (effectiveReplicas replicas)))).map Node.upstream).getD ""

def Injective (replicas : Int) : Prop :=
  ∀ u ∈ upstreams, ∀ v ∈ upstreams, ∀ i < effectiveReplicas replicas, ∀ j < effectiveReplicas replicas,
    crc (virtualKey u i) = crc (virtualKey v j) → virtualKey u i = virtualKey v j

instance (upstreams : List String) (replicas : Int) : Decidable (Injective crc upstreams replicas) :=
  inferInstanceAs (Decidable (∀ u ∈ upstreams, ∀ v ∈ upstreams, ∀ i < effectiveReplicas replicas,
    ∀ j < effectiveReplicas replicas, crc (virtualKey u i) = crc (virtualKey v j) → virtualKey u i = virtualKey v j))

def ahead (h x : UInt32) : Nat := if h ≤ x then x.toNat-h.toNat else x.toNat+2^32-h.toNat

/-- The upstream has a node that is no farther ahead than any node of another upstream. -/
def Owner (h : UInt32) (upstreams : List String) (replicas : Int) (u : String) : Prop :=
  u ∈ upstreams ∧ ∃ i < effectiveReplicas replicas, ∀ v ∈ upstreams, v ≠ u → ∀ j < effectiveReplicas replicas,
    ahead h (crc (virtualKey u i)) ≤ ahead h (crc (virtualKey v j))

end

theorem ahead_injective {h x y : UInt32} (same : ahead h x = ahead h y) : x = y := by
  have less := h.toNat_lt
  have less' := x.toNat_lt
  have less'' := y.toNat_lt
  unfold ahead at same
  simp only [UInt32.le_iff_toNat_le] at same
  rw [← UInt32.toNat_inj]
  split_ifs at same <;> omega

theorem search_nearest (h : UInt32) {ring : List Node} (sorted : ring.Pairwise fun a b => ¬ b.hash < a.hash)
    (some_ : ring ≠ []) : ∃ n ∈ ring, search h ring = some n ∧ ∀ m ∈ ring, ahead h n.hash ≤ ahead h m.hash := by
  rw [pairwise_iff_getElem] at sorted
  have positive := length_pos_iff.mpr some_
  unfold search ahead
  simp only [UInt32.le_iff_toNat_le,UInt32.lt_iff_toNat_lt] at sorted ⊢
  by_cases around : ring.findIdx (fun n => h.toNat ≤ n.hash.toNat) = ring.length
  · have before := findIdx_eq_length.mp around
    refine ⟨ring[0],getElem_mem positive,by simp [around],fun m inside => ?_⟩
    obtain ⟨j,bound,rfl⟩ := getElem_of_mem inside
    have first := of_decide_eq_false (before _ (getElem_mem positive))
    have later := of_decide_eq_false (before _ (getElem_mem bound))
    rw [if_neg first,if_neg later]
    rcases Nat.eq_zero_or_pos j with rfl | after
    · exact Nat.le_refl _
    · have order := sorted 0 j positive bound after
      omega
  · have bound := lt_of_le_of_ne findIdx_le_length around
    have reached := of_decide_eq_true (findIdx_getElem (w := bound))
    refine ⟨_,getElem_mem bound,by simp [around],fun m inside => ?_⟩
    obtain ⟨j,bound',rfl⟩ := getElem_of_mem inside
    rw [if_pos reached]
    have wide := (ring[ring.findIdx fun n => h.toNat ≤ n.hash.toNat]).hash.toNat_lt
    rcases Nat.lt_trichotomy j (ring.findIdx fun n => h.toNat ≤ n.hash.toNat) with earlier | rfl | later
    · have missed := of_decide_eq_false (not_of_lt_findIdx earlier)
      rw [if_neg missed]
      omega
    · rw [if_pos reached]
    · have order := sorted _ j bound bound' later
      split_ifs <;> omega

theorem mem_ring {crc : String → UInt32} {upstreams : List String} {replicas : Nat} {n : Node} :
    n ∈ ring crc upstreams replicas ↔ ∃ u ∈ upstreams, ∃ i < replicas, n = ⟨crc (virtualKey u i),u⟩ := by
  simp [ring,eq_comm]

theorem effectiveReplicas_pos (replicas : Int) : 0 < effectiveReplicas replicas := by
  unfold effectiveReplicas
  split <;> omega

section
variable {crc : String → UInt32} {upstreams : List String} {replicas : Int} {sessionID : String}

theorem consistentHash_owner (sorter : HashSorter) (some_ : upstreams ≠ []) :
    Owner crc (crc sessionID) upstreams replicas (consistentHash crc sorter sessionID upstreams replicas) := by
  unfold consistentHash
  split
  · exact absurd rfl some_
  · rename_i u
    refine ⟨mem_singleton_self u,0,effectiveReplicas_pos replicas,fun v inside other => ?_⟩
    exact absurd (mem_singleton.mp inside) other
  · obtain ⟨u,inside⟩ := exists_mem_of_ne_nil _ some_
    have filled : sorter.sort (ring crc upstreams (effectiveReplicas replicas)) ≠ [] := ne_nil_of_mem
      (sorter.mem_sort.mpr (mem_ring.mpr ⟨u,inside,0,effectiveReplicas_pos replicas,rfl⟩))
    obtain ⟨n,node,found,nearest⟩ := search_nearest (crc sessionID) (sorter.sorted _) filled
    obtain ⟨u,inside,i,bound,rfl⟩ := mem_ring.mp (sorter.mem_sort.mp node)
    rw [found]
    refine ⟨inside,i,bound,fun v inside' _ j bound' => ?_⟩
    exact nearest _ (sorter.mem_sort.mpr (mem_ring.mpr ⟨v,inside',j,bound',rfl⟩))

theorem colon_notMem_replicaText (i : Nat) : ':' ∉ replicaText i := by
  have digit : ∀ d < 10, Char.ofNat (48+d) ≠ ':' := by decide
  unfold replicaText
  split
  · rename_i small
    rw [mem_singleton,Nat.add_comm]
    exact (digit i small).symm
  · intro inside
    obtain ⟨d,member,same⟩ := mem_map.mp inside
    exact digit d (Nat.digits_lt_base (by decide) member) same

theorem virtualKey_upstream {u v : String} {i j : Nat} (same : virtualKey u i = virtualKey v j) : u = v := by
  have cut : u.toList ++ ':' :: replicaText i = v.toList ++ ':' :: replicaText j := by
    simpa [virtualKey] using congrArg String.toList same
  exact String.toList_inj.mp
    (Delimited.cut_last (colon_notMem_replicaText i) (colon_notMem_replicaText j) cut).1

theorem Owner.unique {h : UInt32} {u v : String} (injective : Injective crc upstreams replicas)
    (owner : Owner crc h upstreams replicas u) (owner' : Owner crc h upstreams replicas v) : u = v := by
  obtain ⟨inside,i,bound,nearest⟩ := owner
  obtain ⟨inside',j,bound',nearest'⟩ := owner'
  by_contra different
  have equal := Nat.le_antisymm (nearest v inside' (Ne.symm different) j bound') (nearest' u inside different i bound)
  exact different (virtualKey_upstream (injective u inside v inside' i bound j bound' (ahead_injective equal)))

variable {fewer : List String}

theorem Owner.mono {h : UInt32} {u : String} (owner : Owner crc h upstreams replicas u)
    (subset : fewer ⊆ upstreams) (inside : u ∈ fewer) : Owner crc h fewer replicas u := by
  obtain ⟨-,i,bound,nearest⟩ := owner
  exact ⟨inside,i,bound,fun v member => nearest v (subset member)⟩

theorem Injective.mono (injective : Injective crc upstreams replicas) (subset : fewer ⊆ upstreams) :
    Injective crc fewer replicas :=
  fun u inside v inside' => injective u (subset inside) v (subset inside')

/-- Fewer upstreams that still have the one of the session leave it where it is. -/
theorem consistentHash_subset (sorter : HashSorter) (injective : Injective crc upstreams replicas)
    (subset : fewer ⊆ upstreams) (inside : consistentHash crc sorter sessionID upstreams replicas ∈ fewer) :
    consistentHash crc sorter sessionID fewer replicas = consistentHash crc sorter sessionID upstreams replicas := by
  have owner : Owner crc (crc sessionID) upstreams replicas (consistentHash crc sorter sessionID upstreams replicas) :=
    consistentHash_owner sorter (ne_nil_of_mem (subset inside))
  exact (consistentHash_owner sorter (ne_nil_of_mem inside)).unique (injective.mono subset) (owner.mono subset inside)

end

/-- The upstream of a session does not depend on the order of the list. One more upstream gets the
    session or leaves it where it was, and the removal of one moves its own sessions only. -/
theorem consistentHash_stable (crc : String → UInt32) (sorter : HashSorter) (sessionID : String) (replicas : Int)
    (upstreams : List String) :
    (Injective crc upstreams replicas → ∀ order, order.Perm upstreams →
      consistentHash crc sorter sessionID order replicas = consistentHash crc sorter sessionID upstreams replicas) ∧
    (∀ v, Injective crc (v :: upstreams) replicas → ∀ added, added.Perm (v :: upstreams) →
      consistentHash crc sorter sessionID added replicas = v ∨
      consistentHash crc sorter sessionID added replicas = consistentHash crc sorter sessionID upstreams replicas) ∧
    ∀ v, Injective crc upstreams replicas → consistentHash crc sorter sessionID upstreams replicas ≠ v →
      consistentHash crc sorter sessionID (upstreams.erase v) replicas =
        consistentHash crc sorter sessionID upstreams replicas := by
  have inside {all : List String} (some_ : all ≠ []) : consistentHash crc sorter sessionID all replicas ∈ all :=
    (consistentHash_owner sorter some_).1
  refine ⟨fun injective order perm => ?_,fun v injective added perm => ?_,fun v injective other => ?_⟩
  · by_cases empty : upstreams = []
    · rw [empty] at perm ⊢
      rw [perm.eq_nil]
    · exact consistentHash_subset sorter injective perm.subset (perm.mem_iff.mpr (inside empty))
  · have member := perm.mem_iff.mp (@inside added (by rintro rfl; cases perm.symm.eq_nil))
    rcases mem_cons.mp member with own | old
    · exact .inl own
    · refine .inr (consistentHash_subset sorter ?_ (fun u here => ?_) old).symm
      · exact injective.mono perm.subset
      · exact perm.mem_iff.mpr (mem_cons_of_mem v here)
  · by_cases empty : upstreams = []
    · rw [empty]
      rfl
    · exact consistentHash_subset sorter injective (erase_subset)
        ((mem_erase_of_ne other).mpr (inside empty))

def hashSorter : HashSorter := insertionSorter (fun n => n.hash.toNat) UInt32.lt_iff_toNat_lt

def lengths (text : String) : UInt32 := UInt32.ofNat text.length

theorem consistentHash_stable_sample :
    consistentHash lengths hashSorter "s" ["bb","a"] 1 = consistentHash lengths hashSorter "s" ["a","bb"] 1 :=
  (consistentHash_stable lengths hashSorter "s" 1 ["a","bb"]).1 (by decide) ["bb","a"] (by decide)

/-! ### The router -/

structure AffinityRouter where
  upstreams : List String
  replicas : Int
  sticky : GoMap String

structure AffinityConfig where
  upstreams : List String
  replicas : Int

def newAffinityRouter (config : AffinityConfig) : AffinityRouter :=
  ⟨config.upstreams,if config.replicas ≤ 0 then 100 else config.replicas,∅⟩

inductive Action where
  | setUpstreams (upstreams : List String)
  | addUpstream (name : String)
  | removeUpstream (name : String)
  | setSticky (sessionID upstream : String)
  | removeSticky (sessionID : String)

def AffinityRouter.step (ar : AffinityRouter) : Action → AffinityRouter
  | .setUpstreams upstreams => { ar with upstreams := upstreams, sticky := keep ar.sticky (fun _ u => u ∈ upstreams) }
  | .addUpstream name => if name ∈ ar.upstreams then ar else { ar with upstreams := ar.upstreams ++ [name] }
  | .removeUpstream name =>
    { ar with upstreams := ar.upstreams.erase name, sticky := keep ar.sticky (fun _ u => u ≠ name) }
  | .setSticky sessionID upstream => { ar with sticky := ar.sticky.insert sessionID upstream }
  | .removeSticky sessionID => { ar with sticky := ar.sticky.erase sessionID }

section
variable (crc : String → UInt32) (sorter : HashSorter)

def AffinityRouter.route (ar : AffinityRouter) (sessionID : String) : String :=
  match ar.sticky.lookup sessionID with
  | some upstream =>
    if upstream ∈ ar.upstreams then upstream else consistentHash crc sorter sessionID ar.upstreams ar.replicas
  | none => consistentHash crc sorter sessionID ar.upstreams ar.replicas

def present (upstreams : List String) : Action → List String
  | .setUpstreams upstreams' => upstreams'
  | .addUpstream name => name :: upstreams
  | .removeUpstream name => upstreams.filter (· ≠ name)
  | _ => upstreams

/-- A session goes to an upstream that is there, or nowhere if there is none, and to its own if it has one. -/
structure Routes (ar : AffinityRouter) (upstreams : List String) (sessionID : String) : Prop where
  live : upstreams ≠ [] → ar.route crc sorter sessionID ∈ upstreams
  none : upstreams = [] → ar.route crc sorter sessionID = ""
  sticky : ∀ u ∈ upstreams, ar.sticky.lookup sessionID = some u → ar.route crc sorter sessionID = u

def AllRoute (kind : List String → Prop) : Prop :=
  ∀ config : AffinityConfig, kind config.upstreams → ∀ actions : List Action,
    (∀ list, .setUpstreams list ∈ actions → kind list) → ∀ sessionID,
      Routes crc sorter (actions.foldl AffinityRouter.step (newAffinityRouter config))
        (actions.foldl present config.upstreams) sessionID

end

structure Tracks (ar : AffinityRouter) (upstreams : List String) : Prop where
  distinct : ar.upstreams.Nodup
  same : ∀ u, u ∈ ar.upstreams ↔ u ∈ upstreams

theorem Tracks.step {ar : AffinityRouter} {upstreams : List String} (tracks : Tracks ar upstreams) (a : Action)
    (distinct : ∀ list, a = .setUpstreams list → list.Nodup) : Tracks (ar.step a) (present upstreams a) := by
  obtain ⟨nodup,same⟩ := tracks
  cases a with
  | setUpstreams list => exact ⟨distinct list rfl,fun u => Iff.rfl⟩
  | addUpstream name =>
    simp only [AffinityRouter.step]
    split
    · rename_i inside
      refine ⟨nodup,fun u => ?_⟩
      rw [present,mem_cons,← same]
      exact ⟨.inr,fun either => either.elim (· ▸ inside) id⟩
    · rename_i missing
      refine ⟨nodup_append'.mpr ⟨nodup,nodup_singleton name,disjoint_singleton.mpr missing⟩,fun u => ?_⟩
      simp [present,same,or_comm]
  | removeUpstream name =>
    refine ⟨nodup.erase name,fun u => ?_⟩
    simp [AffinityRouter.step,present,nodup.mem_erase_iff,same,and_comm]
  | setSticky sessionID upstream => exact ⟨nodup,same⟩
  | removeSticky sessionID => exact ⟨nodup,same⟩

theorem Tracks.run {actions : List Action} (distinct : ∀ list, .setUpstreams list ∈ actions → list.Nodup) :
    ∀ {ar : AffinityRouter} {upstreams : List String}, Tracks ar upstreams →
      Tracks (actions.foldl AffinityRouter.step ar) (actions.foldl present upstreams) := by
  induction actions with
  | nil => exact id
  | cons a rest ih =>
    intro ar upstreams tracks
    refine ih (fun list member => distinct list (mem_cons_of_mem a member)) (tracks.step a fun list is => ?_)
    exact distinct list (is ▸ mem_cons_self)

theorem Tracks.routes (crc : String → UInt32) (sorter : HashSorter) {ar : AffinityRouter} {upstreams : List String}
    (tracks : Tracks ar upstreams) (sessionID : String) : Routes crc sorter ar upstreams sessionID where
  live some_ := by
    obtain ⟨u,inside⟩ := exists_mem_of_ne_nil _ some_
    have hashed : consistentHash crc sorter sessionID ar.upstreams ar.replicas ∈ ar.upstreams :=
      (consistentHash_owner sorter (ne_nil_of_mem ((tracks.same u).mpr inside))).1
    rw [← tracks.same]
    unfold AffinityRouter.route
    split
    · split
      · assumption
      · exact hashed
    · exact hashed
  none empty := by
    have nothing : ar.upstreams = [] := eq_nil_iff_forall_not_mem.mpr fun u inside => by
      rw [tracks.same,empty] at inside
      cases inside
    unfold AffinityRouter.route
    split <;> simp [nothing,consistentHash]
  sticky u inside own := by
    unfold AffinityRouter.route
    rw [own]
    exact if_pos ((tracks.same u).mpr inside)

/-- All sessions are routed to upstreams that are there if and only if no list that the router gets
    has an upstream twice. -/
theorem routes_iff (crc : String → UInt32) (sorter : HashSorter) (kind : List String → Prop) :
    AllRoute crc sorter kind ↔ ∀ list, kind list → list.Nodup := by
  constructor
  · intro routes list given
    by_contra twice
    obtain ⟨u,duplicate⟩ := exists_duplicate_iff_not_nodup.mpr twice
    -- the session sticks to an upstream of which one occurrence is left
    have left : u ∈ list.erase u := by
      rw [← count_pos_iff,count_erase_self]
      have count := duplicate_iff_two_le_count.mp duplicate
      omega
    let actions : List Action := [.removeUpstream u,.addUpstream (u ++ "2"),.setSticky "s" u]
    have kept : (actions.foldl AffinityRouter.step (newAffinityRouter ⟨list,1⟩)).route crc sorter "s" = u := by
      simp only [actions,foldl_cons,foldl_nil,AffinityRouter.step,newAffinityRouter]
      split <;> simp [AffinityRouter.route,left]
    have live := (routes ⟨list,1⟩ given actions (by simp [actions]) "s").live (by simp [actions,present])
    rw [kept] at live
    have longer : u = u ++ "2" := by simpa [actions,present] using live
    simpa using congrArg String.length longer
  · intro distinct config given actions lists sessionID
    refine Tracks.routes crc sorter (Tracks.run (fun list member => distinct list (lists list member)) ?_) sessionID
    exact ⟨distinct _ given,fun u => Iff.rfl⟩

/-- The upstream is removed, and the session goes to it. -/
theorem removed_upstream_routed : let actions : List Action := [.removeUpstream "a"]
    let ar := actions.foldl AffinityRouter.step (newAffinityRouter ⟨["a","a"],0⟩)
    ar.route lengths hashSorter "s" = "a" ∧ actions.foldl present ["a","a"] = [] ∧
    ¬ Routes lengths hashSorter ar (actions.foldl present ["a","a"]) "s" := by
  refine ⟨rfl,rfl,fun routes => ?_⟩
  exact absurd (routes.none rfl) (by decide)

end Mcpkit.AffinityRouter
