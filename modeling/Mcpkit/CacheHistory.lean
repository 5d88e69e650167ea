import Mcpkit.CacheFlight
import Mcpkit.Recency

/-!
The keyed cache over its history. The order list holds the keys of the entries, once each, from
the most recently touched on, so the key that `set` evicts is the least recently touched one; an
entry is what was stored last for its key.
-/
namespace Mcpkit.CacheHistory
open GoMaps Transitions Recency CacheModel CacheFlight List
variable {V : Type}

/-- The order list and the entries have the same keys, and there is room for them. -/
structure Listed (c : KeyedCache V) : Prop where
  distinct : c.order.Nodup
  same : ∀ key, key ∈ c.order ↔ key ∈ c.entries
  positive : 0 < c.maxSize
  room : (c.order.length : Int) ≤ c.maxSize

theorem Listed.card {c : KeyedCache V} (listed : Listed c) : c.entries.keys.card = c.order.length := by
  rw [← toFinset_card_of_nodup listed.distinct]
  congr 1
  ext key
  rw [Finmap.mem_keys,mem_toFinset,listed.same]

open CacheModel.KeyedCache hiding evictions get invalidate set

open Finmap hiding mem_keys mem_singleton

private theorem evict_listed {c : KeyedCache V} (listed : Listed c) :
    (c.evict c.order.reverse = c ∧ c.removed c.order.reverse = [] ∧ (c.order.length : Int) < c.maxSize) ∨
    ∃ back rest, c.order.reverse = back :: rest ∧ c.removed c.order.reverse = [back] ∧
      c.evict c.order.reverse =
        { c with entries := c.entries.erase back, fetching := c.fetching.erase back, order := rest.reverse } := by
  have card := listed.card
  have positive := listed.positive
  have room := listed.room
  cases reversed : c.order.reverse with
  | nil =>
    have empty : c.order = [] := reverse_eq_nil_iff.mp reversed
    refine .inl ⟨rfl,rfl,?_⟩
    rw [empty]
    exact positive
  | cons back rest =>
    rw [evict,removed]
    by_cases full : (c.entries.keys.card : Int) ≥ c.maxSize
    · have member : back ∈ c.entries.keys := by
        rw [Finmap.mem_keys,← listed.same,← mem_reverse,reversed]
        exact mem_cons_self
      have fewer : (c.entries.erase back).keys.card = c.entries.keys.card-1 := by
        rw [keys_erase,Finset.card_erase_of_mem member]
      have spare : ¬ (((c.entries.erase back).keys.card : Nat) : Int) ≥ c.maxSize := by omega
      refine .inr ⟨back,rest,rfl,?_,?_⟩
      · rw [if_pos full]
        cases rest with
        | nil => rfl
        | cons next others => rw [removed,if_neg spare]
      · rw [if_pos full]
        cases rest with
        | nil => rfl
        | cons next others => rw [evict,if_neg spare]
    · rw [if_neg full,if_neg full]
      exact .inl ⟨rfl,rfl,by omega⟩

/-! ### The cache with the touches and the stores so far -/

/-- The order list ranks the touches, and the entries are the latest stores. -/
structure Recorded (c : KeyedCache V) (touched : List String) (stored : List (String × KeyedCacheEntry V)) : Prop where
  listed : Listed c
  ranked : Ranked touched c.order
  latest : ∀ key e, c.entries.lookup key = some e → Latest stored key e

variable {c : KeyedCache V} {touched : List String} {stored : List (String × KeyedCacheEntry V)}

private theorem moved_listed (listed : Listed c) {key : String} (member : key ∈ c.order)
    (entries : GoMap (KeyedCacheEntry V)) (keys : ∀ k, k ∈ entries ↔ k ∈ c.entries) :
    Listed { c with entries := entries, order := moveToFront c.order key } where
  distinct := nodup_cons.mpr ⟨listed.distinct.not_mem_erase,listed.distinct.erase key⟩
  same k := by
    rw [keys,← listed.same]
    exact (perm_cons_erase member).symm.mem_iff
  positive := listed.positive
  room := by
    have length := (perm_cons_erase member).length_eq
    have room := listed.room
    simp only [moveToFront]
    omega

theorem Recorded.get (recorded : Recorded c touched stored) (now : Int) (key : String) :
    Recorded (c.get now key).2 (touched ++ if (c.get now key).1.isSome then [key] else []) stored := by
  unfold KeyedCache.get
  cases found : c.entries.lookup key with
  | none => simpa using recorded
  | some e =>
    by_cases expired : now-e.fetchAt ≥ c.ttl
    · simpa [expired] using recorded
    · have member : key ∈ c.order := (recorded.listed.same key).mpr (mem_iff.mpr ⟨e,found⟩)
      simp only [if_neg expired,Option.isSome_some,if_true]
      exact ⟨moved_listed recorded.listed member c.entries fun _ => Iff.rfl,
        recorded.ranked.touch recorded.listed.distinct key,recorded.latest⟩

variable {entries : GoMap (KeyedCacheEntry V)}

private theorem latest_insert (latest : ∀ key e, c.entries.lookup key = some e → Latest stored key e)
    (old : ∀ k e, entries.lookup k = some e → c.entries.lookup k = some e) (key : String) (new : KeyedCacheEntry V) :
    ∀ k e, (entries.insert key new).lookup k = some e → Latest (stored ++ [(key,new)]) k e := by
  intro k e found
  by_cases same : k = key
  · subst same
    rw [lookup_insert] at found
    cases found
    exact latest_last stored k new
  · rw [lookup_insert_of_ne _ same] at found
    exact (latest k e (old k e found)).grow (Ne.symm same)

private theorem lookup_of_erase {back k : String} {e : KeyedCacheEntry V}
    (found : (entries.erase back).lookup k = some e) : entries.lookup k = some e := by
  by_cases same : k = back
  · subst same
    rw [lookup_erase] at found
    cases found
  · rwa [lookup_erase_ne same] at found

private theorem joined_listed (listed : Listed c) {key : String} (absent : key ∉ c.entries)
    (spare : (c.order.length : Int) < c.maxSize) (new : KeyedCacheEntry V) :
    Listed { c with entries := c.entries.insert key new, order := key :: c.order } where
  distinct := nodup_cons.mpr ⟨fun member => absent ((listed.same key).mp member),listed.distinct⟩
  same k := by rw [mem_cons,mem_insert,listed.same]
  positive := listed.positive
  room := by
    simp only [length_cons]
    omega

private theorem evicted_listed (listed : Listed c) {back : String} {rest : List String}
    (reversed : c.order.reverse = back :: rest) (fetching : GoMap Nat) :
    Listed { c with entries := c.entries.erase back, fetching := fetching, order := rest.reverse } := by
  have order : c.order = rest.reverse ++ [back] := by rw [← reverse_reverse c.order,reversed,reverse_cons]
  have distinct := listed.distinct
  have room := listed.room
  rw [order] at distinct room
  refine ⟨(nodup_append.mp distinct).1,?_,listed.positive,?_⟩
  · intro k
    have fresh : back ∉ rest.reverse := fun member => (nodup_append.mp distinct).2.2 back member back (by simp) rfl
    rw [mem_erase,← listed.same,order,mem_append,mem_singleton]
    constructor
    · intro member
      exact ⟨fun same => fresh (same ▸ member),.inl member⟩
    · rintro ⟨other,member | same⟩
      · exact member
      · exact absurd same other
  · rw [length_append] at room
    simp only
    omega

section
variable (recorded : Recorded c touched stored)
include recorded

theorem Recorded.set (now : Int) (key : String) (value : V) (err : Option String) :
    Recorded (c.set now key value err) (touched ++ [key]) (stored ++ [(key,⟨value,err,now⟩)]) := by
  have listed := recorded.listed
  unfold KeyedCache.set
  cases found : c.entries.lookup key with
  | some e =>
    have present : key ∈ c.entries := mem_iff.mpr ⟨e,found⟩
    have member : key ∈ c.order := (listed.same key).mpr present
    have keys : ∀ k, k ∈ c.entries.insert key ⟨value,err,now⟩ ↔ k ∈ c.entries := by
      intro k
      rw [mem_insert]
      exact ⟨fun either => either.elim (fun same => same ▸ present) id,.inr⟩
    exact ⟨moved_listed listed member _ keys,recorded.ranked.touch listed.distinct key,
      latest_insert recorded.latest (fun _ _ old => old) key _⟩
  | none =>
    have absent : key ∉ c.entries := lookup_eq_none.mp found
    rcases evict_listed listed with ⟨kept,-,spare⟩ | ⟨back,rest,reversed,-,evicted⟩
    · have fresh : c.order.erase key = c.order := erase_of_not_mem (fun member => absent ((listed.same key).mp member))
      have ranked := recorded.ranked.touch listed.distinct key
      rw [fresh] at ranked
      simp only [kept]
      exact ⟨joined_listed listed absent spare _,ranked,latest_insert recorded.latest (fun _ _ old => old) key _⟩
    · have smaller := evicted_listed listed reversed (c.fetching.erase back)
      have absent' : key ∉ c.entries.erase back := fun member => absent (mem_erase.mp member).2
      have order : c.order = rest.reverse ++ [back] := by rw [← reverse_reverse c.order,reversed,reverse_cons]
      have spare : (rest.reverse.length : Int) < c.maxSize := by
        have room := listed.room
        rw [order,length_append,length_singleton] at room
        omega
      have fewer : Ranked touched rest.reverse := recorded.ranked.sublist (order ▸ sublist_append_left _ _)
      have fresh : rest.reverse.erase key = rest.reverse :=
        erase_of_not_mem fun member => absent' ((smaller.same key).mp member)
      have ranked := fewer.touch smaller.distinct key
      rw [fresh] at ranked
      simp only [evicted]
      exact ⟨joined_listed smaller absent' spare _,ranked,latest_insert recorded.latest (fun _ _ => lookup_of_erase) key _⟩

theorem Recorded.invalidate (key : String) : Recorded (c.invalidate key) touched stored := by
  have listed := recorded.listed
  unfold KeyedCache.invalidate
  split
  · exact recorded
  · refine ⟨⟨listed.distinct.erase key,?_,listed.positive,?_⟩,recorded.ranked.sublist erase_sublist,?_⟩
    · intro k
      rw [listed.distinct.mem_erase_iff,mem_erase,listed.same]
    · have shorter := length_erase_le (a := key) (l := c.order)
      have room := listed.room
      simp only
      omega
    · intro k e found
      exact recorded.latest k e (lookup_of_erase found)

theorem Recorded.congr {c' : KeyedCache V} (entries : c'.entries = c.entries)
    (order : c'.order = c.order) (maxSize : c'.maxSize = c.maxSize) : Recorded c' touched stored := by
  obtain ⟨⟨distinct,same,positive,room⟩,ranked,latest⟩ := recorded
  refine ⟨⟨?_,?_,?_,?_⟩,?_,?_⟩
  · rw [order]; exact distinct
  · rw [order,entries]; exact same
  · rw [maxSize]; exact positive
  · rw [order,maxSize]; exact room
  · rw [order]; exact ranked
  · rw [entries]; exact latest

theorem Recorded.evicts_least {key back : String} (evicted : back ∈ c.evictions key) :
    back ∈ c.entries ∧ ∀ other, other ∈ c.entries → other ≠ back → Since touched back other := by
  have listed := recorded.listed
  unfold KeyedCache.evictions at evicted
  cases found : c.entries.lookup key with
  | some e => rw [found] at evicted; cases evicted
  | none =>
    rw [found] at evicted
    rcases evict_listed listed with ⟨-,none,-⟩ | ⟨last,rest,reversed,one,-⟩
    · simp only [none] at evicted
      cases evicted
    · simp only [one] at evicted
      have same := mem_singleton.mp evicted
      subst same
      have member : back ∈ c.order := by rw [← mem_reverse,reversed]; exact mem_cons_self
      refine ⟨(listed.same back).mp member,fun other present distinct => ?_⟩
      exact recorded.ranked.last reversed ((listed.same other).mpr present) distinct

end

/-! ### Runs with their history -/

variable (s : System V)

def reads : Action V → Option String
  | .look i =>
    match s.callers[i]? with
    | some ⟨key,.started⟩ => some key
    | _ => none
  | .lookAgain i =>
    match s.callers[i]? with
    | some ⟨key,.locked _⟩ => some key
    | _ => none
  | .get key => some key
  | _ => none

def writes : Action V → Option (String × KeyedCacheEntry V)
  | .store i =>
    match s.callers[i]? with
    | some ⟨key,.fetched _ value err⟩ => some (key,⟨value,err,s.now⟩)
    | _ => none
  | .set key value => some (key,⟨value,none,s.now⟩)
  | _ => none

/-- The key touched by a step: one that `get` finds, or one that is stored. -/
def touches (a : Action V) : List String :=
  match reads s a,writes s a with
  | some key,_ => if (s.cache.get s.now key).1.isSome then [key] else []
  | none,some (key,_) => [key]
  | none,none => []

/-- A state with the touches and the stores of the run that led to it. -/
structure Logged (V : Type) where
  system : System V
  touched : List String
  stored : List (String × KeyedCacheEntry V)

def begin (ttl maxSize now : Int) : Logged V := ⟨new ttl maxSize now,[],[]⟩

def log (x : Logged V) (a : Action V) : Option (Logged V) :=
  (step x.system a).map (fun s' =>
    ⟨s',x.touched ++ touches x.system a,x.stored ++ (writes x.system a).toList⟩)

inductive Used (s s' : System V) (a : Action V) : Prop
  | kept (silent : touches s a = []) (unwritten : writes s a = none) (entries : s'.cache.entries = s.cache.entries)
      (order : s'.cache.order = s.cache.order) (maxSize : s'.cache.maxSize = s.cache.maxSize)
      (ttl : s'.cache.ttl = s.cache.ttl)
  | looked (key : String) (read : reads s a = some key) (unwritten : writes s a = none)
      (cache : s'.cache = (s.cache.get s.now key).2)
  | wrote (key : String) (value : V) (err : Option String) (unread : reads s a = none)
      (written : writes s a = some (key,⟨value,err,s.now⟩)) (cache : s'.cache = s.cache.set s.now key value err)
  | dropped (key : String) (silent : touches s a = []) (unwritten : writes s a = none)
      (cache : s'.cache = s.cache.invalidate key)

variable (c) (now : Int) (key : String)

private theorem lockFor_rest : (c.lockFor key).2.entries = c.entries ∧ (c.lockFor key).2.order = c.order ∧
      (c.lockFor key).2.maxSize = c.maxSize ∧ (c.lockFor key).2.ttl = c.ttl := by
  unfold lockFor
  split
  · exact ⟨rfl,rfl,rfl,rfl⟩
  · exact ⟨rfl,rfl,rfl,rfl⟩

theorem used_cases {s s' : System V} {a : Action V} (moved : step s a = some s') : Used s s' a := by
  cases taken_of_step moved with
  | advance duration | call key => exact .kept rfl rfl rfl rfl rfl rfl
  | hit i key e at_i found | miss i key at_i => exact .looked key (by simp only [reads,at_i]) rfl rfl
  | lockFor i key at_i =>
    obtain ⟨entries,order,maxSize,ttl⟩ := lockFor_rest s.cache key
    exact .kept rfl rfl entries order maxSize ttl
  | lock i key l at_i unheld => exact .kept rfl rfl rfl rfl rfl rfl
  | hitAgain i key l e at_i found | missAgain i key l at_i => exact .looked key (by simp only [reads,at_i]) rfl rfl
  | fetch i key l value err at_i | abort i key l at_i => exact .kept rfl rfl rfl rfl rfl rfl
  | store i key l value err at_i => exact .wrote key value err rfl (by simp only [writes,at_i]) rfl
  | unlock i key l value err at_i => exact .kept rfl rfl rfl rfl rfl rfl
  | get key => exact .looked key rfl rfl rfl
  | set key value => exact .wrote key value none rfl rfl rfl
  | invalidate key => exact .dropped key rfl rfl rfl

/-- The record holds after each step, with the configuration as it was. -/
structure Sound (ttl size : Int) (x : Logged V) : Prop where
  recorded : Recorded x.system.cache x.touched x.stored
  ttl : x.system.cache.ttl = ttl
  size : x.system.cache.maxSize = size

@[simp] theorem get_ttl : (c.get now key).2.ttl = c.ttl := by
  unfold KeyedCache.get
  split
  · rfl
  · split <;> rfl

@[simp] theorem get_maxSize : (c.get now key).2.maxSize = c.maxSize := by
  unfold KeyedCache.get
  split
  · rfl
  · split <;> rfl

private theorem evict_config (backs : List String) : ∀ c : KeyedCache V,
    (c.evict backs).ttl = c.ttl ∧ (c.evict backs).maxSize = c.maxSize := by
  induction backs with
  | nil => exact fun c => ⟨rfl,rfl⟩
  | cons back rest ih =>
    intro c
    rw [evict]
    split
    · exact ih _
    · exact ⟨rfl,rfl⟩

private theorem set_config (value : V) (err : Option String) :
    (c.set now key value err).ttl = c.ttl ∧ (c.set now key value err).maxSize = c.maxSize := by
  unfold KeyedCache.set
  split
  · exact ⟨rfl,rfl⟩
  · exact evict_config c.order.reverse c

private theorem invalidate_config : (c.invalidate key).ttl = c.ttl ∧ (c.invalidate key).maxSize = c.maxSize := by
  unfold KeyedCache.invalidate
  split
  · exact ⟨rfl,rfl⟩
  · exact ⟨rfl,rfl⟩

theorem Sound.step {ttl size : Int} {x x' : Logged V} {a : Action V} (sound : Sound ttl size x)
    (moved : log x a = some x') : Sound ttl size x' := by
  obtain ⟨s',stepped,rfl⟩ := Option.map_eq_some_iff.mp moved
  cases used_cases stepped with
  | kept silent unwritten entries order maxSize same =>
    rw [silent,unwritten]
    simp only [append_nil,Option.toList_none]
    exact ⟨sound.recorded.congr entries order maxSize,same.trans sound.ttl,maxSize.trans sound.size⟩
  | looked key read unwritten cache =>
    have touched : touches x.system a = if (x.system.cache.get x.system.now key).1.isSome then [key] else [] := by
      simp only [touches,read]
    rw [touched,unwritten]
    simp only [append_nil,Option.toList_none]
    refine ⟨?_,?_,?_⟩
    · rw [cache]; exact sound.recorded.get x.system.now key
    · rw [cache,get_ttl]; exact sound.ttl
    · rw [cache,get_maxSize]; exact sound.size
  | wrote key value err unread written cache =>
    have touched : touches x.system a = [key] := by simp only [touches,unread,written]
    rw [touched,written]
    obtain ⟨ttl',size'⟩ := set_config x.system.cache x.system.now key value err
    refine ⟨?_,?_,?_⟩
    · rw [cache]; exact sound.recorded.set x.system.now key value err
    · rw [cache,ttl']; exact sound.ttl
    · rw [cache,size']; exact sound.size
  | dropped key silent unwritten cache =>
    rw [silent,unwritten]
    simp only [append_nil,Option.toList_none]
    obtain ⟨ttl',size'⟩ := invalidate_config x.system.cache key
    refine ⟨?_,?_,?_⟩
    · rw [cache]; exact sound.recorded.invalidate key
    · rw [cache,ttl']; exact sound.ttl
    · rw [cache,size']; exact sound.size

theorem sound_begin (ttl maxSize now : Int) :
    Sound ttl (if maxSize ≤ 0 then 1 else maxSize) (begin ttl maxSize now : Logged V) where
  recorded := by
    refine ⟨⟨nodup_nil,?_,?_,?_⟩,List.Pairwise.nil,?_⟩
    · simp [begin,new,newKeyedCache,notMem_empty]
    · simp only [begin,new,newKeyedCache]
      split <;> omega
    · simp only [begin,new,newKeyedCache,length_nil]
      split <;> omega
    · intro key e found
      simp [begin,new,newKeyedCache] at found
  ttl := rfl
  size := rfl

/-! ### The mutexes -/

def pending : Phase V → Bool
  | .waiting _ => true
  | .locked _ => true
  | .fetching _ => true
  | .fetched _ _ _ => true
  | _ => false

def InFlight (callers : List (Caller V)) (key : String) : Prop :=
  ∃ caller ∈ callers, caller.key = key ∧ pending caller.phase = true

instance (callers : List (Caller V)) (key : String) : Decidable (InFlight callers key) :=
  inferInstanceAs (Decidable (∃ caller ∈ callers, _))

/-- Every key with a mutex has an entry or a fetch in flight. -/
def LocksBounded (s : System V) : Prop :=
  ∀ key, key ∈ s.cache.fetching → key ∈ s.cache.entries ∨ InFlight s.callers key

def fetches (s : System V) (i : Nat) : Option String :=
  match s.callers[i]? with
  | some ⟨key,.fetching _⟩ => some key
  | _ => none

/-- A step that leaves a mutex behind: the entry of a key is invalidated, or the
    fetch of a key without an entry panics, and no other fetch of it is in flight. -/
def Leaks (s : System V) : Action V → Prop
  | .invalidate key => key ∈ s.cache.fetching ∧ key ∈ s.cache.entries ∧ ¬ InFlight s.callers key
  | .abort i => ∃ key ∈ fetches s i,
      key ∈ s.cache.fetching ∧ key ∉ s.cache.entries ∧ ¬ InFlight (s.callers.eraseIdx i) key
  | _ => False

instance (s : System V) : ∀ a, Decidable (Leaks s a)
  | .invalidate _ => inferInstanceAs (Decidable (_ ∧ _ ∧ _))
  | .abort i => inferInstanceAs (Decidable (∃ key ∈ fetches s i, _))
  | .advance _ => .isFalse id
  | .call _ => .isFalse id
  | .look _ => .isFalse id
  | .lockFor _ => .isFalse id
  | .lock _ => .isFalse id
  | .lookAgain _ => .isFalse id
  | .fetch _ _ _ => .isFalse id
  | .store _ => .isFalse id
  | .unlock _ => .isFalse id
  | .get _ => .isFalse id
  | .set _ _ => .isFalse id

private theorem inFlight_split {callers : List (Caller V)} {i : Nat} {caller : Caller V}
    (at_i : callers[i]? = some caller) (key : String) :
    InFlight callers key ↔ (caller.key = key ∧ pending caller.phase = true) ∨ InFlight (callers.eraseIdx i) key := by
  obtain ⟨inside,rfl⟩ := List.getElem?_eq_some_iff.mp at_i
  have members := (getElem_cons_eraseIdx_perm inside)
  constructor
  · rintro ⟨found,member,mine⟩
    rcases List.mem_cons.mp (members.symm.mem_iff.mp member) with same | other
    · exact .inl (same ▸ mine)
    · exact .inr ⟨found,other,mine⟩
  · rintro (mine | ⟨found,member,mine⟩)
    · exact ⟨_,getElem_mem inside,mine⟩
    · exact ⟨found,members.mem_iff.mp (mem_cons_of_mem _ member),mine⟩

private theorem inFlight_move {s : System V} {i : Nat} {key : String} {old : Phase V}
    (at_i : s.callers[i]? = some ⟨key,old⟩) (new : Phase V) (k : String) :
    InFlight (s.callers.set i ⟨key,new⟩) k ↔ (key = k ∧ pending new = true) ∨ InFlight (s.callers.eraseIdx i) k := by
  have inside := lt_of_getElem? at_i
  have at_new : (s.callers.set i ⟨key,new⟩)[i]? = some ⟨key,new⟩ := getElem?_set_self inside
  rw [inFlight_split at_new,eraseIdx_set_eq]

/-- A caller moves: the bound holds on if it stays pending or its key has an entry. -/
private theorem bounded_move {s : System V} (bounded : LocksBounded s) {i : Nat} {key : String} {old new : Phase V}
    (at_i : s.callers[i]? = some ⟨key,old⟩) (kept : pending old = true → pending new = true ∨ key ∈ s.cache.entries) :
    ∀ k, k ∈ s.cache.fetching → k ∈ s.cache.entries ∨ InFlight (s.callers.set i ⟨key,new⟩) k := by
  intro k locked
  rcases bounded k locked with present | flying
  · exact .inl present
  · rcases (inFlight_split at_i k).mp flying with ⟨rfl,mine⟩ | other
    · rcases kept mine with still | present
      · exact .inr ((inFlight_move at_i new _).mpr (.inl ⟨rfl,still⟩))
      · exact .inl present
    · exact .inr ((inFlight_move at_i new k).mpr (.inr other))

private theorem evict_entries (backs : List String) : ∀ (c : KeyedCache V) (k : String),
    k ∈ (c.evict backs).entries ↔ k ∈ c.entries ∧ k ∉ c.removed backs := by
  induction backs with
  | nil => intro c k; simp [evict,removed]
  | cons back rest ih =>
    intro c k
    rw [evict,removed]
    split
    · rw [ih,mem_erase,mem_cons,not_or]
      constructor
      · rintro ⟨⟨other,present⟩,kept⟩
        exact ⟨present,other,kept⟩
      · rintro ⟨present,other,kept⟩
        exact ⟨⟨other,present⟩,kept⟩
    · simp

private theorem set_keeps (value : V) (err : Option String) {k : String}
    (locked : k ∈ (c.set now key value err).fetching) :
    k ∈ c.fetching ∧ (k = key ∨ k ∈ c.entries → k ∈ (c.set now key value err).entries) := by
  obtain ⟨l,found⟩ := mem_iff.mp locked
  have old := set_found found
  have spared : k ∉ c.evictions key := by
    intro evicted
    rw [set_fetching,if_pos evicted] at found
    cases found
  refine ⟨mem_iff.mpr ⟨l,old⟩,fun present => ?_⟩
  unfold KeyedCache.evictions at spared
  unfold KeyedCache.set
  cases stored : c.entries.lookup key with
  | some e => exact mem_insert.mpr present
  | none =>
    rw [stored] at spared
    exact mem_insert.mpr (present.imp_right fun inside => (evict_entries _ c k).mpr ⟨inside,spared⟩)

@[simp] theorem get_entries : (c.get now key).2.entries = c.entries := by
  unfold KeyedCache.get
  split
  · rfl
  · split <;> rfl

private theorem get_present {c : KeyedCache V} {now : Int} {key : String} {e : KeyedCacheEntry V}
    (found : (c.get now key).1 = some e) : c.entries.lookup key = some e ∧ now-e.fetchAt < c.ttl := by
  unfold KeyedCache.get at found
  cases stored : c.entries.lookup key with
  | none => simp [stored] at found
  | some e' =>
    by_cases expired : now-e'.fetchAt ≥ c.ttl
    · simp [stored,expired] at found
    · simp only [stored,if_neg expired,Option.some.injEq] at found
      subst found
      exact ⟨rfl,by omega⟩

private theorem invalidate_entries (key k : String) : k ∈ (c.invalidate key).entries ↔ k ≠ key ∧ k ∈ c.entries := by
  unfold KeyedCache.invalidate
  cases found : c.entries.lookup key with
  | none =>
    have absent := lookup_eq_none.mp found
    exact ⟨fun present => ⟨fun same => absent (same ▸ present),present⟩,And.right⟩
  | some e => exact mem_erase

section
variable {s} {i : Nat} {key} (bounded : LocksBounded s)
include bounded

private theorem look_bounded {old new : Phase V} (at_i : s.callers[i]? = some ⟨key,old⟩)
    (kept : pending old = true → pending new = true ∨ key ∈ s.cache.entries) :
    LocksBounded ({ s with cache := (s.cache.get s.now key).2 }.move i key new) := by
  intro k locked
  simp only [System.move,get_fetching,get_entries] at locked ⊢
  exact bounded_move bounded at_i kept k locked

private theorem lockFor_bounded (at_i : s.callers[i]? = some ⟨key,.missed⟩) :
    LocksBounded ({ s with cache := (s.cache.lockFor key).2 }.move i key (.waiting (s.cache.lockFor key).1)) := by
  intro k locked
  have entries := (lockFor_rest s.cache key).1
  simp only [System.move] at locked ⊢
  rw [entries]
  by_cases same : key = k
  · exact .inr ((inFlight_move at_i _ k).mpr (.inl ⟨same,rfl⟩))
  · refine bounded_move bounded at_i (fun impossible => by cases impossible) k ?_
    rcases lockFor_cases s.cache key with ⟨-,cache⟩ | ⟨-,-,fetching,-⟩
    · rwa [cache] at locked
    · rw [fetching,mem_insert] at locked
      exact locked.resolve_left (Ne.symm same)

private theorem store_bounded {old new : Phase V} (at_i : s.callers[i]? = some ⟨key,old⟩)
    (value : V) (err : Option String) :
    LocksBounded ({ s with cache := s.cache.set s.now key value err }.move i key new) := by
  intro k locked
  obtain ⟨old,keeps⟩ := set_keeps s.cache s.now key value err locked
  by_cases same : k = key
  · exact .inl (keeps (.inl same))
  · rcases bounded k old with present | flying
    · exact .inl (keeps (.inr present))
    · rcases (inFlight_split at_i k).mp flying with ⟨mine,-⟩ | other
      · exact absurd mine.symm same
      · exact .inr ((inFlight_move at_i _ k).mpr (.inr other))

/-- A panic keeps the bound unless it leaks. -/
private theorem abort_bounded_iff {l : Nat} (at_i : s.callers[i]? = some ⟨key,.fetching l⟩) :
    LocksBounded (s.move i key (.done none)) ↔ ¬ Leaks s (.abort i) := by
  have fetched : fetches s i = some key := by simp only [fetches,at_i]
  have flying := inFlight_move at_i (.done none)
  constructor
  · rintro bounded' ⟨k,member,locked,absent,alone⟩
    rw [fetched] at member
    cases member
    rcases bounded' key locked with present | still
    · exact absent present
    · rcases (flying key).mp still with ⟨-,impossible⟩ | other
      · cases impossible
      · exact alone other
  · intro sealed k locked
    by_cases present : k ∈ s.cache.entries
    · exact .inl present
    · refine .inr ((flying k).mpr (.inr ?_))
      rcases bounded k locked with inside | still
      · exact absurd inside present
      · rcases (inFlight_split at_i k).mp still with ⟨rfl,-⟩ | other
        · by_contra alone
          exact sealed ⟨key,by rw [fetched]; rfl,locked,present,alone⟩
        · exact other

private theorem invalidate_bounded_iff (key : String) :
    LocksBounded { s with cache := s.cache.invalidate key } ↔ ¬ Leaks s (.invalidate key) := by
  constructor
  · rintro bounded' ⟨locked,-,alone⟩
    rcases bounded' key (by rw [invalidate_fetching]; exact locked) with present | still
    · exact ((invalidate_entries s.cache key key).mp present).1 rfl
    · exact alone still
  · intro sealed k locked
    rw [invalidate_fetching] at locked
    rcases bounded k locked with present | flying
    · by_cases same : k = key
      · subst same
        right
        by_contra alone
        exact sealed ⟨locked,present,alone⟩
      · exact .inl ((invalidate_entries s.cache key k).mpr ⟨same,present⟩)
    · exact .inr flying

end

theorem step_bounded_iff {s s' : System V} {a : Action V} (bounded : LocksBounded s) (moved : step s a = some s') :
    LocksBounded s' ↔ ¬ Leaks s a := by
  have harmless (kept : LocksBounded s') : LocksBounded s' ↔ ¬ False := ⟨fun _ => id,fun _ => kept⟩
  cases taken_of_step moved with
  | advance duration => exact harmless bounded
  | call key =>
    refine harmless fun k locked => (bounded k locked).imp_right ?_
    rintro ⟨caller,member,mine⟩
    exact ⟨caller,mem_append_left _ member,mine⟩
  | hit i key e at_i found => exact harmless (look_bounded bounded at_i fun impossible => by cases impossible)
  | miss i key at_i => exact harmless (look_bounded bounded at_i fun impossible => by cases impossible)
  | lockFor i key at_i => exact harmless (lockFor_bounded bounded at_i)
  | lock i key l at_i unheld => exact harmless (bounded_move bounded at_i fun _ => .inl rfl)
  | hitAgain i key l e at_i found =>
    -- a caller that does not fetch after all has found an entry
    have present : key ∈ s.cache.entries := mem_iff.mpr ⟨e,(get_present found).1⟩
    exact harmless (look_bounded bounded at_i fun _ => .inr present)
  | missAgain i key l at_i => exact harmless (look_bounded bounded at_i fun _ => .inl rfl)
  | fetch i key l value err at_i => exact harmless (bounded_move bounded at_i fun _ => .inl rfl)
  | abort i key l at_i => exact abort_bounded_iff bounded at_i
  | store i key l value err at_i => exact harmless (store_bounded bounded at_i value err)
  | unlock i key l value err at_i => exact harmless (bounded_move bounded at_i fun impossible => by cases impossible)
  | get key =>
    refine harmless fun k locked => ?_
    simp only [get_fetching,get_entries] at locked ⊢
    exact bounded k locked
  | set key value =>
    refine harmless fun k locked => ?_
    obtain ⟨old,keeps⟩ := set_keeps s.cache s.now key value none locked
    exact (bounded k old).imp_left fun present => keeps (.inr present)
  | invalidate key => exact invalidate_bounded_iff bounded key

/-- In every run the cache is sound. In a run that leaks no mutex, every key with a mutex has an entry or a fetch
    in flight; and the first step that leaks one breaks this. -/
theorem cache_sound_iff (ttl maxSize now : Int) {x : Logged V} (reached : Reachable log free (begin ttl maxSize now) x) :
    (x.system.cache.order.Nodup ∧ ∀ key, key ∈ x.system.cache.order ↔ key ∈ x.system.cache.entries) ∧
    (x.system.cache.entries.keys.card : Int) ≤ max 1 maxSize ∧
    (∀ a k, k ∈ evictions x.system a →
      k ∈ x.system.cache.entries ∧
      ∀ other, other ∈ x.system.cache.entries → other ≠ k → Since x.touched k other) ∧
    (∀ key e, (x.system.cache.get x.system.now key).1 = some e →
      Latest x.stored key e ∧ x.system.now-e.fetchAt < ttl) ∧
    (Reachable step (fun s a => ¬ Leaks s a) (new ttl maxSize now) x.system →
      LocksBounded x.system ∧ ∀ a s', Leaks x.system a → step x.system a = some s' → ¬ LocksBounded s') := by
  have sound : Sound ttl (if maxSize ≤ 0 then 1 else maxSize) x :=
    reached.invariant (sound_begin ttl maxSize now) fun _ _ _ valid _ moved => valid.step moved
  have listed := sound.recorded.listed
  refine ⟨⟨listed.distinct,listed.same⟩,?_,?_,?_,?_⟩
  · have room := listed.room
    have size := sound.size
    rw [listed.card]
    split at size <;> omega
  · intro a k evicted
    unfold evictions at evicted
    split at evicted
    · split at evicted
      · exact sound.recorded.evicts_least evicted
      · cases evicted
    · exact sound.recorded.evicts_least evicted
    · cases evicted
  · intro key e found
    obtain ⟨stored,fresh⟩ := get_present found
    exact ⟨sound.recorded.latest key e stored,sound.ttl ▸ fresh⟩
  · intro sealed
    have bounded : LocksBounded x.system := by
      refine sealed.invariant ?_ fun _ _ _ valid spared moved => (step_bounded_iff valid moved).mpr spared
      intro key locked
      exact absurd locked notMem_empty
    exact ⟨bounded,fun a s' leaks moved kept => (step_bounded_iff bounded moved).mp kept leaks⟩

def sampleStore : List (Action Nat) :=
  [.call "a",.look 0,.lockFor 0,.lock 0,.lookAgain 0,.fetch 0 1 none,.store 0,.unlock 0]

def sampleStored : Logged Nat := (exec log free (begin 10 1 0) sampleStore).getD (begin 10 1 0)

def sampleLeaked : System Nat :=
  (exec step free (new 10 1 0) (sampleStore ++ [.invalidate "a"])).getD (new 10 1 0)

theorem cache_sound_sample : LocksBounded sampleStored.system ∧ Latest sampleStored.stored "a" ⟨1,none,0⟩ ∧
    "a" ∈ evictions sampleStored.system (.set "b" 2) := by
  obtain ⟨-,-,-,found,locks⟩ := cache_sound_iff 10 1 0 (exec_reachable sampleStore .start rfl : Reachable log free
    (begin 10 1 0) sampleStored)
  exact ⟨(locks (exec_reachable sampleStore .start rfl)).1,(found "a" ⟨1,none,0⟩ rfl).1,by decide⟩

/-- The mutex of an invalidated key stays in the map, without an entry or a fetch. -/
theorem invalidate_leaks_mutex : Reachable step free (new 10 1 0) sampleLeaked ∧ "a" ∈ sampleLeaked.cache.fetching ∧
    "a" ∉ sampleLeaked.cache.entries ∧ ¬ LocksBounded sampleLeaked := by
  have locked : "a" ∈ sampleLeaked.cache.fetching := by decide
  have absent : "a" ∉ sampleLeaked.cache.entries := by decide
  refine ⟨exec_reachable (sampleStore ++ [.invalidate "a"]) .start rfl,locked,absent,fun bounded => ?_⟩
  rcases bounded "a" locked with present | flying
  · exact absent present
  · revert flying
    decide

end Mcpkit.CacheHistory
