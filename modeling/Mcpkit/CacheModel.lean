import Mcpkit.GoMaps
import Mcpkit.Transitions

/-!
The keyed cache and the callers of `GetOrFetch`.
-/
namespace Mcpkit.CacheModel
open GoMaps Transitions
variable {V : Type}

structure KeyedCacheEntry (V : Type) where
  value : V
  err : Option String
  fetchAt : Int

/-- `order` lists the keys from the most recently used on. A mutex is its place in the list of all mutexes made so
    far, which keeps their keys. -/
structure KeyedCache (V : Type) where
  ttl : Int
  maxSize : Int
  entries : GoMap (KeyedCacheEntry V)
  order : List String
  fetching : GoMap Nat
  mutexes : List String

def newKeyedCache (ttl maxSize : Int) : KeyedCache V where
  ttl := ttl
  maxSize := if maxSize ≤ 0 then 1 else maxSize
  entries := ∅
  order := []
  fetching := ∅
  mutexes := []

def moveToFront (order : List String) (key : String) : List String := key :: order.erase key

variable (c : KeyedCache V)

def KeyedCache.get (now : Int) (key : String) : Option (KeyedCacheEntry V) × KeyedCache V :=
  match c.entries.lookup key with
  | none => (none,c)
  | some e =>
    if now-e.fetchAt ≥ c.ttl then (none,c)
    else (some e,{ c with order := moveToFront c.order key })

/-- The loop of `set` that makes room, over the keys from the back of the order. -/
def KeyedCache.evict (c : KeyedCache V) : List String → KeyedCache V
  | [] => c
  | back :: rest =>
    if (c.entries.keys.card : Int) ≥ c.maxSize then
      KeyedCache.evict { c with
        entries := c.entries.erase back, fetching := c.fetching.erase back, order := rest.reverse } rest
    else c

def KeyedCache.set (now : Int) (key : String) (value : V) (err : Option String) : KeyedCache V :=
  match c.entries.lookup key with
  | some _ => { c with entries := c.entries.insert key ⟨value,err,now⟩, order := moveToFront c.order key }
  | none =>
    let c := c.evict c.order.reverse
    { c with entries := c.entries.insert key ⟨value,err,now⟩, order := key :: c.order }

def KeyedCache.lockFor (key : String) : Nat × KeyedCache V :=
  match c.fetching.lookup key with
  | some l => (l,c)
  | none => (c.mutexes.length,{ c with
      fetching := c.fetching.insert key c.mutexes.length, mutexes := c.mutexes ++ [key] })

/-- `Invalidate` leaves the mutex of the key. -/
def KeyedCache.invalidate (key : String) : KeyedCache V :=
  match c.entries.lookup key with
  | none => c
  | some _ => { c with entries := c.entries.erase key, order := c.order.erase key }

/-! ### What the methods do to the mutexes -/

variable (c : KeyedCache V)

@[simp] theorem get_fetching (now : Int) (key : String) : (c.get now key).2.fetching = c.fetching := by
  unfold KeyedCache.get
  split
  · rfl
  · split <;> rfl

@[simp] theorem get_mutexes (now : Int) (key : String) : (c.get now key).2.mutexes = c.mutexes := by
  unfold KeyedCache.get
  split
  · rfl
  · split <;> rfl

variable (key : String)

open KeyedCache

@[simp] theorem invalidate_fetching : (c.invalidate key).fetching = c.fetching := by
  unfold invalidate
  split <;> rfl

@[simp] theorem invalidate_mutexes : (c.invalidate key).mutexes = c.mutexes := by
  unfold invalidate
  split <;> rfl

def KeyedCache.removed (c : KeyedCache V) : List String → List String
  | [] => []
  | back :: rest =>
    if (c.entries.keys.card : Int) ≥ c.maxSize then
      back :: KeyedCache.removed { c with
        entries := c.entries.erase back, fetching := c.fetching.erase back, order := rest.reverse } rest
    else []

def KeyedCache.evictions (c : KeyedCache V) (key : String) : List String :=
  match c.entries.lookup key with
  | some _ => []
  | none => c.removed c.order.reverse

private theorem evict_mutexes (backs : List String) : ∀ c : KeyedCache V, (c.evict backs).mutexes = c.mutexes := by
  induction backs with
  | nil => intro c; rfl
  | cons back rest ih =>
    intro c
    rw [evict]
    split
    · rw [ih]
    · rfl

private theorem evict_fetching (backs : List String) : ∀ (c : KeyedCache V) (k : String),
    (c.evict backs).fetching.lookup k = if k ∈ c.removed backs then none else c.fetching.lookup k := by
  induction backs with
  | nil => intro c k; simp [evict,removed]
  | cons back rest ih =>
    intro c k
    rw [evict,removed]
    split
    · rw [ih]
      by_cases same : k = back
      · subst same
        simp
      · simp [same]
    · simp

@[simp] theorem set_mutexes (now : Int) (key : String) (value : V) (err : Option String) :
    (c.set now key value err).mutexes = c.mutexes := by
  unfold KeyedCache.set
  split
  · rfl
  · exact evict_mutexes c.order.reverse c

theorem set_fetching (now : Int) (key : String) (value : V) (err : Option String) (k : String) :
    (c.set now key value err).fetching.lookup k = if k ∈ c.evictions key then none else c.fetching.lookup k := by
  unfold KeyedCache.evictions KeyedCache.set
  cases c.entries.lookup key with
  | some e => simp
  | none => exact evict_fetching c.order.reverse c k

theorem set_found {c : KeyedCache V} {now : Int} {key : String} {value : V} {err : Option String} {k : String} {l : Nat}
    (found : (c.set now key value err).fetching.lookup k = some l) : c.fetching.lookup k = some l := by
  rw [set_fetching] at found
  split at found
  · cases found
  · exact found

theorem lockFor_cases : (c.fetching.lookup key = some (c.lockFor key).1 ∧ (c.lockFor key).2 = c) ∨
    (c.fetching.lookup key = none ∧ (c.lockFor key).1 = c.mutexes.length ∧
      (c.lockFor key).2.fetching = c.fetching.insert key c.mutexes.length ∧
      (c.lockFor key).2.mutexes = c.mutexes ++ [key]) := by
  unfold lockFor
  cases found : c.fetching.lookup key with
  | some l => exact .inl ⟨rfl,rfl⟩
  | none => exact .inr ⟨rfl,rfl,rfl,rfl⟩

/-! ### Callers -/

/-- Where a caller of `GetOrFetch` is: with the mutex `l` once it has looked it up, and in the end with what it
    returns. -/
inductive Phase (V : Type) where
  | started
  | missed
  | waiting (l : Nat)
  | locked (l : Nat)
  | fetching (l : Nat)
  | fetched (l : Nat) (value : V) (err : Option String)
  | unlocking (l : Nat) (value : V) (err : Option String)
  | done (result : Option (V × Option String))

/-- The mutex of a caller that may still run its fetch function, or runs it. -/
def Phase.underway : Phase V → Option Nat
  | .waiting l => some l
  | .locked l => some l
  | .fetching l => some l
  | _ => none

def Phase.holds : Phase V → Option Nat
  | .locked l => some l
  | .fetching l => some l
  | .fetched l _ _ => some l
  | .unlocking l _ _ => some l
  | _ => none

structure Caller (V : Type) where
  key : String
  phase : Phase V

structure System (V : Type) where
  cache : KeyedCache V
  now : Int
  callers : List (Caller V)

def new (ttl maxSize now : Int) : System V := ⟨newKeyedCache ttl maxSize,now,[]⟩

def System.move (s : System V) (i : Nat) (key : String) (phase : Phase V) : System V :=
  { s with callers := s.callers.set i ⟨key,phase⟩ }

/-- Time passes; `GetOrFetch` is called; the steps of a caller; and the other methods. -/
inductive Action (V : Type) where
  | advance (duration : Nat)
  | call (key : String)
  | look (i : Nat)
  | lockFor (i : Nat)
  | lock (i : Nat)
  | lookAgain (i : Nat)
  | fetch (i : Nat) (value : V) (err : Option String)
  | abort (i : Nat)
  | store (i : Nat)
  | unlock (i : Nat)
  | get (key : String)
  | set (key : String) (value : V)
  | invalidate (key : String)

def step (s : System V) : Action V → Option (System V)
  | .advance duration => some { s with now := s.now+duration }
  | .call key => some { s with callers := s.callers ++ [⟨key,.started⟩] }
  | .look i =>
    match s.callers[i]? with
    | some ⟨key,.started⟩ =>
      let (found,cache) := s.cache.get s.now key
      match found with
      | some e => some ({ s with cache := cache }.move i key (.done (some (e.value,e.err))))
      | none => some ({ s with cache := cache }.move i key .missed)
    | _ => none
  | .lockFor i =>
    match s.callers[i]? with
    | some ⟨key,.missed⟩ =>
      let (l,cache) := s.cache.lockFor key
      some ({ s with cache := cache }.move i key (.waiting l))
    | _ => none
  | .lock i =>
    match s.callers[i]? with
    | some ⟨key,.waiting l⟩ =>
      if ∀ caller ∈ s.callers, caller.phase.holds ≠ some l then some (s.move i key (.locked l)) else none
    | _ => none
  | .lookAgain i =>
    match s.callers[i]? with
    | some ⟨key,.locked l⟩ =>
      let (found,cache) := s.cache.get s.now key
      match found with
      | some e => some ({ s with cache := cache }.move i key (.unlocking l e.value e.err))
      | none => some ({ s with cache := cache }.move i key (.fetching l))
    | _ => none
  | .fetch i value err =>
    match s.callers[i]? with
    | some ⟨key,.fetching l⟩ => some (s.move i key (.fetched l value err))
    | _ => none
  | .abort i =>
    match s.callers[i]? with
    | some ⟨key,.fetching _⟩ => some (s.move i key (.done none))
    | _ => none
  | .store i =>
    match s.callers[i]? with
    | some ⟨key,.fetched l value err⟩ =>
      some ({ s with cache := s.cache.set s.now key value err }.move i key (.unlocking l value err))
    | _ => none
  | .unlock i =>
    match s.callers[i]? with
    | some ⟨key,.unlocking _ value err⟩ => some (s.move i key (.done (some (value,err))))
    | _ => none
  | .get key => some { s with cache := (s.cache.get s.now key).2 }
  | .set key value => some { s with cache := s.cache.set s.now key value none }
  | .invalidate key => some { s with cache := s.cache.invalidate key }

/-! ### What lets a step be taken -/

inductive Taken (s : System V) : Action V → System V → Prop
  | advance (duration : Nat) : Taken s (.advance duration) { s with now := s.now+duration }
  | call (key : String) : Taken s (.call key) { s with callers := s.callers ++ [⟨key,.started⟩] }
  | hit (i : Nat) (key : String) (e : KeyedCacheEntry V) (at_i : s.callers[i]? = some ⟨key,.started⟩)
      (found : (s.cache.get s.now key).1 = some e) :
      Taken s (.look i) ({ s with cache := (s.cache.get s.now key).2 }.move i key (.done (some (e.value,e.err))))
  | miss (i : Nat) (key : String) (at_i : s.callers[i]? = some ⟨key,.started⟩) :
      Taken s (.look i) ({ s with cache := (s.cache.get s.now key).2 }.move i key .missed)
  | lockFor (i : Nat) (key : String) (at_i : s.callers[i]? = some ⟨key,.missed⟩) :
      Taken s (.lockFor i) ({ s with cache := (s.cache.lockFor key).2 }.move i key (.waiting (s.cache.lockFor key).1))
  | lock (i : Nat) (key : String) (l : Nat) (at_i : s.callers[i]? = some ⟨key,.waiting l⟩)
      (unheld : ∀ caller ∈ s.callers, caller.phase.holds ≠ some l) : Taken s (.lock i) (s.move i key (.locked l))
  | hitAgain (i : Nat) (key : String) (l : Nat) (e : KeyedCacheEntry V) (at_i : s.callers[i]? = some ⟨key,.locked l⟩)
      (found : (s.cache.get s.now key).1 = some e) :
      Taken s (.lookAgain i) ({ s with cache := (s.cache.get s.now key).2 }.move i key (.unlocking l e.value e.err))
  | missAgain (i : Nat) (key : String) (l : Nat) (at_i : s.callers[i]? = some ⟨key,.locked l⟩) :
      Taken s (.lookAgain i) ({ s with cache := (s.cache.get s.now key).2 }.move i key (.fetching l))
  | fetch (i : Nat) (key : String) (l : Nat) (value : V) (err : Option String)
      (at_i : s.callers[i]? = some ⟨key,.fetching l⟩) :
      Taken s (.fetch i value err) (s.move i key (.fetched l value err))
  | abort (i : Nat) (key : String) (l : Nat) (at_i : s.callers[i]? = some ⟨key,.fetching l⟩) :
      Taken s (.abort i) (s.move i key (.done none))
  | store (i : Nat) (key : String) (l : Nat) (value : V) (err : Option String)
      (at_i : s.callers[i]? = some ⟨key,.fetched l value err⟩) :
      Taken s (.store i) ({ s with cache := s.cache.set s.now key value err }.move i key (.unlocking l value err))
  | unlock (i : Nat) (key : String) (l : Nat) (value : V) (err : Option String)
      (at_i : s.callers[i]? = some ⟨key,.unlocking l value err⟩) :
      Taken s (.unlock i) (s.move i key (.done (some (value,err))))
  | get (key : String) : Taken s (.get key) { s with cache := (s.cache.get s.now key).2 }
  | set (key : String) (value : V) : Taken s (.set key value) { s with cache := s.cache.set s.now key value none }
  | invalidate (key : String) : Taken s (.invalidate key) { s with cache := s.cache.invalidate key }

theorem taken_of_step {s s' : System V} {a : Action V} (moved : step s a = some s') : Taken s a s' := by
  cases a with simp only [step] at moved
  | advance duration => cases moved; exact .advance duration
  | call key => cases moved; exact .call key
  | look i =>
    split at moved
    · rename_i key at_i
      split at moved
      · rename_i e found
        cases moved
        exact .hit i key e at_i found
      · cases moved
        exact .miss i key at_i
    · cases moved
  | lockFor i =>
    split at moved
    · rename_i key at_i
      cases moved
      exact .lockFor i key at_i
    · cases moved
  | lock i =>
    split at moved
    · rename_i key l at_i
      split at moved
      · rename_i unheld
        cases moved
        exact .lock i key l at_i unheld
      · cases moved
    · cases moved
  | lookAgain i =>
    split at moved
    · rename_i key l at_i
      split at moved
      · rename_i e found
        cases moved
        exact .hitAgain i key l e at_i found
      · cases moved
        exact .missAgain i key l at_i
    · cases moved
  | fetch i value err =>
    split at moved
    · rename_i key l at_i
      cases moved
      exact .fetch i key l value err at_i
    · cases moved
  | abort i =>
    split at moved
    · rename_i key l at_i
      cases moved
      exact .abort i key l at_i
    · cases moved
  | store i =>
    split at moved
    · rename_i key l value err at_i
      cases moved
      exact .store i key l value err at_i
    · cases moved
  | unlock i =>
    split at moved
    · rename_i key l value err at_i
      cases moved
      exact .unlock i key l value err at_i
    · cases moved
  | get key => cases moved; exact .get key
  | set key value => cases moved; exact .set key value
  | invalidate key => cases moved; exact .invalidate key

/-! ### What a step does to the callers and the mutexes -/

/-- A caller that goes from one place to the other needs and holds no mutex that it did not before. -/
structure Relaxes (old new : Phase V) : Prop where
  underway : ∀ l, new.underway = some l → old.underway = some l
  holds : ∀ l, new.holds = some l → old.holds = some l

inductive Stepped (s s' : System V) : Action V → Prop
  | kept (a : Action V) (callers : s'.callers = s.callers) (fetching : s'.cache.fetching = s.cache.fetching)
      (mutexes : s'.cache.mutexes = s.cache.mutexes) : Stepped s s' a
  | joined (key : String) (callers : s'.callers = s.callers ++ [⟨key,.started⟩]) (cache : s'.cache = s.cache) :
      Stepped s s' (.call key)
  | moved (a : Action V) (i : Nat) (key : String) (old new : Phase V) (at_i : s.callers[i]? = some ⟨key,old⟩)
      (callers : s'.callers = s.callers.set i ⟨key,new⟩) (relaxes : Relaxes old new)
      (fetching : s'.cache.fetching = s.cache.fetching) (mutexes : s'.cache.mutexes = s.cache.mutexes) :
      Stepped s s' a
  | asked (i : Nat) (key : String) (at_i : s.callers[i]? = some ⟨key,.missed⟩)
      (callers : s'.callers = s.callers.set i ⟨key,.waiting (s.cache.lockFor key).1⟩)
      (cache : s'.cache = (s.cache.lockFor key).2) : Stepped s s' (.lockFor i)
  | entered (i : Nat) (key : String) (l : Nat) (at_i : s.callers[i]? = some ⟨key,.waiting l⟩)
      (unheld : ∀ caller ∈ s.callers, caller.phase.holds ≠ some l)
      (callers : s'.callers = s.callers.set i ⟨key,.locked l⟩) (cache : s'.cache = s.cache) :
      Stepped s s' (.lock i)
  | stored (i : Nat) (key : String) (l : Nat) (value : V) (err : Option String)
      (at_i : s.callers[i]? = some ⟨key,.fetched l value err⟩)
      (callers : s'.callers = s.callers.set i ⟨key,.unlocking l value err⟩)
      (cache : s'.cache = s.cache.set s.now key value err) : Stepped s s' (.store i)
  | wrote (key : String) (value : V) (callers : s'.callers = s.callers)
      (cache : s'.cache = s.cache.set s.now key value none) : Stepped s s' (.set key value)

theorem step_cases {s s' : System V} {a : Action V} (moved : step s a = some s') : Stepped s s' a := by
  cases taken_of_step moved with
  | advance duration => exact .kept _ rfl rfl rfl
  | call key => exact .joined key rfl rfl
  | hit i key e at_i found | miss i key at_i =>
    exact .moved _ i key _ _ at_i rfl ⟨fun _ => nofun,fun _ => nofun⟩ (get_fetching ..) (get_mutexes ..)
  | lockFor i key at_i => exact .asked i key at_i rfl rfl
  | lock i key l at_i unheld => exact .entered i key l at_i unheld rfl rfl
  | hitAgain i key l e at_i found =>
    exact .moved _ i key _ _ at_i rfl ⟨fun _ => nofun,fun _ same => same⟩ (get_fetching ..) (get_mutexes ..)
  | missAgain i key l at_i =>
    exact .moved _ i key _ _ at_i rfl ⟨fun _ same => same,fun _ same => same⟩ (get_fetching ..) (get_mutexes ..)
  | fetch i key l value err at_i => exact .moved _ i key _ _ at_i rfl ⟨fun _ => nofun,fun _ same => same⟩ rfl rfl
  | abort i key l at_i => exact .moved _ i key _ _ at_i rfl ⟨fun _ => nofun,fun _ => nofun⟩ rfl rfl
  | store i key l value err at_i => exact .stored i key l value err at_i rfl rfl
  | unlock i key l value err at_i => exact .moved _ i key _ _ at_i rfl ⟨fun _ => nofun,fun _ => nofun⟩ rfl rfl
  | get key => exact .kept _ rfl (get_fetching ..) (get_mutexes ..)
  | set key value => exact .wrote key value rfl rfl
  | invalidate key => exact .kept _ rfl (invalidate_fetching ..) (invalidate_mutexes ..)

end Mcpkit.CacheModel
