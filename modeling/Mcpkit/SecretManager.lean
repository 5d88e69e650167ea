import Mcpkit.GoMaps
import Mcpkit.Transitions

/-!
The secrets manager. `Get` looks at the closed flag and the cache in a section with the read lock,
asks the providers without a lock and puts the answer into the cache in a section with the write
lock.
-/
namespace Mcpkit.SecretManager
open GoMaps Transitions List Option
variable {V : Type}

/-! ### The manager -/

structure SecretProvider where
  name : String
  priority : Int
  deriving DecidableEq

inductive GetError where
  | managerClosed
  | secretNotFound
  | provider (name err : String)
  deriving DecidableEq

def GetError.message : GetError → String
  | .managerClosed => "manager is closed"
  | .secretNotFound => "secret not found"
  | .provider name err => name ++ ": " ++ err

structure CachedSecret (V : Type) where
  secret : Option V
  expiresAt : Int
  deriving DecidableEq

/-- The manager; no cache is a nil map. -/
structure Manager (V : Type) where
  providers : List SecretProvider
  cache : Option (GoMap (CachedSecret V))
  cacheTTL : Int
  closed : Bool

/-- `NewManager`, with the providers as `sortProviders` leaves them. -/
def newManager (cacheTTL : Option Int) (providers : List SecretProvider) : Manager V :=
  ⟨providers,some ∅,cacheTTL.getD 300000000000,false⟩

variable (m : Manager V) (key : String) (providers : List SecretProvider)

/-- `sort.Slice` by priority, which is not stable: any order it may leave. -/
def Sorts (order : List SecretProvider) : Prop :=
  order.Perm providers ∧ order.Pairwise (fun p q => p.priority ≤ q.priority)

instance (providers order : List SecretProvider) : Decidable (Sorts providers order) :=
  inferInstanceAs (Decidable (_ ∧ _))

def Manager.addProvider (p : SecretProvider) (order : List SecretProvider) : Option (Manager V) :=
  if Sorts (m.providers ++ [p]) order then some { m with providers := order } else none

def Manager.removeProvider (name : String) : Manager V :=
  { m with providers := m.providers.eraseP (fun p => p.name = name) }

variable (lastErr : Option GetError) (now : Int)

/-- The entry of a key, if the cache has one that has not expired. A nil map has none. -/
def Manager.cached : Option (Option V) :=
  match m.cache.bind (fun cache => cache.lookup key) with
  | some entry => if now < entry.expiresAt then some entry.secret else none
  | none => none

/-- The assignment panics if the map is nil. -/
def Manager.cacheSecret (secret : Option V) (now : Int) : Option (Manager V) :=
  m.cache.map (fun cache => { m with cache := some (cache.insert key ⟨secret,now+m.cacheTTL⟩) })

def Manager.invalidateCache : Manager V :=
  { m with cache := m.cache.map (fun cache => cache.erase key) }

def Manager.clearCache : Manager V := { m with cache := some ∅ }

/-- The manager after `Close`, and the texts of the errors that it joins. -/
def Manager.close (fails : SecretProvider → Option String) : Manager V × List String :=
  if m.closed then (m,[])
  else ({ m with closed := true, cache := none, providers := [] },
    m.providers.filterMap (fun p => (fails p).map (fun err => p.name ++ ": " ++ err)))

/-! ### Calls -/

/-- What a provider does for `Get`; `notFound` is an error that is `ErrSecretNotFound`. -/
inductive Answer (V : Type) where
  | unavailable
  | found (secret : Option V)
  | notFound
  | failed (err : String)

/-- `Get`; a `Refresh` is `invalidating` first. -/
inductive Phase (V : Type) where
  | invalidating
  | reading
  | asking (p : SecretProvider) (rest : List SecretProvider) (lastErr : Option GetError)
  | caching (secret : Option V)
  | returned (result : Except GetError (Option V))
  | panicked

/-- The call of `GetMultiple` it is for, and whether that has its result. `late` is history: the manager was
    closed when `Get` was called. -/
structure Call (V : Type) where
  key : String
  group : Option Nat
  collected : Bool
  late : Bool
  phase : Phase V

structure Group (V : Type) where
  pending : Nat
  results : GoMap V
  errs : List String
  returned : Bool

/-- A call of `Exists`: before its read section, with a provider to ask, gone. -/
inductive Probe where
  | reading (key : String)
  | asking (p : SecretProvider) (rest : List SecretProvider)
  | returned (found : Bool)

structure System (V : Type) where
  manager : Manager V
  now : Int
  calls : List (Call V)
  groups : List (Group V)
  probes : List Probe
  closes : List (List String)

def new (manager : Manager V) (now : Int) : System V := ⟨manager,now,[],[],[],[]⟩

def Phase.proceed : List SecretProvider → Phase V
  | [] => .returned (.error (lastErr.getD .secretNotFound))
  | p :: rest => .asking p rest lastErr

def Probe.proceed : List SecretProvider → Probe
  | [] => .returned false
  | p :: rest => .asking p rest

def Manager.read : Phase V :=
  if m.closed then .returned (.error .managerClosed)
  else match m.cached key now with
  | some secret => .returned (.ok secret)
  | none => .proceed none m.providers

def Answer.phase (p : SecretProvider) (rest : List SecretProvider) (lastErr : Option GetError) : Answer V → Phase V
  | .unavailable => .proceed lastErr rest
  | .found secret => .caching secret
  | .notFound => .proceed lastErr rest
  | .failed err => .proceed (some (.provider p.name err)) rest

def Group.collect (g : Group V) (key : String) : Except GetError (Option V) → Group V
  | .error .secretNotFound => { g with pending := g.pending-1 }
  | .error err => { g with pending := g.pending-1, errs := g.errs ++ [key ++ ": " ++ err.message] }
  | .ok none => { g with pending := g.pending-1 }
  | .ok (some secret) => { g with pending := g.pending-1, results := g.results.insert key secret }

/-- The calls, by their lock sections and provider answers; `found` is that the provider is available and has the
    key. -/
inductive Action (V : Type) where
  | get (key : String)
  | refresh (key : String)
  | getMultiple (keys : List String)
  | invalidate (i : Nat)
  | read (i : Nat)
  | answer (i : Nat) (answer : Answer V)
  | cacheSecret (i : Nat)
  | collect (i : Nat)
  | wait (g : Nat)
  | existsKey (key : String)
  | look (i : Nat)
  | probe (i : Nat) (found : Bool)
  | invalidateCache (key : String)
  | clearCache
  | addProvider (p : SecretProvider) (order : List SecretProvider)
  | removeProvider (name : String)
  | close (fails : SecretProvider → Option String)
  | advance (time : Nat)

variable (s : System V)

def System.call (key : String) (group : Option Nat) (phase : Phase V) : Call V :=
  ⟨key,group,false,s.manager.closed,phase⟩

def step : Action V → Option (System V)
  | .get key => some { s with calls := s.calls ++ [s.call key none .reading] }
  | .refresh key => some { s with calls := s.calls ++ [{ s.call key none .invalidating with late := false }] }
  | .getMultiple keys =>
    some { s with
      calls := s.calls ++ keys.map (fun key => s.call key (some s.groups.length) .reading)
      groups := s.groups ++ [⟨keys.length,∅,[],false⟩] }
  | .invalidate i =>
    match s.calls[i]? with
    | some ⟨key,group,collected,_,.invalidating⟩ =>
      some { s with
        manager := s.manager.invalidateCache key
        calls := s.calls.set i ⟨key,group,collected,s.manager.closed,.reading⟩ }
    | _ => none
  | .read i =>
    match s.calls[i]? with
    | some ⟨key,group,collected,late,.reading⟩ =>
      some { s with calls := s.calls.set i ⟨key,group,collected,late,s.manager.read key s.now⟩ }
    | _ => none
  | .answer i answer =>
    match s.calls[i]? with
    | some ⟨key,group,collected,late,.asking p rest lastErr⟩ =>
      some { s with calls := s.calls.set i ⟨key,group,collected,late,answer.phase p rest lastErr⟩ }
    | _ => none
  | .cacheSecret i =>
    match s.calls[i]? with
    | some ⟨key,group,collected,late,.caching secret⟩ =>
      match s.manager.cacheSecret key secret s.now with
      | some manager =>
        some { s with manager := manager, calls := s.calls.set i ⟨key,group,collected,late,.returned (.ok secret)⟩ }
      | none => some { s with calls := s.calls.set i ⟨key,group,collected,late,.panicked⟩ }
    | _ => none
  | .collect i =>
    match s.calls[i]? with
    | some ⟨key,some g,false,late,.returned result⟩ =>
      some { s with
        calls := s.calls.set i ⟨key,some g,true,late,.returned result⟩
        groups := s.groups.modify g (fun group => group.collect key result) }
    | _ => none
  | .wait g =>
    match s.groups[g]? with
    | some ⟨0,results,errs,false⟩ => some { s with groups := s.groups.set g ⟨0,results,errs,true⟩ }
    | _ => none
  | .existsKey key => some { s with probes := s.probes ++ [.reading key] }
  | .look i =>
    match s.probes[i]? with
    | some (.reading key) =>
      let probe := match s.manager.cached key s.now with
        | some _ => .returned true
        | none => .proceed s.manager.providers
      some { s with probes := s.probes.set i probe }
    | _ => none
  | .probe i found =>
    match s.probes[i]? with
    | some (.asking _ rest) => some { s with probes := s.probes.set i (if found then .returned true else .proceed rest) }
    | _ => none
  | .invalidateCache key => some { s with manager := s.manager.invalidateCache key }
  | .clearCache => some { s with manager := s.manager.clearCache }
  | .addProvider p order => (s.manager.addProvider p order).map (fun manager => { s with manager := manager })
  | .removeProvider name => some { s with manager := s.manager.removeProvider name }
  | .close fails =>
    some { s with manager := (s.manager.close fails).1, closes := s.closes ++ [(s.manager.close fails).2] }
  | .advance time => some { s with now := s.now+time }

/-! ### Closing under way -/

/-- Nothing was assigned to a nil map, and after `Close` a new `Get` fails and nothing is in the cache. -/
structure Survives : Prop where
  assigns : ∀ call ∈ s.calls, call.phase ≠ .panicked
  fails : ∀ call ∈ s.calls, call.late = true → call.phase = .reading ∨ call.phase = .returned (.error .managerClosed)
  empty : s.manager.closed = true → ∀ cache, s.manager.cache = some cache → cache = ∅

/-- `Close` comes when an answer is to be cached, or an answer when the manager is closed. -/
def Overlaps : Action V → Prop
  | .close _ => s.manager.closed = false ∧ ∃ call ∈ s.calls, ∃ secret, call.phase = .caching secret
  | .answer i (.found _) => s.manager.closed = true ∧
      ∃ call p rest lastErr, s.calls[i]? = some call ∧ call.phase = .asking p rest lastErr
  | _ => False

structure Call.Fine (closed : Bool) (call : Call V) : Prop where
  assigns : call.phase ≠ .panicked
  late : call.late = true → closed = true ∧ (call.phase = .reading ∨ call.phase = .returned (.error .managerClosed))
  idle : closed = true → ∀ secret, call.phase ≠ .caching secret

/-- An open manager has a cache, and a closed one none that holds anything. -/
structure Manager.Sound (m : Manager V) : Prop where
  opened : m.closed = false → ∃ cache, m.cache = some cache
  empty : m.closed = true → ∀ cache, m.cache = some cache → cache = ∅

structure Kept : Prop where
  calls : ∀ call ∈ s.calls, call.Fine s.manager.closed
  manager : s.manager.Sound

theorem kept_new (cacheTTL : Option Int) (providers : List SecretProvider) (now : Int) :
    Kept (new (newManager cacheTTL providers : Manager V) now) :=
  ⟨fun _ member => absurd member not_mem_nil,fun _ => ⟨∅,rfl⟩,nofun⟩

theorem Kept.survives {s : System V} (kept : Kept s) : Survives s :=
  ⟨fun call member => (kept.calls call member).assigns,fun call member late => ((kept.calls call member).late late).2,
    kept.manager.empty⟩

theorem Manager.Sound.invalidateCache {m : Manager V} (sound : m.Sound) (key : String) :
    (m.invalidateCache key).Sound := by
  refine ⟨fun opened => ?_,fun closed cache held => ?_⟩
  · obtain ⟨cache,held⟩ := sound.opened opened
    refine ⟨cache.erase key,?_⟩
    rw [Manager.invalidateCache,held]
    rfl
  · obtain ⟨old,before,rfl⟩ := map_eq_some_iff.mp held
    rw [sound.empty closed old before]
    rfl

theorem Manager.close_of_closed {m : Manager V} (closed : m.closed = true) (fails : SecretProvider → Option String) :
    m.close fails = (m,[]) := if_pos closed

open Manager

theorem Manager.close_of_open {m : Manager V} (open_ : m.closed = false) (fails : SecretProvider → Option String) :
    (m.close fails).1 = { m with closed := true, cache := none, providers := [] } := by
  rw [close,if_neg (by rw [open_]; nofun)]

variable (rest : List SecretProvider)

theorem proceed_ne_panicked : (Phase.proceed lastErr rest : Phase V) ≠ .panicked := by cases rest <;> nofun

theorem proceed_ne_caching (secret : Option V) : Phase.proceed lastErr rest ≠ .caching secret := by cases rest <;> nofun

theorem read_spec :
    (m.closed = true → m.read key now = .returned (.error .managerClosed)) ∧ m.read key now ≠ .panicked ∧
    ∀ secret, m.read key now ≠ .caching secret := by
  unfold Manager.read
  split
  · exact ⟨fun _ => rfl,nofun,nofun⟩
  · rename_i open_
    split
    · exact ⟨fun closed => absurd closed open_,nofun,nofun⟩
    · exact ⟨fun closed => absurd closed open_,proceed_ne_panicked _ _,proceed_ne_caching _ _⟩

variable {s s' : System V}

theorem Kept.at (kept : Kept s) {i : Nat} {call : Call V} (here : s.calls[i]? = some call) :
    call.Fine s.manager.closed := kept.calls call (mem_of_getElem? here)

theorem Kept.set (kept : Kept s) {i : Nat} {call : Call V} (fine : call.Fine s.manager.closed) :
    ∀ other ∈ s.calls.set i call, other.Fine s.manager.closed := forall_mem_set kept.calls fine

theorem Kept.append (kept : Kept s) {more : List (Call V)} (fine : ∀ call ∈ more, call.Fine s.manager.closed) :
    ∀ call ∈ s.calls ++ more, call.Fine s.manager.closed := forall_mem_append.mpr ⟨kept.calls,fine⟩

theorem fine_reading (closed collected : Bool) (key : String) (group : Option Nat) :
    (⟨key,group,collected,closed,.reading⟩ : Call V).Fine closed :=
  ⟨nofun,fun late => ⟨late,.inl rfl⟩,nofun⟩

theorem Kept.answer (kept : Kept s) {i : Nat} {key : String} {group : Option Nat} {collected late : Bool}
    {p : SecretProvider} {rest : List SecretProvider} {lastErr : Option GetError} {answer : Answer V}
    (here : s.calls[i]? = some ⟨key,group,collected,late,.asking p rest lastErr⟩)
    (apart : ¬ Overlaps s (.answer i answer)) :
    (⟨key,group,collected,late,answer.phase p rest lastErr⟩ : Call V).Fine s.manager.closed := by
  have early : late = true → False := by
    intro late
    rcases ((kept.at here).late late).2 with phase | phase <;> cases phase
  refine ⟨?_,fun late => (early late).elim,?_⟩
  · cases answer with
    | found secret => nofun
    | unavailable | notFound | failed err => exact proceed_ne_panicked _ _
  · intro closed
    cases answer with
    | found secret => exact absurd ⟨closed,_,p,rest,lastErr,here,rfl⟩ apart
    | unavailable | notFound | failed err => exact proceed_ne_caching _ _

theorem Kept.step {a : Action V} (kept : Kept s) (apart : ¬ Overlaps s a) (stepped : step s a = some s') : Kept s' := by
  cases a with
  | get key =>
    cases stepped
    refine ⟨kept.append ?_,kept.manager⟩
    intro call member
    cases mem_singleton.mp member
    exact fine_reading _ _ _ _
  | refresh key =>
    cases stepped
    refine ⟨kept.append ?_,kept.manager⟩
    intro call member
    cases mem_singleton.mp member
    exact ⟨nofun,nofun,nofun⟩
  | getMultiple keys =>
    cases stepped
    refine ⟨kept.append (fun call member => ?_),kept.manager⟩
    obtain ⟨key,-,rfl⟩ := mem_map.mp member
    exact fine_reading _ _ _ _
  | invalidate i =>
    simp only [SecretManager.step] at stepped
    split at stepped
    · cases stepped
      exact ⟨kept.set (fine_reading _ _ _ _),kept.manager.invalidateCache _⟩
    · cases stepped
  | read i =>
    simp only [SecretManager.step] at stepped
    split at stepped
    · rename_i key group collected late here
      cases stepped
      obtain ⟨shut,fine,idle⟩ := read_spec s.manager key s.now
      refine ⟨kept.set ⟨fine,fun late => ?_,fun _ => idle⟩,kept.manager⟩
      have closed := ((kept.at here).late late).1
      exact ⟨closed,.inr (shut closed)⟩
    · cases stepped
  | answer i answer =>
    simp only [SecretManager.step] at stepped
    split at stepped
    · rename_i here
      cases stepped
      exact ⟨kept.set (kept.answer here apart),kept.manager⟩
    · cases stepped
  | cacheSecret i =>
    simp only [SecretManager.step] at stepped
    split at stepped
    · rename_i key group collected late secret here
      have open_ : s.manager.closed = false := by
        rw [← Bool.not_eq_true]
        exact fun closed => (kept.at here).idle closed secret rfl
      obtain ⟨cache,held⟩ := kept.manager.opened open_
      simp only [cacheSecret,held,map_some] at stepped
      cases stepped
      refine ⟨kept.set ⟨nofun,fun late => ?_,nofun⟩,fun _ => ⟨_,rfl⟩,fun closed => ?_⟩
      · rcases ((kept.at here).late late).2 with phase | phase <;> cases phase
      · cases open_.symm.trans closed
    · cases stepped
  | collect i =>
    simp only [SecretManager.step] at stepped
    split at stepped
    · rename_i key g late result here
      cases stepped
      have fine := kept.at here
      exact ⟨kept.set ⟨nofun,fine.late,nofun⟩,kept.manager⟩
    · cases stepped
  | wait g =>
    simp only [SecretManager.step] at stepped
    split at stepped
    · cases stepped
      exact ⟨kept.calls,kept.manager⟩
    · cases stepped
  | existsKey key =>
    cases stepped
    exact ⟨kept.calls,kept.manager⟩
  | look i | probe i found =>
    simp only [SecretManager.step] at stepped
    split at stepped
    · cases stepped
      exact ⟨kept.calls,kept.manager⟩
    · cases stepped
  | invalidateCache key =>
    cases stepped
    exact ⟨kept.calls,kept.manager.invalidateCache key⟩
  | clearCache =>
    cases stepped
    refine ⟨kept.calls,fun _ => ⟨∅,rfl⟩,fun _ cache held => ?_⟩
    cases held
    rfl
  | addProvider p order =>
    obtain ⟨manager,added,rfl⟩ := map_eq_some_iff.mp stepped
    unfold addProvider at added
    split at added
    · cases added
      exact ⟨kept.calls,kept.manager.opened,kept.manager.empty⟩
    · cases added
  | removeProvider name =>
    cases stepped
    exact ⟨kept.calls,kept.manager.opened,kept.manager.empty⟩
  | close fails =>
    simp only [SecretManager.step,some.injEq] at stepped
    subst stepped
    cases closed : s.manager.closed with
    | true =>
      rw [close_of_closed closed]
      exact ⟨kept.calls,kept.manager⟩
    | false =>
      rw [close_of_open closed]
      refine ⟨fun call member => ?_,nofun,nofun⟩
      have fine := kept.calls call member
      refine ⟨fine.assigns,fun late => ?_,fun _ secret caching => apart ⟨closed,call,member,secret,caching⟩⟩
      cases closed.symm.trans (fine.late late).1
  | advance time =>
    cases stepped
    exact ⟨kept.calls,kept.manager⟩

/-- After such a step the answer goes into a nil map, or into the map of a closed manager. -/
theorem Overlaps.breaks {a : Action V} (overlaps : Overlaps s a) (stepped : SecretManager.step s a = some s') :
    ∃ s'', Reachable SecretManager.step free s' s'' ∧ ¬ Survives s'' := by
  have caches {t : System V} {i : Nat} {key : String} {group : Option Nat} {collected late : Bool} {secret : Option V}
      (closed : t.manager.closed = true) (here : t.calls[i]? = some ⟨key,group,collected,late,.caching secret⟩) :
      ∃ s'', Reachable SecretManager.step free t s'' ∧ ¬ Survives s'' := by
    have inside := lt_of_getElem? here
    cases held : t.manager.cache with
    | none =>
      have moved : SecretManager.step t (.cacheSecret i) =
          some { t with calls := t.calls.set i ⟨key,group,collected,late,.panicked⟩ } := by
        simp only [SecretManager.step,here,cacheSecret,held,map_none]
      exact ⟨_,.next (.cacheSecret i) .start trivial moved,
        fun survives => survives.assigns _ (mem_set inside _) rfl⟩
    | some cache =>
      have moved : SecretManager.step t (.cacheSecret i) = some { t with
          manager := { t.manager with cache := some (cache.insert key ⟨secret,t.now+t.manager.cacheTTL⟩) }
          calls := t.calls.set i ⟨key,group,collected,late,.returned (.ok secret)⟩ } := by
        simp only [SecretManager.step,here,cacheSecret,held,map_some]
      refine ⟨_,.next (.cacheSecret i) .start trivial moved,fun survives => ?_⟩
      have found := congrArg (fun cache => cache.lookup key) (survives.empty closed _ rfl)
      simp at found
  cases a with
  | close fails =>
    obtain ⟨open_,call,member,secret,caching⟩ := overlaps
    obtain ⟨i,here⟩ := mem_iff_getElem?.mp member
    obtain ⟨key,group,collected,late,phase⟩ := call
    cases caching
    simp only [SecretManager.step,some.injEq] at stepped
    subst stepped
    rw [close_of_open open_]
    exact caches rfl here
  | answer i answer =>
    cases answer with
    | found secret =>
      obtain ⟨closed,call,p,rest,lastErr,here,asking⟩ := overlaps
      obtain ⟨key,group,collected,late,phase⟩ := call
      cases asking
      simp only [SecretManager.step,here,some.injEq] at stepped
      subst stepped
      exact caches closed (getElem?_set_some here)
    | _ => exact absurd overlaps id
  | _ => exact absurd overlaps id

/-- In every run in which `Close` and the answers do not overlap, the manager survives. A step
    that overlaps can be followed by a step after which it has not. -/
theorem close_survives_iff (cacheTTL : Option Int) (providers : List SecretProvider) (now : Int)
    (reached : Reachable SecretManager.step (fun s a => ¬ Overlaps s a) (new (newManager cacheTTL providers) now) s) :
    Survives s ∧ ∀ a s', Overlaps s a → SecretManager.step s a = some s' →
      ∃ s'', Reachable SecretManager.step free s' s'' ∧ ¬ Survives s'' := by
  have kept : Kept s := reached.invariant (I := Kept) (kept_new cacheTTL providers now)
    (fun s a s' kept ok moved => kept.step ok moved)
  exact ⟨kept.survives,fun a s' overlaps stepped => overlaps.breaks stepped⟩

instance (phase : Phase V) : Decidable (∃ secret, phase = .caching secret) :=
  match phase with
  | .caching secret => .isTrue ⟨secret,rfl⟩
  | .invalidating | .reading | .asking _ _ _ | .returned _ | .panicked => .isFalse nofun

instance (s : System V) (i : Nat) :
    Decidable (∃ call p rest lastErr, s.calls[i]? = some call ∧ call.phase = .asking p rest lastErr) :=
  match here : s.calls[i]? with
  | some ⟨key,group,collected,late,.asking p rest lastErr⟩ => .isTrue ⟨_,p,rest,lastErr,rfl,rfl⟩
  | some ⟨_,_,_,_,.caching _⟩ | some ⟨_,_,_,_,.invalidating⟩ | some ⟨_,_,_,_,.reading⟩ | some ⟨_,_,_,_,.returned _⟩
  | some ⟨_,_,_,_,.panicked⟩ | none => .isFalse (by rintro ⟨_,_,_,_,⟨⟩,⟨⟩⟩)

instance (s : System V) : ∀ a, Decidable (Overlaps s a)
  | .close _ => inferInstanceAs (Decidable (_ ∧ ∃ call ∈ s.calls, ∃ secret, call.phase = .caching secret))
  | .answer i (.found _) =>
    inferInstanceAs (Decidable (_ ∧ ∃ call p rest lastErr, s.calls[i]? = some call ∧ call.phase = .asking p rest lastErr))
  | .get _ | .refresh _ | .getMultiple _ | .invalidate _ | .read _ | .answer _ .unavailable | .answer _ .notFound
  | .answer _ (.failed _) | .cacheSecret _ | .collect _ | .wait _ | .existsKey _ | .look _ | .probe _ _
  | .invalidateCache _ | .clearCache | .addProvider _ _ | .removeProvider _ | .advance _ => .isFalse id

def sampleManager : System Nat := new (newManager none [⟨"env",1⟩]) 0

def sampleGets : List (Action Nat) :=
  [.get "a",.read 0,.answer 0 (.found (some 7)),.cacheSecret 0,.get "b",.read 1]

/-- The manager is closed and the provider has no answer; a later `Get` fails. -/
def sampleClose : List (Action Nat) := sampleGets ++ [.close (fun _ => none),.answer 1 .notFound,.get "a",.read 2]

def sampleClosed : System Nat := (exec step (fun s a => ¬ Overlaps s a) sampleManager sampleClose).getD sampleManager

def samplePanic : List (Action Nat) := sampleGets ++ [.close (fun _ => none),.answer 1 (.found (some 8)),.cacheSecret 1]

def samplePanicked : System Nat := (exec step free sampleManager samplePanic).getD sampleManager

def sampleLeak : List (Action Nat) :=
  sampleGets ++ [.close (fun _ => none),.clearCache,.answer 1 (.found (some 8)),.cacheSecret 1]

def sampleLeaked : System Nat := (exec step free sampleManager sampleLeak).getD sampleManager

theorem close_survives_sample :
    sampleClosed.manager.closed = true ∧ sampleClosed.calls.map Call.late = [false,false,true] ∧ Survives sampleClosed :=
  ⟨rfl,rfl,(close_survives_iff none [⟨"env",1⟩] 0 (exec_reachable sampleClose .start rfl)).1⟩

/-- The `Get` under way assigns into a nil map, or leaves its secret in the cache of the closed manager. -/
theorem close_breaks_get :
    Reachable step free sampleManager samplePanicked ∧ (∃ call ∈ samplePanicked.calls, call.phase = .panicked) ∧
    Reachable step free sampleManager sampleLeaked ∧ sampleLeaked.manager.closed = true ∧
    sampleLeaked.manager.cached "b" 0 = some (some 8) ∧ ¬ Survives samplePanicked ∧ ¬ Survives sampleLeaked := by
  have panicked : ∃ call ∈ samplePanicked.calls, call.phase = .panicked :=
    ⟨⟨"b",none,false,false,.panicked⟩,mem_of_getElem? (i := 1) rfl,rfl⟩
  have leaked : sampleLeaked.manager.cached "b" 0 = some (some 8) := by decide
  refine ⟨exec_reachable samplePanic .start rfl,panicked,exec_reachable sampleLeak .start rfl,rfl,leaked,?_,?_⟩
  · intro survives
    obtain ⟨call,member,phase⟩ := panicked
    exact survives.assigns call member phase
  · intro survives
    obtain ⟨cache,held⟩ : ∃ cache, sampleLeaked.manager.cache = some cache := ⟨_,rfl⟩
    rw [cached,held,survives.empty rfl cache held] at leaked
    cases leaked

end Mcpkit.SecretManager
