import Mcpkit.CacheModel

/-!
Single flight. The callers of one key exclude each other only as long as they agree on its mutex.
-/
namespace Mcpkit.CacheFlight
open GoMaps Transitions CacheModel List Finmap
variable {V : Type} (s : System V)

/-- At most one fetch function runs for a key. -/
def SingleFlight : Prop := ∀ (i j : Nat) (key : String) (l m : Nat),
  s.callers[i]? = some ⟨key,.fetching l⟩ → s.callers[j]? = some ⟨key,.fetching m⟩ → i = j

def evictions (s : System V) : Action V → List String
  | .store i =>
    match s.callers[i]? with
    | some ⟨key,.fetched _ _ _⟩ => s.cache.evictions key
    | _ => []
  | .set key _ => s.cache.evictions key
  | _ => []

/-- A caller of the key waits for its mutex, or holds it and has not returned from its fetch function. -/
def Underway (key : String) : Prop :=
  ∃ caller ∈ s.callers, caller.key = key ∧ caller.phase.underway.isSome = true

instance (s : System V) (key : String) : Decidable (Underway s key) :=
  inferInstanceAs (Decidable (∃ caller ∈ s.callers, _))

def EvictsUnderway (a : Action V) : Prop := ∃ key ∈ evictions s a, Underway s key

instance (s : System V) (a : Action V) : Decidable (EvictsUnderway s a) :=
  inferInstanceAs (Decidable (∃ key ∈ evictions s a, _))

/-! ### Callers and mutexes, step by step -/

variable {i j l : Nat} {caller : Caller V} {callers : List (Caller V)}

private theorem caller_set {new : Caller V}
    (at_j : (callers.set i new)[j]? = some caller) : (j = i ∧ caller = new) ∨ callers[j]? = some caller := by
  rw [getElem?_set] at at_j
  split at at_j
  · rename_i same
    split at at_j
    · cases at_j
      exact .inl ⟨same.symm,rfl⟩
    · cases at_j
  · exact .inr at_j

private theorem places_differ {a b : Caller V} (at_i : callers[i]? = some a)
    (at_j : callers[j]? = some b) (different : a ≠ b) : j ≠ i := by
  rintro rfl
  exact different (Option.some.inj (at_i.symm.trans at_j))

/-- The caller of a place after a step: it has no mutex, was there before, was just given its mutex, or just
    locked it. -/
inductive Came (s s' : System V) (a : Action V) (j : Nat) (caller : Caller V) : Prop
  | free (waits : caller.phase.underway = none) (holds : caller.phase.holds = none)
  | stayed (old : Phase V) (at_j : s.callers[j]? = some ⟨caller.key,old⟩) (relaxes : Relaxes old caller.phase)
  | asked (l : Nat) (waiting : caller.phase = .waiting l) (given : s'.cache.fetching.lookup caller.key = some l)
  | entered (l : Nat) (here : a = .lock j) (at_j : s.callers[j]? = some ⟨caller.key,.waiting l⟩)
      (locked : caller.phase = .locked l)
      (unheld : ∀ other ∈ s.callers, other.phase.holds ≠ some l)

variable {a : Action V} {s s' : System V} {key : String}

private theorem Came.same
    (at_j : s.callers[j]? = some caller) : Came s s' a j caller := .stayed caller.phase at_j ⟨fun _ same => same,fun _ same => same⟩

private theorem lockFor_given (c : KeyedCache V) (key : String) :
    (c.lockFor key).2.fetching.lookup key = some (c.lockFor key).1 := by
  rcases lockFor_cases c key with ⟨found,cache⟩ | ⟨-,number,fetching,-⟩
  · rw [cache]; exact found
  · rw [fetching,number]; exact lookup_insert _

section
variable (stepped : Stepped s s' a)
include stepped

theorem caller_came (at_j : s'.callers[j]? = some caller) : Came s s' a j caller := by
  cases stepped with
  | kept a callers fetching mutexes => rw [callers] at at_j; exact .same at_j
  | joined key callers cache =>
    rw [callers,getElem?_append] at at_j
    split at at_j
    · exact .same at_j
    · have last := List.mem_singleton.mp (mem_of_getElem? at_j)
      subst last
      exact .free rfl rfl
  | moved a i key old new at_i callers relaxes fetching mutexes =>
    rw [callers] at at_j
    rcases caller_set at_j with ⟨rfl,rfl⟩ | before
    · exact .stayed old at_i relaxes
    · exact .same before
  | asked i key at_i callers cache =>
    rw [callers] at at_j
    rcases caller_set at_j with ⟨rfl,rfl⟩ | before
    · exact .asked _ rfl (by rw [cache]; exact lockFor_given s.cache key)
    · exact .same before
  | entered i key l at_i unheld callers cache =>
    rw [callers] at at_j
    rcases caller_set at_j with ⟨rfl,rfl⟩ | before
    · exact .entered l rfl at_i rfl unheld
    · exact .same before
  | stored i key l value err at_i callers cache =>
    rw [callers] at at_j
    rcases caller_set at_j with ⟨rfl,rfl⟩ | before
    · exact .stayed _ at_i ⟨fun _ => nofun,fun _ same => same⟩
    · exact .same before
  | wrote key value callers cache => rw [callers] at at_j; exact .same at_j

private theorem mutexes_kept (made : s.cache.mutexes[l]? = some key) : s'.cache.mutexes[l]? = some key := by
  cases stepped with
  | kept a callers fetching mutexes => rw [mutexes]; exact made
  | joined key callers cache => rw [cache]; exact made
  | moved a i key old new at_i callers relaxes fetching mutexes => rw [mutexes]; exact made
  | asked i key at_i callers cache =>
    rw [cache]
    rcases lockFor_cases s.cache key with ⟨-,same⟩ | ⟨-,-,-,mutexes⟩
    · rw [same]; exact made
    · rw [mutexes]; exact getElem?_append_some made
  | entered i key l at_i unheld callers cache => rw [cache]; exact made
  | stored i key l value err at_i callers cache | wrote key value callers cache => rw [cache,set_mutexes]; exact made

private theorem fetching_kept (kept : key ∉ evictions s a)
    (found : s.cache.fetching.lookup key = some l) : s'.cache.fetching.lookup key = some l := by
  cases stepped with
  | kept a callers fetching mutexes => rw [fetching]; exact found
  | joined _ callers cache => rw [cache]; exact found
  | moved a i _ old new at_i callers relaxes fetching mutexes => rw [fetching]; exact found
  | asked i asked at_i callers cache =>
    rw [cache]
    rcases lockFor_cases s.cache asked with ⟨-,same⟩ | ⟨missing,-,fetching,-⟩
    · rw [same]; exact found
    · have other : key ≠ asked := by
        rintro rfl
        rw [missing] at found
        cases found
      rw [fetching,← found]
      exact lookup_insert_of_ne _ other
  | entered i _ l at_i unheld callers cache => rw [cache]; exact found
  | stored i _ l value err at_i callers cache =>
    rw [evictions,at_i] at kept
    rw [cache,set_fetching,if_neg kept]
    exact found
  | wrote _ value callers cache =>
    rw [evictions] at kept
    rw [cache,set_fetching,if_neg kept]
    exact found

private theorem fetching_came (found : s'.cache.fetching.lookup key = some l) :
    s.cache.fetching.lookup key = some l ∨ s'.cache.mutexes[l]? = some key := by
  cases stepped with
  | kept a callers fetching mutexes => rw [fetching] at found; exact .inl found
  | joined _ callers cache => rw [cache] at found; exact .inl found
  | moved a i _ old new at_i callers relaxes fetching mutexes => rw [fetching] at found; exact .inl found
  | asked i asked at_i callers cache =>
    rw [cache] at found
    rcases lockFor_cases s.cache asked with ⟨-,same⟩ | ⟨-,-,fetching,mutexes⟩
    · rw [same] at found; exact .inl found
    · rw [fetching] at found
      by_cases same : key = asked
      · subst same
        rw [lookup_insert] at found
        cases found
        exact .inr (by rw [cache,mutexes]; simp)
      · rw [lookup_insert_of_ne _ same] at found
        exact .inl found
  | entered i _ l at_i unheld callers cache => rw [cache] at found; exact .inl found
  | stored i _ l value err at_i callers cache => rw [cache] at found; exact .inl (set_found found)
  | wrote _ value callers cache => rw [cache] at found; exact .inl (set_found found)

end

/-! ### What holds in every run -/

/-- Mutexes belong to the keys they were made for, and no two callers hold one. -/
structure Locks (s : System V) : Prop where
  registered : ∀ key l, s.cache.fetching.lookup key = some l → s.cache.mutexes[l]? = some key
  owned : ∀ (i : Nat) (caller : Caller V) (l : Nat), s.callers[i]? = some caller →
    caller.phase.underway = some l ∨ caller.phase.holds = some l → s.cache.mutexes[l]? = some caller.key
  exclusive : ∀ (i j : Nat) (a b : Caller V) (l : Nat), s.callers[i]? = some a → s.callers[j]? = some b →
    a.phase.holds = some l → b.phase.holds = some l → i = j

private theorem held_before (stepped : Stepped s s' a)
    (at_i : s'.callers[i]? = some caller) (holds : caller.phase.holds = some l) :
    (∃ old, s.callers[i]? = some old ∧ old.phase.holds = some l) ∨
    (a = .lock i ∧ ∀ other ∈ s.callers, other.phase.holds ≠ some l) := by
  cases caller_came stepped at_i with
  | free waits none => rw [none] at holds; cases holds
  | stayed old before relaxes => exact .inl ⟨_,before,relaxes.holds l holds⟩
  | asked m waiting given => rw [waiting] at holds; cases holds
  | entered m here before locked unheld =>
    rw [locked] at holds
    cases holds
    exact .inr ⟨here,unheld⟩

private theorem registered_step (locks : Locks s) (stepped : Stepped s s' a)
    (found : s'.cache.fetching.lookup key = some l) : s'.cache.mutexes[l]? = some key := by
  rcases fetching_came stepped found with before | made
  · exact mutexes_kept stepped (locks.registered key l before)
  · exact made

theorem Locks.step (locks : Locks s) (stepped : Stepped s s' a) : Locks s' where
  registered key l found := registered_step locks stepped found
  owned i caller l at_i mine := by
    cases caller_came stepped at_i with
    | free waits none => rw [waits,none] at mine; simp at mine
    | stayed old before relaxes =>
      exact mutexes_kept stepped (locks.owned i ⟨caller.key,old⟩ l before (mine.imp (relaxes.underway l) (relaxes.holds l)))
    | asked m waiting given =>
      have same : m = l := by simpa [waiting,Phase.underway,Phase.holds] using mine
      subst same
      exact registered_step locks stepped given
    | entered m here before locked unheld =>
      have same : m = l := by simpa [locked,Phase.underway,Phase.holds] using mine
      subst same
      exact mutexes_kept stepped (locks.owned i ⟨caller.key,.waiting m⟩ m before (.inl rfl))
  exclusive i j b c l at_i at_j first second := by
    rcases held_before stepped at_i first with ⟨old,before,held⟩ | ⟨here,unheld⟩
    · rcases held_before stepped at_j second with ⟨old',before',held'⟩ | ⟨-,unheld⟩
      · exact locks.exclusive i j old old' l before before' held held'
      · exact absurd held (unheld old (mem_of_getElem? before))
    · rcases held_before stepped at_j second with ⟨old',before',held'⟩ | ⟨here',-⟩
      · exact absurd held' (unheld old' (mem_of_getElem? before'))
      · rw [here] at here'
        exact Action.lock.inj here'

theorem locks_new (ttl maxSize now : Int) : Locks (new ttl maxSize now : System V) where
  registered key l found := by simp [new,newKeyedCache] at found
  owned i caller l at_i := by simp [new] at at_i
  exclusive i j a b l at_i := by simp [new] at at_i

/-! ### Without evictions of keys underway -/

/-- A caller whose fetch is underway has the mutex that the map holds for its key. -/
def Agreed (s : System V) : Prop := ∀ (i : Nat) (caller : Caller V) (l : Nat), s.callers[i]? = some caller →
  caller.phase.underway = some l → s.cache.fetching.lookup caller.key = some l

private theorem underway_kept (spared : ¬ EvictsUnderway s a)
    (at_i : s.callers[i]? = some caller) (waits : caller.phase.underway = some l) : caller.key ∉ evictions s a :=
  fun evicted => spared ⟨_,evicted,caller,mem_of_getElem? at_i,rfl,by rw [waits]; rfl⟩

theorem Agreed.step (agreed : Agreed s) (spared : ¬ EvictsUnderway s a) (stepped : Stepped s s' a) : Agreed s' := by
  intro i caller l at_i waits
  cases caller_came stepped at_i with
  | free none holds => rw [none] at waits; cases waits
  | stayed old before relaxes =>
    have earlier := relaxes.underway l waits
    have kept := underway_kept spared before earlier
    exact fetching_kept stepped kept (agreed i ⟨caller.key,old⟩ l before earlier)
  | asked m waiting given =>
    rw [waiting] at waits
    cases waits
    exact given
  | entered m here before locked unheld =>
    rw [locked] at waits
    cases waits
    have kept := underway_kept spared before rfl
    exact fetching_kept stepped kept (agreed i ⟨caller.key,.waiting l⟩ l before rfl)

theorem single_flight_of_agreed (locks : Locks s) (agreed : Agreed s) : SingleFlight s := by
  intro i j key l m at_i at_j
  have first := agreed i _ l at_i rfl
  have second := agreed j _ m at_j rfl
  have same : l = m := Option.some.inj (first.symm.trans second)
  subst same
  exact locks.exclusive i j _ _ l at_i at_j rfl rfl

/-! ### After an eviction of a key underway -/

private theorem get_missed {c : KeyedCache V} {now : Int} (missed : (c.get now key).1 = none) :
    c.get now key = (none,c) := by
  unfold KeyedCache.get at missed ⊢
  cases found : c.entries.lookup key with
  | none => rfl
  | some e =>
    simp only [found] at missed ⊢
    split
    · rfl
    · rename_i live
      rw [if_neg live] at missed
      cases missed

private theorem expires (c : KeyedCache V) (now : Int) (key : String) : ∃ d : Nat, (c.get (now+d) key).1 = none := by
  unfold KeyedCache.get
  cases found : c.entries.lookup key with
  | none => exact ⟨0,rfl⟩
  | some e =>
    refine ⟨(c.ttl+e.fetchAt-now).toNat,?_⟩
    have expired : now+(c.ttl+e.fetchAt-now).toNat-e.fetchAt ≥ c.ttl := by omega
    simp only [if_pos expired]

private theorem lockFor_missed {c : KeyedCache V} {now : Int} (missed : (c.get now key).1 = none) :
    ((c.lockFor key).2.get now key).1 = none := by
  unfold KeyedCache.lockFor
  split
  · exact missed
  · unfold KeyedCache.get at missed ⊢
    revert missed
    cases c.entries.lookup key with
    | none => exact fun _ => rfl
    | some e =>
      intro missed
      by_cases expired : now-e.fetchAt ≥ c.ttl
      · simp only [if_pos expired]
      · simp [expired] at missed

private theorem look_missed (at_i : s.callers[i]? = some ⟨key,.started⟩) (missed : (s.cache.get s.now key).1 = none) :
    step s (.look i) = some (s.move i key .missed) := by
  simp only [step,at_i,get_missed missed]

private theorem lockFor_asked (at_i : s.callers[i]? = some ⟨key,.missed⟩) : step s (.lockFor i) =
      some ({ s with cache := (s.cache.lockFor key).2 }.move i key (.waiting (s.cache.lockFor key).1)) := by
  simp only [step,at_i]

private theorem lock_entered (at_i : s.callers[i]? = some ⟨key,.waiting l⟩)
    (unheld : ∀ caller ∈ s.callers, caller.phase.holds ≠ some l) :
    step s (.lock i) = some (s.move i key (.locked l)) := by
  simp only [step,at_i]
  exact if_pos unheld

private theorem lookAgain_missed (at_i : s.callers[i]? = some ⟨key,.locked l⟩)
    (missed : (s.cache.get s.now key).1 = none) : step s (.lookAgain i) = some (s.move i key (.fetching l)) := by
  simp only [step,at_i,get_missed missed]

private theorem moved_at (at_i : s.callers[i]? = some caller) (phase : Phase V) :
    (s.move i key phase).callers[i]? = some ⟨key,phase⟩ :=
  getElem?_set_some at_i

private theorem moved_other {j : Nat} (other : i ≠ j) (phase : Phase V) :
    (s.move i key phase).callers[j]? = s.callers[j]? := getElem?_set_ne other

/-- A key is fetched, its entry is expired or missing and its mutex is dropped. -/
structure Exposed (s : System V) (key : String) : Prop where
  dropped : s.cache.fetching.lookup key = none
  missed : (s.cache.get s.now key).1 = none
  flying : ∃ (i l : Nat), s.callers[i]? = some ⟨key,.fetching l⟩

private def joined (s : System V) (key : String) (phase : Phase V) : System V :=
  { s with callers := s.callers ++ [⟨key,phase⟩] }

private theorem joined_at (s : System V) (key : String) (phase : Phase V) :
    (joined s key phase).callers[s.callers.length]? = some ⟨key,phase⟩ := by simp [joined]

private theorem joined_move (s : System V) (key : String) (old phase : Phase V) :
    (joined s key old).move s.callers.length key phase = joined s key phase := by simp [joined,System.move]

open Reachable

private theorem newcomer_fetches (locks : Locks s) (exposed : Exposed s key) :
    ∃ t, Reachable step free s t ∧ ¬ SingleFlight t := by
  obtain ⟨dropped,missed,i,l,at_i⟩ := exposed
  let n := s.callers.length
  let t : System V := { s with cache := (s.cache.lockFor key).2 }
  let m := (s.cache.lockFor key).1
  have fresh : m = s.cache.mutexes.length := by
    rcases lockFor_cases s.cache key with ⟨found,-⟩ | ⟨-,number,-⟩
    · rw [dropped] at found; cases found
    · exact number
  have unheld : ∀ caller ∈ (joined t key (.waiting m)).callers, caller.phase.holds ≠ some m := by
    intro caller member holds
    rcases List.mem_append.mp member with old | last
    · obtain ⟨j,at_j⟩ := mem_iff_getElem?.mp old
      have made := locks.owned j caller m at_j (.inr holds)
      rw [fresh] at made
      simp at made
    · rw [List.mem_singleton.mp last] at holds
      cases holds
  have called : step s (.call key) = some (joined s key .started) := rfl
  have looked : step (joined s key .started) (.look n) = some (joined s key .missed) := by
    rw [look_missed (joined_at s key .started) missed,joined_move]
  have asked : step (joined s key .missed) (.lockFor n) = some (joined t key (.waiting m)) := by
    rw [lockFor_asked (joined_at s key .missed)]
    exact congrArg some (joined_move t key .missed (.waiting m))
  have entered : step (joined t key (.waiting m)) (.lock n) = some (joined t key (.locked m)) := by
    rw [lock_entered (joined_at t key (.waiting m)) unheld]
    exact congrArg some (joined_move t key (.waiting m) (.locked m))
  have again : step (joined t key (.locked m)) (.lookAgain n) = some (joined t key (.fetching m)) := by
    rw [lookAgain_missed (joined_at t key (.locked m)) (lockFor_missed missed)]
    exact congrArg some (joined_move t key (.locked m) (.fetching m))
  refine ⟨_,((((start.next _ trivial called).next _ trivial looked).next _ trivial asked).next _ trivial
    entered).next _ trivial again,fun single => ?_⟩
  have inside : i < n := lt_of_getElem? at_i
  have first : (joined t key (.fetching m)).callers[i]? = some ⟨key,.fetching l⟩ := by
    rw [← at_i]
    exact getElem?_append_left inside
  have same := single i n key l m first (joined_at t key (.fetching m))
  omega

/-- The caller fetches, holds its mutex, or waits for one that nobody holds. -/
def Next (s : System V) : Phase V → Prop
  | .fetching _ => True
  | .locked _ => True
  | .waiting l => ∀ caller ∈ s.callers, caller.phase.holds ≠ some l
  | _ => False

private theorem next_fetches {phase : Phase V}
    (dropped : s.cache.fetching.lookup key = none) (at_i : s.callers[i]? = some ⟨key,phase⟩) (next : Next s phase) :
    ∃ t, Reachable step free s t ∧ Exposed t key := by
  obtain ⟨d,missed⟩ := expires s.cache s.now key
  let t : System V := { s with now := s.now+d }
  have expired : Reachable step free s t := start.next (.advance d) trivial rfl
  cases phase with
  | fetching l => exact ⟨t,expired,dropped,missed,i,l,at_i⟩
  | locked l =>
    have again : step t (.lookAgain i) = some (t.move i key (.fetching l)) := lookAgain_missed at_i missed
    exact ⟨_,expired.next _ trivial again,dropped,missed,i,l,moved_at at_i _⟩
  | waiting l =>
    have entered : step t (.lock i) = some (t.move i key (.locked l)) := lock_entered at_i next
    have at_i' : (t.move i key (.locked l)).callers[i]? = some ⟨key,.locked l⟩ := moved_at at_i _
    have again := lookAgain_missed at_i' missed
    exact ⟨_,(expired.next _ trivial entered).next _ trivial again,dropped,missed,i,l,moved_at at_i' _⟩
  | _ => exact next.elim

private theorem unlock_fetches {other : String} {value : V} {err : Option String} (locks : Locks s)
    (dropped : s.cache.fetching.lookup key = none) (at_i : s.callers[i]? = some ⟨key,.waiting l⟩)
    (at_j : s.callers[j]? = some ⟨other,.unlocking l value err⟩) : ∃ t, Reachable step free s t ∧ Exposed t key := by
  let t := s.move j other (.done (some (value,err)))
  have unlocked : step s (.unlock j) = some t := by simp only [step,at_j]; rfl
  have distinct : j ≠ i := places_differ at_i at_j (by simp)
  have waits : t.callers[i]? = some ⟨key,.waiting l⟩ := (moved_other distinct _).trans at_i
  have unheld : ∀ caller ∈ t.callers, caller.phase.holds ≠ some l := by
    intro caller member holds
    obtain ⟨k,at_k⟩ := mem_iff_getElem?.mp member
    rcases caller_set at_k with ⟨-,rfl⟩ | before
    · cases holds
    · have same := locks.exclusive k j caller _ l before at_j holds rfl
      subst same
      rw [moved_at at_j] at at_k
      cases at_k
      cases holds
  have dropped' : t.cache.fetching.lookup key = none := dropped
  obtain ⟨u,later,exposed⟩ := next_fetches dropped' waits unheld
  exact ⟨u,(start.next _ trivial unlocked).trans later,exposed⟩

private theorem store_fetches {other : String} {value : V} {err : Option String} (locks : Locks s)
    (dropped : s.cache.fetching.lookup key = none) (at_i : s.callers[i]? = some ⟨key,.waiting l⟩)
    (at_j : s.callers[j]? = some ⟨other,.fetched l value err⟩) : ∃ t, Reachable step free s t ∧ Exposed t key := by
  let t := { s with cache := s.cache.set s.now other value err }.move j other (.unlocking l value err)
  have stored : step s (.store j) = some t := by simp only [step,at_j]; rfl
  have distinct : j ≠ i := places_differ at_i at_j (by simp)
  have dropped' : t.cache.fetching.lookup key = none := by
    refine (set_fetching s.cache s.now other value err key).trans ?_
    split
    · rfl
    · exact dropped
  have waits : t.callers[i]? = some ⟨key,.waiting l⟩ := (moved_other distinct _).trans at_i
  obtain ⟨u,later,exposed⟩ := unlock_fetches (locks.step (step_cases stored)) dropped' waits (moved_at at_j _)
  exact ⟨u,(start.next _ trivial stored).trans later,exposed⟩

/-- With the mutex of its key dropped, a caller underway leads to an exposed fetch. -/
private theorem underway_fetches (locks : Locks s)
    (dropped : s.cache.fetching.lookup caller.key = none) (at_i : s.callers[i]? = some caller)
    (waits : caller.phase.underway = some l) : ∃ t, Reachable step free s t ∧ Exposed t caller.key := by
  obtain ⟨key,phase⟩ := caller
  cases phase with
  | fetching m | locked m => exact next_fetches dropped at_i trivial
  | waiting m =>
    by_cases unheld : ∀ other ∈ s.callers, other.phase.holds ≠ some m
    · exact next_fetches dropped at_i unheld
    · obtain ⟨⟨other,phase⟩,held⟩ := not_forall.mp unheld
      obtain ⟨member,holds⟩ := Classical.not_imp.mp held
      obtain ⟨j,at_j⟩ := mem_iff_getElem?.mp member
      have holds := of_not_not holds
      -- the holder has the same key, since the mutex was made for one key
      have same : key = other :=
        Option.some.inj ((locks.owned i _ m at_i (.inl rfl)).symm.trans (locks.owned j _ m at_j (.inr holds)))
      subst same
      cases phase with
      | locked m' | fetching m' => exact next_fetches dropped at_j trivial
      | fetched m' value err => cases holds; exact store_fetches locks dropped at_i at_j
      | unlocking m' value err => cases holds; exact unlock_fetches locks dropped at_i at_j
      | _ => cases holds
  | _ => cases waits

private theorem evicted_underway (evicts : EvictsUnderway s a)
    (moved : step s a = some s') : ∃ (i : Nat) (caller : Caller V) (l : Nat), s'.callers[i]? = some caller ∧
      caller.phase.underway = some l ∧ s'.cache.fetching.lookup caller.key = none := by
  obtain ⟨key,evicted,caller,member,rfl,underway⟩ := evicts
  obtain ⟨l,waits⟩ := Option.isSome_iff_exists.mp underway
  obtain ⟨i,at_i⟩ := mem_iff_getElem?.mp member
  cases a with
  | store j =>
    rw [evictions] at evicted
    split at evicted
    · rename_i key m value err at_j
      simp only [step,at_j] at moved
      cases moved
      have distinct : j ≠ i := places_differ at_i at_j (by rintro rfl; cases waits)
      refine ⟨i,caller,l,(moved_other distinct _).trans at_i,waits,?_⟩
      exact (set_fetching s.cache s.now key value err caller.key).trans (if_pos evicted)
    · cases evicted
  | set key value =>
    cases moved
    exact ⟨i,caller,l,at_i,waits,(set_fetching s.cache s.now key value none caller.key).trans (if_pos evicted)⟩
  | _ => cases evicted

/-- As long as no step evicts a key with a fetch underway, at most one fetch of a key runs; and from any state so
    reached, the first such eviction is the start of a run with two. -/
theorem single_flight_iff (ttl maxSize now : Int) {s : System V}
    (reached : Reachable step (fun s a => ¬ EvictsUnderway s a) (new ttl maxSize now) s) :
    SingleFlight s ∧ ∀ a s', EvictsUnderway s a → step s a = some s' →
      ∃ s'', Reachable step free s' s'' ∧ ¬ SingleFlight s'' := by
  have locks : Locks s :=
    reached.invariant (locks_new ttl maxSize now) fun _ _ _ valid _ moved => valid.step (step_cases moved)
  have agreed : Agreed s := by
    refine reached.invariant ?_ fun _ _ _ valid spared moved => valid.step spared (step_cases moved)
    intro i caller l at_i
    simp [new] at at_i
  refine ⟨single_flight_of_agreed locks agreed,fun a s' evicts moved => ?_⟩
  have locks' := locks.step (step_cases moved)
  obtain ⟨i,caller,l,at_i,waits,dropped⟩ := evicted_underway evicts moved
  obtain ⟨t,first,exposed⟩ := underway_fetches locks' dropped at_i waits
  have locks'' : Locks t := first.invariant locks' fun _ _ _ valid _ moved => valid.step (step_cases moved)
  obtain ⟨u,later,double⟩ := newcomer_fetches locks'' exposed
  exact ⟨u,first.trans later,double⟩

def sampleFetch : List (Action Nat) :=
  [.set "a" 1,.advance 10,.call "a",.look 0,.lockFor 0,.lock 0,.lookAgain 0]

def sampleFetching : System Nat :=
  (exec step (fun s a => ¬ EvictsUnderway s a) (new 10 1 0) sampleFetch).getD (new 10 1 0)

/-- Another key takes the slot and the mutex that the caller holds; a second caller gets a new one. -/
def sampleRefetch : List (Action Nat) :=
  sampleFetch ++ [.set "b" 2,.call "a",.look 1,.lockFor 1,.lock 1,.lookAgain 1]

def sampleRace : System Nat := (exec step free (new 10 1 0) sampleRefetch).getD (new 10 1 0)

/-- One caller fetches, and a write of another key evicts the key underway. -/
theorem single_flight_sample : sampleFetching.callers[0]? = some ⟨"a",.fetching 0⟩ ∧ SingleFlight sampleFetching ∧
    EvictsUnderway sampleFetching (.set "b" 2) :=
  ⟨rfl,(single_flight_iff 10 1 0 (exec_reachable sampleFetch .start rfl)).1,by decide⟩

/-- Two fetches of one key run at the same time. -/
theorem eviction_breaks_single_flight : Reachable step free (new 10 1 0) sampleRace ∧
    sampleRace.callers[0]? = some ⟨"a",.fetching 0⟩ ∧ sampleRace.callers[1]? = some ⟨"a",.fetching 1⟩ ∧
    ¬ SingleFlight sampleRace := by
  refine ⟨exec_reachable sampleRefetch .start rfl,rfl,rfl,fun single => ?_⟩
  have same := single 0 1 "a" 0 1 rfl rfl
  cases same

/-- Also when keys are evicted while they are fetched, no two callers hold one mutex, and none one of another key. -/
theorem always_locked (ttl maxSize now : Int) (actions : List (Action V)) :
    Always step Locks (new ttl maxSize now) actions :=
  always_of_preserved (fun locks moved => locks.step (step_cases moved)) actions (locks_new ttl maxSize now)

end Mcpkit.CacheFlight
