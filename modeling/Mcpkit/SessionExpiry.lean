import Mcpkit.SessionModel
import Mcpkit.Transitions

/-!
The expiry of sessions. `Get` and `Evict` look at the expiry time, `Refresh` does not, so a
`MemStore` brings back a session that has expired and was not yet taken out.
-/
namespace Mcpkit.SessionExpiry
open GoMaps SessionModel Transitions List Finmap Option
variable {V Text : Type}

/-! ### Runs of a store in memory -/

/-- A store, the clock, and the sessions that calls of `Refresh` have found. -/
structure System (V : Type) where
  now : Int
  store : MemStore V
  found : List Nat

def start (ttl now : Int) : System V := ⟨now,newMemStore ttl,[]⟩

/-- The calls of the store, `Refresh` in its two halves, and the clock. -/
inductive Action where
  | create (id : String)
  | get (id : String)
  | find (id : String)
  | refresh (r : Nat)
  | delete (id : String)
  | evict
  | advance (duration : Nat)

variable (s : System V)

def step : Action → Option (System V)
  | .create id => some { s with store := (s.store.create s.now id).2 }
  | .get id => some { s with store := (s.store.get s.now id).2 }
  | .find id => (s.store.sessions.lookup id).map (fun r => { s with found := r :: s.found })
  | .refresh r =>
    if r ∈ s.found then some { s with store := s.store.refreshFound s.now r, found := s.found.erase r } else none
  | .delete id => some { s with store := s.store.delete id }
  | .evict => some { s with store := s.store.evict s.now }
  | .advance duration => some { s with now := s.now+duration }

def Past (r : Nat) : Prop := s.store.isExpired s.now r

instance decidablePast (s : System V) (r : Nat) : Decidable (Past s r) :=
  inferInstanceAs (Decidable (s.store.isExpired s.now r = true))

/-- The step refreshes a session that the store still has after its expiry time. -/
def Revives : Action → Prop
  | .refresh r => Past s r ∧ ∃ id, s.store.sessions.lookup id = some r
  | _ => False

theorem revives_refresh_iff {s : System V} {r : Nat} :
    Revives s (.refresh r) ↔ Past s r ∧ ∃ id ∈ s.store.sessions.keys, s.store.sessions.lookup id = some r := by
  constructor
  · rintro ⟨past,id,found⟩
    exact ⟨past,id,mem_keys.mpr (mem_of_lookup_eq_some found),found⟩
  · rintro ⟨past,id,-,found⟩
    exact ⟨past,id,found⟩

instance decidableRevives (s : System V) : ∀ a, Decidable (Revives s a)
  | .refresh _ => decidable_of_iff _ revives_refresh_iff.symm
  | .create _ => .isFalse id
  | .get _ => .isFalse id
  | .find _ => .isFalse id
  | .delete _ => .isFalse id
  | .evict => .isFalse id
  | .advance _ => .isFalse id

structure Gone (r : Nat) : Prop where
  made : r < s.store.heap.length
  out : ∀ id, s.store.sessions.lookup id = some r → Past s r

variable {s s' : System V} {r : Nat} {c : Codec V Text} {db : Redis Text} {now : Int}

theorem isExpired_iff {m : MemStore V} :
    m.isExpired now r ↔ ∃ session expiresAt, m.heap[r]? = some session ∧ session.expiresAt = some expiresAt ∧
      expiresAt < now := by
  simp only [MemStore.isExpired,Session.isExpired,Option.any_eq_true,decide_eq_true_eq]
  constructor
  · rintro ⟨session,here,expiresAt,set,earlier⟩
    exact ⟨session,expiresAt,here,set,earlier⟩
  · rintro ⟨session,expiresAt,here,set,earlier⟩
    exact ⟨session,here,expiresAt,set,earlier⟩

theorem Past.gone (past : Past s r) : Gone s r := by
  obtain ⟨session,-,here,-⟩ := isExpired_iff.mp past
  exact ⟨lt_of_getElem? here,fun _ _ => past⟩

section
variable (gone : Gone s r)
include gone

theorem Gone.not_returned (id : String) : (s.store.get s.now id).1 ≠ some r := by
  unfold MemStore.get
  cases found : s.store.sessions.lookup id with
  | none => simp
  | some r' =>
    by_cases expired : s.store.isExpired s.now r'
    · simp [expired]
    · simp only [expired]
      rintro ⟨⟩
      exact expired (gone.out id found)

theorem Gone.restrict (test : String → Nat → Bool) : Gone { s with store := s.store.restrict test } r := by
  refine ⟨gone.made,fun id found => ?_⟩
  simp only [MemStore.restrict,lookup_keep,filter_eq_some_iff] at found
  exact gone.out id found.1

theorem Gone.create (id : String) : Gone { s with store := (s.store.create s.now id).2 } r := by
  refine ⟨?_,fun id' found => ?_⟩
  · simp only [MemStore.create,length_append]
    have := gone.made
    omega
  · simp only [MemStore.create] at found
    by_cases own : id' = id
    · subst own
      rw [lookup_insert] at found
      cases found
      exact absurd gone.made (Nat.lt_irrefl _)
    · rw [lookup_insert_of_ne _ own] at found
      have past := gone.out id' found
      unfold Past MemStore.isExpired at past ⊢
      simpa only [MemStore.create,getElem?_append_left gone.made] using past

theorem Gone.advance (duration : Nat) : Gone { s with now := s.now+duration } r := by
  refine ⟨gone.made,fun id found => ?_⟩
  obtain ⟨session,expiresAt,here,set,earlier⟩ := isExpired_iff.mp (gone.out id found)
  exact isExpired_iff.mpr ⟨session,expiresAt,here,set,by simp only; omega⟩

theorem Gone.refresh {r' : Nat} (orderly : ¬ Revives s (.refresh r')) (found' : List Nat) :
    Gone { s with store := s.store.refreshFound s.now r', found := found' } r := by
  refine ⟨?_,fun id found => ?_⟩
  · simpa [MemStore.refreshFound,MemStore.modify] using gone.made
  · have past := gone.out id found
    by_cases own : r' = r
    · subst own
      exact absurd ⟨past,id,found⟩ orderly
    · unfold Past MemStore.isExpired at past ⊢
      simpa [MemStore.refreshFound,MemStore.modify,getElem?_modify,own] using past

theorem Gone.step {a : Action} (orderly : ¬ Revives s a) (moved : SessionExpiry.step s a = some s') : Gone s' r := by
  cases a with
  | create id => cases moved; exact gone.create id
  | get id =>
    cases moved
    unfold MemStore.get
    split
    · exact gone
    · split
      · exact gone.restrict _
      · exact gone
  | find id =>
    obtain ⟨r',-,rfl⟩ := map_eq_some_iff.mp moved
    exact ⟨gone.made,gone.out⟩
  | refresh r' =>
    rw [SessionExpiry.step,ite_none_right_eq_some] at moved
    obtain ⟨-,same⟩ := moved
    cases same
    exact gone.refresh orderly _
  | delete id | evict => cases moved; exact gone.restrict _
  | advance duration => cases moved; exact gone.advance duration

theorem Gone.later (later : Reachable SessionExpiry.step (fun s a => ¬ Revives s a) s s') : Gone s' r :=
  later.invariant (I := fun s => Gone s r) gone (fun _ _ _ gone orderly moved => gone.step orderly moved)

end

theorem ttl_step {a : Action} (moved : SessionExpiry.step s a = some s') : s'.store.ttl = s.store.ttl := by
  cases a with
  | get id =>
    cases moved
    unfold MemStore.get
    split
    · rfl
    · split <;> rfl
  | find id =>
    obtain ⟨r',-,rfl⟩ := map_eq_some_iff.mp moved
    rfl
  | refresh r' =>
    rw [SessionExpiry.step,ite_none_right_eq_some] at moved
    obtain ⟨-,same⟩ := moved
    cases same
    rfl
  | create id | delete id | evict | advance duration => cases moved; rfl

variable {id : String}

theorem read_refreshFound {m : MemStore V} (positive : 0 < m.ttl) (found : m.sessions.lookup id = some r) :
    ((m.refreshFound now r).get now id).1 = some r ∧
    ∃ session, (m.refreshFound now r).read now id = some session ∧ session.expiresAt = some (now+m.ttl) := by
  obtain ⟨session,here,-⟩ := map_eq_some_iff.mp (m.named id r found)
  have refreshed : (m.refreshFound now r).heap[r]? = some (session.refresh m.ttl now) := by
    simp [MemStore.refreshFound,MemStore.modify,here]
  have fresh : (m.refreshFound now r).isExpired now r = false := by
    rw [Bool.eq_false_iff]
    intro expired
    obtain ⟨session',expiresAt,there,set,earlier⟩ := isExpired_iff.mp expired
    cases refreshed.symm.trans there
    simp only [Session.refresh,positive,if_true] at set
    cases set
    omega
  have returned : ((m.refreshFound now r).get now id).1 = some r := by
    have kept : (m.refreshFound now r).sessions.lookup id = some r := found
    simp [MemStore.get,kept,fresh]
  refine ⟨returned,session.refresh m.ttl now,?_,?_⟩
  · rw [MemStore.read,returned]
    exact refreshed
  · simp [Session.refresh,positive]

/-! ### The Redis stores -/

theorem deadline_live (value : Text) (ttl now : Int) : (Entry.mk value (deadline ttl now)).live now := by
  unfold Entry.live deadline
  split
  · simpa using ‹0 < ttl›
  · rfl

theorem keyspace_get_iff {k : Keyspace} {s : Session V} : k.get c db now none id = .ok (some s) ↔
      ∃ e, db.lookup (k.key id) = some e ∧ e.live now ∧ c.unmarshal e.value = .ok s := by
  unfold Keyspace.get Keyspace.load Redis.get
  constructor
  · intro got
    cases there : (db.lookup (k.key id)).filter (·.live now) with
    | none => simp [there] at got
    | some e =>
      obtain ⟨found,live⟩ := filter_eq_some_iff.mp there
      refine ⟨e,found,live,?_⟩
      cases read : c.unmarshal e.value with
      | error err => simp [there,read] at got
      | ok s' => simpa [there,read] using got
  · rintro ⟨e,found,live,read⟩
    have there : (db.lookup (k.key id)).filter (·.live now) = some e := filter_eq_some_iff.mpr ⟨found,live⟩
    simp [there,read]

theorem get_of_insert {k : Keyspace} {ttl : Int} {text : Text} {s : Session V} (read : c.unmarshal text = .ok s) :
    k.get c (db.insert (k.key id) ⟨text,deadline ttl now⟩) now none id = .ok (some s) :=
  keyspace_get_iff.mpr ⟨_,lookup_insert _,deadline_live text ttl now,read⟩

theorem redisStore_refresh {k : RedisStore} {db' : Redis Text} {fault : Option String} {s : Session V}
    (live : k.get c db now none id = .ok (some s)) (refreshed : k.refresh db now fault id = .ok db') :
    k.get c db' now none id = .ok (some s) := by
  obtain ⟨e,found,lives,read⟩ := keyspace_get_iff.mp live
  unfold RedisStore.refresh at refreshed
  split at refreshed
  · cases refreshed
    exact live
  · cases fault with
    | some err => cases refreshed
    | none =>
      simp only [Redis.expire,found,filter_some,lives,if_true,Except.ok.injEq] at refreshed
      rw [← refreshed]
      exact get_of_insert read

theorem redisStringStore_refresh {k : RedisStringStore} (faithful : c.Faithful) {db' : Redis Text}
    {getFault setFault : Option String} {s : Session V} (live : k.get c db now none id = .ok (some s))
    (refreshed : k.refresh c db now getFault setFault id = .ok db') :
    ∃ s', k.get c db' now none id = .ok (some s') ∧ s'.expiresAt = s.expiresAt := by
  obtain ⟨e,found,lives,read⟩ := keyspace_get_iff.mp live
  unfold RedisStringStore.refresh at refreshed
  split at refreshed
  · cases refreshed
    exact ⟨s,live,rfl⟩
  · cases getFault with
    | some err => simp [Keyspace.load,Redis.get] at refreshed
    | none =>
      simp only [Keyspace.load,Redis.get,found,filter_some,lives,if_true,read,Keyspace.save] at refreshed
      cases written : c.marshal s with
      | error err => simp [written] at refreshed
      | ok text =>
        cases setFault with
        | some err => simp [written,Redis.set] at refreshed
        | none =>
          simp only [written,Redis.set,Except.ok.injEq] at refreshed
          rw [← refreshed]
          -- the text may name another id than the one it was found under
          by_cases own : k.key s.id = k.key id
          · obtain ⟨s',reread,-,-,-,expiresAt,-⟩ := faithful.reads s text written
            rw [own]
            exact ⟨s',get_of_insert reread,expiresAt⟩
          · refine ⟨s,keyspace_get_iff.mpr ⟨e,?_,lives,read⟩,rfl⟩
            rw [lookup_insert_of_ne _ (Ne.symm own),found]

/-- If no expired session is refreshed, none is returned after its expiry time. `Refresh` makes the expiry time of
    a live session `now+ttl` in a `MemStore`; in the Redis stores, only if it is that already. -/
theorem expiry_final_iff (ttl now : Int) (positive : 0 < ttl) (c : Codec V Text) (faithful : c.Faithful) :
    (∀ s : System V, Reachable step (fun s a => ¬ Revives s a) (start ttl now) s →
      (∀ r s', Past s r → Reachable step (fun s a => ¬ Revives s a) s s' →
        ∀ id, (s'.store.get s'.now id).1 ≠ some r) ∧
      ∀ a s', Revives s a → step s a = some s' → ∃ r id, Past s r ∧ (s'.store.get s'.now id).1 = some r) ∧
    (∀ (m : MemStore V) now id r, m.ttl = ttl → (m.get now id).1 = some r → (m.refresh now id).1 = none ∧
      ∃ session, (m.refresh now id).2.read now id = some session ∧ session.expiresAt = some (now+ttl)) ∧
    (∀ (k : RedisStore) db now id s fault db', k.ttl = ttl → k.get c db now none id = .ok (some s) →
      k.refresh db now fault id = .ok db' →
      ∃ s', k.get c db' now none id = .ok (some s') ∧
        (s'.expiresAt = some (now+ttl) ↔ s.expiresAt = some (now+ttl))) ∧
    ∀ (k : RedisStringStore) db now id s getFault setFault db', k.ttl = ttl → k.get c db now none id = .ok (some s) →
      k.refresh c db now getFault setFault id = .ok db' →
      ∃ s', k.get c db' now none id = .ok (some s') ∧
        (s'.expiresAt = some (now+ttl) ↔ s.expiresAt = some (now+ttl)) := by
  refine ⟨fun s reached => ⟨fun r s' past later => (past.gone.later later).not_returned,?_⟩,?_,?_,?_⟩
  · rintro (_ | _ | _ | r | _ | _ | _) s' revives moved <;> try exact revives.elim
    obtain ⟨past,id,found⟩ := revives
    have ttls : s.store.ttl = ttl :=
      reached.invariant (I := fun s => s.store.ttl = ttl) rfl (fun _ _ _ same _ moved => (ttl_step moved).trans same)
    rw [SessionExpiry.step,ite_none_right_eq_some] at moved
    obtain ⟨-,same⟩ := moved
    cases same
    exact ⟨r,id,past,(read_refreshFound (by rwa [ttls]) found).1⟩
  · rintro m now id r rfl live
    unfold MemStore.get at live
    cases found : m.sessions.lookup id with
    | none => simp [found] at live
    | some r' =>
      unfold MemStore.refresh
      simp only [found]
      exact ⟨trivial,(read_refreshFound positive found).2⟩
  · intro k db now id s fault db' same live refreshed
    exact ⟨s,redisStore_refresh live refreshed,Iff.rfl⟩
  · intro k db now id s getFault setFault db' same live refreshed
    obtain ⟨s',got,expiresAt⟩ := redisStringStore_refresh faithful live refreshed
    exact ⟨s',got,by rw [expiresAt]⟩

def lapsed : System Nat :=
  (exec step free (start 10 0) [.create "a",.find "a",.advance 5,.refresh 0,.advance 11]).getD (start 10 0)

theorem expiry_final_sample : Past lapsed 0 ∧ (∀ id, (lapsed.store.get lapsed.now id).1 ≠ some 0) ∧
    ∃ session : Session Nat, (((newMemStore 10).create 0 "a").2.refresh 4 "a").2.read 4 "a" = some session ∧
      session.expiresAt = some (4+10) := by
  have final := expiry_final_iff 10 0 (by decide) plainCodec plainCodec_faithful
  have reached : Reachable step (fun s a => ¬ Revives s a) (start 10 0) lapsed :=
    exec_reachable [.create "a",.find "a",.advance 5,.refresh 0,.advance 11] .start rfl
  have past : Past lapsed 0 := by decide
  refine ⟨past,(final.1 lapsed reached).1 0 lapsed past .start,?_⟩
  exact (final.2.1 _ 4 "a" 0 rfl (by decide)).2

/-- A session of a `MemStore` comes back after its expiry time; a session of each Redis
    store is refreshed and keeps its expiry time. -/
theorem refresh_revives_expired :
    let expired : System Nat := (exec step free (start 10 0) [.create "a",.find "a",.advance 11]).getD (start 10 0)
    let revived : System Nat := (step expired (.refresh 0)).getD expired
    let string : RedisStringStore := ⟨⟨"mcp:session:",10⟩⟩
    let redis : RedisStore := newRedisStore 10 ""
    let created : Redis (Session Nat) := (∅ : Redis (Session Nat)).insert "mcp:session:a" ⟨newSession "a" 10 0,some 10⟩
    let expiresAt (got : Except StoreError (Option (Session Nat))) : Option (Option Int) :=
      got.toOption.join.map Session.expiresAt
    expired.store.isExpired expired.now 0 ∧ (revived.store.get revived.now "a").1 = some 0 ∧
    (string.create plainCodec ∅ 0 (.ok "a") none).toOption.map Prod.snd = some created ∧
    ((string.refresh plainCodec created 5 none none "a").toOption.bind
      fun db => expiresAt (string.get plainCodec db 5 none "a")) = some (some 10) ∧
    ((redis.refresh created 5 none "a").toOption.bind
      fun db => expiresAt (redis.get plainCodec db 5 none "a")) = some (some 10) := by
  refine ⟨by decide,by decide,rfl,by decide,by decide⟩

end Mcpkit.SessionExpiry
