import Mcpkit.GoMaps

/-!
Sessions and their stores. A `MemStore` hands out the session objects that it holds. The
Redis stores keep a session as JSON text under a key with a TTL; what they hand out is an
object of its own, which they see again only in `Save`.
-/
namespace Mcpkit.SessionModel
open GoMaps Option
variable {V Text : Type}

inductive State where
  | active
  | closed
  | expired
  deriving DecidableEq

/-- A session; no expiry is Go's zero time. -/
structure Session (V : Type) where
  id : String
  data : GoMap V
  state : State
  createdAt : Int
  expiresAt : Option Int

def newSession (id : String) (ttl now : Int) : Session V :=
  ⟨id,∅,.active,now,if 0 < ttl then some (now+ttl) else none⟩

variable (s : Session V)

def Session.isExpired (now : Int) : Bool := s.expiresAt.any (· < now)

def Session.refresh (ttl now : Int) : Session V :=
  { s with expiresAt := if 0 < ttl then some (now+ttl) else s.expiresAt }

def Session.set (key : String) (val : V) : Session V := { s with data := s.data.insert key val }

/-! ### The store in memory -/

/-- The sessions that the store made, in the order of their creation, and the map from ids to them. -/
structure MemStore (V : Type) where
  ttl : Int
  heap : List (Session V)
  sessions : GoMap Nat
  named : ∀ id r, sessions.lookup id = some r → heap[r]?.map Session.id = some id

def newMemStore (ttl : Int) : MemStore V := ⟨ttl,[],∅,by simp⟩

variable (m : MemStore V)

theorem MemStore.inside {id : String} {r : Nat} (found : m.sessions.lookup id = some r) : r < m.heap.length := by
  obtain ⟨s,here,-⟩ := Option.map_eq_some_iff.mp (m.named id r found)
  exact (List.getElem?_eq_some_iff.mp here).1

def MemStore.create (m : MemStore V) (now : Int) (id : String) : Nat × MemStore V :=
  (m.heap.length,
    { m with
      heap := m.heap ++ [newSession id m.ttl now]
      sessions := m.sessions.insert id m.heap.length
      named := by
        intro id' r found
        by_cases own : id' = id
        · subst own
          rw [Finmap.lookup_insert] at found
          cases found
          simp [newSession]
        · rw [Finmap.lookup_insert_of_ne _ own] at found
          rw [List.getElem?_append_left (m.inside found)]
          exact m.named id' r found })

def MemStore.restrict (m : MemStore V) (test : String → Nat → Bool) : MemStore V :=
  { m with
    sessions := keep m.sessions test
    named := by
      intro id r found
      rw [lookup_keep,Option.filter_eq_some_iff] at found
      exact m.named id r found.1 }

def MemStore.modify (m : MemStore V) (r : Nat) (f : Session V → Session V) (keeps : ∀ s, (f s).id = s.id) : MemStore V :=
  { m with
    heap := m.heap.modify r f
    named := by
      intro id r' found
      rw [List.getElem?_modify,← m.named id r' found]
      cases m.heap[r']? with
      | none => rfl
      | some s => by_cases own : r = r' <;> simp [own,keeps] }

def MemStore.isExpired (m : MemStore V) (now : Int) (r : Nat) : Bool := m.heap[r]?.any (·.isExpired now)

def MemStore.evict (m : MemStore V) (now : Int) : MemStore V := m.restrict fun _ r => !m.isExpired now r

def MemStore.delete (m : MemStore V) (id : String) : MemStore V := m.restrict fun id' _ => id' != id

def MemStore.get (m : MemStore V) (now : Int) (id : String) : Option Nat × MemStore V :=
  match m.sessions.lookup id with
  | none => (none,m)
  | some r => if m.isExpired now r then (none,m.delete id) else (some r,m)

/-- The second half of `Refresh`, for a session found in the first. -/
def MemStore.refreshFound (m : MemStore V) (now : Int) (r : Nat) : MemStore V :=
  m.modify r (·.refresh m.ttl now) fun _ => rfl

def MemStore.refresh (m : MemStore V) (now : Int) (id : String) : Option String × MemStore V :=
  match m.sessions.lookup id with
  | none => (some "session not found",m)
  | some r => (none,m.refreshFound now r)

def MemStore.read (m : MemStore V) (now : Int) (id : String) : Option (Session V) :=
  (m.get now id).1.bind fun r => m.heap[r]?

variable (now : Int) (id : String)

open MemStore

theorem MemStore.read_eq :
    m.read now id = ((m.sessions.lookup id).bind fun r => m.heap[r]?).filter fun s => !s.isExpired now := by
  unfold read get
  cases m.sessions.lookup id with
  | none => rfl
  | some r =>
    cases here : m.heap[r]? with
    | none => simp [isExpired,here]
    | some s => by_cases expired : s.isExpired now <;> simp [isExpired,here,expired,filter_some]

theorem Session.isExpired_mono {s : Session V} {now t : Int} (later : now ≤ t) (expired : s.isExpired now) :
    s.isExpired t := by
  simp only [Session.isExpired,any_eq_true,decide_eq_true_eq] at expired ⊢
  obtain ⟨expiresAt,set,earlier⟩ := expired
  exact ⟨expiresAt,set,by omega⟩

theorem MemStore.delete_lookup (id id' : String) :
    (m.delete id).sessions.lookup id' = if id' = id then none else m.sessions.lookup id' := by
  simp only [delete,restrict,lookup_keep]
  by_cases own : id' = id
  · simp [own]
  · cases m.sessions.lookup id' <;> simp [own,filter_some]

theorem MemStore.delete_read (id id' : String) (t : Int) :
    (m.delete id).read t id' = if id' = id then none else m.read t id' := by
  rw [read_eq,delete_lookup,read_eq]
  by_cases own : id' = id
  · simp [own]
  · simp only [own,if_false]
    rfl

theorem MemStore.get_read {now t : Int} (later : now ≤ t) (id id' : String) :
    (m.get now id).2.read t id' = m.read t id' := by
  unfold get
  split
  · rfl
  · rename_i r found
    split
    · rename_i expired
      rw [delete_read]
      split
      · rename_i own
        subst own
        simp only [isExpired,any_eq_true] at expired
        obtain ⟨s,here,expired⟩ := expired
        rw [read_eq,found]
        simp [here,Session.isExpired_mono later expired,filter_some]
      · rfl
    · rfl

theorem MemStore.get_lookup_none {id' : String} (free : m.sessions.lookup id' = none) :
    (m.get now id).2.sessions.lookup id' = none := by
  unfold get
  split
  · exact free
  · split
    · rw [delete_lookup,free,ite_self]
    · exact free

theorem MemStore.get_ttl : (m.get now id).2.ttl = m.ttl := by
  unfold get
  split
  · rfl
  · split <;> rfl

theorem MemStore.get_heap : (m.get now id).2.heap = m.heap := by
  unfold get
  split
  · rfl
  · split <;> rfl

theorem MemStore.create_read_of_ne (t : Int) {id id' : String} (other : id' ≠ id) :
    (m.create now id).2.read t id' = m.read t id' := by
  rw [read_eq,read_eq]
  simp only [create,Finmap.lookup_insert_of_ne _ other]
  cases found : m.sessions.lookup id' with
  | none => rfl
  | some r => simp only [bind_some,List.getElem?_append_left (m.inside found)]

theorem MemStore.modify_read_of_ne {r : Nat} {f : Session V → Session V} (keeps : ∀ s, (f s).id = s.id)
    {s : Session V} (here : m.heap[r]? = some s) (t : Int) {id : String} (other : s.id ≠ id) :
    (m.modify r f keeps).read t id = m.read t id := by
  rw [read_eq,read_eq]
  simp only [modify]
  cases found : m.sessions.lookup id with
  | none => rfl
  | some r' =>
    have apart : r ≠ r' := by
      rintro rfl
      have named := m.named id r found
      rw [here] at named
      exact other (Option.some.inj named)
    simp [List.getElem?_modify,apart]

/-! ### The Redis stores -/

structure Entry (Text : Type) where
  value : Text
  deadline : Option Int

abbrev Redis (Text : Type) := GoMap (Entry Text)

def deadline (ttl now : Int) : Option Int := if 0 < ttl then some (now+ttl) else none

def Entry.live (e : Entry Text) (now : Int) : Bool := e.deadline.all (now < ·)

inductive StoreError where
  | errNotFound
  | other (text : String)
  deriving DecidableEq

variable (k : Keyspace) (db : Redis Text)

def Redis.get (now : Int) (fault : Option String) (key : String) : Except StoreError Text :=
  match fault with
  | some err => .error (.other err)
  | none =>
    match (db.lookup key).filter (·.live now) with
    | none => .error .errNotFound
    | some e => .ok e.value

def Redis.set (now : Int) (fault : Option String) (key : String) (value : Text) (ttl : Int) :
    Except StoreError (Redis Text) :=
  match fault with
  | some err => .error (.other err)
  | none => .ok (db.insert key ⟨value,deadline ttl now⟩)

def Redis.del (fault : Option String) (key : String) : Except StoreError (Redis Text) :=
  match fault with
  | some err => .error (.other err)
  | none => .ok (db.erase key)

def Redis.expire (now : Int) (fault : Option String) (key : String) (ttl : Int) : Except StoreError (Redis Text) :=
  match fault with
  | some err => .error (.other err)
  | none =>
    match (db.lookup key).filter (·.live now) with
    | none => .ok db
    | some e => .ok (db.insert key { e with deadline := deadline ttl now })

structure Codec (V Text : Type) where
  marshal : Session V → Except String Text
  unmarshal : Text → Except String (Session V)

variable (c : Codec V Text)

/-- JSON keeps a session but for its data, whose values may come back in another type. -/
structure Codec.Faithful : Prop where
  writes : ∀ s, s.data = ∅ → ∃ text, c.marshal s = .ok text
  reads : ∀ s text, c.marshal s = .ok text → ∃ s', c.unmarshal text = .ok s' ∧ s'.id = s.id ∧ s'.state = s.state ∧
    s'.createdAt = s.createdAt ∧ s'.expiresAt = s.expiresAt ∧ (s.data = ∅ → s'.data = ∅)

def plainCodec : Codec Nat (Session Nat) := ⟨.ok,.ok⟩

theorem plainCodec_faithful : plainCodec.Faithful where
  writes s _ := ⟨s,rfl⟩
  reads := by
    rintro s text ⟨⟩
    exact ⟨s,rfl,rfl,rfl,rfl,rfl,fun empty => empty⟩

structure Keyspace where
  keyPfx : String
  ttl : Int

def Keyspace.key (id : String) : String := k.keyPfx ++ id

def Keyspace.save (db : Redis Text) (now : Int) (fault : Option String) (s : Session V) :
    Except StoreError (Redis Text) :=
  match c.marshal s with
  | .error err => .error (.other err)
  | .ok data => db.set now fault (k.key s.id) data k.ttl

def Keyspace.load (db : Redis Text) (now : Int) (fault : Option String) (id : String) :
    Except StoreError (Session V) :=
  match db.get now fault (k.key id) with
  | .error err => .error err
  | .ok data =>
    match c.unmarshal data with
    | .error err => .error (.other err)
    | .ok s => .ok s

def Keyspace.create (db : Redis Text) (now : Int) (generated : Except String String)
    (fault : Option String) : Except StoreError (Session V × Redis Text) :=
  match generated with
  | .error err => .error (.other err)
  | .ok id =>
    match k.save c db now fault (newSession id k.ttl now) with
    | .error err => .error err
    | .ok db' => .ok (newSession id k.ttl now,db')

def Keyspace.get (db : Redis Text) (now : Int) (fault : Option String) (id : String) :
    Except StoreError (Option (Session V)) :=
  match k.load c db now fault id with
  | .error .errNotFound => .ok none
  | .error err => .error err
  | .ok s => .ok (some s)

def Keyspace.delete (fault : Option String) (id : String) : Except StoreError (Redis Text) :=
  db.del fault (k.key id)

structure RedisStore extends Keyspace

def newRedisStore (ttl : Int) (keyPrefix : String) : RedisStore :=
  ⟨⟨if keyPrefix = "" then "mcp:session:" else keyPrefix,ttl⟩⟩

def RedisStore.refresh (r : RedisStore) (db : Redis Text) (now : Int) (fault : Option String) (id : String) :
    Except StoreError (Redis Text) :=
  if r.ttl = 0 then .ok db else db.expire now fault (r.key id) r.ttl

structure RedisStringStore extends Keyspace

def RedisStringStore.refresh (r : RedisStringStore) (c : Codec V Text) (db : Redis Text) (now : Int)
    (getFault setFault : Option String) (id : String) : Except StoreError (Redis Text) :=
  if r.ttl = 0 then .ok db
  else
    match r.load c db now getFault id with
    | .error err => .error err
    | .ok s => r.save c db now setFault s

end Mcpkit.SessionModel
