import Mcpkit.SessionModel

/-!
Moving sessions from one store to another. `MigrateID` makes a session in the destination, copies
keys to the object that it got, and then deletes the session in the source.
-/
namespace Mcpkit.SessionMigration
open GoMaps SessionModel List Function Option
variable {V Text : Type}

/-! ### Stores side by side -/

/-- The stores in memory, the Redis servers, and the session objects that no store has. -/
structure World (V Text : Type) where
  mems : Nat → MemStore V
  servers : Nat → Redis Text
  loose : List (Session V)

/-- A store; several Redis stores may share a server, and two uses of one store are the same. -/
inductive Store where
  | mem (i : Nat)
  | redis (i : Nat) (store : RedisStore)
  | redisString (i : Nat) (store : RedisStringStore)

def Store.inMemory : Store → Bool
  | .mem _ => true
  | _ => false

inductive Handle where
  | mem (i r : Nat)
  | loose (r : Nat)
  deriving DecidableEq

def World.session (w : World V Text) : Handle → Option (Session V)
  | .mem i r => (w.mems i).heap[r]?
  | .loose r => w.loose[r]?

def World.set (w : World V Text) (h : Handle) (key : String) (val : V) : World V Text :=
  match h with
  | .mem i r => { w with mems := Function.update w.mems i ((w.mems i).modify r (·.set key val) fun _ => rfl) }
  | .loose r => { w with loose := w.loose.modify r (·.set key val) }

section
variable (c : Codec V Text)

def World.redisGet (w : World V Text) (i : Nat) (k : Keyspace) (now : Int) (fault : Option String) (id : String) :
    Except StoreError (Option Handle) × World V Text :=
  match k.get c (w.servers i) now fault id with
  | .error err => (.error err,w)
  | .ok none => (.ok none,w)
  | .ok (some s) => (.ok (some (.loose w.loose.length)),{ w with loose := w.loose ++ [s] })

def World.get (w : World V Text) (now : Int) (fault : Option String) (store : Store) (id : String) :
    Except StoreError (Option Handle) × World V Text :=
  match store with
  | .mem i =>
    let (r,m) := (w.mems i).get now id
    (.ok (r.map (Handle.mem i)),{ w with mems := Function.update w.mems i m })
  | .redis i k => w.redisGet c i k.toKeyspace now fault id
  | .redisString i k => w.redisGet c i k.toKeyspace now fault id

def World.redisCreate (w : World V Text) (i : Nat) (k : Keyspace) (now : Int) (generated : Except String String)
    (fault : Option String) : Except StoreError Handle × World V Text :=
  match k.create c (w.servers i) now generated fault with
  | .error err => (.error err,w)
  | .ok (s,db) =>
    (.ok (.loose w.loose.length),
      { w with loose := w.loose ++ [s], servers := Function.update w.servers i db })

def World.create (w : World V Text) (now : Int) (generated : Except String String) (fault : Option String)
    (store : Store) : Except StoreError Handle × World V Text :=
  match store with
  | .mem i =>
    match generated with
    | .error err => (.error (.other err),w)
    | .ok id =>
      let (r,m) := (w.mems i).create now id
      (.ok (.mem i r),{ w with mems := Function.update w.mems i m })
  | .redis i k => w.redisCreate c i k.toKeyspace now generated fault
  | .redisString i k => w.redisCreate c i k.toKeyspace now generated fault

end

variable (w : World V Text)

def World.redisDelete (i : Nat) (k : Keyspace) (fault : Option String) (id : String) :
    Option StoreError × World V Text :=
  match k.delete (w.servers i) fault id with
  | .error err => (some err,w)
  | .ok db => (none,{ w with servers := Function.update w.servers i db })

def World.delete (w : World V Text) (fault : Option String) (store : Store) (id : String) :
    Option StoreError × World V Text :=
  match store with
  | .mem i => (none,{ w with mems := Function.update w.mems i ((w.mems i).delete id) })
  | .redis i k => w.redisDelete i k.toKeyspace fault id
  | .redisString i k => w.redisDelete i k.toKeyspace fault id

/-! ### The migrator -/

/-- A migration function: what it does to the session objects, and its error. -/
abbrev MigrationFunc (V Text : Type) := World V Text → Handle → Handle → Option String × World V Text

inductive MigrateError where
  | getSource (id : String) (err : StoreError)
  | notFound (id : String)
  | createDestination (err : StoreError)
  | migrationFunc (i : Nat) (err : String)
  | deleteSource (id : String) (err : StoreError)

/-- The times of `Get` and `Create`, the id that is generated, and the errors of the Redis commands. -/
structure Env where
  getAt : Int
  createAt : Int
  generated : Except String String
  getFault : Option String
  setFault : Option String
  cleanupFault : Option String
  delFault : Option String

def applyFuncs (old new : Handle) : Nat → List (MigrationFunc V Text) → World V Text →
    Option (Nat × String) × World V Text
  | _,[],w => (none,w)
  | i,fn :: rest,w =>
    match fn w old new with
    | (some err,w) => (some (i,err),w)
    | (none,w) => applyFuncs old new (i+1) rest w

variable (c : Codec V Text)

def migrateID (src dst : Store) (funcs : List (MigrationFunc V Text)) (env : Env) (id : String)
    (w : World V Text) : Except MigrateError Handle × World V Text :=
  match w.get c env.getAt env.getFault src id with
  | (.error err,w) => (.error (.getSource id err),w)
  | (.ok none,w) => (.error (.notFound id),w)
  | (.ok (some old),w) =>
    match w.create c env.createAt env.generated env.setFault dst with
    | (.error err,w) => (.error (.createDestination err),w)
    | (.ok new,w) =>
      match applyFuncs old new 0 funcs w with
      | (some (i,err),w) =>
        let newID := ((w.session new).map Session.id).getD ""
        (.error (.migrationFunc i err),(w.delete env.cleanupFault dst newID).2)
      | (none,w) =>
        match w.delete env.delFault src id with
        | (some err,w) => (.error (.deleteSource id err),w)
        | (none,w) => (.ok new,w)

def copyKeys (keys : List String) : MigrationFunc V Text := fun w old new =>
  (none,keys.foldl (fun w key =>
    match (w.session old).bind (·.data.lookup key) with
    | some v => w.set new key v
    | none => w) w)

/-- An entry of the legacy map; its pairs are in the order in which the loop takes them. -/
structure LegacyEntry (V : Type) where
  oldID : String
  data : List (String × V)
  distinct : (data.map Prod.fst).Nodup
  createAt : Int
  generated : Except String String
  setFault : Option String

/-- The legacy map, in the order in which the loop takes it. -/
structure Legacy (V : Type) where
  entries : List (LegacyEntry V)
  distinct : (entries.map LegacyEntry.oldID).Nodup

def World.setAll (h : Handle) (pairs : List (String × V)) : World V Text :=
  pairs.foldl (fun w pair => w.set h pair.1 pair.2) w

/-- `MigrateStatefulSessions`: the new ids by the old ones, the error, and the stores. -/
def migrateStatefulSessions (c : Codec V Text) (store : Store) : List (LegacyEntry V) → GoMap String → World V Text →
    GoMap String × Option StoreError × World V Text
  | [],result,w => (result,none,w)
  | e :: rest,result,w =>
    match w.create c e.createAt e.generated e.setFault store with
    | (.error err,w) => (result,some err,w)
    | (.ok h,w) =>
      let w := w.setAll h e.data
      migrateStatefulSessions c store rest (result.insert e.oldID (((w.session h).map Session.id).getD "")) w

/-! ### What the stores hold -/

/-- What a caller gets from the store at a time, when no command fails. -/
def World.read (w : World V Text) (t : Int) (store : Store) (id : String) : Option (Session V) :=
  match w.get c t none store id with
  | (.ok (some h),w) => w.session h
  | _ => none

inductive Slot where
  | mem (i : Nat) (id : String)
  | key (i : Nat) (key : String)
  deriving DecidableEq

def Store.slot : Store → String → Slot
  | .mem i,id => .mem i id
  | .redis i k,id => .key i (k.key id)
  | .redisString i k,id => .key i (k.key id)

def World.Free : Slot → Prop
  | .mem i id => (w.mems i).sessions.lookup id = none
  | .key i key => (w.servers i).lookup key = none

def World.ttl (w : World V Text) : Store → Int
  | .mem i => (w.mems i).ttl
  | .redis _ k => k.ttl
  | .redisString _ k => k.ttl

def Store.Keeps (store : Store) (ttl createAt t : Int) : Prop :=
  0 < ttl → if store.inMemory then t ≤ createAt+ttl else t < createAt+ttl

def World.entry (w : World V Text) (t : Int) : Slot → Option (Session V)
  | .mem i id => (w.mems i).read t id
  | .key i key => ((w.servers i).get t none key).toOption.bind fun text => (c.unmarshal text).toOption

variable {c} {w w' : World V Text}

/-! ### A change of one store in memory -/

open World

section
variable {i : Nat} {m : MemStore V}

theorem update_session {h : Handle} (same : ∀ r, h = .mem i r → m.heap[r]? = (w.mems i).heap[r]?) :
    session { w with mems := update w.mems i m } h = w.session h := by
  cases h with
  | loose r => rfl
  | mem j r =>
    by_cases own : j = i
    · subst own
      simp only [session,update_self]
      exact same r rfl
    · simp only [session,update_of_ne own]

variable {slot : Slot}

theorem update_entry {t : Int} (same : ∀ id, slot = .mem i id → m.read t id = (w.mems i).read t id) :
    entry c { w with mems := update w.mems i m } t slot = w.entry c t slot := by
  cases slot with
  | key j key => rfl
  | mem j id =>
    by_cases own : j = i
    · subst own
      simp only [entry,update_self]
      exact same id rfl
    · simp only [entry,update_of_ne own]

theorem update_free (kept : ∀ id, slot = .mem i id → (w.mems i).sessions.lookup id = none →
      m.sessions.lookup id = none) (free : w.Free slot) :
    World.Free { w with mems := update w.mems i m } slot := by
  cases slot with
  | key j key => exact free
  | mem j id =>
    by_cases own : j = i
    · subst own
      simp only [World.Free,update_self]
      exact kept id rfl free
    · simpa only [World.Free,update_of_ne own] using free

theorem update_ttl (same : m.ttl = (w.mems i).ttl) (store : Store) :
    ttl { w with mems := update w.mems i m } store = w.ttl store := by
  cases store with
  | redis j k | redisString j k => rfl
  | mem j =>
    by_cases own : j = i
    · subst own
      simp only [ttl,update_self]
      exact same
    · simp only [ttl,update_of_ne own]

end

/-! ### Getting a session -/

theorem redisGet_cases (w : World V Text) (c : Codec V Text) (i : Nat) (k : Keyspace) (now : Int) (fault : Option String)
    (id : String) : (fault = none ∧ ∃ s, w.entry c now (.key i (k.key id)) = some s ∧
      w.redisGet c i k now fault id = (.ok (some (.loose w.loose.length)),{ w with loose := w.loose ++ [s] })) ∨
    ((fault = none → w.entry c now (.key i (k.key id)) = none) ∧
      (w.redisGet c i k now fault id = (.ok none,w) ∨ ∃ err, w.redisGet c i k now fault id = (.error err,w))) := by
  unfold redisGet Keyspace.get Keyspace.load
  cases fault with
  | some err => exact .inr ⟨by simp,.inr ⟨.other err,rfl⟩⟩
  | none =>
    simp only [entry]
    cases (w.servers i).get now none (k.key id) with
    | error err =>
      refine .inr ⟨fun _ => rfl,?_⟩
      cases err with
      | errNotFound => exact .inl rfl
      | other text => exact .inr ⟨_,rfl⟩
    | ok text =>
      cases read : c.unmarshal text with
      | error err => exact .inr ⟨fun _ => by simp [Except.toOption,read],.inr ⟨_,by simp only [read]; rfl⟩⟩
      | ok s => exact .inl ⟨trivial,s,by simp [Except.toOption,read],by simp only [read]⟩

structure Got (c : Codec V Text) (w : World V Text) (now : Int) (store : Store) (fault : Option String) (id : String)
    (answer : Except StoreError (Option Handle) × World V Text) : Prop where
  found : ∀ h, answer.1 = .ok (some h) → (store.inMemory ∨ fault = none) ∧
    ∃ s, w.entry c now (store.slot id) = some s ∧ answer.2.session h = some s
  missing : (∀ h, answer.1 ≠ .ok (some h)) → store.inMemory ∨ fault = none → w.entry c now (store.slot id) = none
  entry : ∀ slot t, now ≤ t → answer.2.entry c t slot = w.entry c t slot
  free : ∀ slot, w.Free slot → answer.2.Free slot
  ttl : ∀ store, answer.2.ttl store = w.ttl store

attribute [local simp] World.session World.entry

variable {i : Nat} {k : Keyspace}

theorem redisGet_got {store : Store} {id : String} (slot : store.slot id = .key i (k.key id))
    (external : store.inMemory = false) (c : Codec V Text) (w : World V Text) (now : Int) (fault : Option String) :
    Got c w now store fault id (w.redisGet c i k now fault id) := by
  rcases redisGet_cases w c i k now fault id with ⟨clear,s,there,same⟩ | ⟨missing,same | ⟨err,same⟩⟩ <;> rw [same]
  · refine ⟨?_,fun none => absurd rfl (none _),fun _ _ _ => rfl,fun _ free => free,fun _ => rfl⟩
    rintro h ⟨⟩
    exact ⟨.inr clear,s,slot ▸ there,by simp⟩
  · refine ⟨by simp,fun _ clear => ?_,fun _ _ _ => rfl,fun _ free => free,fun _ => rfl⟩
    rw [slot]
    exact missing (by simpa [external] using clear)
  · refine ⟨by simp,fun _ clear => ?_,fun _ _ _ => rfl,fun _ free => free,fun _ => rfl⟩
    rw [slot]
    exact missing (by simpa [external] using clear)

theorem memGet_got (c : Codec V Text) (w : World V Text) (now : Int) (fault : Option String) (i : Nat) (id : String) :
    Got c w now (.mem i) fault id (w.get c now fault (.mem i) id) := by
  have read : w.entry c now (Store.slot (.mem i) id) = (w.mems i).read now id := rfl
  refine ⟨fun h found => ⟨.inl rfl,?_⟩,fun none _ => ?_,fun slot t later => ?_,fun slot free => ?_,fun store => ?_⟩
  · simp only [World.get,Except.ok.injEq,map_eq_some_iff] at found
    obtain ⟨r,got,rfl⟩ := found
    have named : ∃ s, (w.mems i).heap[r]? = some s := by
      unfold MemStore.get at got
      cases known : (w.mems i).sessions.lookup id with
      | none => simp [known] at got
      | some r' =>
        simp only [known] at got
        split at got
        · cases got
        · cases got
          exact ⟨_,getElem?_eq_getElem ((w.mems i).inside known)⟩
    obtain ⟨s,here⟩ := named
    refine ⟨s,?_,?_⟩
    · rw [read,MemStore.read,got]
      exact here
    · simp only [World.get,World.session,update_self,MemStore.get_heap]
      exact here
  · rw [read,MemStore.read]
    cases got : ((w.mems i).get now id).1 with
    | none => rfl
    | some r => exact absurd (by simp [World.get,got]) (none (.mem i r))
  · exact update_entry fun id' _ => MemStore.get_read _ later id id'
  · exact update_free (fun id' _ unknown => MemStore.get_lookup_none _ now id unknown) free
  · exact update_ttl (MemStore.get_ttl ..) store

theorem get_got (c : Codec V Text) (w : World V Text) (now : Int) (fault : Option String) (store : Store) (id : String) :
    Got c w now store fault id (w.get c now fault store id) := by
  cases store with
  | mem i => exact memGet_got c w now fault i id
  | redis i k | redisString i k => exact redisGet_got rfl rfl c w now fault

theorem read_eq_entry (c : Codec V Text) (w : World V Text) (t : Int) (store : Store) (id : String) :
    w.read c t store id = w.entry c t (store.slot id) := by
  have got := get_got c w t none store id
  unfold World.read
  split
  · rename_i h w' answer
    rw [answer] at got
    obtain ⟨-,s,there,here⟩ := got.found h rfl
    rw [there]
    exact here
  · rename_i other
    exact (got.missing (fun h same => other h _ (Prod.ext same rfl)) (.inr rfl)).symm

/-! ### Making a session and setting its keys -/

theorem set_session_self {h : Handle} {s : Session V} (here : w.session h = some s) (key : String) (val : V) :
    (w.set h key val).session h = some (s.set key val) := by
  cases h with
  | mem i r =>
    simp only [World.session] at here
    simp [World.set,MemStore.modify,here]
  | loose r =>
    simp only [World.session] at here
    simp [World.set,here]

theorem set_session_of_ne {h h' : Handle} (other : h' ≠ h) (key : String) (val : V) :
    (w.set h key val).session h' = w.session h' := by
  cases h with
  | mem i r =>
    refine update_session fun r' there => ?_
    have apart : r ≠ r' := fun same => other (by rw [there,same])
    simp [MemStore.modify,apart]
  | loose r =>
    cases h' with
    | mem j r' => rfl
    | loose r' =>
      have apart : r ≠ r' := fun same => other (by rw [same])
      simp [World.set,apart]

theorem set_servers (w : World V Text) (h : Handle) (key : String) (val : V) : (w.set h key val).servers = w.servers := by
  cases h <;> rfl

theorem set_sessions (w : World V Text) (h : Handle) (key : String) (val : V) (i : Nat) :
    ((w.set h key val).mems i).sessions = (w.mems i).sessions ∧ ((w.set h key val).mems i).ttl = (w.mems i).ttl := by
  cases h with
  | loose r => exact ⟨rfl,rfl⟩
  | mem j r =>
    by_cases own : i = j
    · subst own
      simp only [World.set,update_self]
      exact ⟨rfl,rfl⟩
    · simp only [World.set,update_of_ne own,and_self]

theorem set_ttl (w : World V Text) (h : Handle) (key : String) (val : V) (store : Store) :
    (w.set h key val).ttl store = w.ttl store := by
  cases store with
  | mem i => exact (set_sessions w h key val i).2
  | redis i k | redisString i k => rfl

theorem set_free (w : World V Text) (h : Handle) (key : String) (val : V) (slot : Slot) :
    (w.set h key val).Free slot ↔ w.Free slot := by
  cases slot with
  | mem i id => simp only [World.Free,(set_sessions w h key val i).1]
  | key i key' => simp only [World.Free,set_servers]

theorem set_entry_of_ne {h : Handle} {s : Session V} (here : w.session h = some s)
    (apart : ∀ i r, h = .mem i r → slot ≠ .mem i s.id) (key : String) (val : V) (t : Int) :
    (w.set h key val).entry c t slot = w.entry c t slot := by
  cases h with
  | loose r => cases slot <;> rfl
  | mem i r =>
    refine update_entry fun id there => ?_
    exact MemStore.modify_read_of_ne _ _ here t fun same => apart i r rfl (by rw [there,same])

/-- How a store has the session that it made: as the object, or as its text of then. -/
def World.Linked (c : Codec V Text) (w : World V Text) (store : Store) (now : Int) (id : String) (h : Handle) : Prop :=
  match store with
  | .mem i => ∃ r, h = .mem i r ∧ (w.mems i).sessions.lookup id = some r
  | .redis i k => (∃ r, h = .loose r) ∧ ∃ text, (w.servers i).lookup (k.key id) = some ⟨text,deadline k.ttl now⟩ ∧
      c.marshal (newSession id k.ttl now) = .ok text
  | .redisString i k => (∃ r, h = .loose r) ∧ ∃ text, (w.servers i).lookup (k.key id) = some ⟨text,deadline k.ttl now⟩ ∧
      c.marshal (newSession id k.ttl now) = .ok text

/-- The second world has one session more than the first, made by the store at a time and
    since then given the data. -/
structure Placed (c : Codec V Text) (w w' : World V Text) (store : Store) (now : Int) (id : String) (h : Handle)
    (data : GoMap V) : Prop where
  session : w'.session h = some { (newSession id (w.ttl store) now : Session V) with data := data }
  linked : w'.Linked c store now id h
  others : ∀ slot t, slot ≠ store.slot id → w'.entry c t slot = w.entry c t slot
  free : ∀ slot, slot ≠ store.slot id → w.Free slot → w'.Free slot
  handles : ∀ h' s, w.session h' = some s → h' ≠ h ∧ w'.session h' = some s
  ttl : ∀ store', w'.ttl store' = w.ttl store'

variable {store : Store} {now : Int} {id : String} {h : Handle} {data : GoMap V}

theorem Linked.set (linked : w.Linked c store now id h) (key : String) (val : V) :
    (w.set h key val).Linked c store now id h := by
  unfold World.Linked at linked ⊢
  cases store with
  | mem i =>
    simp only at linked ⊢
    rwa [(set_sessions w h key val i).1]
  | redis i k | redisString i k => rwa [set_servers]

theorem Linked.seen (linked : w.Linked c store now id h) {i r : Nat} (there : h = .mem i r) :
    store.slot id = .mem i id := by
  cases store with
  | mem j =>
    obtain ⟨r',same,-⟩ := linked
    cases there.symm.trans same
    rfl
  | redis j k | redisString j k =>
    obtain ⟨⟨r',same⟩,-⟩ := linked
    cases there.symm.trans same

theorem Placed.set (placed : Placed c w w' store now id h data) (key : String) (val : V) :
    Placed c w (w'.set h key val) store now id h (data.insert key val) where
  session := set_session_self placed.session key val
  linked := Linked.set placed.linked key val
  others := by
    intro slot t other
    rw [set_entry_of_ne placed.session fun i r there same => other (same.trans (Linked.seen placed.linked there).symm)]
    exact placed.others slot t other
  free := fun slot other free => (set_free w' h key val slot).mpr (placed.free slot other free)
  handles := by
    intro h' s here
    obtain ⟨other,there⟩ := placed.handles h' s here
    exact ⟨other,(set_session_of_ne other key val).trans there⟩
  ttl := fun store' => (set_ttl w' h key val store').trans (placed.ttl store')

theorem Placed.setAll (placed : Placed c w w' store now id h data) (pairs : List (String × V)) :
    Placed c w (w'.setAll h pairs) store now id h (insertAll data pairs) := by
  induction pairs generalizing w' data with
  | nil => exact placed
  | cons pair rest ih => exact ih (placed.set pair.1 pair.2)

def listed (old : Session V) (keys : List String) : List (String × V) :=
  keys.filterMap fun key => (old.data.lookup key).map fun v => (key,v)

variable {key : String}

theorem mem_listed {old : Session V} {keys : List String} {v : V} :
    (key,v) ∈ listed old keys ↔ key ∈ keys ∧ old.data.lookup key = some v := by
  simp only [listed,mem_filterMap,map_eq_some_iff,Prod.mk.injEq]
  constructor
  · rintro ⟨key',member,v',found,rfl,rfl⟩
    exact ⟨member,found⟩
  · rintro ⟨member,found⟩
    exact ⟨key,member,v,found,rfl,rfl⟩

theorem Placed.copyKeys (placed : Placed c w w' store now id h data) {old : Handle} {s : Session V}
    (here : w.session old = some s) (keys : List String) : (copyKeys keys w' old h).1 = none ∧
    Placed c w (SessionMigration.copyKeys keys w' old h).2 store now id h (insertAll data (listed s keys)) := by
  refine ⟨rfl,?_⟩
  unfold SessionMigration.copyKeys
  induction keys generalizing w' data with
  | nil => exact placed
  | cons key rest ih =>
    have there := (placed.handles old s here).2
    rw [foldl_cons]
    simp only [there,bind_some]
    cases found : s.data.lookup key with
    | none =>
      have same : listed s (key :: rest) = listed s rest := by simp [listed,found]
      rw [same]
      exact ih placed
    | some v =>
      have same : listed s (key :: rest) = (key,v) :: listed s rest := by simp [listed,found]
      rw [same]
      exact ih (placed.set key v)

theorem memCreate_placed (c : Codec V Text) (w : World V Text) (now : Int) (id : String) (i : Nat) :
    Placed c w { w with mems := update w.mems i ((w.mems i).create now id).2 } (.mem i) now id
      (.mem i (w.mems i).heap.length) ∅ where
  session := by
    simp only [session,update_self,MemStore.create,getElem?_concat_length]
    rfl
  linked := ⟨_,rfl,by simp [MemStore.create]⟩
  others := by
    intro slot t other
    refine update_entry fun id' there => ?_
    exact MemStore.create_read_of_ne _ now t fun same => other (by rw [there,same]; rfl)
  free := by
    intro slot other
    refine update_free fun id' there unknown => ?_
    simp only [MemStore.create]
    rwa [Finmap.lookup_insert_of_ne _ fun same => other (by rw [there,same]; rfl)]
  handles := by
    intro h' s here
    have inside (r : Nat) (there : h' = .mem i r) : r < (w.mems i).heap.length := by
      subst there
      exact (List.getElem?_eq_some_iff.mp here).1
    refine ⟨fun new => Nat.lt_irrefl _ (inside _ new),?_⟩
    rw [update_session fun r there => ?_,here]
    exact getElem?_append_left (inside r there)
  ttl := update_ttl rfl

def World.written (w : World V Text) (i : Nat) (key : String) (s : Session V) (e : Entry Text) : World V Text :=
  { w with loose := w.loose ++ [s], servers := Function.update w.servers i ((w.servers i).insert key e) }

theorem redisCreate_cases (faithful : c.Faithful) (w : World V Text) (i : Nat) (k : Keyspace) (now : Int)
    (generated : Except String String) (fault : Option String) :
    (∃ id text, generated = .ok id ∧ fault = none ∧ c.marshal (newSession id k.ttl now) = .ok text ∧
      w.redisCreate c i k now generated fault = (.ok (.loose w.loose.length),
        w.written i (k.key id) (newSession id k.ttl now) ⟨text,deadline k.ttl now⟩)) ∨
    ((∃ err, w.redisCreate c i k now generated fault = (.error err,w)) ∧ ∀ id, generated = .ok id → fault ≠ none) := by
  unfold redisCreate Keyspace.create Keyspace.save
  cases generated with
  | error err => exact .inr ⟨⟨_,rfl⟩,by simp⟩
  | ok id =>
    obtain ⟨text,marshalled⟩ := faithful.writes (newSession id k.ttl now) rfl
    simp only [marshalled]
    cases fault with
    | some err => exact .inr ⟨⟨_,rfl⟩,by simp⟩
    | none => exact .inl ⟨id,text,rfl,rfl,marshalled,rfl⟩

theorem written_placed {ttl : Int} {e : Entry Text} (slot : store.slot id = .key i key)
    (own : w.ttl store = ttl)
    (linked : (w.written i key (newSession id ttl now) e).Linked c store now id (.loose w.loose.length)) :
    Placed c w (w.written i key (newSession id ttl now) e) store now id (.loose w.loose.length) ∅ where
  session := by simp [written,newSession,own]
  linked := linked
  others := by
    intro slot' t other
    rw [slot] at other
    cases slot' with
    | mem j id' => rfl
    | key j key' =>
      by_cases own : j = i
      · subst own
        have apart : key' ≠ key := fun same => other (by rw [same])
        simp only [entry,written,update_self,Redis.get,Finmap.lookup_insert_of_ne _ apart]
      · simp only [entry,written,update_of_ne own]
  free := by
    intro slot' other free
    rw [slot] at other
    cases slot' with
    | mem j id' => exact free
    | key j key' =>
      by_cases own : j = i
      · subst own
        have apart : key' ≠ key := fun same => other (by rw [same])
        simpa only [World.Free,written,update_self,Finmap.lookup_insert_of_ne _ apart] using free
      · simpa only [World.Free,written,update_of_ne own] using free
  handles := by
    intro h' s here
    cases h' with
    | mem j r => exact ⟨by simp,here⟩
    | loose r =>
      have inside := (List.getElem?_eq_some_iff.mp here).1
      refine ⟨?_,?_⟩
      · rintro ⟨⟩
        exact Nat.lt_irrefl _ inside
      · simp only [session,written]
        rw [getElem?_append_left inside]
        exact here
  ttl := by
    intro store'
    cases store' <;> rfl

theorem redisCreate_placed (faithful : c.Faithful) (w : World V Text) (now : Int) (generated : Except String String)
    (fault : Option String) (external : store.inMemory = false) (own : w.ttl store = k.ttl)
    (slot : ∀ id, store.slot id = .key i (k.key id))
    (linked : ∀ {w' : World V Text} {id r text}, (w'.servers i).lookup (k.key id) = some ⟨text,deadline k.ttl now⟩ →
      c.marshal (newSession id k.ttl now) = .ok text → w'.Linked c store now id (.loose r)) :
    (∃ id h w', generated = .ok id ∧ (store.inMemory ∨ fault = none) ∧
      w.redisCreate c i k now generated fault = (.ok h,w') ∧ Placed c w w' store now id h ∅) ∨
    ((∃ err, w.redisCreate c i k now generated fault = (.error err,w)) ∧
      ∀ id, generated = .ok id → ¬ (store.inMemory ∨ fault = none)) := by
  rcases redisCreate_cases faithful w i k now generated fault with
    ⟨id,text,named,clear,marshalled,same⟩ | ⟨failed,faulty⟩
  · exact .inl ⟨id,_,_,named,.inr clear,same,written_placed (slot id) own (linked (by simp [written]) marshalled)⟩
  · refine .inr ⟨failed,fun id named => ?_⟩
    simpa [external] using faulty id named

theorem create_cases (faithful : c.Faithful) (w : World V Text) (now : Int) (generated : Except String String)
    (fault : Option String) (store : Store) : (∃ id h w', generated = .ok id ∧ (store.inMemory ∨ fault = none) ∧
      w.create c now generated fault store = (.ok h,w') ∧ Placed c w w' store now id h ∅) ∨
    ((∃ err, w.create c now generated fault store = (.error err,w)) ∧
      ∀ id, generated = .ok id → ¬ (store.inMemory ∨ fault = none)) := by
  cases store with
  | mem i =>
    cases generated with
    | error err => exact .inr ⟨⟨_,rfl⟩,by simp⟩
    | ok id => exact .inl ⟨id,_,_,rfl,.inl rfl,rfl,memCreate_placed c w now id i⟩
  | redis i k | redisString i k =>
    exact redisCreate_placed faithful w now generated fault rfl rfl (fun _ => rfl)
      (fun there marshalled => ⟨⟨_,rfl⟩,_,there,marshalled⟩)

theorem newSession_live {ttl now t : Int} (keeps : 0 < ttl → t ≤ now+ttl) (data : GoMap V) :
    Session.isExpired { (newSession id ttl now : Session V) with data := data } t = false := by
  by_cases positive : 0 < ttl
  · simp [newSession,Session.isExpired,positive]
    omega
  · simp [newSession,Session.isExpired,positive]

theorem key_entry (faithful : c.Faithful) {ttl t : Int} {text : Text}
    (keeps : 0 < ttl → t < now+ttl) (there : (w.servers i).lookup key = some ⟨text,deadline ttl now⟩)
    (marshalled : c.marshal (newSession id ttl now) = .ok text) :
    ∃ s, w.entry c t (.key i key) = some s ∧ s.data = ∅ := by
  obtain ⟨s,read,-,-,-,-,empty⟩ := faithful.reads _ text marshalled
  have live : (Entry.mk text (deadline ttl now)).live t := by
    unfold Entry.live deadline
    split
    · simpa using keeps ‹0 < ttl›
    · rfl
  refine ⟨s,?_,empty rfl⟩
  simp [Redis.get,there,live,filter_some,read,Except.toOption]

theorem Placed.entry (faithful : c.Faithful) (placed : Placed c w w' store now id h data) {t : Int}
    (keeps : store.Keeps (w.ttl store) now t) :
    ∃ s, w'.entry c t (store.slot id) = some s ∧ s.data = if store.inMemory then data else ∅ := by
  have linked := placed.linked
  cases store with
  | mem i =>
    obtain ⟨r,rfl,known⟩ := linked
    refine ⟨{ (newSession id (w.ttl (.mem i)) now : Session V) with data := data },?_,by simp [Store.inMemory]⟩
    have here := placed.session
    simp only [World.session] at here
    rw [show w'.entry c t (Store.slot (.mem i) id) = (w'.mems i).read t id from rfl,MemStore.read_eq,known,
      bind_some,here,filter_some]
    simp only [newSession_live keeps data]
    rfl
  | redis i k | redisString i k =>
    obtain ⟨-,text,there,marshalled⟩ := linked
    exact key_entry faithful keeps there marshalled

/-! ### Deleting a session -/

theorem redisDelete_entry {fault : Option String} (clear : fault = none) (w : World V Text)
    (c : Codec V Text) (slot : Slot) (t : Int) : (w.redisDelete i k fault id).1 = none ∧
    (w.redisDelete i k fault id).2.entry c t slot = if slot = .key i (k.key id) then none else w.entry c t slot := by
  subst clear
  refine ⟨rfl,?_⟩
  cases slot with
  | mem j id' => rfl
  | key j key' =>
    by_cases own : j = i
    · subst own
      by_cases same : key' = k.key id
      · subst same
        simp only [redisDelete,Keyspace.delete,Redis.del,entry,update_self,Redis.get,
          Finmap.lookup_erase]
        simp [Except.toOption]
      · simp [same,redisDelete,Keyspace.delete,Redis.del,Redis.get,Finmap.lookup_erase_ne same]
    · simp [own,redisDelete,Keyspace.delete,Redis.del]

theorem delete_cases (c : Codec V Text) (w : World V Text) (fault : Option String) (store : Store) (id : String) :
    ((store.inMemory ∨ fault = none) ∧ (w.delete fault store id).1 = none ∧
      ∀ slot t, (w.delete fault store id).2.entry c t slot = if slot = store.slot id then none else w.entry c t slot) ∨
    (¬ (store.inMemory ∨ fault = none) ∧ ∃ err, w.delete fault store id = (some err,w)) := by
  cases store with
  | mem i =>
    refine .inl ⟨.inl rfl,rfl,fun slot t => ?_⟩
    cases slot with
    | key j key => rfl
    | mem j id' =>
      by_cases own : j = i
      · subst own
        simp only [delete,entry,update_self,MemStore.delete_read,Store.slot,Slot.mem.injEq,true_and]
      · simp [delete,Store.slot,own]
  | redis i k | redisString i k =>
    cases fault with
    | none => exact .inl ⟨.inr rfl,(redisDelete_entry rfl w c (.mem 0 "") 0).1,fun slot t => (redisDelete_entry rfl w c slot t).2⟩
    | some err => exact .inr ⟨by simp [Store.inMemory],_,rfl⟩

theorem delete_session (w : World V Text) (fault : Option String) (store : Store) (id : String) (h : Handle) :
    (w.delete fault store id).2.session h = w.session h := by
  cases store with
  | mem i => exact update_session fun _ _ => rfl
  | redis i k | redisString i k => cases fault <;> cases h <;> rfl

theorem Free.entry (free : w.Free slot) (c : Codec V Text) (t : Int) : w.entry c t slot = none := by
  cases slot with
  | mem i id =>
    simp only [World.Free] at free
    simp only [World.entry,MemStore.read_eq,free]
    rfl
  | key i key =>
    simp only [World.Free] at free
    simp [Redis.get,free,Except.toOption]

/-! ### A call of `MigrateID` -/

/-- The call finds the session and makes one in the destination. -/
structure Reaches (c : Codec V Text) (src dst : Store) (env : Env) (id : String) (w : World V Text) (old : Session V)
    (newID : String) : Prop where
  found : w.read c env.getAt src id = some old
  gets : src.inMemory ∨ env.getFault = none
  generates : env.generated = .ok newID
  creates : dst.inMemory ∨ env.setFault = none

/-- A call returns an error before it has changed anything, or it has made a session with
    the listed keys of the old one, and then deletes the old one or fails to. -/
theorem migrateID_cases (faithful : c.Faithful) (src dst : Store) (keys : List String) (env : Env) (id : String)
    (w : World V Text) (fresh : ∀ newID, env.generated = .ok newID → w.Free (dst.slot newID)) :
    (∃ err w', migrateID c src dst [copyKeys keys] env id w = (.error err,w') ∧
      (∀ slot t, env.getAt ≤ t → w'.entry c t slot = w.entry c t slot) ∧
      ∀ old newID, ¬ Reaches c src dst env id w old newID) ∨
    ∃ old newID new w₁ w₂, Reaches c src dst env id w old newID ∧ src.slot id ≠ dst.slot newID ∧
      w₁.ttl dst = w.ttl dst ∧ (∀ slot t, env.getAt ≤ t → w₁.entry c t slot = w.entry c t slot) ∧
      Placed c w₁ w₂ dst env.createAt newID new (insertAll ∅ (listed old keys)) ∧
      ((¬ (src.inMemory ∨ env.delFault = none) ∧
        ∃ err, migrateID c src dst [copyKeys keys] env id w = (.error err,w₂)) ∨
      ((src.inMemory ∨ env.delFault = none) ∧
        migrateID c src dst [copyKeys keys] env id w = (.ok new,(w₂.delete env.delFault src id).2) ∧
        ∀ slot t, (w₂.delete env.delFault src id).2.entry c t slot =
          if slot = src.slot id then none else w₂.entry c t slot)) := by
  have got := get_got c w env.getAt env.getFault src id
  rcases called : w.get c env.getAt env.getFault src id with ⟨answer,w₁⟩
  rw [called] at got
  have absent (none : ∀ h, answer ≠ .ok (some h)) (old : Session V) (newID : String) :
      ¬ Reaches c src dst env id w old newID := by
    intro reaches
    have found := reaches.found
    rw [read_eq_entry,got.missing none reaches.gets] at found
    cases found
  unfold migrateID
  simp only [called]
  rcases answer with err | _ | old
  · exact .inl ⟨_,w₁,rfl,got.entry,absent (by simp)⟩
  · exact .inl ⟨_,w₁,rfl,got.entry,absent (by simp)⟩
  obtain ⟨gets,s,there,here⟩ := got.found old rfl
  rcases create_cases faithful w₁ env.createAt env.generated env.setFault dst with
    ⟨newID,new,w₂,generates,creates,created,placed⟩ | ⟨⟨err,failed⟩,without⟩
  · have copied := (placed.copyKeys here keys).2
    have apart : src.slot id ≠ dst.slot newID := by
      intro same
      rw [same,Free.entry (fresh newID generates)] at there
      cases there
    refine .inr ⟨s,newID,new,w₁,_,⟨(read_eq_entry ..).trans there,gets,generates,creates⟩,apart,got.ttl dst,got.entry,
      copied,?_⟩
    have applied : applyFuncs old new 0 [copyKeys keys] w₂ = (none,(copyKeys keys w₂ old new).2) := rfl
    simp only [created,applied]
    rcases delete_cases c (copyKeys keys w₂ old new).2 env.delFault src id with ⟨clear,deleted,entry⟩ | ⟨fault,err,failed⟩
    · refine .inr ⟨clear,?_,entry⟩
      rcases last : delete (copyKeys keys w₂ old new).2 env.delFault src id with ⟨error,w₃⟩
      rw [last] at deleted
      subst deleted
      rfl
    · exact .inl ⟨fault,_,by rw [failed]⟩
  · refine .inl ⟨.createDestination err,w₁,by simp only [failed],got.entry,fun old newID reaches => ?_⟩
    exact without newID reaches.generates reaches.creates

/-- On success the new session has the listed keys of the old one, which is gone; on an error there is only the
    old one, as before. Times are those of later reads. -/
def Preserves (c : Codec V Text) (src dst : Store) (keys : List String) (env : Env) (id : String) (w : World V Text) :
    Prop :=
  match migrateID c src dst [copyKeys keys] env id w with
  | (.ok new,w') => ∃ old s, w.read c env.getAt src id = some old ∧ w'.session new = some s ∧
      (∀ t, dst.Keeps (w.ttl dst) env.createAt t → ∃ s', w'.read c t dst s.id = some s' ∧
        ∀ key ∈ keys, ∀ v, old.data.lookup key = some v → s'.data.lookup key = some v) ∧
      ∀ t, w'.read c t src id = none
  | (.error _,w') => (∀ t, env.getAt ≤ t → w'.read c t src id = w.read c t src id) ∧
      ∀ newID, env.generated = .ok newID → ∀ t, env.getAt ≤ t → w'.read c t dst newID = none

/-- If the call gets as far as the new session, the old one can be deleted, and the
    destination is in memory or there is no key to copy. -/
def Safe (c : Codec V Text) (src dst : Store) (keys : List String) (env : Env) (id : String) (w : World V Text) : Prop :=
  ∀ old newID, Reaches c src dst env id w old newID →
    (src.inMemory ∨ env.delFault = none) ∧ (dst.inMemory ∨ ∀ key ∈ keys, old.data.lookup key = none)

theorem keeps_now (store : Store) (ttl now : Int) : store.Keeps ttl now now := by
  intro positive
  split <;> omega

theorem Reaches.unique {src dst : Store} {env : Env} {old old' : Session V} {newID newID' : String}
    (reaches : Reaches c src dst env id w old newID) (again : Reaches c src dst env id w old' newID') :
    old = old' ∧ newID = newID' := by
  refine ⟨some.inj (reaches.found.symm.trans again.found),?_⟩
  have same := reaches.generates.symm.trans again.generates
  cases same
  rfl

theorem preserves_iff (faithful : c.Faithful) (src dst : Store) (keys : List String) (env : Env) (id : String)
    (w : World V Text) (ordered : env.getAt ≤ env.createAt)
    (fresh : ∀ newID, env.generated = .ok newID → w.Free (dst.slot newID)) :
    Preserves c src dst keys env id w ↔ Safe c src dst keys env id w := by
  unfold Preserves
  rcases migrateID_cases faithful src dst keys env id w fresh with ⟨err,w',same,entry,none⟩ |
    ⟨old,newID,new,w₁,w₂,reaches,apart,ttl,entry,placed,⟨fault,err,same⟩ | ⟨clear,same,deleted⟩⟩
  · simp only [same,read_eq_entry]
    refine ⟨fun _ old newID reaches => absurd reaches (none old newID),fun _ => ⟨fun t later => entry _ t later,?_⟩⟩
    intro newID generated t later
    rw [entry _ t later]
    exact Free.entry (fresh newID generated) c t
  · simp only [same,read_eq_entry]
    refine ⟨fun ⟨_,gone⟩ => ?_,fun safe => absurd (safe old newID reaches).1 fault⟩
    obtain ⟨s,there,-⟩ := placed.entry faithful (keeps_now dst _ env.createAt)
    rw [gone newID reaches.generates env.createAt ordered] at there
    cases there
  · simp only [same,read_eq_entry,delete_session]
    have there (t : Int) : (w₂.delete env.delFault src id).2.entry c t (dst.slot newID) = w₂.entry c t (dst.slot newID) := by
      rw [deleted,if_neg (Ne.symm apart)]
    constructor
    · rintro ⟨old',s,found,here,copied,-⟩ old'' newID' again
      obtain ⟨rfl,rfl⟩ := reaches.unique again
      rw [← read_eq_entry] at found
      cases reaches.found.symm.trans found
      cases placed.session.symm.trans here
      refine ⟨clear,?_⟩
      by_cases memory : dst.inMemory
      · exact .inl memory
      · refine .inr fun key member => ?_
        obtain ⟨s',read,values⟩ := copied env.createAt (keeps_now dst _ _)
        obtain ⟨s'',read',empty⟩ := placed.entry faithful (keeps_now dst _ env.createAt)
        rw [show (newSession newID (w₁.ttl dst) env.createAt : Session V).id = newID from rfl,there,read'] at read
        cases read
        cases known : old.data.lookup key with
        | none => rfl
        | some v =>
          have kept := values key member v known
          rw [empty,if_neg memory] at kept
          cases kept
    · intro safe
      obtain ⟨-,enough⟩ := safe old newID reaches
      refine ⟨old,_,(read_eq_entry ..).symm.trans reaches.found,placed.session,fun t keeps => ?_,fun t => ?_⟩
      · obtain ⟨s',read,values⟩ := placed.entry faithful (t := t) (by rw [ttl]; exact keeps)
        refine ⟨s',(there t).trans read,fun key member v known => ?_⟩
        rcases enough with memory | without
        · rw [values,if_pos memory]
          refine lookup_insertAll (mem_listed.mpr ⟨member,known⟩) (fun v' listed => ?_) ∅
          exact some.inj ((mem_listed.mp listed).2.symm.trans known)
        · rw [without key member] at known
          cases known
      · rw [deleted,if_pos rfl]

/-! ### A call of `MigrateStatefulSessions` -/

def LegacyEntry.creates (e : LegacyEntry V) (store : Store) : Bool :=
  e.generated.isOk && (store.inMemory || e.setFault.isNone)

theorem LegacyEntry.creates_iff {e : LegacyEntry V} {store : Store} :
    e.creates store ↔ ∃ newID, e.generated = .ok newID ∧ (store.inMemory ∨ e.setFault = none) := by
  cases generates : e.generated <;> simp [LegacyEntry.creates,generates,Except.isOk,Except.toBool]

def created (store : Store) (entries : List (LegacyEntry V)) : List (LegacyEntry V) :=
  entries.takeWhile (·.creates store)

/-- The ids that the loop generates are not in use, and no two are the same. -/
structure Fresh (w : World V Text) (store : Store) (entries : List (LegacyEntry V)) : Prop where
  free : ∀ e ∈ entries, ∀ newID, e.generated = .ok newID → w.Free (store.slot newID)
  apart : entries.Pairwise (fun e e' => ∀ newID newID', e.generated = .ok newID → e'.generated = .ok newID' →
    store.slot newID ≠ store.slot newID')

/-- What the loop leaves: in the result the ids of the sessions that it made, and in the store those sessions. -/
theorem stateful_spec (faithful : c.Faithful) (store : Store) (entries : List (LegacyEntry V)) :
    ∀ (result : GoMap String) (w : World V Text), Fresh w store entries → (entries.map LegacyEntry.oldID).Nodup →
      (∀ oldID, oldID ∉ (created store entries).map LegacyEntry.oldID →
        (migrateStatefulSessions c store entries result w).1.lookup oldID = result.lookup oldID) ∧
      (∀ slot t, (∀ e ∈ entries, ∀ newID, e.generated = .ok newID → slot ≠ store.slot newID) →
        (migrateStatefulSessions c store entries result w).2.2.entry c t slot = w.entry c t slot) ∧
      ∀ e ∈ created store entries, ∃ newID, e.generated = .ok newID ∧
        (migrateStatefulSessions c store entries result w).1.lookup e.oldID = some newID ∧
        ∀ t, store.Keeps (w.ttl store) e.createAt t → ∃ s,
          (migrateStatefulSessions c store entries result w).2.2.entry c t (store.slot newID) = some s ∧
          s.data = if store.inMemory then insertAll ∅ e.data else ∅ := by
  induction entries with
  | nil => intro result w _ _; exact ⟨fun _ _ => rfl,fun _ _ _ => rfl,by simp [created]⟩
  | cons e rest ih =>
    intro result w fresh distinct
    rcases create_cases faithful w e.createAt e.generated e.setFault store with
      ⟨newID,h,w₁,generates,creates,same,placed⟩ | ⟨⟨err,same⟩,without⟩
    · have set := placed.setAll e.data
      have split : created store (e :: rest) = e :: created store rest :=
        takeWhile_cons_of_pos (LegacyEntry.creates_iff.mpr ⟨newID,generates,creates⟩)
      have others : ∀ e' ∈ rest, ∀ newID', e'.generated = .ok newID' → store.slot newID ≠ store.slot newID' :=
        fun e' member newID' generates' => (pairwise_cons.mp fresh.apart).1 e' member newID newID' generates generates'
      have fresh' : Fresh (w₁.setAll h e.data) store rest := by
        refine ⟨fun e' member newID' generates' => ?_,(pairwise_cons.mp fresh.apart).2⟩
        exact set.free _ (Ne.symm (others e' member newID' generates'))
          (fresh.free e' (mem_cons_of_mem _ member) newID' generates')
      have named : (((w₁.setAll h e.data).session h).map Session.id).getD "" = newID := by
        rw [set.session]
        rfl
      have called : migrateStatefulSessions c store (e :: rest) result w =
          migrateStatefulSessions c store rest (result.insert e.oldID newID) (w₁.setAll h e.data) := by
        rw [migrateStatefulSessions]
        simp only [same,named]
      rw [map_cons,nodup_cons] at distinct
      obtain ⟨results,entries,made⟩ := ih (result.insert e.oldID newID) (w₁.setAll h e.data) fresh' distinct.2
      rw [called,split]
      refine ⟨fun oldID missing => ?_,fun slot t clear => ?_,fun e' member => ?_⟩
      · rw [map_cons,mem_cons,not_or] at missing
        rw [results oldID missing.2,Finmap.lookup_insert_of_ne _ missing.1]
      · rw [entries slot t fun e' member => clear e' (mem_cons_of_mem _ member)]
        exact set.others slot t (clear e mem_cons_self newID generates)
      · rcases mem_cons.mp member with rfl | later
        · refine ⟨newID,generates,?_,fun t keeps => ?_⟩
          · rw [results _ fun there => distinct.1 (map_subset _ (takeWhile_subset _) there),Finmap.lookup_insert]
          · rw [entries _ t others]
            exact set.entry faithful keeps
        · obtain ⟨newID',generates',found,there⟩ := made e' later
          refine ⟨newID',generates',found,fun t keeps => there t ?_⟩
          rw [set.ttl]
          exact keeps
    · have none : created store (e :: rest) = [] := by
        refine takeWhile_cons_of_neg fun ready => ?_
        obtain ⟨newID,generates,creates⟩ := LegacyEntry.creates_iff.mp ready
        exact without newID generates creates
      have called : migrateStatefulSessions c store (e :: rest) result w = (result,some err,w) := by
        rw [migrateStatefulSessions]
        simp only [same]
      rw [called,none]
      exact ⟨fun _ _ => rfl,fun _ _ _ => rfl,by simp⟩

/-- Every id in the result is that of a session with the pairs of its entry. -/
def Resolves (c : Codec V Text) (store : Store) (legacy : Legacy V) (w : World V Text) : Prop :=
  ∀ e ∈ legacy.entries, ∀ newID, (migrateStatefulSessions c store legacy.entries ∅ w).1.lookup e.oldID = some newID →
    ∀ t, store.Keeps (w.ttl store) e.createAt t →
      ∃ s, (migrateStatefulSessions c store legacy.entries ∅ w).2.2.read c t store newID = some s ∧
        ∀ pair ∈ e.data, s.data.lookup pair.1 = some pair.2

theorem resolves_iff (faithful : c.Faithful) (store : Store) (legacy : Legacy V) (w : World V Text)
    (fresh : Fresh w store legacy.entries) :
    Resolves c store legacy w ↔ (store.inMemory ∨ ∀ e ∈ created store legacy.entries, e.data = []) := by
  obtain ⟨results,-,made⟩ := stateful_spec faithful store legacy.entries ∅ w fresh legacy.distinct
  have subset : ∀ e ∈ created store legacy.entries, e ∈ legacy.entries := takeWhile_subset _
  constructor
  · intro resolves
    by_cases memory : store.inMemory
    · exact .inl memory
    · refine .inr fun e member => eq_nil_iff_forall_not_mem.mpr fun pair inside => ?_
      obtain ⟨newID,-,found,there⟩ := made e member
      obtain ⟨s,read,pairs⟩ := resolves e (subset e member) newID found e.createAt (keeps_now store _ _)
      obtain ⟨s',entry,empty⟩ := there e.createAt (keeps_now store _ _)
      rw [read_eq_entry,entry] at read
      cases read
      have kept := pairs pair inside
      rw [empty,if_neg memory] at kept
      cases kept
  · intro enough e member newID found t keeps
    have ready : e ∈ created store legacy.entries := by
      by_contra late
      have missing : e.oldID ∉ (created store legacy.entries).map LegacyEntry.oldID := by
        intro inside
        obtain ⟨e',member',same⟩ := mem_map.mp inside
        exact late (inj_on_of_nodup_map legacy.distinct (subset e' member') member same ▸ member')
      rw [results _ missing] at found
      cases found
    obtain ⟨newID',-,found',there⟩ := made e ready
    cases found.symm.trans found'
    obtain ⟨s,entry,data⟩ := there t keeps
    refine ⟨s,(read_eq_entry ..).trans entry,fun pair inside => ?_⟩
    rcases enough with memory | without
    · rw [data,if_pos memory]
      refine lookup_insertAll inside (fun value' inside' => ?_) ∅
      exact congrArg Prod.snd (inj_on_of_nodup_map e.distinct inside' inside rfl)
    · rw [without e ready] at inside
      cases inside

theorem migration_preserves_iff (c : Codec V Text) (faithful : c.Faithful) :
    (∀ src dst keys env id (w : World V Text), env.getAt ≤ env.createAt →
      (∀ newID, env.generated = .ok newID → w.Free (dst.slot newID)) →
      (Preserves c src dst keys env id w ↔ Safe c src dst keys env id w)) ∧
    ∀ store legacy (w : World V Text), Fresh w store legacy.entries →
      (Resolves c store legacy w ↔ (store.inMemory ∨ ∀ e ∈ created store legacy.entries, e.data = [])) :=
  ⟨fun src dst keys env id w ordered fresh => preserves_iff faithful src dst keys env id w ordered fresh,
    fun store legacy w fresh => resolves_iff faithful store legacy w fresh⟩

def oneSession : World Nat (Session Nat) where
  mems i := if i = 0 then ((newMemStore 0).create 0 "a").2.modify 0 (·.set "user" 7) (fun _ => rfl) else newMemStore 0
  servers i := if i = 0 then (∅ : Redis (Session Nat)).insert "mcp:session:a" ⟨(newSession "a" 0 0).set "user" 7,none⟩ else ∅
  loose := []

def quietEnv : Env := ⟨0,0,.ok "b",none,none,none,none⟩

def oneLegacy : Legacy Nat := ⟨[⟨"old",[("user",7)],by simp,0,.ok "b",none⟩],by simp⟩

theorem migration_preserves_sample :
    Preserves plainCodec (.redis 0 (newRedisStore 0 "")) (.mem 1) ["user"] quietEnv "a" oneSession ∧
    Resolves plainCodec (.mem 1) oneLegacy oneSession := by
  have preserves := migration_preserves_iff plainCodec plainCodec_faithful
  constructor
  · refine (preserves.1 _ _ _ quietEnv _ oneSession (Int.le_refl _) ?_).mpr fun _ _ _ => ⟨.inr rfl,.inl rfl⟩
    rintro newID ⟨⟩
    rfl
  · refine (preserves.2 _ oneLegacy oneSession ⟨?_,by simp [oneLegacy]⟩).mpr (.inl rfl)
    simp only [oneLegacy,mem_singleton]
    rintro e rfl newID ⟨⟩
    rfl

/-- The key is lost on the way into a Redis store; a source that cannot be deleted from leaves the new session
    behind. -/
theorem key_lost_in_redis : let string : Store := .redisString 1 ⟨⟨"mcp:session:",0⟩⟩
    let redis : Store := .redis 0 (newRedisStore 0 "")
    let lost := migrateID plainCodec (.mem 0) string [copyKeys ["user"]] quietEnv "a" oneSession
    let kept := migrateID plainCodec redis (.mem 1) [copyKeys ["user"]] { quietEnv with delFault := some "timeout" } "a"
      oneSession
    let legacy := migrateStatefulSessions plainCodec string oneLegacy.entries ∅ oneSession
    (((oneSession.read plainCodec 0 (.mem 0) "a").bind (·.data.lookup "user") = some 7 ∧ lost.1.isOk ∧
      (lost.2.read plainCodec 0 string "b").map (·.data.lookup "user") = some none ∧
      (lost.2.read plainCodec 0 (.mem 0) "a").isNone) ∧
    ¬ kept.1.isOk ∧ (kept.2.read plainCodec 0 (.mem 1) "b").isSome) ∧
    legacy.1.lookup "old" = some "b" ∧
    (legacy.2.2.read plainCodec 0 string "b").map (·.data.lookup "user") = some none := by
  decide

end Mcpkit.SessionMigration
