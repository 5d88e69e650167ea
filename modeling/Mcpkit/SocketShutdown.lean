import Mcpkit.Transitions

/-!
The unix socket server: the accept loop of `Serve`, its connection handlers, the context and
`Shutdown`.
-/
namespace Mcpkit.SocketShutdown
open Transitions

/-! ### The server -/

/-- The handler of a connection, from before its goroutine to the delete from the map. -/
inductive Handler where
  | absent
  | accepted
  | starting
  | checking
  | reading
  | handling
  | closing
  | removing
  | ended
  deriving DecidableEq

/-- A connection; `registered` is that it is in `clients`, `cancelled` that its own `cancel` was called. -/
structure Conn where
  handler : Handler
  isOpen : Bool
  registered : Bool
  cancelled : Bool
  lines : Nat
  hungUp : Bool
  deriving DecidableEq

/-- `Serve`; it registers a connection before it spawns the handler. -/
inductive Serve where
  | idle
  | listening
  | accepting
  | registering (c : Nat)
  | spawning (c : Nat)
  | waiting
  | returned
  deriving DecidableEq

/-- `Shutdown`; it closes the listener that it read before the clients, and then removes the file. -/
inductive Shutdown where
  | idle
  | called
  | closing (ln : Bool)
  | clearing
  | removing
  | returned
  deriving DecidableEq

/-- `listener` is whether `s.listener` is set, `listens` whether it is open, `wg` the count of the wait group. -/
structure System where
  serve : Serve
  shutdown : Shutdown
  listener : Bool
  listens : Bool
  cancelled : Bool
  wg : Nat
  conns : Nat → Conn

def absentConn : Conn := ⟨.absent,false,false,false,0,false⟩

def init : System := ⟨.idle,.idle,false,false,false,0,fun _ => absentConn⟩

variable (s : System)

def System.set (c : Nat) (conn : Conn) : System :=
  { s with conns := fun k => if k = c then conn else s.conns k }

def Conn.clear (conn : Conn) : Conn :=
  if conn.registered = true then { conn with isOpen := false, registered := false, cancelled := true } else conn

/-- A flag is what other code answers: `RegisterSession`, or the write of a response. -/
inductive Action where
  | serveCall
  | storeListener
  | connect (c : Nat)
  | acceptFault
  | acceptClosed
  | register (c : Nat)
  | spawn (c : Nat)
  | waited
  | cancel
  | closeOnDone
  | shutdownCall
  | takeListener
  | closeListener
  | closeClients
  | removeSocket
  | startSession (c : Nat) (ok : Bool)
  | checkContext (c : Nat)
  | readLine (c : Nat)
  | readError (c : Nat)
  | respond (c : Nat) (ok : Bool)
  | closeConn (c : Nat)
  | removeConn (c : Nat)
  | send (c : Nat)
  | hangUp (c : Nat)
  deriving DecidableEq

def System.move (c : Nat) (phase : Handler) (guard : Bool) (change : Conn → Conn) : Option System :=
  if (s.conns c).handler = phase ∧ guard = true then some (s.set c (change (s.conns c))) else none

def step : Action → Option System
  | .serveCall => if s.serve = .idle then some { s with serve := .listening, listens := true } else none
  | .storeListener => if s.serve = .listening then some { s with serve := .accepting, listener := true } else none
  | .connect c =>
    if s.serve = .accepting ∧ s.listens = true ∧ (s.conns c).handler = .absent then
      some { s.set c { absentConn with handler := .accepted, isOpen := true } with serve := .registering c }
    else none
  | .acceptFault => if s.serve = .accepting then some { s with serve := .waiting } else none
  | .acceptClosed => if s.serve = .accepting ∧ s.listens = false then some { s with serve := .waiting } else none
  | .register c =>
    if s.serve = .registering c then
      some { s.set c { s.conns c with registered := true } with serve := .spawning c }
    else none
  | .spawn c =>
    if s.serve = .spawning c then
      some { s.set c { s.conns c with handler := .starting } with serve := .accepting, wg := s.wg+1 }
    else none
  | .waited => if s.serve = .waiting ∧ s.wg = 0 then some { s with serve := .returned } else none
  | .cancel => if s.cancelled = false then some { s with cancelled := true } else none
  -- the goroutine that `Serve` starts after it has stored the listener
  | .closeOnDone =>
    if s.cancelled = true ∧ s.listener = true ∧ s.listens = true then some { s with listens := false } else none
  | .shutdownCall => if s.shutdown = .idle then some { s with shutdown := .called } else none
  | .takeListener => if s.shutdown = .called then some { s with shutdown := .closing s.listener } else none
  | .closeListener =>
    match s.shutdown with
    | .closing ln => some { s with shutdown := .clearing, listens := if ln then false else s.listens }
    | _ => none
  | .closeClients =>
    if s.shutdown = .clearing then some { s with shutdown := .removing, conns := fun c => (s.conns c).clear } else none
  | .removeSocket => if s.shutdown = .removing then some { s with shutdown := .returned } else none
  | .startSession c ok =>
    s.move c .starting true (fun conn => { conn with handler := if ok then .checking else .closing })
  | .checkContext c => s.move c .checking true (fun conn =>
      { conn with handler := if s.cancelled = true ∨ conn.cancelled = true then .closing else .reading })
  | .readLine c =>
    s.move c .reading (decide (0 < (s.conns c).lines)) (fun conn =>
      { conn with handler := .handling, lines := conn.lines-1 })
  | .readError c =>
    s.move c .reading (!(s.conns c).isOpen || ((s.conns c).hungUp && (s.conns c).lines = 0)) (fun conn =>
      { conn with handler := .closing })
  | .respond c ok => s.move c .handling true (fun conn => { conn with handler := if ok then .checking else .closing })
  | .closeConn c => s.move c .closing true (fun conn => { conn with handler := .removing, isOpen := false })
  | .removeConn c =>
    (s.move c .removing true (fun conn => { conn with handler := .ended, registered := false })).map (fun s' =>
      { s' with wg := s'.wg-1 })
  | .send c =>
    if (s.conns c).handler ≠ .absent ∧ (s.conns c).hungUp = false then
      some (s.set c { s.conns c with lines := (s.conns c).lines+1 })
    else none
  | .hangUp c => if (s.conns c).handler ≠ .absent then some (s.set c { s.conns c with hungUp := true }) else none

def remaining : Action → Bool
  | .serveCall | .connect _ | .acceptFault | .cancel | .shutdownCall | .send _ | .hangUp _ => false
  | _ => true

/-! ### What is asked of the server -/

def Quiescent : Prop := ∀ a, remaining a = true → step s a = none

/-- The handler waits for a client that is idle. -/
def Blocked (c : Nat) : Prop :=
  (s.conns c).handler = .reading ∧ (s.conns c).isOpen = true ∧ (s.conns c).lines = 0 ∧ (s.conns c).hungUp = false

structure Completes : Prop where
  closed : s.shutdown = .returned → Quiescent s → ∀ c, (s.conns c).handler = .absent ∨ (s.conns c).handler = .ended ∨
    (s.conns c).isOpen = false
  unblocks : s.cancelled = true ∨ s.shutdown = .returned → s.serve = .waiting → ∀ c, Blocked s c →
    ∃ actions s', (∀ a ∈ actions, remaining a = true) ∧ exec step free s actions = some s' ∧ ¬ Blocked s' c

/-- The context is cancelled only after `Shutdown` was called; `Shutdown` finds a stored
    listener, and closes the clients while `Serve` has no connection to register. -/
def Prepared : Action → Prop
  | .cancel => s.shutdown ≠ .idle
  | .takeListener => s.listener = true
  | .closeClients => ∀ c, s.serve ≠ .registering c
  | _ => True

/-! ### The invariant -/

def Shutdown.pastListener : Shutdown → Bool
  | .clearing | .removing | .returned => true
  | _ => false

def Shutdown.pastClients : Shutdown → Bool
  | .removing | .returned => true
  | _ => false

structure Valid : Prop where
  begun : s.cancelled = true → s.shutdown ≠ .idle
  stored : s.listener = true → s.serve ≠ .idle ∧ s.serve ≠ .listening
  taken : ∀ ln, s.shutdown = .closing ln → ln = true ∧ s.listener = true
  deaf : s.shutdown.pastListener = true → s.listens = false ∧ s.listener = true
  registered : ∀ c, (s.conns c).isOpen = true → (s.conns c).registered = true ∨ s.serve = .registering c
  shut : ∀ c, (s.conns c).handler = .removing → (s.conns c).isOpen = false
  cleared : s.shutdown.pastClients = true → (∀ c, (s.conns c).isOpen = false) ∧ ∀ c, s.serve ≠ .registering c

theorem init_valid : Valid init := by constructor <;> simp [init,absentConn,Shutdown.pastListener,Shutdown.pastClients]

variable {s} {c : Nat}

section
variable (valid : Valid s)
include valid

theorem Valid.set {conn : Conn} (opened : conn.isOpen = true → (s.conns c).isOpen = true)
    (kept : conn.isOpen = true → (s.conns c).registered = true → conn.registered = true)
    (shut : conn.handler = .removing → conn.isOpen = false) : Valid (s.set c conn) := by
  obtain ⟨begun,stored,taken,deaf,registered,closed,cleared⟩ := valid
  refine ⟨begun,stored,taken,deaf,?_,?_,?_⟩
  all_goals simp only [System.set] at *
  all_goals grind

theorem Valid.move {s' : System} {phase : Handler} {guard : Bool} {change : Conn → Conn}
    (moved : s.move c phase guard change = some s')
    (opened : (change (s.conns c)).isOpen = true → (s.conns c).isOpen = true)
    (kept : (s.conns c).handler = phase → (change (s.conns c)).isOpen = true → (s.conns c).registered = true →
      (change (s.conns c)).registered = true)
    (shut : (change (s.conns c)).handler = .removing → (change (s.conns c)).isOpen = false) : Valid s' := by
  simp only [System.move,guarded] at moved
  obtain ⟨⟨present,-⟩,rfl⟩ := moved
  exact valid.set opened (kept present) shut

theorem Valid.connect (accepting : s.serve = .accepting) (listens : s.listens = true) :
    Valid { s.set c { absentConn with handler := .accepted, isOpen := true } with serve := .registering c } := by
  have early : s.shutdown.pastListener = false := Bool.eq_false_iff.mpr fun late => by
    have deaf := (valid.deaf late).1
    rw [listens] at deaf
    cases deaf
  have earlier : s.shutdown.pastClients = false := by
    cases phase : s.shutdown <;> first | rfl | (rw [phase] at early; cases early)
  obtain ⟨begun,stored,taken,deaf,registered,closed,cleared⟩ := valid
  constructor
  all_goals simp only [System.set] at *
  all_goals grind

theorem Valid.closeClients (clearing : s.shutdown = .clearing) (none : ∀ c, s.serve ≠ .registering c) :
    Valid { s with shutdown := .removing, conns := fun c => (s.conns c).clear } := by
  have shuts : ∀ c, (s.conns c).clear.isOpen = false := by
    intro c
    have registered := valid.registered c
    unfold Conn.clear
    grind
  obtain ⟨begun,stored,taken,deaf,registered,closed,cleared⟩ := valid
  have past : Shutdown.pastListener s.shutdown = true := by rw [clearing]; rfl
  refine ⟨nofun,stored,nofun,fun _ => deaf past,?_,fun c _ => shuts c,fun _ => ⟨shuts,none⟩⟩
  intro c isOpen
  simp only [shuts c] at isOpen
  cases isOpen

theorem Valid.register (registering : s.serve = .registering c) :
    Valid { s.set c { s.conns c with registered := true } with serve := .spawning c } := by
  obtain ⟨begun,stored,taken,deaf,registered,closed,cleared⟩ := valid
  constructor
  all_goals simp only [System.set] at *
  all_goals grind

theorem Valid.spawn (spawning : s.serve = .spawning c) :
    Valid { s.set c { s.conns c with handler := .starting } with serve := .accepting, wg := s.wg+1 } := by
  obtain ⟨begun,stored,taken,deaf,registered,closed,cleared⟩ := valid
  constructor
  all_goals simp only [System.set] at *
  all_goals grind

theorem Valid.serves {serve : Serve} (none : ∀ c, s.serve ≠ .registering c)
    (stored : s.listener = true → serve ≠ .idle ∧ serve ≠ .listening) (none' : ∀ c, serve ≠ .registering c) :
    Valid { s with serve := serve } :=
  ⟨valid.begun,stored,valid.taken,valid.deaf,fun c isOpen => .inl ((valid.registered c isOpen).resolve_right (none c)),
    valid.shut,fun past => ⟨(valid.cleared past).1,none'⟩⟩

theorem step_valid {s' : System} (a : Action) (prepared : Prepared s a) (moved : step s a = some s') : Valid s' := by
  have whole := valid
  obtain ⟨begun,stored,taken,deaf,registered,closed,cleared⟩ := valid
  cases a with simp only [step,guarded] at moved
  | connect c =>
    obtain ⟨⟨accepting,listens,-⟩,rfl⟩ := moved
    exact whole.connect accepting listens
  | closeClients =>
    obtain ⟨clearing,rfl⟩ := moved
    exact whole.closeClients clearing prepared
  | register c =>
    obtain ⟨registering,rfl⟩ := moved
    exact whole.register registering
  | spawn c =>
    obtain ⟨spawning,rfl⟩ := moved
    exact whole.spawn spawning
  | serveCall =>
    obtain ⟨idle,rfl⟩ := moved
    -- there is no listener yet, so `Shutdown` is not past it
    have early : s.listener = true → False := fun is => (stored is).1 idle
    have valid' : Valid { s with serve := .listening } :=
      whole.serves (by rw [idle]; nofun) (fun is => (early is).elim) nofun
    exact { valid' with deaf := fun past => (early (deaf past).2).elim }
  | storeListener =>
    obtain ⟨listening,rfl⟩ := moved
    have valid' : Valid { s with serve := .accepting } :=
      whole.serves (by rw [listening]; nofun) (fun _ => ⟨nofun,nofun⟩) nofun
    exact { valid' with
      stored := fun _ => ⟨nofun,nofun⟩
      taken := fun ln closing => ⟨(taken ln closing).1,rfl⟩
      deaf := fun past => ⟨(deaf past).1,rfl⟩ }
  | acceptFault =>
    obtain ⟨accepting,rfl⟩ := moved
    exact whole.serves (by rw [accepting]; nofun) (fun _ => ⟨nofun,nofun⟩) nofun
  | acceptClosed =>
    obtain ⟨⟨accepting,-⟩,rfl⟩ := moved
    exact whole.serves (by rw [accepting]; nofun) (fun _ => ⟨nofun,nofun⟩) nofun
  | waited =>
    obtain ⟨⟨waiting,-⟩,rfl⟩ := moved
    exact whole.serves (by rw [waiting]; nofun) (fun _ => ⟨nofun,nofun⟩) nofun
  | cancel =>
    obtain ⟨-,rfl⟩ := moved
    exact { whole with begun := fun _ => prepared }
  | closeOnDone =>
    obtain ⟨-,rfl⟩ := moved
    exact { whole with deaf := fun past => ⟨rfl,(deaf past).2⟩ }
  | shutdownCall =>
    obtain ⟨-,rfl⟩ := moved
    exact ⟨fun _ => nofun,stored,nofun,nofun,registered,closed,nofun⟩
  | takeListener =>
    obtain ⟨-,rfl⟩ := moved
    have listener : s.listener = true := prepared
    refine ⟨fun _ => nofun,stored,fun ln closing => ?_,nofun,registered,closed,nofun⟩
    cases closing
    exact ⟨listener,listener⟩
  | removeSocket =>
    obtain ⟨removing,rfl⟩ := moved
    rw [removing] at deaf cleared
    exact ⟨fun _ => nofun,stored,nofun,fun _ => deaf rfl,registered,closed,fun _ => cleared rfl⟩
  | closeListener =>
    split at moved
    · rename_i ln closing
      cases moved
      obtain ⟨rfl,present⟩ := taken ln closing
      exact ⟨fun _ => nofun,stored,nofun,fun _ => ⟨rfl,present⟩,registered,closed,nofun⟩
    · cases moved
  | startSession c ok => exact whole.move moved id (fun _ _ => id) (by cases ok <;> nofun)
  | checkContext c => exact whole.move moved id (fun _ _ => id) (by dsimp only; split <;> nofun)
  | readLine c | readError c => exact whole.move moved id (fun _ _ => id) nofun
  | respond c ok => exact whole.move moved id (fun _ _ => id) (by cases ok <;> nofun)
  | closeConn c => exact whole.move moved nofun (fun _ => nofun) (fun _ => rfl)
  | removeConn c =>
    simp only [Option.map_eq_some_iff] at moved
    obtain ⟨t,moved,rfl⟩ := moved
    have valid' : Valid t := whole.move moved id (fun removing isOpen => by
      rw [closed c removing] at isOpen
      cases isOpen) nofun
    exact { valid' with }
  | send c | hangUp c =>
    obtain ⟨-,rfl⟩ := moved
    exact whole.set id (fun _ => id) (closed c)

end

/-! ### Shutdown -/

theorem shutdown_runs (called : s.shutdown ≠ .idle) (early : s.shutdown.pastClients = false) :
    ∃ actions s', (∀ a ∈ actions, remaining a = true) ∧ exec step free s actions = some s' ∧
      ∀ c, s'.conns c = (s.conns c).clear := by
  let after (listens : Bool) : System :=
    { s with shutdown := .removing, listens := listens, conns := fun c => (s.conns c).clear }
  cases phase : s.shutdown with
  | idle => exact absurd phase called
  | called =>
    refine ⟨[.takeListener,.closeListener,.closeClients],after (if s.listener then false else s.listens),?_,?_,
      fun _ => rfl⟩
    · simp [remaining]
    · simp [exec,step,free,phase,after]
  | closing ln =>
    refine ⟨[.closeListener,.closeClients],after (if ln then false else s.listens),?_,?_,fun _ => rfl⟩
    · simp [remaining]
    · simp [exec,step,free,phase,after]
  | clearing =>
    refine ⟨[.closeClients],after s.listens,?_,?_,fun _ => rfl⟩
    · simp [remaining]
    · simp [exec,step,free,phase,after]
  | removing | returned => rw [phase] at early; cases early

theorem Valid.completes (valid : Valid s) : Completes s where
  closed returned _ c := by
    have past : Shutdown.pastClients s.shutdown = true := by rw [returned]; rfl
    exact .inr (.inr ((valid.cleared past).1 c))
  unblocks ended waiting c blocked := by
    obtain ⟨-,isOpen,-⟩ := blocked
    have early : s.shutdown.pastClients = false := Bool.eq_false_iff.mpr fun past => by
      rw [(valid.cleared past).1 c] at isOpen
      cases isOpen
    have called : s.shutdown ≠ .idle := by
      rcases ended with cancelled | returned
      · exact valid.begun cancelled
      · rw [returned]; nofun
    have registered : (s.conns c).registered = true := by
      rcases valid.registered c isOpen with is | registering
      · exact is
      · rw [waiting] at registering; cases registering
    obtain ⟨actions,s',own,run,cleared⟩ := shutdown_runs called early
    refine ⟨actions,s',own,run,fun ⟨_,still,_⟩ => ?_⟩
    rw [cleared c,Conn.clear,if_pos registered] at still
    cases still

/-- If the context is cancelled after a call of `Shutdown`, and `Shutdown` finds the listener
    and no connection on its way to the map, shutdown completes. -/
theorem prepared_completes {s : System} (reached : Reachable step Prepared init s) : Completes s :=
  (reached.invariant init_valid (fun _ a _ valid prepared moved => step_valid valid a prepared moved)).completes

open SocketShutdown.Action

/-- A client is served, `Shutdown` ends it, and then the context is cancelled. -/
theorem prepared_completes_idle : ∃ s, Reachable step Prepared init s ∧ s.shutdown = .returned ∧ s.cancelled = true ∧
    (s.conns 0).handler = .reading ∧ Completes s := by
  have served : Reachable step Prepared init _ := (((Reachable.start.next serveCall trivial rfl).next
    storeListener trivial rfl).next (connect 0) trivial rfl).next (register 0) trivial rfl
  have reading := ((served.next (spawn 0) trivial rfl).next (startSession 0 true) trivial rfl).next
    (checkContext 0) trivial rfl
  have closing := ((reading.next shutdownCall trivial rfl).next takeListener rfl rfl).next
    closeListener trivial rfl
  have returned := (closing.next closeClients nofun rfl).next removeSocket trivial rfl
  have reached := returned.next cancel nofun rfl
  exact ⟨_,reached,rfl,rfl,rfl,prepared_completes reached⟩

/-- A handler that no remaining step unblocks: nothing but the clients can move. -/
theorem not_completes_of_quiescent (quiescent : Quiescent s)
    (ended : s.cancelled = true ∨ s.shutdown = .returned) (waiting : s.serve = .waiting) (blocked : Blocked s c) : ¬ Completes s := by
  intro completes
  obtain ⟨actions,s',own,run,unblocked⟩ := completes.unblocks ended waiting c blocked
  cases actions with
  | nil =>
    cases run
    exact unblocked blocked
  | cons a rest =>
    obtain ⟨-,t,moved,-⟩ := exec_cons run
    rw [quiescent a (own a List.mem_cons_self)] at moved
    cases moved

theorem move_none {phase : Handler} (other : (s.conns c).handler ≠ phase) (guard : Bool)
    (change : Conn → Conn) : s.move c phase guard change = none := if_neg fun both => other both.1

/-- `Serve` waits for a handler or a client, `Shutdown` is not at work, and the only connection is blocked. -/
structure Idle (s : System) (c : Nat) : Prop where
  serve : (s.serve = .waiting ∧ s.wg ≠ 0) ∨ (s.serve = .accepting ∧ s.listens = true)
  deaf : s.cancelled = true → s.listens = false
  shutdown : s.shutdown = .idle ∨ s.shutdown = .returned
  blocked : Blocked s c
  others : ∀ k, k ≠ c → (s.conns k).handler = .absent

theorem Idle.quiescent (idle : Idle s c) : Quiescent s := by
  obtain ⟨serve,deaf,shutdown,⟨reading,isOpen,empty,present⟩,others⟩ := idle
  -- no handler is in a phase other than these two
  have phases : ∀ k, (s.conns k).handler = .absent ∨ (s.conns k).handler = .reading := fun k => by
    by_cases same : k = c
    · exact .inr (same ▸ reading)
    · exact .inl (others k same)
  have moves : ∀ k phase guard change, phase ≠ .absent → phase ≠ .reading → s.move k phase guard change = none := by
    intro k phase guard change present moving
    refine move_none ?_ guard change
    rcases phases k with is | is <;> rw [is]
    · exact present.symm
    · exact moving.symm
  intro a own
  cases a with
  | startSession k ok => simp only [step]; exact moves k .starting _ _ nofun nofun
  | checkContext k => simp only [step]; exact moves k .checking _ _ nofun nofun
  | respond k ok => simp only [step]; exact moves k .handling _ _ nofun nofun
  | closeConn k => simp only [step]; exact moves k .closing _ _ nofun nofun
  | removeConn k => simp only [step,moves k .removing _ _ nofun nofun]; rfl
  | readLine k =>
    by_cases same : k = c
    · simp [step,System.move,same,empty]
    · have away : (s.conns k).handler ≠ .reading := by rw [others k same]; nofun
      simp only [step]
      exact move_none away _ _
  | readError k =>
    by_cases same : k = c
    · simp [step,System.move,same,isOpen,present]
    · have away : (s.conns k).handler ≠ .reading := by rw [others k same]; nofun
      simp only [step]
      exact move_none away _ _
  | serveCall | connect k | acceptFault | cancel | shutdownCall | send k | hangUp k => cases own
  | _ => grind [step]

theorem others_of_succ (later : ∀ n, (s.conns (n+1)).handler = .absent) (k : Nat) (other : k ≠ 0) :
    (s.conns k).handler = .absent := by
  cases k with
  | zero => exact absurd rfl other
  | succ n => exact later n

def cancelRun : List Action :=
  [.serveCall,.storeListener,.connect 0,.register 0,.spawn 0,.startSession 0 true,.checkContext 0,.cancel,.closeOnDone,
    .acceptClosed]

/-- `Shutdown` closes the clients between `Accept` and the registration of a connection. -/
def lateRun : List Action :=
  [.serveCall,.storeListener,.connect 0,.shutdownCall,.takeListener,.closeListener,.closeClients,.removeSocket,
    .register 0,.spawn 0,.startSession 0 true,.checkContext 0,.acceptClosed]

def earlyRun : List Action :=
  [.shutdownCall,.takeListener,.closeListener,.closeClients,.removeSocket,.serveCall,.storeListener,.connect 0,
    .register 0,.spawn 0,.startSession 0 true,.checkContext 0]

/-- A cancelled context alone does not end `Serve`; a `Shutdown` that misses a connection leaves it served. -/
theorem shutdown_incomplete :
    (∃ s, Reachable step free init s ∧ s.cancelled = true ∧ s.serve = .waiting ∧ Quiescent s ∧ Blocked s 0 ∧
      ¬ Completes s) ∧
    (∃ s, Reachable step free init s ∧ s.shutdown = .returned ∧ s.serve = .waiting ∧ Quiescent s ∧ Blocked s 0 ∧
      ¬ Completes s) ∧
    (∃ s, Reachable step free init s ∧ s.shutdown = .returned ∧ s.serve = .accepting ∧ Quiescent s ∧ Blocked s 0 ∧
      ¬ Completes s) := by
  have cancelled : Idle ((exec step free init cancelRun).getD init) 0 :=
    ⟨.inl ⟨rfl,nofun⟩,fun _ => rfl,.inl rfl,⟨rfl,rfl,rfl,rfl⟩,others_of_succ fun _ => rfl⟩
  have late : Idle ((exec step free init lateRun).getD init) 0 :=
    ⟨.inl ⟨rfl,nofun⟩,fun _ => rfl,.inr rfl,⟨rfl,rfl,rfl,rfl⟩,others_of_succ fun _ => rfl⟩
  have early : Idle ((exec step free init earlyRun).getD init) 0 :=
    ⟨.inr ⟨rfl,rfl⟩,nofun,.inr rfl,⟨rfl,rfl,rfl,rfl⟩,others_of_succ fun _ => rfl⟩
  refine ⟨⟨_,exec_getD_reachable _ rfl,rfl,rfl,cancelled.quiescent,cancelled.blocked,?_⟩,
    ⟨_,exec_getD_reachable _ rfl,rfl,rfl,late.quiescent,late.blocked,?_⟩,
    ⟨_,exec_getD_reachable _ rfl,rfl,rfl,early.quiescent,early.blocked,?_⟩⟩
  · exact not_completes_of_quiescent cancelled.quiescent (.inl rfl) rfl cancelled.blocked
  · exact not_completes_of_quiescent late.quiescent (.inr rfl) rfl late.blocked
  · intro completes
    rcases completes.closed rfl early.quiescent 0 with is | is | is <;> cases is

end Mcpkit.SocketShutdown
