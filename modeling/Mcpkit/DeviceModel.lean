import Mcpkit.Transitions

/-!
The connections of the device manager: `Connect`, `Disconnect` and `Close`, the goroutine that
forwards the events of a connection, and the reconnect that it turns into.
-/
namespace Mcpkit.DeviceModel

/-! ### Calls and goroutines -/

/-- A connection. It counts as open from `Open` until `Close` is called or its event channel ends. -/
structure Conn where
  device : String
  isOpen : Bool
  deriving DecidableEq

/-- A call of `Connect`; `failing` is after a `Start` that failed, `stored` after the map update. -/
inductive Connect where
  | idle
  | checked (id : String)
  | opened (id : String) (c : Nat)
  | failing (id : String) (c : Nat)
  | started (id : String) (c : Nat)
  | stored (id : String) (c : Nat)
  | returned
  deriving DecidableEq

/-- A call of `Disconnect`; in the middle it has taken a connection out of the map. -/
inductive Disconnect where
  | idle
  | closing (c : Nat)
  | returned
  deriving DecidableEq

/-- The goroutine of a connection in `forwardEvents`, past its delete from the map, and in `attemptReconnect`. -/
inductive Phase where
  | absent
  | forwarding
  | removed
  | waiting (attempt : Nat)
  | opening (attempt : Nat)
  | opened (c : Nat) (attempt : Nat)
  | failing (c : Nat) (attempt : Nat)
  | started (c : Nat)
  | refused (c : Nat)
  | stored (c : Nat)
  | ended
  deriving DecidableEq

/-- `forwardEvents(ctx, id, conn)` and what becomes of it; the connection is its number. -/
structure Goroutine where
  id : String
  phase : Phase
  deriving DecidableEq

inductive Close where
  | idle
  | called
  | returned
  deriving DecidableEq

/-- `devices` has the flags `closedByUser`; `opened` is in the order of the opens. The last two fields are
    history: a goroutine removed a connection not its own; one was opened after `Close` had returned. -/
structure System where
  devices : String → Option Bool
  conns : String → Option Nat
  opened : Nat → Conn
  next : Nat
  connects : Nat → Connect
  disconnects : Nat → Disconnect
  goroutines : Nat → Goroutine
  close : Close
  usurped : Bool
  late : Bool

def init : System where
  devices _ := none
  conns _ := none
  opened _ := ⟨"",false⟩
  next := 0
  connects _ := .idle
  disconnects _ := .idle
  goroutines _ := ⟨"",.absent⟩
  close := .idle
  usurped := false
  late := false

/-! ### Updates -/

variable (s : System) (maxReconnects : Int) (k : Nat)

def System.setConnect (call : Connect) : System :=
  { s with connects := fun j => if j = k then call else s.connects j }

def System.setDisconnect (call : Disconnect) : System :=
  { s with disconnects := fun j => if j = k then call else s.disconnects j }

variable (c : Nat)

def System.setPhase (phase : Phase) : System :=
  { s with goroutines := fun j => if j = c then ⟨(s.goroutines c).id,phase⟩ else s.goroutines j }

variable (id : String)

/-- `go m.forwardEvents(ctx, id, conn)`. -/
def System.spawn (c : Nat) : System :=
  { s with goroutines := fun j => if j = c then ⟨id,.forwarding⟩ else s.goroutines j }

def System.setConn (conn : Option Nat) : System :=
  { s with conns := fun d => if d = id then conn else s.conns d }

def System.setDevice (closedByUser : Bool) : System :=
  { s with devices := fun d => if d = id then some closedByUser else s.devices d }

/-- A successful `Open`; the new connection is `s.next`. -/
def System.add : System :=
  { s with
    opened := fun j => if j = s.next then ⟨id,true⟩ else s.opened j
    next := s.next+1
    late := s.late || s.close = .returned }

def System.shut : System :=
  { s with opened := fun j => if j = c then ⟨(s.opened c).device,false⟩ else s.opened j }

/-! ### Connect -/

def System.connectCall : Option System :=
  match s.connects k,s.devices id,s.conns id with
  | .idle,some _,none => some (s.setConnect k (.checked id))
  | .idle,_,_ => some (s.setConnect k .returned)
  | _,_,_ => none

variable (ok : Bool)

def System.connectOpen : Option System :=
  match s.connects k with
  | .checked id => some (if ok then (s.add id).setConnect k (.opened id s.next) else s.setConnect k .returned)
  | _ => none

def System.connectStart : Option System :=
  match s.connects k with
  | .opened id c => some (s.setConnect k (if ok then .started id c else .failing id c))
  | _ => none

def System.connectFail : Option System :=
  match s.connects k with
  | .failing _ c => some ((s.shut c).setConnect k .returned)
  | _ => none

def System.connectStore : Option System :=
  match s.connects k with
  | .started id c => some (((s.setConn id (some c)).setDevice id false).setConnect k (.stored id c))
  | _ => none

def System.connectSpawn : Option System :=
  match s.connects k with
  | .stored id c => some ((s.setConnect k .returned).spawn id c)
  | _ => none

/-! ### Disconnect and Close -/

def System.disconnectCall : Option System :=
  match s.disconnects k,s.conns id with
  | .idle,some c =>
    some (((if s.devices id = none then s else s.setDevice id true).setConn id none).setDisconnect k (.closing c))
  | .idle,none => some (s.setDisconnect k .returned)
  | _,_ => none

def System.disconnectClose : Option System :=
  match s.disconnects k with
  | .closing c => some ((s.shut c).setDisconnect k .returned)
  | _ => none

def System.closeAll : Option System :=
  if s.close = .called then
    some { s with
      close := .returned
      opened := fun c => if s.conns (s.opened c).device = some c then ⟨(s.opened c).device,false⟩ else s.opened c
      conns := fun _ => none }
  else none

/-! ### The goroutine of a connection -/

/-- The event channel is drained; what the map has for the device is deleted. -/
def System.drained : Option System :=
  if (s.goroutines c).phase = .forwarding ∧ (s.opened c).isOpen = false then
    some { (s.setConn (s.goroutines c).id none).setPhase c .removed with
      usurped := s.usurped || ((s.conns (s.goroutines c).id).isSome && s.conns (s.goroutines c).id ≠ some c) }
  else none

/-- The loop head of `attemptReconnect`. -/
def tryAgain (attempt : Nat) : Phase :=
  if maxReconnects = 0 ∨ (attempt : Int) ≤ maxReconnects then .waiting attempt else .ended

def System.decide : Option System :=
  match (s.goroutines c).phase with
  | .removed =>
    some (s.setPhase c (if s.devices (s.goroutines c).id = some true then .ended else tryAgain maxReconnects 1))
  | _ => none

def System.giveUp : Option System :=
  match (s.goroutines c).phase with
  | .waiting _ => some (s.setPhase c .ended)
  | _ => none

def System.timer : Option System :=
  match (s.goroutines c).phase with
  | .waiting attempt =>
    some (s.setPhase c (if s.devices (s.goroutines c).id = some false then .opening attempt else .ended))
  | _ => none

def System.reopen : Option System :=
  match (s.goroutines c).phase with
  | .opening attempt =>
    some (if ok then (s.add (s.goroutines c).id).setPhase c (.opened s.next attempt)
      else s.setPhase c (tryAgain maxReconnects (attempt+1)))
  | _ => none

def System.restart : Option System :=
  match (s.goroutines c).phase with
  | .opened c' attempt => some (s.setPhase c (if ok then .started c' else .failing c' attempt))
  | _ => none

def System.refail : Option System :=
  match (s.goroutines c).phase with
  | .failing c' attempt => some ((s.shut c').setPhase c (tryAgain maxReconnects (attempt+1)))
  | _ => none

def System.restore : Option System :=
  match (s.goroutines c).phase with
  | .started c' =>
    some (if s.devices (s.goroutines c).id = some false then
        (s.setConn (s.goroutines c).id (some c')).setPhase c (.stored c')
      else s.setPhase c (.refused c'))
  | _ => none

def System.refuse : Option System :=
  match (s.goroutines c).phase with
  | .refused c' => some ((s.shut c').setPhase c .ended)
  | _ => none

def System.respawn : Option System :=
  match (s.goroutines c).phase with
  | .stored c' => some ((s.setPhase c .ended).spawn (s.goroutines c).id c')
  | _ => none

/-! ### Steps -/

/-- `ok` is what the provider answers. `lose` is the loss of a connection, `refresh` adds a device. -/
inductive Action where
  | refresh (id : String)
  | connectCall (k : Nat) (id : String)
  | connectOpen (k : Nat) (ok : Bool)
  | connectStart (k : Nat) (ok : Bool)
  | connectFail (k : Nat)
  | connectStore (k : Nat)
  | connectSpawn (k : Nat)
  | disconnectCall (k : Nat) (id : String)
  | disconnectClose (k : Nat)
  | closeCall
  | closeAll
  | lose (c : Nat)
  | drained (c : Nat)
  | decide (c : Nat)
  | giveUp (c : Nat)
  | timer (c : Nat)
  | reopen (c : Nat) (ok : Bool)
  | restart (c : Nat) (ok : Bool)
  | refail (c : Nat)
  | restore (c : Nat)
  | refuse (c : Nat)
  | respawn (c : Nat)
  deriving DecidableEq

def step (s : System) : Action → Option System
  | .refresh id => some (if s.devices id = none then s.setDevice id false else s)
  | .connectCall k id => s.connectCall k id
  | .connectOpen k ok => s.connectOpen k ok
  | .connectStart k ok => s.connectStart k ok
  | .connectFail k => s.connectFail k
  | .connectStore k => s.connectStore k
  | .connectSpawn k => s.connectSpawn k
  | .disconnectCall k id => s.disconnectCall k id
  | .disconnectClose k => s.disconnectClose k
  | .closeCall => if s.close = .idle then some { s with close := .called } else none
  | .closeAll => s.closeAll
  | .lose c => if (s.opened c).isOpen = true then some (s.shut c) else none
  | .drained c => s.drained c
  | .decide c => s.decide maxReconnects c
  | .giveUp c => s.giveUp c
  | .timer c => s.timer c
  | .reopen c ok => s.reopen maxReconnects c ok
  | .restart c ok => s.restart c ok
  | .refail c => s.refail maxReconnects c
  | .restore c => s.restore c
  | .refuse c => s.refuse c
  | .respawn c => s.respawn c

def remaining : Action → Bool
  | .refresh _ | .connectCall _ _ | .disconnectCall _ _ | .closeCall | .lose _ => false
  | _ => true

/-! ### What is asked of the manager -/

def Connect.flying : Connect → Bool
  | .opened _ _ | .failing _ _ | .started _ _ => true
  | _ => false

def Phase.flying : Phase → Bool
  | .opened _ _ | .failing _ _ | .started _ | .refused _ => true
  | _ => false

/-- No `Connect` or reconnect is between its `Open` and its map update. -/
def Landed : Prop := (∀ k, (s.connects k).flying = false) ∧ ∀ c, (s.goroutines c).phase.flying = false

structure Owned (maxReconnects : Int) (s : System) : Prop where
  single : Landed s → ∀ c c', (s.opened c).isOpen = true → (s.opened c').isOpen = true →
    (s.opened c).device = (s.opened c').device → c = c'
  stored : Landed s → ∀ c, (s.opened c).isOpen = true → s.conns (s.opened c).device = some c
  kept : s.usurped = false
  unopened : s.late = false
  released : s.close = .returned → (∀ a, remaining a = true → step maxReconnects s a = none) →
    ∀ c, (s.opened c).isOpen = false

def Connect.device : Connect → Option String
  | .checked id | .opened id _ | .failing id _ | .started id _ | .stored id _ => some id
  | _ => none

def Phase.alive : Phase → Bool
  | .absent | .ended => false
  | _ => true

/-- A `Connect` of a known device without a connection begins while nothing else is at work for it, before `Close`
    has returned; and `Close` finds nothing at work but goroutines that end because the user has disconnected
    their device. -/
def Serial : Action → Prop
  | .connectCall _ id => s.devices id ≠ none → s.conns id = none →
    (∀ k, (s.connects k).device ≠ some id) ∧
    (∀ c, (s.goroutines c).phase.alive = true → (s.goroutines c).id ≠ id) ∧ s.close ≠ .returned
  | .closeAll => (∀ id, s.conns id = none) ∧ (∀ k, (s.connects k).device = none) ∧
    ∀ c, (s.goroutines c).phase.alive = true → s.devices (s.goroutines c).id = some true ∧
      ((s.goroutines c).phase = .forwarding ∨ (s.goroutines c).phase = .removed)
  | _ => True

end Mcpkit.DeviceModel
