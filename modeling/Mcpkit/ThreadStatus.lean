import Mcpkit.GoMaps

/-!
The status of a thread. `threadStatus` looks for the last checkpoint of the log, from its end, and
then whether anything came after it.
-/
namespace Mcpkit.ThreadStatus
open GoMaps List
variable {D : Type}

structure Event (D : Type) where
  id : String
  type : String
  timestamp : Int
  data : Option D
  metadata : GoMap String

structure Thread (D : Type) where
  id : String
  events : List (Event D)

def eventCheckpoint : String := "checkpoint"
def statusRunning : String := "running"
def statusPaused : String := "paused"
def statusCompleted : String := "completed"
def statusFailed : String := "failed"
def checkpointReasonKey : String := "reason"
def checkpointStatusKey : String := "status"

variable (t : Thread D) (e : Event D)

def Thread.append : Thread D := { t with events := t.events ++ [e] }

def lastCheckpointIdx (events : List (Event D)) : Nat → Option Nat
  | 0 => none
  | i+1 => if (events[i]?).any (·.type = eventCheckpoint) then some i else lastCheckpointIdx events i

def checkpointStatus (checkpoint : Option (Event D)) (resumed : Bool) : String :=
  match checkpoint.bind (·.metadata.lookup checkpointStatusKey) with
  | none => statusRunning
  | some status =>
    if status = statusCompleted ∨ status = statusFailed then status
    else if status = statusPaused ∧ resumed then statusRunning
    else status

def threadStatus : String :=
  if t.events.length = 0 then statusRunning
  else
    match lastCheckpointIdx t.events t.events.length with
    | none => statusRunning
    | some i => checkpointStatus t.events[i]? (i+1 < t.events.length)

/-! ### The manager -/

/-- The threads by reference, and the store with the reference of each id. -/
structure Manager (D : Type) where
  threads : Nat → Thread D
  store : GoMap Nat

def Manager.append (m : Manager D) (ref : Nat) (e : Event D) : Manager D :=
  { m with threads := Function.update m.threads ref ((m.threads ref).append e) }

def Manager.save (m : Manager D) (ref : Nat) : String × Manager D :=
  ((m.threads ref).id,{ m with store := m.store.insert (m.threads ref).id ref })

/-- `Pause`, `Complete` and `Fail`, for a thread that may be nil and an event that `NewEvent` has made or not. -/
def Manager.checkpoint (verb status reason : String) (m : Manager D) (ref : Option Nat)
    (made : Except String (Event D)) : Except String String × Manager D :=
  match ref,made with
  | none,_ => (.error ("session: cannot " ++ verb ++ " nil thread"),m)
  | some _,.error err => (.error ("session: create checkpoint event: " ++ err),m)
  | some ref,.ok e =>
    let metadata := e.metadata.insert checkpointStatusKey status
    let metadata := if reason = "" then metadata else metadata.insert checkpointReasonKey reason
    let (id,m) := (m.append ref { e with metadata := metadata }).save ref
    (.ok id,m)

def newCheckpoint (generated : Except String String) (timestamp : Int) (data : D) : Except String (Event D) :=
  generated.map fun id => ⟨id,eventCheckpoint,timestamp,some data,∅⟩

section
variable (m : Manager D) (ref : Option Nat) (generated : Except String String) (timestamp : Int) (text : String → D)

def Manager.pause (reason : String) : Except String String × Manager D :=
  m.checkpoint "pause" statusPaused reason ref (newCheckpoint generated timestamp (text "paused"))

def Manager.complete : Except String String × Manager D :=
  m.checkpoint "complete" statusCompleted "" ref (newCheckpoint generated timestamp (text "completed"))

def Manager.fail (reason : String) : Except String String × Manager D :=
  m.checkpoint "fail" statusFailed reason ref (newCheckpoint generated timestamp (text "failed"))

end

/-- `ListPaused`, when the loop over the store takes the threads in the given order. -/
def Manager.listPaused (m : Manager D) (order : List (String × Nat)) : List Nat :=
  (order.map Prod.snd).filter fun ref => threadStatus (m.threads ref) = statusPaused

/-! ### The log from its beginning -/

def advance (status : String) (e : Event D) : String :=
  if e.type = eventCheckpoint then (e.metadata.lookup checkpointStatusKey).getD statusRunning
  else if status = statusPaused then statusRunning
  else status

variable (events : List (Event D))

def folded : String := events.foldl advance statusRunning

theorem folded_concat (e : Event D) : folded (events ++ [e]) = advance (folded events) e := by
  simp [folded]

theorem lastCheckpointIdx_append (events later : List (Event D)) {n : Nat} (inside : n ≤ events.length) :
    lastCheckpointIdx (events ++ later) n = lastCheckpointIdx events n := by
  induction n with
  | zero => rfl
  | succ i ih => rw [lastCheckpointIdx,lastCheckpointIdx,getElem?_append_left (by omega),ih (by omega)]

theorem lastCheckpointIdx_lt {events : List (Event D)} {n i : Nat} (found : lastCheckpointIdx events n = some i) : i < n := by
  induction n with
  | zero => cases found
  | succ n ih =>
    rw [lastCheckpointIdx] at found
    split at found
    · cases found
      exact Nat.lt_succ_self _
    · exact Nat.lt_succ_of_lt (ih found)

theorem checkpointStatus_last :
    checkpointStatus (some e) false = (e.metadata.lookup checkpointStatusKey).getD statusRunning := by
  unfold checkpointStatus
  cases found : e.metadata.lookup checkpointStatusKey <;> simp [found]

/-- A pause is over after one more event, whether or not there were others before. -/
theorem checkpointStatus_resumed (checkpoint : Option (Event D)) (resumed : Bool) : checkpointStatus checkpoint true =
      if checkpointStatus checkpoint resumed = statusPaused then statusRunning else checkpointStatus checkpoint resumed := by
  unfold checkpointStatus
  cases checkpoint.bind (·.metadata.lookup checkpointStatusKey) with
  | none => simp [statusRunning,statusPaused]
  | some status =>
    by_cases ended : status = statusCompleted ∨ status = statusFailed
    · have going : status ≠ statusPaused := by rcases ended with rfl | rfl <;> decide
      simp [ended,going]
    · by_cases paused : status = statusPaused
      · cases resumed <;> simp [paused,statusRunning,statusPaused,statusCompleted,statusFailed]
      · simp [ended,paused]

theorem threadStatus_append : threadStatus (t.append e) = advance (threadStatus t) e := by
  unfold threadStatus advance Thread.append
  rw [length_append,length_singleton,if_neg (Nat.succ_ne_zero _),lastCheckpointIdx]
  by_cases checkpoint : e.type = eventCheckpoint
  · simp [checkpoint,checkpointStatus_last]
  · rw [lastCheckpointIdx_append _ _ (Nat.le_refl _),if_neg checkpoint,if_neg (by simp [checkpoint])]
    cases found : lastCheckpointIdx t.events t.events.length with
    | none => simp [statusRunning,statusPaused]
    | some i =>
      have inside := lastCheckpointIdx_lt found
      have some_ : t.events.length ≠ 0 := by omega
      have resumed : decide (i+1 < t.events.length+1) = true := by simpa using inside
      simp only [getElem?_append_left inside,if_neg some_,resumed]
      exact checkpointStatus_resumed _ _

theorem threadStatus_eq_folded : threadStatus t = folded t.events := by
  obtain ⟨id,events⟩ := t
  induction events using List.reverseRecOn with
  | nil => rfl
  | append_singleton events e ih =>
    rw [folded_concat,← ih]
    exact threadStatus_append ⟨id,events⟩ e

/-! ### Appends after a checkpoint -/

def Manager.appendAll (m : Manager D) (appends : List (Nat × Event D)) : Manager D :=
  appends.foldl (fun m entry => m.append entry.1 entry.2) m

theorem status_appendAll {appends : List (Nat × Event D)} (plain : ∀ entry ∈ appends, entry.2.type ≠ eventCheckpoint) :
    ∀ {m : Manager D} {ref : Nat}, threadStatus (m.threads ref) ≠ statusPaused →
      threadStatus ((m.appendAll appends).threads ref) = threadStatus (m.threads ref) := by
  induction appends with
  | nil => intro m ref _; rfl
  | cons entry rest ih =>
    intro m ref calm
    have same : threadStatus ((m.append entry.1 entry.2).threads ref) = threadStatus (m.threads ref) := by
      by_cases own : ref = entry.1
      · subst own
        simp [Manager.append,threadStatus_append,advance,plain entry mem_cons_self,calm]
      · simp [Manager.append,own]
    have later := ih (fun other member => plain other (mem_cons_of_mem _ member)) (same ▸ calm)
    exact later.trans same

theorem status_checkpoint {verb status reason : String} {m m' : Manager D} {ref : Nat} {generated : Except String String}
    {timestamp : Int} {data : D} {id : String}
    (done : m.checkpoint verb status reason (some ref) (newCheckpoint generated timestamp data) = (.ok id,m')) :
    threadStatus (m'.threads ref) = status := by
  cases generated with
  | error err => cases done
  | ok eventID =>
    cases done
    have apart : checkpointStatusKey ≠ checkpointReasonKey := by decide
    simp only [Manager.append,Function.update_self,threadStatus_append,advance]
    split_ifs <;> simp_all [Finmap.lookup_insert_of_ne]

/-- The status is where the machine ends; a thread that is completed or failed stays so as long as no
    checkpoint is appended; and the threads listed are those stored ones whose log ends paused. -/
theorem status_is_fold : (∀ t : Thread D, threadStatus t = folded t.events) ∧
    (∀ (m m' : Manager D) ref generated timestamp text reason id (appends : List (Nat × Event D)),
      (∀ entry ∈ appends, entry.2.type ≠ eventCheckpoint) →
      (m.complete (some ref) generated timestamp text = (.ok id,m') →
        threadStatus ((m'.appendAll appends).threads ref) = statusCompleted) ∧
      (m.fail (some ref) generated timestamp text reason = (.ok id,m') →
        threadStatus ((m'.appendAll appends).threads ref) = statusFailed)) ∧
    ∀ (m : Manager D) order, Ranges m.store order → ∀ ref, ref ∈ m.listPaused order ↔
      (∃ id, m.store.lookup id = some ref) ∧ folded (m.threads ref).events = statusPaused := by
  refine ⟨threadStatus_eq_folded,fun m m' ref generated timestamp text reason id appends plain => ⟨fun done => ?_,
    fun done => ?_⟩,fun m order ranges ref => ?_⟩
  · have status := status_checkpoint done
    rw [status_appendAll plain (by rw [status]; decide),status]
  · have status := status_checkpoint done
    rw [status_appendAll plain (by rw [status]; decide),status]
  · simp [Manager.listPaused,threadStatus_eq_folded,← ranges.pairs]

def sampleManager : Manager Unit := ⟨fun _ => ⟨"t",[]⟩,∅⟩

theorem status_is_fold_sample : threadStatus (((sampleManager.complete (some 0) (.ok "e") 0 fun _ => ()).2.appendAll
      [(0,⟨"f","tool_call",1,none,∅⟩)]).threads 0) = "completed" :=
  ((status_is_fold (D := Unit)).2.1 sampleManager _ 0 (.ok "e") 0 (fun _ => ()) "" "t" [(0,⟨"f","tool_call",1,none,∅⟩)]
    (by decide)).1 rfl

end Mcpkit.ThreadStatus
