import Mathlib.Data.List.Basic
import Mcpkit.Transitions

/-!
The audit log. `Log` puts an event into a queue, or counts it as dropped when the queue is full; a
writer takes events from the queue and appends them to the log file.
-/
namespace Mcpkit.AuditLog
open Transitions List
variable {D : Type}

structure AuditEvent (D : Type) where
  id : String
  timestamp : Int
  details : D
  deriving DecidableEq

structure AuditLoggerConfig where
  maxEvents : Int
  queueSize : Int
  exporters : Nat

/-- A call of `Log` before its lock section, before its `select`, between exporters, or gone. -/
inductive Log (D : Type) where
  | recording (event : AuditEvent D)
  | sending (event : AuditEvent D)
  | exporting (event : AuditEvent D) (dropped : Bool) (left : Nat)
  | returned (event : AuditEvent D) (dropped : Bool)
  deriving DecidableEq

/-- The background writer: before it has made the directory, in its `select`, in `writeEvent`, gone. -/
inductive Writer (D : Type) where
  | starting
  | selecting
  | writing (i : Nat) (event : AuditEvent D)
  | done
  deriving DecidableEq

/-- `Close`: not called, before it closes `stopCh`, in `wg.Wait`, between exporters, gone. -/
inductive Closing where
  | notCalled
  | called
  | waiting
  | exporting (left : Nat)
  | closed
  deriving DecidableEq

/-- Events and lines have the number of their `Log` call with them; `early` is history: the calls that had
    returned when `Close` was called. -/
structure System (D : Type) where
  maxEvents : Nat
  queueSize : Nat
  exporters : Nat
  seq : Nat
  events : List (AuditEvent D)
  writeQueue : List (Nat × AuditEvent D)
  dropped : Nat
  exportErrors : Nat
  logs : List (Log D)
  writer : Writer D
  closing : Closing
  file : List (Nat × String)
  early : List Nat
  deriving DecidableEq

def newAuditLogger (config : AuditLoggerConfig) : System D where
  maxEvents := if config.maxEvents ≤ 0 then 1000 else config.maxEvents.toNat
  queueSize := if config.queueSize ≤ 0 then 100 else config.queueSize.toNat
  exporters := config.exporters
  seq := 0
  events := []
  writeQueue := []
  dropped := 0
  exportErrors := 0
  logs := []
  writer := .starting
  closing := .notCalled
  file := []
  early := []

def Log.isReturned : Log D → Bool
  | .returned _ _ => true
  | _ => false

def Log.isDropped : Log D → Bool
  | .exporting _ dropped _ => dropped
  | .returned _ dropped => dropped
  | _ => false

def Closing.stopped : Closing → Bool
  | .notCalled => false
  | .called => false
  | _ => true

/-- The parts of `Log` and `Close`, and the steps of the writer; the flags tell whether the file system and an
    exporter do their part. -/
inductive Action (D : Type) where
  | log (event : AuditEvent D) (now : Int)
  | record (i : Nat)
  | send (i : Nat)
  | exportEvent (i : Nat) (failed : Bool)
  | mkdirAll (made : Bool)
  | receive
  | halt
  | writeEvent (written : Bool)
  | close
  | signal
  | wait
  | closeExporter

variable (s : System D)

def System.setLog (i : Nat) (log : Log D) : System D := { s with logs := s.logs.set i log }

def System.stamp (event : AuditEvent D) (now : Int) : AuditEvent D × Nat :=
  if event.id = "" then
    ({ event with timestamp := now, id := toString now ++ "-" ++ toString (s.seq+1) },s.seq+1)
  else ({ event with timestamp := now },s.seq)

def System.returnedLogs : List Nat :=
  (List.range s.logs.length).filter fun i => (s.logs[i]?).any Log.isReturned

variable (marshal : AuditEvent D → Option String) (s : System D)

def step : Action D → Option (System D)
  | .log event now =>
    let (event,seq) := s.stamp event now
    some { s with seq := seq, logs := s.logs ++ [.recording event] }
  | .record i =>
    match s.logs[i]? with
    | some (.recording event) =>
      let events := if s.maxEvents ≤ s.events.length then s.events.tail else s.events
      some { s.setLog i (.sending event) with events := events ++ [event] }
    | _ => none
  | .send i =>
    match s.logs[i]? with
    | some (.sending event) =>
      if s.writeQueue.length < s.queueSize then
        some { s.setLog i (.exporting event false s.exporters) with writeQueue := s.writeQueue ++ [(i,event)] }
      else some { s.setLog i (.exporting event true s.exporters) with dropped := s.dropped+1 }
    | _ => none
  | .exportEvent i failed =>
    match s.logs[i]? with
    | some (.exporting event dropped 0) => some (s.setLog i (.returned event dropped))
    | some (.exporting event dropped (left+1)) =>
      some { s.setLog i (.exporting event dropped left) with
        exportErrors := if failed then s.exportErrors+1 else s.exportErrors }
    | _ => none
  | .mkdirAll made =>
    match s.writer with
    | .starting => some { s with writer := if made then .selecting else .done }
    | _ => none
  | .receive =>
    match s.writer,s.writeQueue with
    | .selecting,(i,event) :: rest => some { s with writer := .writing i event, writeQueue := rest }
    | _,_ => none
  | .halt =>
    match s.writer with
    | .selecting => if s.closing.stopped then some { s with writer := .done } else none
    | _ => none
  | .writeEvent written =>
    match s.writer with
    | .writing i event =>
      let line := if written then (marshal event).map (fun data => (i,data)) else none
      some { s with writer := .selecting, file := s.file ++ line.toList }
    | _ => none
  | .close =>
    match s.closing with
    | .notCalled => some { s with closing := .called, early := s.returnedLogs }
    | _ => some s
  | .signal =>
    match s.closing with
    | .called => some { s with closing := .waiting }
    | _ => none
  | .wait =>
    match s.closing,s.writer with
    | .waiting,.done => some { s with closing := .exporting s.exporters }
    | _,_ => none
  | .closeExporter =>
    match s.closing with
    | .exporting 0 => some { s with closing := .closed }
    | .exporting (left+1) => some { s with closing := .exporting left }
    | _ => none

/-! ### Where the events are -/

def System.lines (i : Nat) : List String := (s.file.filter fun line => line.1 = i).map Prod.snd

/-- What was logged before `Close` is in the file, once, or was dropped; and what was dropped is counted. -/
structure Conserved : Prop where
  once : ∀ i ∈ s.early, ∃ event dropped, s.logs[i]? = some (.returned event dropped) ∧
    (dropped = false → ∃ data, marshal event = some data ∧ s.lines i = [data]) ∧ (dropped = true → s.lines i = [])
  counted : s.dropped = s.logs.countP Log.isDropped

/-- The writer takes the signal while an event of a returned call is in the queue, or comes to one without JSON
    text. -/
def Loses : Action D → Prop
  | .halt => ∃ entry ∈ s.writeQueue, entry.1 ∈ s.early
  | .writeEvent _ => ∃ i event, s.writer = .writing i event ∧ marshal event = none ∧
      (s.closing = .notCalled ∨ i ∈ s.early)
  | _ => False

def Fails : Action D → Prop
  | .mkdirAll false => True
  | .writeEvent false => True
  | _ => False

def Writer.hand : Writer D → List (Nat × AuditEvent D)
  | .writing i event => [(i,event)]
  | _ => []

def Closing.waited : Closing → Bool
  | .exporting _ => true
  | .closed => true
  | _ => false

open Reachable Log

section
variable (marshal : AuditEvent D → Option String)

/-- The events in the file, with the writer and in the queue, with their JSON texts. -/
def System.trail (s : System D) : List (Nat × Option String) :=
  s.file.map (fun line => (line.1,some line.2)) ++
    (s.writer.hand ++ s.writeQueue).map fun entry => (entry.1,marshal entry.2)

def sent (i : Nat) : Option (Log D) → List (Nat × Option String)
  | some (.exporting event false _) => [(i,marshal event)]
  | some (.returned event false) => [(i,marshal event)]
  | _ => []

structure Kept (s : System D) : Prop where
  places : ∀ i, s.closing = .notCalled ∨ i ∈ s.early →
    (s.trail marshal).filter (fun entry => entry.1 = i) = sent marshal i s.logs[i]?
  early : ∀ i ∈ s.early, ∃ event dropped, s.logs[i]? = some (.returned event dropped)
  counted : s.dropped = s.logs.countP Log.isDropped
  shut : s.writer = .done → s.closing.stopped = true ∧ ∀ entry ∈ s.writeQueue, entry.1 ∉ s.early
  waited : s.closing.waited = true → s.writer = .done

attribute [local simp] System.trail Writer.hand

theorem kept_new (config : AuditLoggerConfig) : Kept marshal (newAuditLogger config) := by
  refine ⟨fun i _ => ?_,?_,rfl,nofun,nofun⟩
  · simp [newAuditLogger,sent]
  · simp [newAuditLogger]

variable {marshal} {s s' : System D} {i : Nat} {event : AuditEvent D}

section
variable (kept : Kept marshal s)
include kept

theorem Kept.not_early {log : Log D} (here : s.logs[i]? = some log)
    (underway : log.isReturned = false) : i ∉ s.early := by
  intro early
  obtain ⟨event,dropped,there⟩ := kept.early i early
  cases here.symm.trans there
  cases underway

theorem Kept.setLog {old new : Log D} (here : s.logs[i]? = some old)
    (underway : old.isReturned = false) (same : sent marshal i (some new) = sent marshal i (some old))
    (dropped : new.isDropped = old.isDropped) : Kept marshal (s.setLog i new) := by
  obtain ⟨inside,at_i⟩ := List.getElem?_eq_some_iff.mp here
  have others {j : Nat} (other : i ≠ j) : (s.logs.set i new)[j]? = s.logs[j]? := getElem?_set_ne other
  refine ⟨fun j allowed => ?_,fun j early => ?_,?_,kept.shut,kept.waited⟩
  · by_cases own : i = j
    · subst own
      have placed := kept.places i allowed
      rw [here,← same] at placed
      show (s.trail marshal).filter _ = sent marshal i (s.logs.set i new)[i]?
      rw [getElem?_set_self inside]
      exact placed
    · show (s.trail marshal).filter _ = sent marshal j (s.logs.set i new)[j]?
      rw [others own]
      exact kept.places j allowed
  · have other : i ≠ j := by
      rintro rfl
      exact kept.not_early here underway early
    simpa only [System.setLog,others other] using kept.early j early
  · have counted := kept.counted
    have before : (s.logs.countP isDropped - if old.isDropped then 1 else 0) + (if old.isDropped then 1 else 0) =
        s.logs.countP isDropped := by
      by_cases was : old.isDropped
      · have some : 0 < s.logs.countP isDropped :=
          List.countP_pos_iff.mpr ⟨old,mem_of_getElem? here,was⟩
        simp only [was,if_true]
        omega
      · simp [was]
    simp only [System.setLog]
    rw [countP_set inside,at_i,dropped,before]
    exact counted

theorem Kept.log (event : AuditEvent D) (seq : Nat) :
    Kept marshal { s with seq := seq, logs := s.logs ++ [.recording event] } := by
  have old {i : Nat} {log : Log D} (here : s.logs[i]? = some log) :
      (s.logs ++ [.recording event])[i]? = some log := getElem?_append_some here
  refine ⟨fun i allowed => ?_,fun i early => ?_,?_,kept.shut,kept.waited⟩
  · have placed := kept.places i allowed
    refine Eq.trans placed ?_
    cases here : s.logs[i]? with
    | some log => simp only [old here]
    | none =>
      have beyond := getElem?_eq_none_iff.mp here
      by_cases last : i = s.logs.length
      · subst last
        simp [sent]
      · rw [getElem?_eq_none]
        simp
        omega
  · obtain ⟨event',dropped,here⟩ := kept.early i early
    exact ⟨event',dropped,old here⟩
  · simpa [isDropped] using kept.counted

section
variable (here : s.logs[i]? = some (.sending event))
include here

theorem Kept.unsent :
    s.closing = .notCalled ∨ i ∈ s.early → (s.trail marshal).filter (fun entry => entry.1 = i) = [] := by
  intro allowed
  rw [kept.places i allowed,here]
  rfl

theorem Kept.enqueue :
    Kept marshal { s.setLog i (.exporting event false s.exporters) with writeQueue := s.writeQueue ++ [(i,event)] } := by
  have inside := lt_of_getElem? here
  have at_i := (List.getElem?_eq_some_iff.mp here).2
  have late := kept.not_early here rfl
  refine ⟨fun j allowed => ?_,fun j early => ?_,?_,fun done => ⟨(kept.shut done).1,?_⟩,kept.waited⟩
  · have longer : System.trail marshal { s.setLog i (.exporting event false s.exporters) with
        writeQueue := s.writeQueue ++ [(i,event)] } = s.trail marshal ++ [(i,marshal event)] := by
      simp [System.setLog]
    rw [longer,filter_append]
    by_cases own : i = j
    · subst own
      rw [kept.unsent here allowed]
      simp [System.setLog,getElem?_set_self inside,sent]
    · rw [kept.places j allowed]
      simp [System.setLog,getElem?_set_ne own,own]
  · have other : i ≠ j := by
      rintro rfl
      exact late early
    simpa only [System.setLog,getElem?_set_ne other] using kept.early j early
  · simp only [System.setLog]
    rw [countP_set inside,at_i]
    simpa [isDropped] using kept.counted
  · exact forall_mem_snoc (kept.shut done).2 late

theorem Kept.drop : Kept marshal { s.setLog i (.exporting event true s.exporters) with dropped := s.dropped+1 } := by
  have inside := lt_of_getElem? here
  have at_i := (List.getElem?_eq_some_iff.mp here).2
  refine ⟨fun j allowed => ?_,fun j early => ?_,?_,kept.shut,kept.waited⟩
  · show (s.trail marshal).filter _ = sent marshal j (s.logs.set i _)[j]?
    by_cases own : i = j
    · subst own
      rw [kept.unsent here allowed,getElem?_set_self inside]
      rfl
    · rw [getElem?_set_ne own]
      exact kept.places j allowed
  · have other : i ≠ j := by
      rintro rfl
      exact kept.not_early here rfl early
    simpa only [System.setLog,getElem?_set_ne other] using kept.early j early
  · simp only [System.setLog]
    rw [countP_set inside,at_i]
    simpa [isDropped] using kept.counted

end

theorem Kept.receive {rest : List (Nat × AuditEvent D)}
    (selecting : s.writer = .selecting) (queued : s.writeQueue = (i,event) :: rest) :
    Kept marshal { s with writer := .writing i event, writeQueue := rest } := by
  have same : System.trail marshal { s with writer := .writing i event, writeQueue := rest } = s.trail marshal := by
    simp [selecting,queued]
  refine ⟨fun j allowed => ?_,kept.early,kept.counted,nofun,fun waited => ?_⟩
  · rw [same]
    exact kept.places j allowed
  · cases selecting.symm.trans (kept.waited waited)

theorem Kept.write (writing : s.writer = .writing i event)
    (text : marshal event = none → ¬ (s.closing = .notCalled ∨ i ∈ s.early)) : Kept marshal { s with
      writer := .selecting, file := s.file ++ ((marshal event).map fun data => (i,data)).toList } := by
  refine ⟨fun j allowed => ?_,kept.early,kept.counted,nofun,fun waited => ?_⟩
  · refine Eq.trans ?_ (kept.places j allowed)
    cases written : marshal event with
    | some data => simp [writing,written]
    | none =>
      have other : i ≠ j := by
        rintro rfl
        exact text written allowed
      simp [writing,written,other]
  · cases writing.symm.trans (kept.waited waited)

theorem Kept.setClosing {closing : Closing} (stopped : closing.stopped = true)
    (waited : closing.waited = true → s.writer = .done) : Kept marshal { s with closing := closing } := by
  refine ⟨fun j allowed => kept.places j (.inr (allowed.resolve_left ?_)),kept.early,kept.counted,
    fun done => ⟨stopped,(kept.shut done).2⟩,waited⟩
  rintro rfl
  cases stopped

end

theorem mem_returnedLogs (returned : i ∈ s.returnedLogs) :
    ∃ event dropped, s.logs[i]? = some (.returned event dropped) := by
  have any := (mem_filter.mp returned).2
  cases here : s.logs[i]? with
  | none => simp [here] at any
  | some log => cases log <;> simp_all [isReturned]

theorem Kept.step {a : Action D} (kept : Kept marshal s) (works : ¬ Fails a) (keeps : ¬ Loses marshal s a)
    (stepped : step marshal s a = some s') : Kept marshal s' := by
  cases a with simp only [AuditLog.step] at stepped
  | log event now =>
    cases stepped
    exact kept.log _ _
  | record i =>
    split at stepped
    · rename_i event here
      cases stepped
      have set : Kept marshal (s.setLog i (.sending event)) := kept.setLog here rfl rfl rfl
      exact ⟨set.places,set.early,set.counted,set.shut,set.waited⟩
    · cases stepped
  | send i =>
    split at stepped
    · rename_i event here
      split at stepped
      · cases stepped
        exact kept.enqueue here
      · cases stepped
        exact kept.drop here
    · cases stepped
  | exportEvent i failed =>
    split at stepped
    · rename_i event dropped here
      cases stepped
      refine kept.setLog here rfl ?_ rfl
      cases dropped <;> rfl
    · rename_i event dropped left here
      cases stepped
      have set : Kept marshal (s.setLog i (.exporting event dropped left)) :=
        kept.setLog here rfl (by cases dropped <;> rfl) rfl
      exact ⟨set.places,set.early,set.counted,set.shut,set.waited⟩
    · cases stepped
  | mkdirAll made =>
    split at stepped
    · rename_i starting
      cases made with
      | false => exact absurd trivial works
      | true =>
        cases stepped
        refine ⟨fun j allowed => ?_,kept.early,kept.counted,nofun,fun waited => ?_⟩
        · simpa [starting] using kept.places j allowed
        · cases starting.symm.trans (kept.waited waited)
    · cases stepped
  | receive =>
    split at stepped
    · rename_i i event rest selecting queued
      cases stepped
      exact kept.receive selecting queued
    · cases stepped
  | halt =>
    split at stepped
    · rename_i selecting
      split at stepped
      · rename_i stopped
        cases stepped
        refine ⟨fun j allowed => ?_,kept.early,kept.counted,fun _ => ⟨stopped,fun entry queued early => ?_⟩,fun _ => rfl⟩
        · simpa [selecting] using kept.places j allowed
        · exact keeps ⟨entry,queued,early⟩
      · cases stepped
    · cases stepped
  | writeEvent written =>
    split at stepped
    · rename_i i event writing
      cases written with
      | false => exact absurd trivial works
      | true =>
        cases stepped
        exact kept.write writing fun missing due => keeps ⟨i,event,writing,missing,due⟩
    · cases stepped
  | close =>
    split at stepped
    · rename_i open_
      cases stepped
      refine ⟨fun j _ => kept.places j (.inl open_),fun j early => mem_returnedLogs early,kept.counted,fun done => ?_,nofun⟩
      have stopped := (kept.shut done).1
      rw [open_] at stopped
      cases stopped
    · cases stepped
      exact kept
  | signal =>
    split at stepped
    · cases stepped
      exact kept.setClosing rfl nofun
    · cases stepped
  | wait =>
    split at stepped
    · rename_i waiting done
      cases stepped
      exact kept.setClosing rfl fun _ => done
    · cases stepped
  | closeExporter =>
    split at stepped
    · rename_i exporting
      cases stepped
      exact kept.setClosing rfl fun _ => kept.waited (by rw [exporting]; rfl)
    · rename_i left exporting
      cases stepped
      exact kept.setClosing rfl fun _ => kept.waited (by rw [exporting]; rfl)
    · cases stepped

/-! ### When `Close` has returned -/

theorem Kept.lines_early (kept : Kept marshal s) (done : s.writer = .done) (early : i ∈ s.early) :
    (s.file.filter fun line => line.1 = i).map (fun line => (line.1,some line.2)) = sent marshal i s.logs[i]? := by
  have queue : s.writeQueue.filter (fun entry => entry.1 = i) = [] := by
    rw [filter_eq_nil_iff]
    intro entry queued own
    have mine := of_decide_eq_true own
    subst mine
    exact (kept.shut done).2 entry queued early
  have placed := kept.places i (.inr early)
  rw [System.trail,done,filter_append,filter_map,filter_map] at placed
  simp only [Writer.hand,nil_append,Function.comp_def,queue,map_nil,append_nil] at placed
  exact placed

theorem Kept.conserved (kept : Kept marshal s) (closed : s.closing = .closed) : Conserved marshal s := by
  have done := kept.waited (by rw [closed]; rfl)
  refine ⟨fun i early => ?_,kept.counted⟩
  obtain ⟨event,dropped,here⟩ := kept.early i early
  have lines := kept.lines_early done early
  rw [here] at lines
  refine ⟨event,dropped,here,?_,?_⟩
  · rintro rfl
    obtain ⟨line,only,same⟩ := map_eq_singleton_iff.mp lines
    refine ⟨line.2,(Prod.ext_iff.mp same).2.symm,?_⟩
    rw [System.lines,only]
    rfl
  · rintro rfl
    rw [System.lines,map_eq_nil_iff.mp lines]
    rfl

theorem Conserved.total (conserved : Conserved marshal s) :
    s.early.length = (s.early.flatMap s.lines).length + s.early.countP fun i => (s.logs[i]?).any isDropped := by
  have all := conserved.once
  generalize s.early = early at all ⊢
  induction early with
  | nil => rfl
  | cons i rest ih =>
    have later := ih fun j member => all j (mem_cons_of_mem i member)
    obtain ⟨event,dropped,here,written,unwritten⟩ := all i mem_cons_self
    rw [length_cons,flatMap_cons,length_append,countP_cons,here]
    cases dropped with
    | false =>
      obtain ⟨data,-,line⟩ := written rfl
      simp only [line,Option.any_some,isDropped,length_singleton]
      simp only [Bool.false_eq_true,if_false]
      omega
    | true =>
      simp only [unwritten rfl,Option.any_some,isDropped,length_nil,if_true]
      omega

/-! ### What is lost stays lost -/

theorem reaches_returned {dropped : Bool} (left : Nat) :
    ∀ {s : System D}, s.logs[i]? = some (.exporting event dropped left) →
      Reachable (step marshal) (fun _ a => ¬ Fails a) s (s.setLog i (.returned event dropped)) := by
  induction left with
  | zero =>
    intro s here
    refine .next (.exportEvent i false) .start nofun ?_
    simp only [AuditLog.step,here]
  | succ left ih =>
    intro s here
    have inside := lt_of_getElem? here
    have moved : AuditLog.step marshal s (.exportEvent i false) = some (s.setLog i (.exporting event dropped left)) := by
      simp only [AuditLog.step,here]
      rfl
    have later := ih (s := s.setLog i (.exporting event dropped left)) (getElem?_set_self inside)
    have same : (s.setLog i (.exporting event dropped left)).setLog i (.returned event dropped) =
        s.setLog i (.returned event dropped) := by
      simp only [System.setLog,set_set]
    rw [same] at later
    exact (next (.exportEvent i false) .start nofun moved).trans later

theorem reaches_closed (left : Nat) : ∀ {s : System D}, s.closing = .exporting left →
    Reachable (step marshal) (fun _ a => ¬ Fails a) s { s with closing := .closed } := by
  induction left with
  | zero =>
    intro s exporting
    refine .next .closeExporter .start nofun ?_
    simp only [AuditLog.step,exporting]
  | succ left ih =>
    intro s exporting
    have moved : AuditLog.step marshal s .closeExporter = some { s with closing := .exporting left } := by
      simp only [AuditLog.step,exporting]
    exact (next .closeExporter .start nofun moved).trans (ih (s := { s with closing := .exporting left }) rfl)

theorem reaches_closed_of_done (done : s.writer = .done) (waiting : s.closing = .waiting) :
    Reachable (step marshal) (fun _ a => ¬ Fails a) s { s with closing := .closed } := by
  have moved : AuditLog.step marshal s .wait = some { s with closing := .exporting s.exporters } := by
    simp only [AuditLog.step,waiting,done]
  exact (next .wait .start nofun moved).trans
    (reaches_closed (s := { s with closing := .exporting s.exporters }) s.exporters rfl)

theorem reaches_closed_of_selecting (selecting : s.writer = .selecting)
    (closing : s.closing = .called ∨ s.closing = .waiting) :
    Reachable (step marshal) (fun _ a => ¬ Fails a) s { s with writer := .done, closing := .closed } := by
  have halts {s : System D} (selecting : s.writer = .selecting) (waiting : s.closing = .waiting) :
      Reachable (step marshal) (fun _ a => ¬ Fails a) s { s with writer := .done, closing := .closed } := by
    have moved : AuditLog.step marshal s .halt = some { s with writer := .done } := by
      simp only [AuditLog.step,selecting,waiting,Closing.stopped,if_true]
    exact (next .halt .start nofun moved).trans
      (reaches_closed_of_done (s := { s with writer := .done }) rfl waiting)
  rcases closing with called | waiting
  · have moved : AuditLog.step marshal s .signal = some { s with closing := .waiting } := by
      simp only [AuditLog.step,called]
    exact (next .signal .start nofun moved).trans
      (halts (s := { s with closing := .waiting }) selecting rfl)
  · exact halts selecting waiting

theorem not_conserved (early : i ∈ s.early) (here : s.logs[i]? = some (.returned event false))
    (unwritten : s.file.filter (fun line => line.1 = i) = []) : ¬ Conserved marshal s := by
  intro conserved
  obtain ⟨event',dropped,there,written,-⟩ := conserved.once i early
  cases here.symm.trans there
  obtain ⟨data,-,line⟩ := written rfl
  rw [System.lines,unwritten] at line
  cases line

/-- An event that is with the writer or in the queue is the only one of its call, and no line of the file is. -/
theorem Kept.unwritten (kept : Kept marshal s) {entry : Nat × AuditEvent D} (ahead : entry ∈ s.writer.hand ++ s.writeQueue)
    (allowed : s.closing = .notCalled ∨ entry.1 ∈ s.early) : s.file.filter (fun line => line.1 = entry.1) = [] ∧
    ∃ event, s.logs[entry.1]? = some (.returned event false) ∨ ∃ left, s.logs[entry.1]? = some (.exporting event false left) := by
  have placed := kept.places entry.1 allowed
  rw [System.trail,filter_append,filter_map,filter_map] at placed
  have some_ahead : entry ∈ (s.writer.hand ++ s.writeQueue).filter fun other => other.1 = entry.1 := by
    simpa using ahead
  have positive := length_pos_of_mem some_ahead
  have lengths := congrArg length placed
  simp only [Function.comp_def,length_append,length_map] at lengths
  cases here : s.logs[entry.1]? with
  | none =>
    simp only [here,sent,length_nil] at lengths
    omega
  | some log =>
    rw [here] at lengths
    have one : (sent marshal entry.1 (some log)).length = 1 → s.file.filter (fun line => line.1 = entry.1) = [] := by
      rw [← length_eq_zero_iff]
      omega
    cases log with
    | recording event | sending event =>
      simp only [sent,length_nil] at lengths
      omega
    | exporting event dropped left =>
      cases dropped with
      | true =>
        simp only [sent,length_nil] at lengths
        omega
      | false => exact ⟨one rfl,event,.inr ⟨left,rfl⟩⟩
    | returned event dropped =>
      cases dropped with
      | true =>
        simp only [sent,length_nil] at lengths
        omega
      | false => exact ⟨one rfl,event,.inl rfl⟩

theorem Kept.underway (kept : Kept marshal s) (working : s.writer ≠ .done) :
    s.closing = .notCalled ∨ s.closing = .called ∨ s.closing = .waiting := by
  cases phase : s.closing with
  | notCalled => exact .inl rfl
  | called => exact .inr (.inl rfl)
  | waiting => exact .inr (.inr rfl)
  | exporting left | closed => exact absurd (kept.waited (by rw [phase]; rfl)) working

theorem mem_returnedLogs_of_getElem? {dropped : Bool}
    (here : s.logs[i]? = some (.returned event dropped)) : i ∈ s.returnedLogs := by
  have inside := lt_of_getElem? here
  refine mem_filter.mpr ⟨mem_range.mpr inside,?_⟩
  rw [here]
  rfl

/-- `Close` can still return without an event that was logged before. -/
def CanLose (marshal : AuditEvent D → Option String) (t : System D) : Prop :=
  ∃ s'', Reachable (AuditLog.step marshal) (fun _ a => ¬ Fails a) t s'' ∧ s''.closing = .closed ∧ ¬ Conserved marshal s''

section
variable {t : System D} (selecting : t.writer = .selecting) (here : t.logs[i]? = some (.returned event false))
  (none : t.file.filter (fun line => line.1 = i) = [])
include selecting here none

theorem canLose_of_closing (early : i ∈ t.early) (phase : t.closing = .called ∨ t.closing = .waiting) :
    CanLose marshal t :=
  ⟨_,reaches_closed_of_selecting selecting phase,rfl,
    not_conserved (s := { t with writer := .done, closing := .closed }) early here none⟩

theorem canLose_of_notCalled (phase : t.closing = .notCalled) : CanLose marshal t := by
  have moved : AuditLog.step marshal t .close = some { t with closing := .called, early := t.returnedLogs } := by
    simp only [AuditLog.step,phase]
  obtain ⟨s'',later,bad⟩ := canLose_of_closing
    (t := { t with closing := .called, early := t.returnedLogs }) selecting here none
    (mem_returnedLogs_of_getElem? here) (.inl rfl)
  exact ⟨s'',(next .close .start nofun moved).trans later,bad⟩

end

/-- After a step that loses an event all goes on as if nothing had happened. -/
theorem Kept.breaks {a : Action D} (kept : Kept marshal s) (loses : Loses marshal s a)
    (stepped : AuditLog.step marshal s a = some s') (works : ¬ Fails a) : CanLose marshal s' := by
  cases a with
  | halt =>
    obtain ⟨entry,queued,early⟩ := loses
    simp only [AuditLog.step] at stepped
    split at stepped
    · rename_i selecting
      split at stepped
      · rename_i stopped
        cases stepped
        have waiting : s.closing = .waiting := by
          rcases kept.underway (by rw [selecting]; nofun) with phase | phase | phase
          · rw [phase] at stopped; cases stopped
          · rw [phase] at stopped; cases stopped
          · exact phase
        obtain ⟨unwritten,event,returned | ⟨left,exporting⟩⟩ :=
          kept.unwritten (mem_append_right _ queued) (.inr early)
        · exact ⟨_,reaches_closed_of_done (s := { s with writer := .done }) rfl waiting,rfl,
            not_conserved (i := entry.1) early returned unwritten⟩
        · exact absurd early (kept.not_early exporting rfl)
      · cases stepped
    · cases stepped
  | writeEvent written =>
    obtain ⟨i,event,writing,missing,due⟩ := loses
    cases written with
    | false => exact absurd trivial works
    | true =>
      simp only [AuditLog.step,writing,missing,Option.map_none,ite_self,Option.toList_none,append_nil,
        Option.some.injEq] at stepped
      subst stepped
      have hand : (i,event) ∈ s.writer.hand ++ s.writeQueue := by simp [writing]
      obtain ⟨unwritten,event',log⟩ := kept.unwritten hand due
      rcases kept.underway (by rw [writing]; nofun) with phase | phase
      · rcases log with returned | ⟨left,exporting⟩
        · exact canLose_of_notCalled (t := { s with writer := .selecting }) rfl returned unwritten phase
        · have inside := lt_of_getElem? exporting
          obtain ⟨s'',later,bad⟩ := canLose_of_notCalled (t := System.setLog { s with writer := .selecting } i
            (.returned event' false)) rfl (getElem?_set_self inside) unwritten phase
          exact ⟨s'',(reaches_returned (s := { s with writer := .selecting }) left exporting).trans later,bad⟩
      · have early : i ∈ s.early := due.resolve_left (by rcases phase with phase | phase <;> rw [phase] <;> nofun)
        rcases log with returned | ⟨left,exporting⟩
        · exact canLose_of_closing (t := { s with writer := .selecting }) rfl returned unwritten early phase
        · exact absurd early (kept.not_early exporting rfl)
  | _ => exact absurd loses id

/-- In every run in which no step loses an event, when `Close` has returned the early calls
    are conserved. After a step that loses one, `Close` can return without. -/
theorem audit_conserved_iff (marshal : AuditEvent D → Option String) (config : AuditLoggerConfig)
    (reached : Reachable (AuditLog.step marshal) (fun s a => ¬ Fails a ∧ ¬ Loses marshal s a) (newAuditLogger config) s) :
    (s.closing = .closed → Conserved marshal s ∧
      s.early.length = (s.early.flatMap s.lines).length + s.early.countP fun i => (s.logs[i]?).any Log.isDropped) ∧
    ∀ a s', ¬ Fails a → Loses marshal s a → AuditLog.step marshal s a = some s' →
      ∃ s'', Reachable (AuditLog.step marshal) (fun _ a => ¬ Fails a) s' s'' ∧ s''.closing = .closed ∧
        ¬ Conserved marshal s'' := by
  have kept : Kept marshal s := reached.invariant (I := Kept marshal) (kept_new marshal config)
    (fun s a s' kept ok moved => kept.step ok.1 ok.2 moved)
  refine ⟨fun closed => ?_,fun a s' works loses stepped => kept.breaks loses stepped works⟩
  have conserved := kept.conserved closed
  exact ⟨conserved,conserved.total⟩

end

instance (marshal : AuditEvent D → Option String) (s : System D) : ∀ a, Decidable (Loses marshal s a)
  | .halt => inferInstanceAs (Decidable (∃ entry ∈ s.writeQueue, entry.1 ∈ s.early))
  | .writeEvent _ =>
    match writer : s.writer with
    | .writing i event =>
      decidable_of_iff (marshal event = none ∧ (s.closing = .notCalled ∨ i ∈ s.early)) (by simp [Loses,writer])
    | .starting => .isFalse (by simp [Loses,writer])
    | .selecting => .isFalse (by simp [Loses,writer])
    | .done => .isFalse (by simp [Loses,writer])
  | .log _ _ | .record _ | .send _ | .exportEvent _ _ | .mkdirAll _ | .receive | .close | .signal | .wait
  | .closeExporter => .isFalse id

instance : ∀ a : Action D, Decidable (Fails a)
  | .mkdirAll false | .writeEvent false => .isTrue trivial
  | .mkdirAll true | .writeEvent true | .log _ _ | .record _ | .send _ | .exportEvent _ _ | .receive | .halt | .close
  | .signal | .wait | .closeExporter => .isFalse id

def idOf (event : AuditEvent Unit) : Option String := some event.id

def sampleConfig : AuditLoggerConfig := ⟨0,1,0⟩

def sampleCalls : List (Action Unit) :=
  [.mkdirAll true,.log ⟨"a",0,()⟩ 1,.record 0,.send 0,.exportEvent 0 false,.log ⟨"b",0,()⟩ 2,.record 1,.send 1,
    .exportEvent 1 false,.close,.signal]

def sampleClosed : System Unit :=
  (exec (step idOf) (fun s a => ¬ Fails a ∧ ¬ Loses idOf s a) (newAuditLogger sampleConfig)
    (sampleCalls ++ [.receive,.writeEvent true,.halt,.wait,.closeExporter])).getD (newAuditLogger sampleConfig)

def sampleLost : System Unit :=
  (exec (step idOf) (fun _ a => ¬ Fails a) (newAuditLogger sampleConfig)
    (sampleCalls ++ [.halt,.wait,.closeExporter])).getD (newAuditLogger sampleConfig)

/-- One event is in the file, one is counted. -/
theorem audit_conserved_sample :
    sampleClosed.closing = .closed ∧ sampleClosed.early = [0,1] ∧ sampleClosed.lines 0 = ["a"] ∧
    sampleClosed.dropped = 1 ∧ Conserved idOf sampleClosed := by
  have closed : sampleClosed.closing = .closed := by decide
  refine ⟨closed,by decide,by decide,by decide,?_⟩
  exact ((audit_conserved_iff idOf sampleConfig (exec_reachable
    (sampleCalls ++ [.receive,.writeEvent true,.halt,.wait,.closeExporter]) .start rfl)).1 closed).1

/-- `Close` has returned, the first event is not in the file, and one event is counted. -/
theorem signal_loses_event : Reachable (step idOf) (fun _ a => ¬ Fails a) (newAuditLogger sampleConfig) sampleLost ∧
    sampleLost.closing = .closed ∧ sampleLost.early = [0,1] ∧ sampleLost.file = [] ∧ sampleLost.dropped = 1 ∧
    ¬ Conserved idOf sampleLost := by
  refine ⟨exec_reachable (sampleCalls ++ [.halt,.wait,.closeExporter]) .start rfl,by decide,by decide,
    by decide,by decide,?_⟩
  have here : sampleLost.logs[0]? = some (.returned ⟨"a",1,()⟩ false) := by decide
  exact not_conserved (by decide) here (by decide)

/-! ### Whatever fails -/

def System.placed (s : System D) : List Nat := s.file.map Prod.fst ++ (s.writer.hand ++ s.writeQueue).map Prod.fst

/-- The queue is within its bound; and a call has one place in the queue, the writer and the file at most, and none
    before its event is sent or when it is dropped. -/
structure Tidy (s : System D) : Prop where
  room : s.writeQueue.length ≤ s.queueSize
  once : ∀ i, s.placed.count i ≤ (sent marshal i s.logs[i]?).length

section
variable {marshal s} {s' : System D} {i : Nat} (tidy : Tidy marshal s)
include tidy

theorem Tidy.setLog {old : Log D} (new : Log D) (here : s.logs[i]? = some old)
    (more : (sent marshal i (some old)).length ≤ (sent marshal i (some new)).length) : Tidy marshal (s.setLog i new) := by
  refine ⟨tidy.room,fun j => Nat.le_trans (tidy.once j) ?_⟩
  by_cases own : i = j
  · subst own
    rwa [here,System.setLog,getElem?_set_some here]
  · simp only [System.setLog,getElem?_set_ne own,Nat.le_refl]

theorem Tidy.enqueue {event : AuditEvent D} (here : s.logs[i]? = some (.sending event))
    (room : s.writeQueue.length < s.queueSize) : Tidy marshal
      { s.setLog i (.exporting event false s.exporters) with writeQueue := s.writeQueue ++ [(i,event)] } := by
  refine ⟨by simpa [System.setLog] using Nat.succ_le_of_lt room,fun j => ?_⟩
  have before := tidy.once j
  simp only [System.placed,System.setLog,map_append,count_append] at before ⊢
  by_cases own : i = j
  · subst own
    simp_all [getElem?_set_some here,sent]
  · simp_all [getElem?_set_ne own]

theorem Tidy.writes {writer : Writer D} {file : List (Nat × String)} {queue : List (Nat × AuditEvent D)}
    (placed : System.placed { s with writer := writer, file := file, writeQueue := queue } <+ s.placed)
    (shorter : queue.length ≤ s.writeQueue.length) :
    Tidy marshal { s with writer := writer, file := file, writeQueue := queue } :=
  ⟨Nat.le_trans shorter tidy.room,fun i => Nat.le_trans (placed.count_le i) (tidy.once i)⟩

theorem Tidy.step {a : Action D} (moved : step marshal s a = some s') : Tidy marshal s' := by
  cases a with simp only [AuditLog.step] at moved
  | log event now =>
    cases moved
    refine ⟨tidy.room,fun i => Nat.le_trans (tidy.once i) ?_⟩
    cases here : s.logs[i]? with
    | none => exact Nat.zero_le _
    | some log => simp only [getElem?_append_some here,Nat.le_refl]
  | record i =>
    split at moved <;> cases moved
    rename_i event here
    exact { tidy.setLog (.sending event) here (Nat.le_refl 0) with }
  | send i =>
    split at moved
    · rename_i event here
      split at moved <;> cases moved
      · exact tidy.enqueue here ‹_›
      · exact { tidy.setLog (.exporting event true s.exporters) here (Nat.le_refl 0) with }
    · cases moved
  | exportEvent i failed =>
    split at moved
    · rename_i event dropped here
      cases moved
      exact tidy.setLog _ here (by cases dropped <;> exact Nat.le_refl _)
    · rename_i event dropped left here
      cases moved
      exact { tidy.setLog (.exporting event dropped left) here (by cases dropped <;> exact Nat.le_refl _) with }
    · cases moved
  | receive =>
    split at moved <;> cases moved
    rename_i selecting queue
    exact tidy.writes (by simp [System.placed,selecting,queue,Writer.hand]) (by simp [queue])
  | writeEvent written =>
    split at moved <;> cases moved
    rename_i i event writing
    refine tidy.writes ?_ (Nat.le_refl _)
    simp only [System.placed,writing,Writer.hand]
    cases written <;> cases marshal event <;> simp
  | mkdirAll made =>
    split at moved <;> cases moved
    rename_i starting
    exact tidy.writes (by cases made <;> simp [System.placed,starting,Writer.hand]) (Nat.le_refl _)
  | halt =>
    split at moved
    · rename_i selecting
      split at moved <;> cases moved
      exact tidy.writes (by simp [System.placed,selecting,Writer.hand]) (Nat.le_refl _)
    · cases moved
  | _ => split at moved <;> cases moved <;> exact { tidy with }

end

/-- Whatever fails and whenever the log is closed, no event is written twice. -/
theorem always_tidy (config : AuditLoggerConfig) (actions : List (Action D)) :
    Always (step marshal) (Tidy marshal) (newAuditLogger config) actions :=
  always_of_preserved (fun tidy moved => tidy.step moved) actions ⟨Nat.zero_le _,fun _ => Nat.zero_le _⟩

end Mcpkit.AuditLog
