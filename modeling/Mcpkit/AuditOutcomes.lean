import Mcpkit.Invocation
import Mcpkit.Transitions

/-!
`AuditMiddleware` around calls that overlap. It logs the Go error of a call; a call may also fail
with an error result.
-/
namespace Mcpkit.AuditOutcomes
open Invocation ResponseCap Transitions List

variable {P B S : Type}

inductive AuditEventType where
  | toolCall
  | toolSuccess
  | toolError
  | accessDeny
  deriving DecidableEq

structure AuditEvent (P : Type) where
  type : AuditEventType
  user : String
  tool : String
  params : Option P
  duration : Int
  error : Text
  result : String

structure AuditLogger (P : Type) where
  events : List (AuditEvent P)
  maxEvents : Nat

def AuditLogger.log (l : AuditLogger P) (event : AuditEvent P) : AuditLogger P :=
  { l with events := (if l.maxEvents ≤ l.events.length then l.events.drop 1 else l.events) ++ [event] }

def toolCall (user tool : String) (params : P) : AuditEvent P := ⟨.toolCall,user,tool,some params,0,[],""⟩

def toolResult (user tool : String) (duration : Int) : Option Text → AuditEvent P
  | some err => ⟨.toolError,user,tool,none,duration,err,""⟩
  | none => ⟨.toolSuccess,user,tool,none,duration,[],"success"⟩

def accessDenied (user tool : String) (reason : Text) : AuditEvent P := ⟨.accessDeny,user,tool,none,0,reason,""⟩

def AuditLogger.errorCount (l : AuditLogger P) : Nat := l.events.countP (·.type = .toolError)

/-- A call of the wrapped handler, and what the chain below has returned. -/
inductive Call (B S : Type) where
  | running (user tool : String)
  | returned (result : Option (CallToolResult B S)) (err : Option Text)

def Call.failed : Call B S → Bool
  | .running _ _ => false
  | .returned result err => err.isSome || isResultError result

/-- `trail` has all events with their calls, also those that the logger has discarded. -/
structure System (P B S : Type) where
  logger : AuditLogger P
  calls : List (Call B S)
  trail : List (Option Nat × AuditEvent P)

def init (maxEvents : Int) : System P B S := ⟨⟨[],if maxEvents ≤ 0 then 1000 else maxEvents.toNat⟩,[],[]⟩

/-- A call begins, the chain below returns to it, or middleware denies access to a tool. -/
inductive Action (P B S : Type) where
  | call (user tool : String) (params : P)
  | result (i : Nat) (duration : Int) (result : Option (CallToolResult B S)) (err : Option Text)
  | deny (user tool : String) (reason : Text)

def System.log (s : System P B S) (i : Option Nat) (event : AuditEvent P) (calls : List (Call B S)) : System P B S :=
  ⟨s.logger.log event,calls,s.trail ++ [(i,event)]⟩

variable (s : System P B S)

def step : Action P B S → Option (System P B S)
  | .call user tool params =>
    some (s.log (some s.calls.length) (toolCall user tool params) (s.calls ++ [.running user tool]))
  | .result i duration result err =>
    match s.calls[i]? with
    | some (.running user tool) =>
      some (s.log (some i) (toolResult user tool duration err) (s.calls.set i (.returned result err)))
    | _ => none
  | .deny user tool reason => some (s.log none (accessDenied user tool reason) s.calls)

def System.types (i : Nat) : List AuditEventType :=
  (s.trail.filter (·.1 = some i)).map (·.2.type)

def events (failed : Call B S → Bool) (call : Call B S) : List AuditEventType :=
  match call with
  | .running _ _ => [.toolCall]
  | .returned _ _ => [.toolCall,if failed call then .toolError else .toolSuccess]

/-- Each call has two events, the second with its outcome, and errors are counted if no event was discarded. -/
structure Faithful : Prop where
  each : ∀ i call, s.calls[i]? = some call → s.types i = events Call.failed call
  count : s.trail.length ≤ s.logger.maxEvents → s.logger.errorCount = s.calls.countP Call.failed

/-! ### What is logged -/

def Call.erred : Call B S → Bool
  | .running _ _ => false
  | .returned _ err => err.isSome

structure Kept : Prop where
  each : ∀ i, s.types i = (s.calls[i]?).elim [] (events Call.erred)
  whole : s.trail.length ≤ s.logger.maxEvents → s.logger.events = s.trail.map (·.2)
  count : s.trail.countP (·.2.type = .toolError) = s.calls.countP Call.erred

variable {s s' : System P B S} {source : Option Nat} {event : AuditEvent P} {calls : List (Call B S)}

open Call

theorem Kept.log (kept : Kept s)
    (each : ∀ i, (s.calls[i]?).elim [] (events erred) ++ (if source = some i then [event.type] else []) =
      (calls[i]?).elim [] (events erred))
    (count : s.calls.countP erred+(if event.type = .toolError then 1 else 0) = calls.countP erred) :
    Kept (s.log source event calls) := by
  refine ⟨fun i => ?_,fun room => ?_,?_⟩
  · rw [System.log,← each i,← kept.each i]
    unfold System.types
    split <;> simp_all
  · simp only [System.log,AuditLogger.log,length_append,length_singleton,map_append] at room ⊢
    rw [kept.whole (by omega),if_neg (by simp; omega)]
    rfl
  · change List.countP _ (s.trail ++ [(source,event)]) = calls.countP erred
    rw [← count,← kept.count,countP_append,countP_singleton]
    simp

theorem Kept.step {a : Action P B S} (kept : Kept s) (moved : step s a = some s') : Kept s' := by
  cases a with
  | call user tool params =>
    cases moved
    refine kept.log (fun i => ?_) (by simp [toolCall,countP_append,erred])
    rcases Nat.lt_trichotomy i s.calls.length with before | rfl | beyond
    · rw [getElem?_append_left before,if_neg (by simpa using before.ne'),append_nil]
    · simp [events,toolCall]
    · rw [if_neg (by simpa using beyond.ne),append_nil,getElem?_eq_none beyond.le,
        getElem?_eq_none (by simpa using Nat.succ_le_of_lt beyond)]
  | result i duration result err =>
    simp only [AuditOutcomes.step] at moved
    split at moved <;> cases moved
    rename_i user tool running
    obtain ⟨inside,is⟩ := List.getElem?_eq_some_iff.mp running
    refine kept.log (fun j => ?_) ?_
    · by_cases same : i = j
      · subst same
        rw [running,getElem?_set_self inside]
        cases err <;> simp [events,toolResult,erred]
      · rw [getElem?_set_ne same,if_neg (by simpa using same),append_nil]
    · rw [countP_set inside,is]
      cases err <;> simp [erred,toolResult]
  | deny user tool reason =>
    cases moved
    exact kept.log (fun i => by simp) (by simp [accessDenied])

/-- A call that ends with an error result and no error is logged as a success. -/
def sample : List (Action Unit Unit Unit) := [.call "u" "t" (),.result 0 1 (some ⟨[],none,true⟩) none]

end Mcpkit.AuditOutcomes
