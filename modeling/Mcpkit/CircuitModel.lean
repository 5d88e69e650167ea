import Mathlib.Data.List.Basic
import Mcpkit.Transitions

/-!
The circuit breaker and its concurrent use. The breaker is changed under its lock only, by
`canExecute`, `recordResult` and `Reset`; a call is in flight from its admission to the record of
its result, and any number of calls may be.
-/
namespace Mcpkit.CircuitModel
open Transitions

inductive CircuitState where
  | circuitClosed
  | circuitOpen
  | circuitHalfOpen
  deriving DecidableEq, Repr

structure CircuitBreakerConfig where
  failureThreshold : Int
  successThreshold : Int
  timeout : Int
  halfOpenMaxCalls : Int

def defaultCircuitBreakerConfig : CircuitBreakerConfig := ⟨5,2,30000000000,1⟩

/-- What the metrics and the `OnCircuitOpen` callback are told, where configured. -/
inductive Notice where
  | stateChange (old new : CircuitState)
  | circuitOpen
  | rejection
  deriving DecidableEq, Repr

structure CircuitBreaker where
  state : CircuitState
  failures : Int
  successes : Int
  lastFailure : Int
  halfOpenCalls : Int
  notices : List Notice

def newCircuitBreaker : CircuitBreaker := ⟨.circuitClosed,0,0,0,0,[]⟩

variable (cfg : CircuitBreakerConfig) (cb : CircuitBreaker)

def CircuitBreaker.transition (newState : CircuitState) : CircuitBreaker :=
  { cb with
    state := newState
    failures := 0
    successes := 0
    halfOpenCalls := 0
    notices := cb.notices ++ .stateChange cb.state newState ::
      if newState = .circuitOpen then [.circuitOpen] else [] }

variable (now : Int)

def CircuitBreaker.canExecute : Bool × CircuitBreaker :=
  match cb.state with
  | .circuitClosed => (true,cb)
  | .circuitOpen =>
    if now-cb.lastFailure ≥ cfg.timeout then (true,{ cb.transition .circuitHalfOpen with halfOpenCalls := 1 })
    else (false,cb)
  | .circuitHalfOpen =>
    if cb.halfOpenCalls < cfg.halfOpenMaxCalls then (true,{ cb with halfOpenCalls := cb.halfOpenCalls+1 })
    else (false,cb)

def CircuitBreaker.recordFailure : CircuitBreaker :=
  let cb := { cb with failures := cb.failures+1, successes := 0, lastFailure := now }
  match cb.state with
  | .circuitClosed => if cb.failures ≥ cfg.failureThreshold then cb.transition .circuitOpen else cb
  | .circuitOpen => cb
  | .circuitHalfOpen => cb.transition .circuitOpen

/-- A success in the half-open state that does not close the circuit gives its permit back. -/
def CircuitBreaker.recordSuccess : CircuitBreaker :=
  match cb.state with
  | .circuitClosed => { cb with failures := 0 }
  | .circuitOpen => cb
  | .circuitHalfOpen =>
    let cb := { cb with successes := cb.successes+1 }
    if cb.successes ≥ cfg.successThreshold then cb.transition .circuitClosed
    else if cb.halfOpenCalls > 0 then { cb with halfOpenCalls := cb.halfOpenCalls-1 }
    else cb

def CircuitBreaker.recordResult (failed : Bool) : CircuitBreaker :=
  if failed then cb.recordFailure cfg now else cb.recordSuccess cfg

def CircuitBreaker.reset : CircuitBreaker :=
  if cb.state ≠ .circuitClosed then cb.transition .circuitClosed else cb

/-! ### Concurrent calls -/

/-- `period` is the number of half-open periods so far; a call in flight has the period of its admission, or none
    if the circuit was closed. -/
structure System where
  cb : CircuitBreaker
  now : Int
  period : Nat
  calls : List (Option Nat)

def new : System := ⟨newCircuitBreaker,now,0,[]⟩

/-- Time passes, a call asks to be admitted, the `i`-th call in flight records its result, and `Reset`. -/
inductive Action where
  | advance (duration : Nat)
  | execute
  | finish (i : Nat) (failed : Bool)
  | reset

def step (s : System) : Action → Option System
  | .advance duration => some { s with now := s.now+duration }
  | .execute =>
    match s.cb.canExecute cfg s.now with
    | (false,cb) => some { s with cb := { cb with notices := cb.notices ++ [.rejection] } }
    | (true,cb) =>
      let period := if s.cb.state = .circuitOpen then s.period+1 else s.period
      some { s with
        cb := cb
        period := period
        calls := s.calls ++ [if cb.state = .circuitHalfOpen then some period else none] }
  | .finish i failed =>
    if i < s.calls.length then
      some { s with cb := s.cb.recordResult cfg s.now failed, calls := s.calls.eraseIdx i }
    else none
  | .reset => some { s with cb := s.cb.reset }

/-! ### What a step can do -/

/-- What a step can do to the half-open state, its permits and the calls in flight. -/
inductive Stepped (cfg : CircuitBreakerConfig) (s s' : System) : Action → Prop
  | passed (duration : Nat) (cb : s'.cb = s.cb) (period : s'.period = s.period) (calls : s'.calls = s.calls) :
    Stepped cfg s s' (.advance duration)
  | rejected (state : s'.cb.state = s.cb.state) (permits : s'.cb.halfOpenCalls = s.cb.halfOpenCalls)
      (period : s'.period = s.period) (calls : s'.calls = s.calls) : Stepped cfg s s' .execute
  | admitted (outside : s'.cb.state ≠ .circuitHalfOpen) (period : s'.period = s.period)
      (calls : s'.calls = s.calls ++ [none]) : Stepped cfg s s' .execute
  | began (before : s.cb.state = .circuitOpen) (late : cfg.timeout ≤ s.now-s.cb.lastFailure)
      (state : s'.cb.state = .circuitHalfOpen) (permits : s'.cb.halfOpenCalls = 1) (period : s'.period = s.period+1)
      (calls : s'.calls = s.calls ++ [some (s.period+1)]) : Stepped cfg s s' .execute
  | probed (before : s.cb.state = .circuitHalfOpen) (free : s.cb.halfOpenCalls < cfg.halfOpenMaxCalls)
      (state : s'.cb.state = .circuitHalfOpen) (permits : s'.cb.halfOpenCalls = s.cb.halfOpenCalls+1)
      (period : s'.period = s.period) (calls : s'.calls = s.calls ++ [some s.period]) : Stepped cfg s s' .execute
  | left (i : Nat) (failed : Bool) (inside : i < s.calls.length) (outside : s'.cb.state ≠ .circuitHalfOpen)
      (reason : s.cb.state ≠ .circuitHalfOpen ∨ failed = true ∨ cfg.successThreshold ≤ s.cb.successes+1)
      (period : s'.period = s.period) (calls : s'.calls = s.calls.eraseIdx i) : Stepped cfg s s' (.finish i failed)
  | released (i : Nat) (inside : i < s.calls.length) (before : s.cb.state = .circuitHalfOpen)
      (short : s.cb.successes+1 < cfg.successThreshold) (state : s'.cb.state = .circuitHalfOpen)
      (permits : s'.cb.halfOpenCalls = if 0 < s.cb.halfOpenCalls then s.cb.halfOpenCalls-1 else s.cb.halfOpenCalls)
      (period : s'.period = s.period) (calls : s'.calls = s.calls.eraseIdx i) : Stepped cfg s s' (.finish i false)
  | reset (outside : s'.cb.state ≠ .circuitHalfOpen) (period : s'.period = s.period) (calls : s'.calls = s.calls) :
    Stepped cfg s s' .reset

open CircuitBreaker

private theorem execute_cases {s s' : System} (moved : step cfg s .execute = some s') :
    Stepped cfg s s' .execute := by
  obtain ⟨⟨state,failures,successes,lastFailure,permits,notices⟩,now,period,calls⟩ := s
  simp only [step,canExecute] at moved
  cases state with
  | circuitClosed =>
    cases moved
    exact .admitted (by simp) rfl rfl
  | circuitOpen =>
    by_cases late : now-lastFailure ≥ cfg.timeout
    · simp only [late,↓reduceIte] at moved
      cases moved
      exact .began rfl late rfl rfl rfl rfl
    · simp only [late,↓reduceIte] at moved
      cases moved
      exact .rejected rfl rfl rfl rfl
  | circuitHalfOpen =>
    by_cases free : permits < cfg.halfOpenMaxCalls
    · simp only [free,↓reduceIte] at moved
      cases moved
      exact .probed rfl free rfl rfl rfl rfl
    · simp only [free,↓reduceIte] at moved
      cases moved
      exact .rejected rfl rfl rfl rfl

attribute [local simp] CircuitBreaker.transition

private theorem recordFailure_state : (cb.recordFailure cfg now).state ≠ .circuitHalfOpen := by
  obtain ⟨state,failures,successes,lastFailure,permits,notices⟩ := cb
  simp only [recordFailure]
  cases state with
  | circuitClosed => dsimp only; split <;> simp
  | circuitOpen => simp
  | circuitHalfOpen => simp

private theorem recordSuccess_cases : (cb.recordSuccess cfg).state ≠ .circuitHalfOpen ∧
      (cb.state ≠ .circuitHalfOpen ∨ cfg.successThreshold ≤ cb.successes+1) ∨
    cb.state = .circuitHalfOpen ∧ cb.successes+1 < cfg.successThreshold ∧
      (cb.recordSuccess cfg).state = .circuitHalfOpen ∧
      (cb.recordSuccess cfg).halfOpenCalls = if 0 < cb.halfOpenCalls then cb.halfOpenCalls-1 else cb.halfOpenCalls := by
  obtain ⟨state,failures,successes,lastFailure,permits,notices⟩ := cb
  simp only [recordSuccess]
  cases state with
  | circuitClosed | circuitOpen => simp
  | circuitHalfOpen =>
    by_cases enough : successes+1 ≥ cfg.successThreshold
    · exact .inl ⟨by simp [enough],.inr enough⟩
    · refine .inr ⟨rfl,by omega,?_⟩
      by_cases some : permits > 0
      · simp [enough,some]
      · simp [enough,some]

private theorem finish_cases {s s' : System} {i : Nat} {failed : Bool}
    (moved : step cfg s (.finish i failed) = some s') : Stepped cfg s s' (.finish i failed) := by
  simp only [step] at moved
  split at moved
  · rename_i inside
    cases moved
    cases failed with
    | true => exact .left i true inside (recordFailure_state cfg s.cb s.now) (.inr (.inl rfl)) rfl rfl
    | false =>
      rcases recordSuccess_cases cfg s.cb with ⟨outside,reason⟩ | ⟨before,short,state,permits⟩
      · exact .left i false inside outside (reason.imp_right .inr) rfl rfl
      · exact .released i inside before short state permits rfl rfl
  · cases moved

theorem step_cases {cfg : CircuitBreakerConfig} {s s' : System} {a : Action} (moved : step cfg s a = some s') :
    Stepped cfg s s' a := by
  cases a with
  | advance duration => cases moved; exact .passed duration rfl rfl rfl
  | execute => exact execute_cases cfg moved
  | finish i failed => exact finish_cases cfg moved
  | reset =>
    cases moved
    refine .reset ?_ rfl rfl
    unfold reset
    split
    · simp
    · rename_i closed
      simp only [ne_eq,not_not] at closed
      simp [closed]

end Mcpkit.CircuitModel
