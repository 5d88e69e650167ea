import Mathlib.Data.List.Perm.Basic
import Mcpkit.CircuitModel

/-!
The probes of a half-open period.
-/
namespace Mcpkit.CircuitProbes
open CircuitModel Transitions List

/-- The calls in flight that were admitted in the current half-open period. -/
def probes (s : System) : Nat := s.calls.count (some s.period)

variable (cfg : CircuitBreakerConfig) (s : System)

/-- In a half-open period no more than `HalfOpenMaxCalls` of its calls are in flight. -/
def Bounded : Prop :=
  s.cb.state = .circuitHalfOpen → probes s ≤ cfg.halfOpenMaxCalls

/-- A call that was not admitted in this half-open period gives back a permit of it, and does not close the
    circuit. -/
def StaleRelease : Action → Prop
  | .finish i false => s.cb.state = .circuitHalfOpen ∧ s.cb.successes+1 < cfg.successThreshold ∧
      0 < s.cb.halfOpenCalls ∧ i < s.calls.length ∧ s.calls[i]? ≠ some (some s.period)
  | _ => False

instance (cfg : CircuitBreakerConfig) (s : System) : ∀ a, Decidable (StaleRelease cfg s a)
  | .finish _ false => inferInstanceAs (Decidable (_ ∧ _ ∧ _ ∧ _ ∧ _))
  | .finish _ true => .isFalse id
  | .advance _ => .isFalse id
  | .execute => .isFalse id
  | .reset => .isFalse id

def Tagged : Prop := ∀ p, some p ∈ s.calls → p ≤ s.period

variable {s s' : System} {cfg} {a : Action}

theorem Tagged.step (tagged : Tagged s) (stepped : Stepped cfg s s' a) : Tagged s' := by
  intro p member
  cases stepped with
  | passed duration cb period calls => rw [calls] at member; rw [period]; exact tagged p member
  | rejected state permits period calls => rw [calls] at member; rw [period]; exact tagged p member
  | admitted outside period calls =>
    rw [calls] at member
    rw [period]
    exact tagged p (by simpa using member)
  | began before late state permits period calls =>
    rw [calls,mem_append] at member
    rw [period]
    rcases member with old | last
    · exact Nat.le_succ_of_le (tagged p old)
    · exact Nat.le_of_eq (Option.some.inj (List.mem_singleton.mp last))
  | probed before free state permits period calls =>
    rw [calls,mem_append] at member
    rw [period]
    rcases member with old | last
    · exact tagged p old
    · exact Nat.le_of_eq (Option.some.inj (List.mem_singleton.mp last))
  | left i failed inside outside reason period calls | released i inside before short state permits period calls =>
    rw [calls] at member
    rw [period]
    exact tagged p (mem_of_mem_eraseIdx member)
  | reset outside period calls => rw [calls] at member; rw [period]; exact tagged p member

/-! ### The probes in flight, step by step -/

private theorem probes_began (tagged : Tagged s) (period : s'.period = s.period+1)
    (calls : s'.calls = s.calls ++ [some (s.period+1)]) : probes s' = 1 := by
  have none : s.calls.count (some (s.period+1)) = 0 := by
    rw [count_eq_zero]
    intro member
    have := tagged _ member
    omega
  rw [probes,calls,period,count_append,none]
  simp

private theorem probes_probed (period : s'.period = s.period)
    (calls : s'.calls = s.calls ++ [some s.period]) : probes s' = probes s+1 := by
  rw [probes,calls,period,count_append]
  simp [probes]

private theorem probes_erased {i : Nat} (inside : i < s.calls.length) (period : s'.period = s.period)
    (calls : s'.calls = s.calls.eraseIdx i) :
    probes s = probes s'+if s.calls[i]? = some (some s.period) then 1 else 0 := by
  have split := (getElem_cons_eraseIdx_perm inside).count_eq (some s.period)
  rw [count_cons] at split
  rw [probes,probes,calls,period,← split,getElem?_eq_getElem inside]
  simp

/-! ### The bound -/

/-- The permits in use are the probes in flight. -/
structure Exact (cfg : CircuitBreakerConfig) (s : System) : Prop where
  tagged : Tagged s
  permits : s.cb.state = .circuitHalfOpen → (probes s : Int) = s.cb.halfOpenCalls
  within : s.cb.state = .circuitHalfOpen → s.cb.halfOpenCalls ≤ cfg.halfOpenMaxCalls

theorem Exact.step (enabled : 1 ≤ cfg.halfOpenMaxCalls)
    (exact_ : Exact cfg s) (fresh : ¬ StaleRelease cfg s a) (stepped : Stepped cfg s s' a) : Exact cfg s' := by
  have tagged := exact_.tagged.step stepped
  cases stepped with
  | passed duration cb period calls =>
    refine ⟨tagged,?_,?_⟩
    · rw [cb,probes,calls,period]; exact exact_.permits
    · rw [cb]; exact exact_.within
  | rejected state permits period calls =>
    refine ⟨tagged,?_,?_⟩
    · rw [state,permits,probes,calls,period]; exact exact_.permits
    · rw [state,permits]; exact exact_.within
  | admitted outside period calls => exact ⟨tagged,fun inside => absurd inside outside,fun inside => absurd inside outside⟩
  | began before late state permits period calls =>
    refine ⟨tagged,fun _ => ?_,fun _ => by rw [permits]; exact enabled⟩
    rw [probes_began exact_.tagged period calls,permits]
    rfl
  | probed before free state permits period calls =>
    have old := exact_.permits before
    refine ⟨tagged,fun _ => ?_,fun _ => by rw [permits]; omega⟩
    rw [probes_probed period calls,permits]
    omega
  | left i failed inside outside reason period calls =>
    exact ⟨tagged,fun inside => absurd inside outside,fun inside => absurd inside outside⟩
  | released i inside before short state permits period calls =>
    have old := exact_.permits before
    have bound := exact_.within before
    have erased := probes_erased inside period calls
    refine ⟨tagged,fun _ => ?_,fun _ => by rw [permits]; split <;> omega⟩
    rw [permits]
    by_cases current : s.calls[i]? = some (some s.period)
    · rw [if_pos current] at erased
      omega
    · -- the release of an older call is excluded, so no permit was left to give back
      have none : ¬ 0 < s.cb.halfOpenCalls := fun left => fresh ⟨before,short,left,inside,current⟩
      omega
  | reset outside period calls => exact ⟨tagged,fun inside => absurd inside outside,fun inside => absurd inside outside⟩

theorem exact_new (cfg : CircuitBreakerConfig) (now : Int) : Exact cfg (new now) where
  tagged p member := by simp [new] at member
  permits inside := by simp [new,newCircuitBreaker] at inside
  within inside := by simp [new,newCircuitBreaker] at inside

/-- After a stale release there is one probe more than permits in use. -/
private theorem stale_overrun (exact_ : Exact cfg s) (stale : StaleRelease cfg s a) (stepped : Stepped cfg s s' a) :
    s'.cb.state = .circuitHalfOpen ∧ (probes s' : Int) = s'.cb.halfOpenCalls+1 ∧
      s'.cb.halfOpenCalls ≤ cfg.halfOpenMaxCalls := by
  unfold StaleRelease at stale
  split at stale
  · obtain ⟨before,short,left,inside,older⟩ := stale
    have old := exact_.permits before
    have bound := exact_.within before
    cases stepped with
    | left i failed inside' outside reason period calls =>
      rcases reason with closed | failed | enough
      · exact absurd before closed
      · cases failed
      · omega
    | released i inside' before' short' state permits period calls =>
      have erased := probes_erased inside period calls
      rw [if_neg older] at erased
      exact ⟨state,by omega,by omega⟩
  · exact stale.elim

open CircuitBreaker

private theorem fill (cfg : CircuitBreakerConfig) (state : s.cb.state = .circuitHalfOpen) (n : Nat) :
    s.cb.halfOpenCalls+n ≤ cfg.halfOpenMaxCalls → ∃ s', Reachable (step cfg) free s s' ∧
      s'.cb.state = .circuitHalfOpen ∧ s'.cb.halfOpenCalls = s.cb.halfOpenCalls+n ∧ probes s' = probes s+n := by
  induction n with
  | zero => exact fun _ => ⟨s,.start,state,by simp,rfl⟩
  | succ n ih =>
    intro room
    obtain ⟨t,reached,half,permits,grown⟩ := ih (by omega)
    have free : t.cb.halfOpenCalls < cfg.halfOpenMaxCalls := by omega
    let t' : System := { t with
      cb := { t.cb with halfOpenCalls := t.cb.halfOpenCalls+1 }, calls := t.calls ++ [some t.period] }
    have moved : step cfg t .execute = some t' := by simp [t',step,canExecute,half,free]
    have one : probes t' = probes t+1 := probes_probed rfl rfl
    refine ⟨t',reached.next _ trivial moved,half,?_,by omega⟩
    simp only [t',permits]
    omega

/-- As long as no older call gives back a permit of the half-open period, its calls in flight stay within the limit;
    and from any state so reached, the first such release is the start of a run that exceeds the limit. -/
theorem probes_bounded_iff (cfg : CircuitBreakerConfig) (enabled : 1 ≤ cfg.halfOpenMaxCalls) (now : Int) {s : System}
    (reached : Reachable (step cfg) (fun s a => ¬ StaleRelease cfg s a) (new now) s) :
    Bounded cfg s ∧ ∀ a s', StaleRelease cfg s a → step cfg s a = some s' →
      ∃ s'', Reachable (step cfg) free s' s'' ∧ ¬ Bounded cfg s'' := by
  have exact_ : Exact cfg s :=
    reached.invariant (exact_new cfg now) fun _ _ _ valid fresh moved => valid.step enabled fresh (step_cases moved)
  refine ⟨fun inside => by rw [exact_.permits inside]; exact exact_.within inside,?_⟩
  intro a s' stale moved
  -- the stale release leaves one probe more than permits; the free permits are taken next
  obtain ⟨state,beyond,below⟩ := stale_overrun exact_ stale (step_cases moved)
  obtain ⟨s'',filled,later,-,grown⟩ := fill cfg state (cfg.halfOpenMaxCalls-s'.cb.halfOpenCalls).toNat (by omega)
  refine ⟨s'',filled,fun bounded => ?_⟩
  have bound := bounded later
  rw [grown] at bound
  omega

/-- With the default configuration: a call is in flight when five others fail;
    after the timeout one probe is admitted. -/
def sampleProbe : List Action :=
  .execute :: (List.replicate 5 [.execute,.finish 1 true]).flatten ++ [.advance 30000000000,.execute]

def sampleProbing : System :=
  (exec (step defaultCircuitBreakerConfig) (fun s a => ¬ StaleRelease defaultCircuitBreakerConfig s a) (new 0)
    sampleProbe).getD (new 0)

def sampleOverrun : System :=
  (exec (step defaultCircuitBreakerConfig) free (new 0) (sampleProbe ++ [.finish 0 false,.execute])).getD (new 0)

/-- One probe is in flight, and the success of the old call is a stale release. -/
theorem probes_bounded_sample :
    sampleProbing.calls = [none,some 1] ∧ Bounded defaultCircuitBreakerConfig sampleProbing ∧
    StaleRelease defaultCircuitBreakerConfig sampleProbing (.finish 0 false) :=
  ⟨by decide,(probes_bounded_iff defaultCircuitBreakerConfig (by decide) 0 (exec_reachable sampleProbe .start rfl)).1,
    by decide⟩

/-- Two probes of one half-open period are in flight, where one is allowed. -/
theorem stale_success_exceeds_limit : 1 ≤ defaultCircuitBreakerConfig.halfOpenMaxCalls ∧
    Reachable (step defaultCircuitBreakerConfig) free (new 0) sampleOverrun ∧
    sampleOverrun.cb.state = .circuitHalfOpen ∧ probes sampleOverrun = 2 ∧
    ¬ Bounded defaultCircuitBreakerConfig sampleOverrun := by
  refine ⟨by decide,exec_reachable (sampleProbe ++ [.finish 0 false,.execute]) .start rfl,by decide,by decide,?_⟩
  unfold Bounded
  decide

/-! ### No latch -/

structure Covered (s : System) : Prop where
  tagged : Tagged s
  positive : s.cb.state = .circuitHalfOpen → 0 ≤ s.cb.halfOpenCalls
  permits : s.cb.state = .circuitHalfOpen → s.cb.halfOpenCalls ≤ probes s

theorem Covered.step (covered : Covered s) (stepped : Stepped cfg s s' a) : Covered s' := by
  have tagged := covered.tagged.step stepped
  cases stepped with
  | passed duration cb period calls =>
    refine ⟨tagged,?_,?_⟩
    · rw [cb]; exact covered.positive
    · rw [cb,probes,calls,period]; exact covered.permits
  | rejected state permits period calls =>
    refine ⟨tagged,?_,?_⟩
    · rw [state,permits]; exact covered.positive
    · rw [state,permits,probes,calls,period]; exact covered.permits
  | admitted outside period calls => exact ⟨tagged,fun inside => absurd inside outside,fun inside => absurd inside outside⟩
  | began before late state permits period calls =>
    refine ⟨tagged,fun _ => by rw [permits]; decide,fun _ => ?_⟩
    rw [probes_began covered.tagged period calls,permits]
    exact Int.le_refl 1
  | probed before free state permits period calls =>
    have old := covered.permits before
    have positive := covered.positive before
    refine ⟨tagged,fun _ => by rw [permits]; omega,fun _ => ?_⟩
    rw [probes_probed period calls,permits]
    omega
  | left i failed inside outside reason period calls =>
    exact ⟨tagged,fun inside => absurd inside outside,fun inside => absurd inside outside⟩
  | released i inside before short state permits period calls =>
    have old := covered.permits before
    have positive := covered.positive before
    have erased := probes_erased inside period calls
    refine ⟨tagged,fun _ => by rw [permits]; split <;> omega,fun _ => ?_⟩
    rw [permits]
    -- one probe less at most, and one permit less unless none was in use
    split at erased <;> split <;> omega
  | reset outside period calls => exact ⟨tagged,fun inside => absurd inside outside,fun inside => absurd inside outside⟩

theorem covered_new (now : Int) : Covered (new now) where
  tagged p member := by simp [new] at member
  positive inside := by simp [new,newCircuitBreaker] at inside
  permits inside := by simp [new,newCircuitBreaker] at inside

/-- One probe has succeeded and two successes are needed, as in the regression test of the latch. -/
def sampleSettled : System :=
  (exec (step defaultCircuitBreakerConfig) free (new 0) ((List.replicate 5 [.execute,.finish 0 true]).flatten ++
    [.advance 30000000000,.execute,.finish 0 false])).getD (new 0)

end Mcpkit.CircuitProbes
