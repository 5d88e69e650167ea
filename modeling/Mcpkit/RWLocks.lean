import Mathlib.Data.Finset.Max

/-!
Read-write locks among processes. A writer first announces itself, which keeps new readers out,
and then waits for the readers that are in.
-/
namespace Mcpkit.RWLocks
variable {P K : Type}

/-- A process holds a lock for reading or for writing, or has announced a write and waits. -/
structure Usage (P K : Type) where
  reads : P → K → Prop
  writes : P → K → Prop
  waits : P → K → Prop

inductive Ask (K : Type) where
  | finished
  | free
  | read (k : K)
  | announce (k : K)
  | write (k : K)

section
variable (u : Usage P K) (procs : List P)

def Unclaimed (k : K) : Prop := ∀ p ∈ procs, ¬ u.writes p k ∧ ¬ u.waits p k

def Unread (k : K) : Prop := ∀ p ∈ procs, ¬ u.reads p k

def Enabled : Ask K → Prop
  | .finished => False
  | .free => True
  | .read k => Unclaimed u procs k
  | .announce k => Unclaimed u procs k
  | .write k => Unread u procs k

def Ask.lock : Ask K → Option K
  | .finished => none
  | .free => none
  | .read k => some k
  | .announce k => some k
  | .write k => some k

/-- A process holds nothing at its end, an announced writer asks for its lock, and what is asked for is above what
    is held, or free to take. -/
structure Ordered (rank : K → Nat) (asks : P → Ask K) (procs : List P) (p : P) : Prop where
  idle : asks p = .finished → ∀ k, ¬ u.reads p k ∧ ¬ u.writes p k ∧ ¬ u.waits p k
  waiting : ∀ k, u.waits p k → asks p = .write k
  above : ∀ k held, (asks p).lock = some k → u.reads p held ∨ u.writes p held →
    rank held < rank k ∨ Enabled u procs (asks p)

end

section
variable {u : Usage P K} {rank : K → Nat} {asks : P → Ask K} {procs : List P}

/-- A holder of a lock is not finished, and is free to go on or asks for a lock above it. -/
theorem holder_asks {q : P} {k : K} (ordered : Ordered u rank asks procs q)
    (holds : u.reads q k ∨ u.writes q k) (blocked : ¬ Enabled u procs (asks q)) :
    ∃ k', (asks q).lock = some k' ∧ rank k < rank k' := by
  cases asked : asks q with
  | finished =>
    obtain ⟨noRead,noWrite,_⟩ := ordered.idle asked k
    exact (holds.elim noRead noWrite).elim
  | free => rw [asked] at blocked; exact absurd trivial blocked
  | read k' | announce k' => exact ⟨k',rfl,(ordered.above k' k (by rw [asked]; rfl) holds).resolve_right blocked⟩
  | write k' => exact ⟨k',rfl,(ordered.above k' k (by rw [asked]; rfl) holds).resolve_right blocked⟩

section
variable (ordered : ∀ p ∈ procs, Ordered u rank asks procs p)
include ordered

/-- If nobody can go on, a lock that somebody asks for has a reader or a writer in. -/
theorem holder_of_blocked
    (stuck : ∀ p ∈ procs, ¬ Enabled u procs (asks p)) {p : P} (member : p ∈ procs) {k : K}
    (asked : (asks p).lock = some k) : ∃ q ∈ procs, u.reads q k ∨ u.writes q k := by
  have read : ∀ p ∈ procs, asks p = .write k → ∃ q ∈ procs, u.reads q k ∨ u.writes q k := by
    intro p member asked
    have blocked := stuck p member
    rw [asked] at blocked
    simp only [Enabled,Unread,not_forall,not_not] at blocked
    obtain ⟨q,listed,reads⟩ := blocked
    exact ⟨q,listed,.inl reads⟩
  have claimed : ¬ Unclaimed u procs k → ∃ q ∈ procs, u.reads q k ∨ u.writes q k := by
    intro claimed
    simp only [Unclaimed,not_forall] at claimed
    obtain ⟨q,listed,claims⟩ := claimed
    by_cases writes : u.writes q k
    · exact ⟨q,listed,.inr writes⟩
    · have waits : u.waits q k := by
        by_contra no
        exact claims ⟨writes,no⟩
      exact read q listed ((ordered q listed).waiting k waits)
  have blocked := stuck p member
  cases request : asks p with
  | finished | free => rw [request] at asked; cases asked
  | read k' | announce k' => rw [request] at asked blocked; cases asked; exact claimed blocked
  | write k' => rw [request] at asked; cases asked; exact read p member request

/-- Processes that keep the order never all wait. -/
theorem progress {p : P} (member : p ∈ procs)
    (unfinished : asks p ≠ .finished) : ∃ q ∈ procs, Enabled u procs (asks q) := by
  by_contra none
  have stuck : ∀ q ∈ procs, ¬ Enabled u procs (asks q) := fun q listed enabled => none ⟨q,listed,enabled⟩
  obtain ⟨k,asked⟩ : ∃ k, (asks p).lock = some k := by
    have blocked := stuck p member
    cases request : asks p with
    | finished => exact absurd request unfinished
    | free => rw [request] at blocked; exact absurd trivial blocked
    | read k | announce k | write k => exact ⟨k,rfl⟩
  -- the process that asks for the highest lock waits for one that asks for a higher lock
  classical
  obtain ⟨top,asking,highest⟩ := Finset.exists_max_image {q ∈ procs.toFinset | ∃ k, (asks q).lock = some k}
    (fun q => ((asks q).lock.map rank).getD 0) ⟨p,by simp [member,asked]⟩
  simp only [Finset.mem_filter,List.mem_toFinset] at asking highest
  obtain ⟨listed,k₁,asked₁⟩ := asking
  obtain ⟨holder,listed₂,holds⟩ := holder_of_blocked ordered stuck listed asked₁
  obtain ⟨k₂,asked₂,above⟩ := holder_asks (ordered holder listed₂) holds (stuck holder listed₂)
  have low := highest holder ⟨listed₂,k₂,asked₂⟩
  simp only [asked₁,asked₂,Option.map_some,Option.getD_some] at low
  omega

end

end
end Mcpkit.RWLocks
