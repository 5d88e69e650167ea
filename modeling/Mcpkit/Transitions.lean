import Mathlib.Logic.Basic

/-!
Transition systems with a partial step function on states and actions. A run may be held to a
condition on each step, on the state before it and the action; what the steps of such a run
preserve holds in every state it reaches.
-/
namespace Mcpkit.Transitions
variable {σ α : Type}

/-- The states that runs from `init` reach when every step meets `ok`. -/
inductive Reachable (step : σ → α → Option σ) (ok : σ → α → Prop) (init : σ) : σ → Prop
  | start : Reachable step ok init init
  | next {s s' : σ} (a : α) (earlier : Reachable step ok init s) (allowed : ok s a) (moved : step s a = some s') :
    Reachable step ok init s'

/-- A step that waits for its guard. -/
theorem guarded {p : Prop} [Decidable p] {s s' : σ} : (if p then some s else none) = some s' ↔ p ∧ s = s' := by
  rw [Option.ite_none_right_eq_some,Option.some.injEq]

/-- What every entry of a table has, it has after one is replaced. -/
theorem forall_mem_set {l : List σ} {P : σ → Prop} (each : ∀ x ∈ l, P x) {i : Nat} {a : σ} (new : P a) :
    ∀ x ∈ l.set i a, P x := by
  intro x member
  rcases List.mem_or_eq_of_mem_set member with old | rfl
  · exact each x old
  · exact new

/-- What every entry of a log has, and a new one too, all have when it is added. -/
theorem forall_mem_snoc {l : List σ} {P : σ → Prop} (each : ∀ x ∈ l, P x) {a : σ} (new : P a) : ∀ x ∈ l ++ [a], P x :=
  List.forall_mem_append.mpr ⟨each,List.forall_mem_singleton.mpr new⟩

section
variable {l : List σ} {i : Nat} {x : σ} (here : l[i]? = some x)
include here

theorem lt_of_getElem? : i < l.length := (List.getElem?_eq_some_iff.mp here).1

theorem getElem?_set_some {y : σ} : (l.set i y)[i]? = some y := List.getElem?_set_self (lt_of_getElem? here)

theorem getElem?_append_some {more : List σ} : (l ++ more)[i]? = some x := by
  rw [List.getElem?_append_left (lt_of_getElem? here),here]

end

def free (_ : σ) (_ : α) : Prop := True

instance (s : σ) (a : α) : Decidable (free s a) := .isTrue trivial

variable {step : σ → α → Option σ} {ok : σ → α → Prop}

/-- What the start has and each allowed step keeps holds in every reached state. -/
theorem Reachable.invariant {init : σ} {I : σ → Prop} (base : I init)
    (preserved : ∀ s a s', I s → ok s a → step s a = some s' → I s') {s : σ} (reached : Reachable step ok init s) :
    I s := by
  induction reached with
  | start => exact base
  | next a earlier allowed moved ih => exact preserved _ a _ ih allowed moved

theorem Reachable.trans {init s t : σ}
    (first : Reachable step ok init s) (later : Reachable step ok s t) : Reachable step ok init t := by
  induction later with
  | start => exact first
  | next a earlier allowed moved ih => exact ih.next a allowed moved

/-- Runs the actions in order, stopping at one that is not allowed or not enabled. -/
def exec (step : σ → α → Option σ) (ok : σ → α → Prop) [∀ s a, Decidable (ok s a)] : σ → List α → Option σ
  | s,[] => some s
  | s,a :: rest => if ok s a then (step s a).bind (fun s' => exec step ok s' rest) else none

section
variable {step : σ → α → Option σ} {ok : σ → α → Prop} [∀ s a, Decidable (ok s a)]

theorem exec_cons {s s' : σ} {a : α} {rest : List α} (executed : exec step ok s (a :: rest) = some s') :
    ok s a ∧ ∃ t, step s a = some t ∧ exec step ok t rest = some s' := by
  rw [exec] at executed
  split at executed
  · rename_i allowed
    obtain ⟨t,moved,later⟩ := Option.bind_eq_some_iff.mp executed
    exact ⟨allowed,t,moved,later⟩
  · cases executed

theorem exec_next {s t : σ} {a : α} (allowed : ok s a) (moved : step s a = some t) (rest : List α) :
    exec step ok s (a :: rest) = exec step ok t rest := by
  rw [exec,if_pos allowed,moved]
  rfl

theorem exec_reachable {init s' : σ} (actions : List α) : ∀ {s : σ}, Reachable step ok init s →
    exec step ok s actions = some s' → Reachable step ok init s' := by
  induction actions with
  | nil => intro s reached executed; cases executed; exact reached
  | cons a rest ih =>
    intro s reached executed
    obtain ⟨allowed,t,moved,later⟩ := exec_cons executed
    exact ih (reached.next a allowed moved) later

theorem exec_getD_reachable {init : σ} (actions : List α) (enabled : (exec step ok init actions).isSome = true) :
    Reachable step ok init ((exec step ok init actions).getD init) := by
  obtain ⟨s,executed⟩ := Option.isSome_iff_exists.mp enabled
  rw [executed]
  exact exec_reachable actions .start executed

/-- A run of actions that all lower a measure, from states with an invariant, is no longer than the measure. -/
theorem exec_bounded {I : σ → Prop} {measure : σ → Nat} {lowers : α → Prop}
    (lower : ∀ s a s', I s → lowers a → step s a = some s' → I s' ∧ measure s' < measure s) (actions : List α) :
    ∀ {s s' : σ}, I s → (∀ a ∈ actions, lowers a) → exec step ok s actions = some s' →
      actions.length+measure s' ≤ measure s := by
  induction actions with
  | nil => intro s s' valid all executed; cases executed; simp
  | cons a rest ih =>
    intro s s' valid all executed
    obtain ⟨-,t,moved,later⟩ := exec_cons executed
    obtain ⟨valid',one⟩ := lower s a t valid (all a List.mem_cons_self) moved
    have more := ih valid' (fun b member => all b (List.mem_cons_of_mem a member)) later
    rw [List.length_cons]
    omega

end

/-! ### Along a run -/

/-- A property holds in every state of a run, the first one included. -/
def Always (step : σ → α → Option σ) (P : σ → Prop) : σ → List α → Prop
  | s,[] => P s
  | s,a :: rest => P s ∧ ∀ s', step s a = some s' → Always step P s' rest

/-- No step of a run has some flaw. -/
def Never (step : σ → α → Option σ) (flaw : σ → α → Prop) : σ → List α → Prop
  | _,[] => True
  | s,a :: rest => ∀ s', step s a = some s' → ¬ flaw s a ∧ Never step flaw s' rest

/-- What every step keeps holds along a run. -/
theorem always_of_preserved {P : σ → Prop} (preserved : ∀ {s a s'}, P s → step s a = some s' → P s') (actions : List α) :
    ∀ {s : σ}, P s → Always step P s actions := by
  induction actions with
  | nil => exact id
  | cons a rest ih => exact fun holds => ⟨holds,fun s' moved => ih (preserved holds moved)⟩

instance decidableNever {step : σ → α → Option σ} {flaw : σ → α → Prop} [∀ s a, Decidable (flaw s a)] :
    ∀ (actions : List α) (s : σ), Decidable (Never step flaw s actions)
  | [],_ => .isTrue trivial
  | a :: rest,s =>
    match moved : step s a with
    | none => .isTrue fun s' other => absurd (moved.symm.trans other) (by simp)
    | some t =>
      have : Decidable (Never step flaw t rest) := decidableNever rest t
      decidable_of_iff (¬ flaw s a ∧ Never step flaw t rest)
        ⟨fun both s' other => Option.some.inj (moved.symm.trans other) ▸ both,fun all => all t moved⟩

/-- If exactly the steps with a flaw break a property, it holds along a run exactly if no step has one. -/
theorem always_iff_never {step : σ → α → Option σ} {P I : σ → Prop} {flaw : σ → α → Prop}
    (preserved : ∀ s a s', I s → step s a = some s' → I s')
    (breaks : ∀ s a s', I s → P s → step s a = some s' → (P s' ↔ ¬ flaw s a)) (actions : List α) :
    ∀ {s : σ}, I s → P s → (Always step P s actions ↔ Never step flaw s actions) := by
  induction actions with
  | nil => exact fun _ holds => ⟨fun _ => trivial,fun _ => holds⟩
  | cons a rest ih =>
    intro s valid holds
    constructor
    · rintro ⟨-,later⟩ s' moved
      have along := later s' moved
      have next : P s' := by
        cases rest with
        | nil => exact along
        | cons b rest => exact along.1
      exact ⟨(breaks s a s' valid holds moved).mp next,(ih (preserved s a s' valid moved) next).mp along⟩
    · intro never
      refine ⟨holds,fun s' moved => ?_⟩
      obtain ⟨sound,later⟩ := never s' moved
      exact (ih (preserved s a s' valid moved) ((breaks s a s' valid holds moved).mpr sound)).mpr later

end Mcpkit.Transitions
