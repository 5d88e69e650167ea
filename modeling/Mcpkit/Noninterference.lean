import Mathlib.Data.List.Basic

/-!
Machines that answer each event, and what one observer sees of them.
-/
namespace Mcpkit.Noninterference
variable {σ α ρ ν : Type}

def run (step : σ → α → ρ × σ) : σ → List α → List (α × ρ) × σ
  | s,[] => ([],s)
  | s,a :: rest => ((a,(step s a).1) :: (run step (step s a).2 rest).1,(run step (step s a).2 rest).2)

def answers (mine : α → Bool) (log : List (α × ρ)) : List ρ := (log.filter fun entry => mine entry.1).map (·.2)

structure Unwinding (step : σ → α → ρ × σ) (view : σ → ν) (mine : α → Bool) : Prop where
  frame : ∀ s a, mine a = false → view (step s a).2 = view s
  answered : ∀ s t a, mine a = true → view s = view t → (step s a).1 = (step t a).1
  moved : ∀ s t a, mine a = true → view s = view t → view (step s a).2 = view (step t a).2

section
variable {step : σ → α → ρ × σ} {view : σ → ν} {mine : α → Bool}

theorem answers_mine {s : σ} {a : α} (own : mine a = true) (rest : List α) :
    answers mine (run step s (a :: rest)).1 = (step s a).1 :: answers mine (run step (step s a).2 rest).1 := by
  simp [run,answers,own]

theorem answers_other {s : σ} {a : α} (other : mine a = false) (rest : List α) :
    answers mine (run step s (a :: rest)).1 = answers mine (run step (step s a).2 rest).1 := by
  simp [run,answers,other]

/-- For the observer a run is as good as the run of their own events. -/
theorem Unwinding.purged (unwinding : Unwinding step view mine) (events : List α) : ∀ {s t : σ}, view s = view t →
    answers mine (run step s events).1 = answers mine (run step t (events.filter mine)).1 ∧
    view (run step s events).2 = view (run step t (events.filter mine)).2 := by
  induction events with
  | nil => intro s t alike; exact ⟨rfl,alike⟩
  | cons a rest ih =>
    intro s t alike
    cases own : mine a with
    | true =>
      obtain ⟨same,seen⟩ := ih (unwinding.moved s t a own alike)
      rw [List.filter_cons_of_pos own,answers_mine own,answers_mine own,same,unwinding.answered s t a own alike]
      exact ⟨rfl,seen⟩
    | false =>
      obtain ⟨same,seen⟩ := ih ((unwinding.frame s a own).trans alike)
      rw [List.filter_cons_of_neg (by simp [own]),answers_other own]
      exact ⟨same,seen⟩

theorem Unwinding.two_runs (unwinding : Unwinding step view mine) {s t : σ} {events events' : List α}
    (alike : view s = view t) (same : events.filter mine = events'.filter mine) :
    answers mine (run step s events).1 = answers mine (run step t events').1 ∧
    view (run step s events).2 = view (run step t events').2 := by
  obtain ⟨left,leftView⟩ := unwinding.purged events alike
  obtain ⟨right,rightView⟩ := unwinding.purged events' (rfl : view t = view t)
  rw [left,leftView,right,rightView,same]
  exact ⟨rfl,rfl⟩

end
end Mcpkit.Noninterference
