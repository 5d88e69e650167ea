import Mathlib.Algebra.Order.Field.Rat
import Mathlib.Algebra.BigOperators.Group.List.Basic
import Mcpkit.FinopsWindows

/-!
Dollar costs of windows. The cost policy of a windowed tracker is shared by all of its windows and
never starts anew, while a summary takes its total for the cost of the window.
-/
namespace Mcpkit.FinopsCosts
open Transitions FinopsTracker List

structure DollarBudgetExceededError where
  limit : ℚ
  used : ℚ

structure CostPolicy where
  dollarBudget : ℚ
  totalCost : ℚ

def CostPolicy.recordCost (cp : CostPolicy) (cost : ℚ) : Option DollarBudgetExceededError × CostPolicy :=
  let cp := { cp with totalCost := cp.totalCost+cost }
  if cp.dollarBudget > 0 ∧ cp.totalCost > cp.dollarBudget then (some ⟨cp.dollarBudget,cp.totalCost⟩,cp) else (none,cp)

structure WindowSummary extends FinopsWindows.WindowSummary where
  totalCost : ℚ

/-- `totalCosts` are those of the summaries in the history; `closed` and `current` are the costs recorded within
    each window. -/
structure System where
  windows : FinopsWindows.System
  costPolicy : CostPolicy
  totalCosts : List ℚ
  closed : List (List ℚ)
  current : List ℚ

def new (costPolicy : CostPolicy) (estimateFunc : Option (String → Int64)) (interval : FinopsWindows.ResetInterval)
    (maxHistory now : Int) : System :=
  ⟨FinopsWindows.new estimateFunc interval maxHistory now,costPolicy,[],[],[]⟩

def System.history (s : System) : List WindowSummary :=
  (s.windows.wt.history.zip s.totalCosts).map fun pair => ⟨pair.1,pair.2⟩

def System.currentWindow (s : System) (now : Int) : WindowSummary :=
  ⟨s.windows.currentWindow now,s.costPolicy.totalCost⟩

def trim (maxHistory : Int) (costs : List ℚ) : List ℚ :=
  if maxHistory > 0 ∧ (costs.length : Int) > maxHistory then costs.drop (costs.length-maxHistory.toNat) else costs

inductive Action where
  | tracker (now : Int)
  | record (t : Nat) (entry : UsageEntry)
  | recordCost (cost : ℚ)

variable (s : System)

def Rotates (now : Int) : Prop :=
  now-s.windows.wt.windowStart ≥ FinopsWindows.windowDuration s.windows.wt.interval

instance (s : System) (now : Int) : Decidable (Rotates s now) := inferInstanceAs (Decidable (_ ≥ _))

def step (s : System) : Action → Option System
  | .tracker now => (FinopsWindows.step s.windows (.tracker now)).map (fun windows =>
      if Rotates s now then
        { s with
          windows := windows
          totalCosts := trim s.windows.wt.maxHistory (s.totalCosts ++ [s.costPolicy.totalCost])
          closed := s.closed ++ [s.current]
          current := [] }
      else { s with windows := windows })
  | .record t entry => (FinopsWindows.step s.windows (.record t entry)).map fun windows => { s with windows := windows }
  | .recordCost cost => some { s with costPolicy := (s.costPolicy.recordCost cost).2, current := s.current ++ [cost] }

/-- Each summary shows what was recorded within its window, and together they show all. -/
structure Additive : Prop where
  past : s.history.map (·.totalCost) = s.closed.map List.sum
  present : ∀ now, (s.currentWindow now).totalCost = s.current.sum
  total : ∀ now, (s.history.map (·.totalCost)).sum+(s.currentWindow now).totalCost = s.costPolicy.totalCost

def Carries : Action → Prop
  | .tracker now => Rotates s now ∧ s.costPolicy.totalCost ≠ 0
  | _ => False

instance (s : System) : ∀ a, Decidable (Carries s a)
  | .tracker _ => inferInstanceAs (Decidable (_ ∧ _))
  | .record _ _ => .isFalse id
  | .recordCost _ => .isFalse id

/-! ### Steps -/

theorem totalCost_recordCost (cp : CostPolicy) (cost : ℚ) : (cp.recordCost cost).2.totalCost = cp.totalCost+cost := by
  simp only [CostPolicy.recordCost]
  split <;> rfl

structure Paired : Prop where
  length : s.windows.wt.history.length = s.totalCosts.length
  unlimited : s.windows.wt.maxHistory ≤ 0

theorem Paired.costs {s : System} (paired : Paired s) : s.history.map (·.totalCost) = s.totalCosts := by
  rw [System.history,map_map]
  exact map_snd_zip paired.length.ge

variable {s s' : System}

theorem tracker_cases {now : Int} (moved : step s (.tracker now) = some s') : (Rotates s now ∧ s' = { s with
      windows := { s.windows.rotate now with obtained := s.windows.obtained ++ [s.windows.trackers.length] }
      totalCosts := trim s.windows.wt.maxHistory (s.totalCosts ++ [s.costPolicy.totalCost])
      closed := s.closed ++ [s.current]
      current := [] }) ∨
    (¬ Rotates s now ∧ s' = { s with
      windows := { s.windows with obtained := s.windows.obtained ++ [s.windows.wt.current] } }) := by
  simp only [step,FinopsWindows.step,Option.map_some,Option.some.injEq] at moved
  by_cases rotates : Rotates s now
  · have due : now-s.windows.wt.windowStart ≥ FinopsWindows.windowDuration s.windows.wt.interval := rotates
    simp only [if_pos due,if_pos rotates] at moved
    exact .inl ⟨rotates,moved.symm⟩
  · have early : ¬ now-s.windows.wt.windowStart ≥ FinopsWindows.windowDuration s.windows.wt.interval := rotates
    simp only [if_neg early,if_neg rotates] at moved
    exact .inr ⟨rotates,moved.symm⟩

theorem record_keeps {t : Nat} {entry : UsageEntry} (moved : step s (.record t entry) = some s') :
    ∃ windows, s' = { s with windows := windows } ∧ windows.wt = s.windows.wt := by
  obtain ⟨windows,recorded,rfl⟩ := Option.map_eq_some_iff.mp moved
  refine ⟨windows,rfl,?_⟩
  simp only [FinopsWindows.step,guarded] at recorded
  rw [← recorded.2]

theorem paired_step {a : Action} (paired : Paired s) (moved : step s a = some s') : Paired s' := by
  cases a with
  | tracker now =>
    rcases tracker_cases moved with ⟨-,rfl⟩ | ⟨-,rfl⟩
    · have all (n : Int) : ¬ (s.windows.wt.maxHistory > 0 ∧ n > s.windows.wt.maxHistory) :=
        fun both => absurd both.1 (not_lt.mpr paired.unlimited)
      refine ⟨?_,paired.unlimited⟩
      simp only [FinopsWindows.System.rotate,FinopsWindows.appendHistory,trim]
      rw [if_neg (all _),if_neg (all _),length_append,length_append,paired.length]
      rfl
    · exact ⟨paired.length,paired.unlimited⟩
  | record t entry =>
    obtain ⟨windows,rfl,same⟩ := record_keeps moved
    exact ⟨by rw [same]; exact paired.length,by rw [same]; exact paired.unlimited⟩
  | recordCost cost =>
    simp only [step,Option.some.injEq] at moved
    subst moved
    exact ⟨paired.length,paired.unlimited⟩

theorem additive_of_paired {s : System} (paired : Paired s) : Additive s ↔
    s.totalCosts = s.closed.map List.sum ∧ s.costPolicy.totalCost = s.current.sum ∧ s.totalCosts.sum = 0 := by
  constructor
  · rintro ⟨past,present,total⟩
    rw [paired.costs] at past total
    exact ⟨past,present 0,add_eq_right.mp (total 0)⟩
  · rintro ⟨past,present,total⟩
    refine ⟨by rw [paired.costs]; exact past,fun _ => present,fun _ => ?_⟩
    rw [paired.costs,total]
    exact zero_add _

theorem step_additive_iff {a : Action} (paired : Paired s) (additive : Additive s)
    (moved : step s a = some s') : Additive s' ↔ ¬ Carries s a := by
  have later := paired_step paired moved
  obtain ⟨past,present,total⟩ := (additive_of_paired paired).mp additive
  rw [additive_of_paired later]
  cases a with
  | tracker now =>
    rcases tracker_cases moved with ⟨rotates,rfl⟩ | ⟨stays,rfl⟩
    · have all : trim s.windows.wt.maxHistory (s.totalCosts ++ [s.costPolicy.totalCost]) =
          s.totalCosts ++ [s.costPolicy.totalCost] := if_neg fun both => absurd both.1 (not_lt.mpr paired.unlimited)
      simp only [all,Carries,rotates,true_and,ne_eq,not_not]
      constructor
      · exact fun shown => shown.2.1.trans sum_nil
      · intro zero
        refine ⟨?_,zero,?_⟩
        · rw [past,present,map_append,map_singleton]
        · rw [sum_append,total,zero,sum_singleton,add_zero]
    · simp only [Carries,stays,false_and,not_false_eq_true,iff_true]
      exact ⟨past,present,total⟩
  | record t entry =>
    obtain ⟨windows,rfl,-⟩ := record_keeps moved
    simp only [Carries,not_false_eq_true,iff_true]
    exact ⟨past,present,total⟩
  | recordCost cost =>
    simp only [step,Option.some.injEq] at moved
    subst moved
    simp only [Carries,not_false_eq_true,iff_true]
    refine ⟨past,?_,total⟩
    rw [totalCost_recordCost,present,sum_append,sum_singleton]

/-! ### Whole runs -/

section
variable (costPolicy : CostPolicy) (estimateFunc : Option (String → Int64)) (interval : FinopsWindows.ResetInterval)
  (maxHistory now : Int)

theorem paired_new (unlimited : maxHistory ≤ 0) : Paired (new costPolicy estimateFunc interval maxHistory now) :=
  ⟨rfl,unlimited⟩

theorem new_additive_iff (unlimited : maxHistory ≤ 0) :
    Additive (new costPolicy estimateFunc interval maxHistory now) ↔ costPolicy.totalCost = 0 := by
  rw [additive_of_paired (paired_new costPolicy estimateFunc interval maxHistory now unlimited)]
  exact ⟨fun shown => shown.2.1,fun zero => ⟨rfl,zero,rfl⟩⟩

/-- With unlimited history, the windows show their own costs in every state of a run exactly if nothing was recorded
    on the policy before, and no window ends with a cost that the policy still has. -/
theorem additive_iff (unlimited : maxHistory ≤ 0) (actions : List Action) :
    Always step Additive (new costPolicy estimateFunc interval maxHistory now) actions ↔
      costPolicy.totalCost = 0 ∧ Never step Carries (new costPolicy estimateFunc interval maxHistory now) actions := by
  have paired := paired_new costPolicy estimateFunc interval maxHistory now unlimited
  have start := new_additive_iff costPolicy estimateFunc interval maxHistory now unlimited
  have kept : ∀ s a s', Paired s → step s a = some s' → Paired s' := fun _ _ _ => paired_step
  have along (additive : Additive (new costPolicy estimateFunc interval maxHistory now)) :=
    always_iff_never kept (fun _ _ _ paired additive moved => step_additive_iff paired additive moved)
      actions paired additive
  constructor
  · intro always
    have additive : Additive (new costPolicy estimateFunc interval maxHistory now) := by
      cases actions with
      | nil => exact always
      | cons a rest => exact always.1
    exact ⟨start.mp additive,(along additive).mp always⟩
  · rintro ⟨zero,never⟩
    exact (along (start.mpr zero)).mpr never

end

def unspent : CostPolicy := ⟨0,0⟩

/-- Two costs in one hour. -/
theorem additive_hour : (0 : Int) ≤ 0 ∧ Always step Additive (new unspent none .resetHourly 0 0)
    [.recordCost (1/2),.tracker 1,.recordCost 2] :=
  ⟨by decide,(additive_iff unspent none .resetHourly 0 0 (by decide) _).mpr ⟨rfl,by decide⟩⟩

def twoHours : System :=
  (exec step free (new unspent none .resetHourly 0 0) [.recordCost 10,.tracker FinopsWindows.hour,.recordCost 5,
    .tracker (2*FinopsWindows.hour)]).getD (new unspent none .resetHourly 0 0)

/-- The second hour shows the first one's cost too, and so does the third, which has none. -/
theorem costs_carry : Reachable step free (new unspent none .resetHourly 0 0) twoHours ∧
    twoHours.closed = [[10],[5]] ∧ twoHours.history.map (·.totalCost) = [10,15] ∧
    (twoHours.currentWindow (2*FinopsWindows.hour)).totalCost = 15 ∧ twoHours.costPolicy.totalCost = 15 ∧
    ¬ Additive twoHours := by
  refine ⟨exec_getD_reachable _ (by decide +kernel),by decide +kernel,by decide +kernel,by decide +kernel,
    by decide +kernel,fun additive => ?_⟩
  have shown : twoHours.history.map (·.totalCost) = twoHours.closed.map List.sum := additive.past
  exact absurd shown (by decide +kernel)

end Mcpkit.FinopsCosts
