import Mcpkit.FinopsTracker
import Mcpkit.Transitions

/-!
Windowed trackers. `Tracker()` hands out a pointer to the tracker of the current window, and the
caller records on it later, when that window may be over.
-/
namespace Mcpkit.FinopsWindows
open Transitions FinopsTracker List

inductive ResetInterval where
  | resetHourly
  | resetDaily
  | resetWeekly
  | resetMonthly
  | other

def hour : Int := 3600000000000

def windowDuration : ResetInterval → Int
  | .resetHourly => hour
  | .resetDaily => 24*hour
  | .resetWeekly => 7*24*hour
  | .resetMonthly => 30*24*hour
  | .other => hour

structure WindowSummary where
  start : Int
  stop : Int
  totalInput : Int64
  totalOutput : Int64

/-- Trackers live in a heap, in the order of their creation; `current` is a pointer. -/
structure WindowedTracker where
  estimateFunc : Option (String → Int64)
  interval : ResetInterval
  current : Nat
  windowStart : Int
  history : List WindowSummary
  maxHistory : Int

/-- The trackers made so far, those that `Tracker()` has handed out, and the recorded entries. -/
structure System where
  wt : WindowedTracker
  trackers : List Tracker
  obtained : List Nat
  recorded : List UsageEntry

def new (estimateFunc : Option (String → Int64)) (interval : ResetInterval) (maxHistory now : Int) : System where
  wt := ⟨estimateFunc,interval,0,now,[],maxHistory⟩
  trackers := [newTracker estimateFunc]
  obtained := []
  recorded := []

variable (s : System)

def System.deref (t : Nat) : Tracker := s.trackers[t]?.getD (newTracker s.wt.estimateFunc)

def System.currentWindow (now : Int) : WindowSummary where
  start := s.wt.windowStart
  stop := now
  totalInput := (s.deref s.wt.current).summary.totalInputTokens
  totalOutput := (s.deref s.wt.current).summary.totalOutputTokens

def appendHistory (maxHistory : Int) (history : List WindowSummary) (ws : WindowSummary) : List WindowSummary :=
  let history := history ++ [ws]
  if maxHistory > 0 ∧ (history.length : Int) > maxHistory then history.drop (history.length-maxHistory.toNat)
  else history

def System.rotate (now : Int) : System where
  wt := { s.wt with
    history := appendHistory s.wt.maxHistory s.wt.history (s.currentWindow now)
    windowStart := now
    current := s.trackers.length }
  trackers := s.trackers ++ [newTracker s.wt.estimateFunc]
  obtained := s.obtained
  recorded := s.recorded

/-- `Tracker()` with what it read from the clock before it took the lock; `Record` on a tracker that was handed
    out. -/
inductive Action where
  | tracker (now : Int)
  | record (t : Nat) (entry : UsageEntry)

def step : Action → Option System
  | .tracker now =>
    let s := if now-s.wt.windowStart ≥ windowDuration s.wt.interval then s.rotate now else s
    some { s with obtained := s.obtained ++ [s.wt.current] }
  | .record t entry =>
    if t ∈ s.obtained then
      some { s with
        trackers := s.trackers.set t ((s.deref t).record entry)
        recorded := s.recorded ++ [entry] }
    else none

/-- The totals over `History()` and `CurrentWindow()` are those over all entries. -/
def Conserved : Prop :=
  (s.wt.history.map (·.totalInput)).sum+(s.deref s.wt.current).summary.totalInputTokens =
    (s.recorded.map (·.inputTokens)).sum ∧
  (s.wt.history.map (·.totalOutput)).sum+(s.deref s.wt.current).summary.totalOutputTokens =
    (s.recorded.map (·.outputTokens)).sum

/-- Usage is recorded on a tracker that is no longer the current one. -/
def Late : Action → Prop
  | .tracker _ => False
  | .record t entry => t ≠ s.wt.current ∧ (entry.inputTokens ≠ 0 ∨ entry.outputTokens ≠ 0)

instance (s : System) : ∀ a, Decidable (Late s a)
  | .tracker _ => .isFalse id
  | .record _ _ => inferInstanceAs (Decidable (_ ∧ _))

structure Sane : Prop where
  allocated : s.wt.current < s.trackers.length
  handed : ∀ t ∈ s.obtained, t < s.trackers.length
  unlimited : s.wt.maxHistory ≤ 0

variable {s s' : System}

@[simp] theorem deref_set_self {t : Nat} (inside : t < s.trackers.length) (tracker : Tracker)
    (recorded : List UsageEntry) :
    System.deref { s with trackers := s.trackers.set t tracker, recorded := recorded } t = tracker := by
  simp [System.deref,inside]

theorem deref_set_other {t u : Nat} (other : t ≠ u) (tracker : Tracker) (recorded : List UsageEntry) :
    System.deref { s with trackers := s.trackers.set t tracker, recorded := recorded } u = s.deref u := by
  simp [System.deref,other]

theorem sane_step {a : Action} (sane : Sane s) (moved : step s a = some s') : Sane s' := by
  obtain ⟨allocated,handed,unlimited⟩ := sane
  cases a with
  | tracker now =>
    simp only [step] at moved
    split at moved
    · cases moved
      refine ⟨by simp [System.rotate],?_,unlimited⟩
      intro t member
      simp only [System.rotate,length_append,length_singleton] at member ⊢
      rcases List.mem_append.mp member with old | last
      · exact Nat.lt_succ_of_lt (handed t old)
      · rw [List.mem_singleton.mp last]; exact Nat.lt_succ_self _
    · cases moved
      exact ⟨allocated,forall_mem_snoc handed allocated,unlimited⟩
  | record t entry =>
    simp only [step] at moved
    split at moved
    · cases moved
      exact ⟨by simpa using allocated,fun u member => by simpa using handed u member,unlimited⟩
    · cases moved

theorem sane_new (estimateFunc : Option (String → Int64)) (interval : ResetInterval) {maxHistory : Int}
    (unlimited : maxHistory ≤ 0) (now : Int) : Sane (new estimateFunc interval maxHistory now) :=
  ⟨by simp [new],by simp [new],unlimited⟩

/-! ### One count -/

/-- A count of the entries that the windows sum up: input or output tokens. -/
structure Count where
  ofEntry : UsageEntry → Int64
  ofWindow : WindowSummary → Int64
  summed : ∀ (s : System) (now : Int),
    ofWindow (s.currentWindow now) = ((s.deref s.wt.current).entries.map ofEntry).sum

def inputs : Count where
  ofEntry := (·.inputTokens)
  ofWindow := (·.totalInput)
  summed _ _ := (summary_totals _).1

def outputs : Count where
  ofEntry := (·.outputTokens)
  ofWindow := (·.totalOutput)
  summed _ _ := (summary_totals _).2

variable (c : Count)

def Count.shown (s : System) : Int64 :=
  (s.wt.history.map c.ofWindow).sum+((s.deref s.wt.current).entries.map c.ofEntry).sum

def Count.spent (s : System) : Int64 := (s.recorded.map c.ofEntry).sum

theorem conserved_iff (s : System) :
    Conserved s ↔ inputs.shown s = inputs.spent s ∧ outputs.shown s = outputs.spent s := by
  obtain ⟨input,output⟩ := summary_totals (s.deref s.wt.current)
  rw [Conserved,input,output]
  rfl

theorem tracker_shown (sane : Sane s) {now : Int} (moved : step s (.tracker now) = some s') :
    c.shown s' = c.shown s ∧ c.spent s' = c.spent s := by
  simp only [step] at moved
  split at moved
  · cases moved
    have kept : ¬ (s.wt.maxHistory > 0 ∧
        ((s.wt.history ++ [s.currentWindow now]).length : Int) > s.wt.maxHistory) := by
      have unlimited := sane.unlimited
      omega
    have fresh : (s.rotate now).deref (s.rotate now).wt.current = newTracker s.wt.estimateFunc := by
      simp [System.deref,System.rotate]
    refine ⟨?_,rfl⟩
    unfold Count.shown
    have history : (s.rotate now).wt.history = s.wt.history ++ [s.currentWindow now] := if_neg kept
    have current : System.deref { s.rotate now with obtained := (s.rotate now).obtained ++ [(s.rotate now).wt.current] }
        (s.rotate now).wt.current = newTracker s.wt.estimateFunc := fresh
    rw [current,history,map_append,sum_append,map_singleton,sum_singleton,c.summed]
    simp [newTracker]
  · cases moved
    exact ⟨rfl,rfl⟩

theorem record_shown (sane : Sane s) {t : Nat} {entry : UsageEntry} (moved : step s (.record t entry) = some s') :
    c.shown s' = c.shown s+(if t = s.wt.current then c.ofEntry entry else 0) ∧
    c.spent s' = c.spent s+c.ofEntry entry := by
  simp only [step] at moved
  split at moved
  · cases moved
    refine ⟨?_,by simp [Count.spent]⟩
    unfold Count.shown
    by_cases same : t = s.wt.current
    · subst same
      rw [deref_set_self sane.allocated,record_entries,map_append,sum_append,← add_assoc]
      simp
    · rw [if_neg same,add_zero]
      rw [deref_set_other same]
  · cases moved

private theorem add_eq_self (a b : Int64) : a = a+b ↔ b = 0 := by
  constructor
  · intro same
    grind
  · rintro rfl
    exact (add_zero a).symm

theorem record_balanced_iff (sane : Sane s) (balanced : c.shown s = c.spent s) {t : Nat}
    {entry : UsageEntry} (moved : step s (.record t entry) = some s') :
    c.shown s' = c.spent s' ↔ t = s.wt.current ∨ c.ofEntry entry = 0 := by
  obtain ⟨shown,spent⟩ := record_shown c sane moved
  rw [shown,spent,balanced]
  by_cases same : t = s.wt.current
  · simp [same]
  · simp only [same,if_false,false_or,add_zero]
    exact add_eq_self _ _

theorem step_conserved_iff {a : Action} (sane : Sane s) (conserved : Conserved s)
    (moved : step s a = some s') : Conserved s' ↔ ¬ Late s a := by
  obtain ⟨input,output⟩ := (conserved_iff s).mp conserved
  rw [conserved_iff]
  cases a with
  | tracker now =>
    obtain ⟨inputShown,inputSpent⟩ := tracker_shown inputs sane moved
    obtain ⟨outputShown,outputSpent⟩ := tracker_shown outputs sane moved
    rw [inputShown,inputSpent,outputShown,outputSpent]
    exact ⟨fun _ => id,fun _ => ⟨input,output⟩⟩
  | record t entry =>
    rw [record_balanced_iff inputs sane input moved,record_balanced_iff outputs sane output moved]
    simp only [Late,not_and_or,not_or,not_not,inputs,outputs]
    exact (or_and_left).symm

/-- With unlimited history, as long as no usage is recorded on a tracker that is no longer the current one, the
    windows show all usage; and the first such record breaks this. -/
theorem windows_conserve_iff (estimateFunc : Option (String → Int64)) (interval : ResetInterval) (maxHistory : Int)
    (unlimited : maxHistory ≤ 0) (now : Int) {s : System}
    (reached : Reachable step (fun s a => ¬ Late s a) (new estimateFunc interval maxHistory now) s) :
    Conserved s ∧ ∀ a s', Late s a → step s a = some s' → ¬ Conserved s' := by
  have start : Sane (new estimateFunc interval maxHistory now) ∧ Conserved (new estimateFunc interval maxHistory now) :=
    ⟨sane_new estimateFunc interval unlimited now,(conserved_iff _).mpr ⟨rfl,rfl⟩⟩
  have valid : Sane s ∧ Conserved s := by
    refine Reachable.invariant (I := fun s => Sane s ∧ Conserved s) start ?_ reached
    intro s a s' valid early moved
    exact ⟨sane_step valid.1 moved,(step_conserved_iff valid.1 valid.2 moved).mpr early⟩
  exact ⟨valid.2,fun a s' late moved kept => (step_conserved_iff valid.1 valid.2 moved).mp kept late⟩

def sampleHour : List Action :=
  [.tracker 0,.tracker 1,.record 0 ⟨"tool","unknown",3,4⟩]

def sampleShared : System :=
  (exec step (fun s a => ¬ Late s a) (new none .resetHourly 0 0) sampleHour).getD (new none .resetHourly 0 0)

/-- A caller obtains the tracker, another one starts the next window, then the first one records. -/
def sampleBoundary : List Action :=
  [.tracker 0,.tracker hour,.record 0 ⟨"tool","unknown",3,4⟩]

def sampleLost : System := (exec step free (new none .resetHourly 0 0) sampleBoundary).getD (new none .resetHourly 0 0)

theorem windows_conserve_sample :
    Conserved sampleShared ∧ Late (sampleShared.rotate hour) (.record 0 ⟨"tool","unknown",3,4⟩) :=
  ⟨(windows_conserve_iff none .resetHourly 0 (by decide) 0 (exec_reachable sampleHour .start rfl)).1,by decide⟩

/-- Three input tokens were recorded, and no window shows them. -/
theorem late_record_is_lost : Reachable step free (new none .resetHourly 0 0) sampleLost ∧
    (sampleLost.recorded.map (·.inputTokens)).sum = 3 ∧
    (sampleLost.wt.history.map (·.totalInput)).sum = 0 ∧ (sampleLost.currentWindow hour).totalInput = 0 ∧
    ¬ Conserved sampleLost := by
  refine ⟨exec_reachable sampleBoundary .start rfl,by decide,by decide,by decide,?_⟩
  unfold Conserved
  decide

end Mcpkit.FinopsWindows
