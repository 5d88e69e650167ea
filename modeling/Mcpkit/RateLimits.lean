import Mathlib.Algebra.Order.Field.Rat
import Mathlib.Tactic.Linarith
import Mathlib.Tactic.Ring
import Mcpkit.Transitions

/-!
Rate limiters. A limiter holds up to `burst` tokens and gains `rate` of them in a second; every
call of `Allow` and every turn of the loop of `Wait` first adds what was gained since the last
one.
-/
namespace Mcpkit.RateLimits
open Transitions

/-- Times are seconds, and all numbers exact. -/
structure RateLimiter where
  rate : ℚ
  burst : Int
  tokens : ℚ
  lastTime : ℚ

def newRateLimiter (rate : ℚ) (burst : Int) (now : ℚ) : RateLimiter := ⟨rate,burst,burst,now⟩

variable (l : RateLimiter) (now : ℚ)

def RateLimiter.refill : RateLimiter :=
  let elapsed := now-l.lastTime
  let tokens := l.tokens+elapsed*l.rate
  { l with tokens := if tokens > l.burst then (l.burst : ℚ) else tokens, lastTime := now }

def RateLimiter.allow : Bool × RateLimiter :=
  let l := l.refill now
  if l.tokens ≥ 1 then (true,{ l with tokens := l.tokens-1 }) else (false,l)

/-- `sleeping` has the times at which goroutines in `Wait` wake, `granted` those of the tokens so far. -/
structure System where
  limiter : RateLimiter
  sleeping : Nat → Option ℚ
  granted : List ℚ

def new (rate : ℚ) (burst : Int) (now : ℚ) : System := ⟨newRateLimiter rate burst now,fun _ => none,[]⟩

/-- `Allow`; `Wait` up to its first sleep; a turn of its loop after a sleep; and its end by
    the context. Each reads the clock while it holds the lock. -/
inductive Action where
  | allow (now : ℚ)
  | wait (goroutine : Nat) (now : ℚ)
  | wake (goroutine : Nat) (now : ℚ)
  | cancel (goroutine : Nat)

variable (s : System)

def System.attempt (now : ℚ) : System :=
  { s with
    limiter := (s.limiter.allow now).2
    granted := if (s.limiter.allow now).1 then now :: s.granted else s.granted }

/-- One turn of the loop of `Wait`: it returns with a token or sleeps. -/
def System.turn (goroutine : Nat) (now : ℚ) : System :=
  { s.attempt now with
    sleeping := Function.update s.sleeping goroutine
      (if (s.limiter.allow now).1 then none else some (now+1/s.limiter.rate)) }

/-- The clock does not go back. -/
def step : Action → Option System
  | .allow now => if s.limiter.lastTime ≤ now then some (s.attempt now) else none
  | .wait goroutine now =>
    if s.limiter.lastTime ≤ now ∧ s.sleeping goroutine = none then some (s.turn goroutine now) else none
  | .wake goroutine now =>
    match s.sleeping goroutine with
    | some wakes => if s.limiter.lastTime ≤ now ∧ wakes ≤ now then some (s.turn goroutine now) else none
    | none => none
  | .cancel goroutine => some { s with sleeping := Function.update s.sleeping goroutine none }

def System.grantedIn (start seconds : ℚ) : Nat :=
  s.granted.countP fun time => decide (start ≤ time ∧ time ≤ start+seconds)

/-! ### One attempt -/

theorem refill_le : (l.refill now).tokens ≤ l.burst := by
  simp only [RateLimiter.refill]
  split
  · exact le_refl _
  · exact not_lt.mp (by assumption)

theorem refill_gain : (l.refill now).tokens ≤ l.tokens+(now-l.lastTime)*l.rate := by
  simp only [RateLimiter.refill]
  split
  · exact le_of_lt (by assumption)
  · exact le_refl _

/-- What an attempt does: it takes a token or none from what the limiter has then. -/
theorem allow_cases : ((l.allow now).1 = true ∧ 1 ≤ (l.refill now).tokens ∧
      (l.allow now).2 = { l.refill now with tokens := (l.refill now).tokens-1 }) ∨
    ((l.allow now).1 = false ∧ (l.allow now).2 = l.refill now) := by
  simp only [RateLimiter.allow]
  split
  · exact .inl ⟨rfl,by assumption,rfl⟩
  · exact .inr ⟨rfl,rfl⟩

theorem step_cases {s s' : System} {a : Action} (moved : step s a = some s') :
    (∃ now, s.limiter.lastTime ≤ now ∧ s'.limiter = (s.attempt now).limiter ∧ s'.granted = (s.attempt now).granted) ∨
    (s'.limiter = s.limiter ∧ s'.granted = s.granted) := by
  cases a with
  | allow now =>
    simp only [step,guarded] at moved
    obtain ⟨later,rfl⟩ := moved
    exact .inl ⟨now,later,rfl,rfl⟩
  | wait goroutine now =>
    simp only [step,guarded] at moved
    obtain ⟨⟨later,-⟩,rfl⟩ := moved
    exact .inl ⟨now,later,rfl,rfl⟩
  | wake goroutine now =>
    simp only [step] at moved
    split at moved
    · simp only [guarded] at moved
      obtain ⟨⟨later,-⟩,rfl⟩ := moved
      exact .inl ⟨now,later,rfl,rfl⟩
    · cases moved
  | cancel goroutine =>
    simp only [step,Option.some.injEq] at moved
    subst moved
    exact .inr ⟨rfl,rfl⟩

/-! ### Whole runs -/

/-- The limiter keeps its settings, and its tokens are within the burst. -/
structure Within (rate : ℚ) (burst : Int) (l : RateLimiter) : Prop where
  gains : l.rate = rate
  holds : l.burst = burst
  nonneg : 0 ≤ l.tokens
  most : l.tokens ≤ burst

open RateLimits.System

section
variable {rate : ℚ} {burst : Int} {now}

theorem Within.refill {l : RateLimiter} (within : Within rate burst l) (gains : 0 ≤ rate)
    (later : l.lastTime ≤ now) (full : 0 ≤ burst) : Within rate burst (l.refill now) := by
  refine ⟨within.gains,within.holds,?_,by rw [← within.holds]; exact refill_le l now⟩
  simp only [RateLimiter.refill]
  split
  · rw [within.holds]
    exact_mod_cast full
  · have gained : 0 ≤ (now-l.lastTime)*l.rate := mul_nonneg (sub_nonneg.mpr later) (within.gains ▸ gains)
    have had := within.nonneg
    linarith

theorem Within.allow {l : RateLimiter} (within : Within rate burst l) (gains : 0 ≤ rate)
    (later : l.lastTime ≤ now) (full : 0 ≤ burst) : Within rate burst (l.allow now).2 := by
  have refilled := within.refill gains later full
  rcases allow_cases l now with ⟨-,enough,after⟩ | ⟨-,after⟩
  · rw [after]
    refine ⟨refilled.gains,refilled.holds,?_,?_⟩
    · linarith
    · have most := refilled.most
      linarith
  · rw [after]
    exact refilled

/-- Nothing is granted before the window; while it lasts, the grants and what is left come from the burst and the
    gain; afterwards nothing is added. -/
structure Booked (rate : ℚ) (burst : Int) (start seconds : ℚ) (s : System) : Prop where
  before : s.limiter.lastTime < start → s.grantedIn start seconds = 0
  during : start ≤ s.limiter.lastTime → s.limiter.lastTime ≤ start+seconds →
    s.grantedIn start seconds+s.limiter.tokens ≤ burst+rate*(s.limiter.lastTime-start)
  after : (s.grantedIn start seconds : ℚ) ≤ burst+rate*seconds

variable {start seconds : ℚ} {s}

theorem grantedIn_attempt_outside (outside : ¬ (start ≤ now ∧ now ≤ start+seconds)) :
    (s.attempt now).grantedIn start seconds = s.grantedIn start seconds := by
  simp only [grantedIn,attempt]
  split
  · rw [List.countP_cons_of_neg (by simpa using outside)]
  · rfl

theorem grantedIn_attempt_inside (inside : start ≤ now ∧ now ≤ start+seconds) :
    ((s.attempt now).grantedIn start seconds : ℚ)+(s.attempt now).limiter.tokens =
      s.grantedIn start seconds+(s.limiter.refill now).tokens := by
  rcases allow_cases s.limiter now with ⟨granted,-,after⟩ | ⟨refused,after⟩
  · simp only [grantedIn,attempt,granted,if_true,after]
    rw [List.countP_cons_of_pos (by simpa using inside)]
    push_cast
    ring
  · simp only [grantedIn,attempt,refused,after]
    rfl

theorem lastTime_allow (now : ℚ) : (l.allow now).2.lastTime = now := by
  rcases allow_cases l now with ⟨-,-,after⟩ | ⟨-,after⟩ <;> rw [after] <;> rfl

theorem Booked.attempt (booked : Booked rate burst start seconds s) (within : Within rate burst s.limiter)
    (gains : 0 ≤ rate) (full : 0 ≤ burst) (later : s.limiter.lastTime ≤ now) :
    Booked rate burst start seconds (s.attempt now) := by
  have time : (s.attempt now).limiter.lastTime = now := lastTime_allow s.limiter now
  by_cases inside : start ≤ now ∧ now ≤ start+seconds
  · have moved := grantedIn_attempt_inside (s := s) inside
    have books : ((s.attempt now).grantedIn start seconds : ℚ)+(s.attempt now).limiter.tokens ≤
        burst+rate*(now-start) := by
      rw [moved]
      rcases lt_or_ge s.limiter.lastTime start with early | started
      · have none := booked.before early
        have most := (within.refill gains later full).most
        have gained : 0 ≤ rate*(now-start) := mul_nonneg gains (sub_nonneg.mpr inside.1)
        rw [none,Nat.cast_zero]
        linarith
      · have held := booked.during started (later.trans inside.2)
        have gain := refill_gain s.limiter now
        rw [within.gains] at gain
        linarith
    refine ⟨fun early => absurd (time ▸ early) (not_lt.mpr inside.1),fun _ _ => time.symm ▸ books,?_⟩
    have left := (within.allow gains later full).nonneg
    have rest : rate*(now-start) ≤ rate*seconds := mul_le_mul_of_nonneg_left (by linarith [inside.2]) gains
    change 0 ≤ (s.attempt now).limiter.tokens at left
    linarith
  · have same := grantedIn_attempt_outside (s := s) inside
    refine ⟨fun early => ?_,fun started ended => absurd ⟨time ▸ started,time ▸ ended⟩ inside,?_⟩
    · rw [same]
      exact booked.before (lt_of_le_of_lt later (time ▸ early))
    · rw [same]
      exact booked.after

theorem within_new (rate : ℚ) (full : 0 ≤ burst) (now : ℚ) : Within rate burst (new rate burst now).limiter :=
  ⟨rfl,rfl,Int.cast_nonneg full,le_refl _⟩

theorem booked_new (gains : 0 ≤ rate) (full : 0 ≤ burst) (now : ℚ) (long : 0 ≤ seconds) :
    Booked rate burst start seconds (new rate burst now) := by
  have room : (0 : ℚ) ≤ burst := Int.cast_nonneg full
  refine ⟨fun _ => rfl,fun started _ => ?_,?_⟩
  · have gained : 0 ≤ rate*(now-start) := mul_nonneg gains (sub_nonneg.mpr started)
    change ((0 : Nat) : ℚ)+burst ≤ burst+rate*(now-start)
    rw [Nat.cast_zero]
    linarith
  · have gained : 0 ≤ rate*seconds := mul_nonneg gains long
    change ((0 : Nat) : ℚ) ≤ burst+rate*seconds
    rw [Nat.cast_zero]
    linarith

variable {s' : System}

theorem within_step {a : Action} (within : Within rate burst s.limiter) (gains : 0 ≤ rate)
    (full : 0 ≤ burst) (moved : step s a = some s') : Within rate burst s'.limiter := by
  rcases step_cases moved with ⟨now,later,limiter,-⟩ | ⟨limiter,-⟩
  · rw [limiter]
    exact within.allow gains later full
  · rw [limiter]
    exact within

theorem Booked.congr (booked : Booked rate burst start seconds s) (limiter : s'.limiter = s.limiter)
    (granted : s'.granted = s.granted) : Booked rate burst start seconds s' := by
  obtain ⟨before,during,after⟩ := booked
  unfold grantedIn at before during after
  rw [← limiter,← granted] at before during
  rw [← granted] at after
  exact ⟨before,during,after⟩

theorem booked_step {a : Action} (booked : Booked rate burst start seconds s)
    (within : Within rate burst s.limiter) (gains : 0 ≤ rate) (full : 0 ≤ burst) (moved : step s a = some s') :
    Booked rate burst start seconds s' := by
  rcases step_cases moved with ⟨now,later,limiter,granted⟩ | ⟨limiter,granted⟩
  · exact (booked.attempt within gains full later).congr limiter granted
  · exact booked.congr limiter granted

/-- In every run, with the clock never going back, the tokens stay between zero and the
    burst, and in every window no more are granted than the burst and what the window gains. -/
theorem granted_le (rate : ℚ) (burst : Int) (now : ℚ) (gains : 0 ≤ rate) (full : 0 ≤ burst) {s : System}
    (reached : Reachable step free (new rate burst now) s) :
    0 ≤ s.limiter.tokens ∧ s.limiter.tokens ≤ burst ∧
    ∀ start seconds, 0 ≤ seconds → (s.grantedIn start seconds : ℚ) ≤ burst+rate*seconds := by
  have valid : Within rate burst s.limiter ∧ ∀ start seconds, 0 ≤ seconds → Booked rate burst start seconds s := by
    refine Reachable.invariant (I := fun s => Within rate burst s.limiter ∧
      ∀ start seconds, 0 ≤ seconds → Booked rate burst start seconds s) ?_ ?_ reached
    · exact ⟨within_new rate full now,fun start seconds long => booked_new gains full now long⟩
    · intro s a s' ⟨within,booked⟩ _ moved
      exact ⟨within_step within gains full moved,
        fun start seconds long => booked_step (booked start seconds long) within gains full moved⟩
  exact ⟨valid.1.nonneg,valid.1.most,fun start seconds long => (valid.2 start seconds long).after⟩

def sampleCalls : List Action := [.allow 0,.wait 1 0,.wait 2 0,.wake 2 2,.allow (5/2),.cancel 1]

def sampleRun : System := (exec step free (new (1/2) 2 0) sampleCalls).getD (new (1/2) 2 0)

theorem granted_le_sample : (0 : ℚ) ≤ 1/2 ∧ sampleRun.granted = [2,0,0] ∧ sampleRun.limiter.tokens = 1/4 ∧
    (sampleRun.grantedIn 0 2 : ℚ) ≤ 2+1/2*2 := by
  have reached : Reachable step free (new (1/2) 2 0) sampleRun := exec_getD_reachable sampleCalls (by decide +kernel)
  exact ⟨by decide +kernel,by decide +kernel,by decide +kernel,
    (granted_le (1/2) 2 0 (by decide +kernel) (by decide) reached).2.2 0 2 (by decide +kernel)⟩

end
end Mcpkit.RateLimits
