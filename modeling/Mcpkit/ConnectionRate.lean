import Mathlib.Data.List.Basic
import Mathlib.Tactic.SplitIfs

/-!
The message rate of a connection. The limiter fills up again in one go, a second or more after it
last did, so the messages before and after that may come at once.
-/
namespace Mcpkit.ConnectionRate
open List

/-- Times are nanoseconds. -/
structure ConnectionRateLimiter where
  maxPerSec : Int
  tokens : Int
  lastReset : Int

def newConnectionRateLimiter (maxPerSec now : Int) : ConnectionRateLimiter := ⟨maxPerSec,maxPerSec,now⟩

def second : Int := 1000000000

variable {rl : ConnectionRateLimiter} {maxPerSec now : Int} {times : List Int}

def ConnectionRateLimiter.allow (rl : ConnectionRateLimiter) (now : Int) : Bool × ConnectionRateLimiter :=
  let rl := if second ≤ now-rl.lastReset then { rl with tokens := rl.maxPerSec, lastReset := now } else rl
  if rl.tokens ≤ 0 then (false,rl) else (true,{ rl with tokens := rl.tokens-1 })

def ConnectionRateLimiter.granted (rl : ConnectionRateLimiter) : List Int → List Int
  | [] => []
  | now :: rest => if (rl.allow now).1 then now :: (rl.allow now).2.granted rest else (rl.allow now).2.granted rest

/-- In every run with a clock that does not go back, no second has more messages than the limit. -/
def Limited (maxPerSec : Int) : Prop :=
  ∀ start times, (start :: times).Pairwise (· ≤ ·) → ∀ t,
    (((newConnectionRateLimiter maxPerSec start).granted times).countP fun x => t ≤ x ∧ x < t+second) ≤ maxPerSec

open ConnectionRateLimiter

theorem granted_replicate (n : Nat) : ∀ {rl : ConnectionRateLimiter}, now-rl.lastReset < second → n ≤ rl.tokens →
    rl.granted (replicate n now ++ times) = replicate n now ++ { rl with tokens := rl.tokens-n }.granted times := by
  induction n with
  | zero => simp
  | succ n ih =>
    intro rl early enough
    have passes : rl.allow now = (true,{ rl with tokens := rl.tokens-1 }) := by
      simp only [allow,if_neg (Int.not_le.mpr early)]
      exact if_neg (by omega)
    have left : rl.tokens-1-n = rl.tokens-(n+1 : Nat) := by omega
    have later := @ih { rl with tokens := rl.tokens-1 } early (by simp only; omega)
    rw [replicate_succ,cons_append,granted,passes,if_pos rfl,later,left]
    rfl

theorem granted_none (empty : rl.maxPerSec = 0) (spent : rl.tokens = 0) : rl.granted times = [] := by
  induction times generalizing rl with
  | nil => rfl
  | cons now rest ih =>
    have refuses : (rl.allow now).1 = false ∧ (rl.allow now).2.maxPerSec = 0 ∧ (rl.allow now).2.tokens = 0 := by
      unfold allow
      split <;> simp [empty,spent]
    rw [granted,refuses.1,ih refuses.2.1 refuses.2.2]
    rfl

/-- A full limiter is emptied just before it fills up, and one more message comes then. -/
theorem granted_refill (n : Nat) (positive : 0 < n) :
    (newConnectionRateLimiter n 0).granted (replicate n (second-1) ++ [second]) = replicate n (second-1) ++ [second] := by
  have fills (tokens : Int) : granted ⟨n,tokens,0⟩ [second] = [second] := by
    simp [granted,allow,Nat.ne_of_gt positive]
  rw [granted_replicate n (show second-1-0 < second by decide) (Int.le_refl _)]
  exact congrArg _ (fills _)

theorem allow_cases (some : 0 ≤ rl.tokens) (full : 0 ≤ rl.maxPerSec) : ∃ passed rl', rl.allow now = (passed,rl') ∧
    rl'.maxPerSec = rl.maxPerSec ∧ 0 ≤ rl'.tokens ∧
    (rl'.lastReset = rl.lastReset ∧ rl'.tokens = rl.tokens-(if passed then 1 else 0) ∨
      second ≤ now-rl.lastReset ∧ rl'.lastReset = now ∧ rl'.tokens = rl.maxPerSec-(if passed then 1 else 0)) := by
  simp only [allow]
  split_ifs <;> refine ⟨_,_,rfl,rfl,?_⟩ <;> grind

/-- How many calls of the second from `t` on may still pass, after a call at `last`: a reset within that second
    is the only one. -/
def ConnectionRateLimiter.most (rl : ConnectionRateLimiter) (last t : Int) : Int :=
  if t+second ≤ rl.lastReset then 0 else if t ≤ rl.lastReset then rl.tokens
  else if t ≤ last then rl.tokens+rl.maxPerSec else 2*rl.maxPerSec

theorem granted_most (t : Int) : ∀ {rl : ConnectionRateLimiter} {last : Int}, 0 ≤ rl.tokens →
    rl.tokens ≤ rl.maxPerSec → rl.lastReset ≤ last → (last :: times).Pairwise (· ≤ ·) →
    (rl.granted times).countP (fun x => t ≤ x ∧ x < t+second) ≤ rl.most last t := by
  induction times with
  | nil =>
    intro rl last some less _ _
    simp only [granted,most]
    split_ifs <;> simp <;> omega
  | cons now rest ih =>
    intro rl last some less reset order
    obtain ⟨before,later⟩ := pairwise_cons.mp order
    have after := before now mem_cons_self
    obtain ⟨passed,rl',allowed,same,some',effect⟩ := @allow_cases rl now some (by omega)
    have rest' := @ih rl' now some' (by grind) (by grind) later
    have long : 0 < second := by decide
    have counted : (rl.granted (now :: rest)).countP (fun x => t ≤ x ∧ x < t+second) =
        (rl'.granted rest).countP (fun x => t ≤ x ∧ x < t+second)+(if passed ∧ t ≤ now ∧ now < t+second then 1 else 0) := by
      rw [granted,allowed]
      cases passed <;> simp [countP_cons]
    rw [counted]
    unfold most at rest' ⊢
    generalize (rl'.granted rest).countP (fun x => t ≤ x ∧ x < t+second) = n at rest' ⊢
    clear counted allowed ih order before later
    grind

/-- No second has more messages than twice the limit. -/
theorem granted_twice (maxPerSec : Nat) (start : Int) (times : List Int) (order : (start :: times).Pairwise (· ≤ ·))
    (t : Int) : ((newConnectionRateLimiter maxPerSec start).granted times).countP (fun x => t ≤ x ∧ x < t+second) ≤
      2*maxPerSec := by
  have bound := @granted_most times t (newConnectionRateLimiter maxPerSec start) start (Int.natCast_nonneg _)
    (Int.le_refl _) (Int.le_refl _) order
  simp only [most,newConnectionRateLimiter] at bound ⊢
  split_ifs at bound <;> omega

theorem granted_twice_two : ((newConnectionRateLimiter (1 : Nat) 0).granted [second-1,second]).countP
    (fun x => second-1 ≤ x ∧ x < second-1+second) ≤ 2*1 := granted_twice 1 0 [second-1,second] (by decide) (second-1)

end Mcpkit.ConnectionRate
