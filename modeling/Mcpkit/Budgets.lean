import Mathlib.Data.List.Sort
import Mathlib.Algebra.Order.Field.Rat
import Mathlib.Order.Bounds.Basic
import Mcpkit.GoMaps

/-!
Budget policies over an enforcer's own account.
-/
namespace Mcpkit.Budgets
open GoMaps List

inductive BudgetAction where
  | actionWarn
  | actionBlock
  | actionDowngrade
  | other (text : String)
  deriving DecidableEq

variable (F : Type)

structure BudgetPolicy where
  name : String
  limit : F
  window : Int
  thresholds : List F
  action : BudgetAction

structure BudgetAlert where
  policyName : String
  threshold : F
  currentCost : F
  budgetLimit : F

structure DollarBudgetExceededError where
  limit : F
  used : F

/-- An enforcer without an external tracker. `alerts` says whether there is an alert function. -/
structure BudgetEnforcer where
  policies : List (BudgetPolicy F)
  alerts : Bool
  firedThresholds : GoMap (Finset F)
  internalCost : F
  internalBudget : F

section
variable {F : Type} [LinearOrder F] [Zero F]

def newBudgetEnforcer (alerts : Bool) : BudgetEnforcer F := ⟨[],alerts,∅,0,0⟩

def BudgetEnforcer.addPolicy (e : BudgetEnforcer F) (p : BudgetPolicy F) : BudgetEnforcer F :=
  { e with
    policies := e.policies ++ [p]
    firedThresholds := e.firedThresholds.insert p.name ∅
    internalBudget := if p.limit > e.internalBudget then p.limit else e.internalBudget }

def BudgetEnforcer.fired (e : BudgetEnforcer F) (name : String) : Finset F := (e.firedThresholds.lookup name).getD ∅

variable [One F] [Add F] [Sub F] [Div F]

def fireAlert (p : BudgetPolicy F) (currentCost : F) (s : BudgetEnforcer F × List (BudgetAlert F)) (threshold : F) :
    BudgetEnforcer F × List (BudgetAlert F) :=
  if currentCost/p.limit ≥ threshold then
    if threshold ∈ s.1.fired p.name then s
    else
      ({ s.1 with firedThresholds := s.1.firedThresholds.insert p.name (insert threshold (s.1.fired p.name)) },
        s.2 ++ [⟨p.name,threshold,currentCost,p.limit⟩])
  else s

variable (e : BudgetEnforcer F)

/-- The enforcer afterwards, and the alerts in the order of their delivery. -/
def BudgetEnforcer.fireAlerts (p : BudgetPolicy F) (currentCost : F) :
    BudgetEnforcer F × List (BudgetAlert F) :=
  if e.alerts = false ∨ p.limit ≤ 0 ∨ p.thresholds.length = 0 then (e,[])
  else (p.thresholds.insertionSort (· ≤ ·)).foldl (fireAlert p currentCost) (e,[])

def checkLoop (currentCost : F) (result : BudgetAction) : List (BudgetPolicy F) → BudgetEnforcer F →
    (BudgetAction × Option (DollarBudgetExceededError F)) × BudgetEnforcer F × List (BudgetAlert F)
  | [],e => ((result,none),e,[])
  | p :: policies,e =>
    if p.limit ≤ 0 then checkLoop currentCost result policies e
    else
      let fired := e.fireAlerts p currentCost
      let continued (result : BudgetAction) :=
        let rest := checkLoop currentCost result policies fired.1
        (rest.1,rest.2.1,fired.2 ++ rest.2.2)
      if currentCost/p.limit ≥ 1 then
        match p.action with
        | .actionBlock => ((.actionBlock,some ⟨p.limit,currentCost⟩),fired)
        | .actionDowngrade => continued .actionDowngrade
        | _ => continued result
      else continued result

def BudgetEnforcer.check :
    (BudgetAction × Option (DollarBudgetExceededError F)) × BudgetEnforcer F × List (BudgetAlert F) :=
  checkLoop e.internalCost .actionWarn e.policies e

def fireAll (currentCost : F) : List (BudgetPolicy F) → BudgetEnforcer F → BudgetEnforcer F × List (BudgetAlert F)
  | [],e => (e,[])
  | p :: policies,e =>
    let fired := e.fireAlerts p currentCost
    let rest := fireAll currentCost policies fired.1
    (rest.1,fired.2 ++ rest.2)

def BudgetEnforcer.recordCost (amount : F) : BudgetEnforcer F × List (BudgetAlert F) :=
  let e := { e with internalCost := e.internalCost+amount }
  fireAll e.internalCost e.policies e

/-- The search of `RemainingBudget` through the policies after the first one. -/
def minLimit (seed : F) (policies : List (BudgetPolicy F)) : F :=
  policies.foldl (fun least p => if p.limit > 0 ∧ p.limit < least then p.limit else least) seed

def BudgetEnforcer.remainingBudget : F :=
  match e.policies with
  | [] => 0
  | p :: policies =>
    let remaining := minLimit p.limit policies-e.internalCost
    if remaining < 0 then 0 else remaining

end

/-! ### The least limit -/

def limits (policies : List (BudgetPolicy ℚ)) : Set ℚ := { l | ∃ p ∈ policies, 0 < p.limit ∧ p.limit = l }

def Exceeded (spend : ℚ) (p : BudgetPolicy ℚ) : Prop := 0 < p.limit ∧ 1 ≤ spend/p.limit

instance (spend : ℚ) (p : BudgetPolicy ℚ) : Decidable (Exceeded spend p) := inferInstanceAs (Decidable (_ ∧ _))

variable {spend : ℚ} {p : BudgetPolicy ℚ}

theorem exceeded_iff : Exceeded spend p ↔ 0 < p.limit ∧ p.limit ≤ spend :=
  and_congr_right fun positive => one_le_div₀ positive

variable {policies : List (BudgetPolicy ℚ)} {e : BudgetEnforcer ℚ} {order : List (BudgetPolicy ℚ)}

theorem limits_perm (perm : order.Perm policies) : limits order = limits policies := by
  ext l
  simp only [limits,Set.mem_ofPred_eq,perm.mem_iff]

theorem minLimit_of_nonpos {seed : ℚ} (nonpos : seed ≤ 0) (policies : List (BudgetPolicy ℚ)) :
    minLimit seed policies = seed := by
  induction policies with
  | nil => rfl
  | cons p policies ih =>
    rw [minLimit,foldl_cons,if_neg fun both => absurd (both.1.trans both.2) (not_lt.mpr nonpos)]
    exact ih

theorem limits_cons (p : BudgetPolicy ℚ) (policies : List (BudgetPolicy ℚ)) (l : ℚ) :
    l ∈ limits (p :: policies) ↔ (0 < p.limit ∧ p.limit = l) ∨ l ∈ limits policies := by
  simp only [limits,Set.mem_ofPred_eq,mem_cons,exists_eq_or_imp]

theorem minLimit_isLeast (policies : List (BudgetPolicy ℚ)) {seed : ℚ} (positive : 0 < seed) :
    IsLeast (insert seed (limits policies)) (minLimit seed policies) := by
  induction policies generalizing seed with
  | nil => simp [minLimit,limits]
  | cons p policies ih =>
    rw [minLimit,foldl_cons,← minLimit]
    by_cases lower : p.limit > 0 ∧ p.limit < seed
    · rw [if_pos lower]
      obtain ⟨found,below⟩ := ih lower.1
      refine ⟨?_,fun l member => ?_⟩
      · rcases found with same | later
        · exact .inr ((limits_cons p policies _).mpr (.inl ⟨lower.1,same.symm⟩))
        · exact .inr ((limits_cons p policies _).mpr (.inr later))
      · rcases member with rfl | member
        · exact (below (.inl rfl)).trans lower.2.le
        · rcases (limits_cons p policies l).mp member with ⟨-,rfl⟩ | later
          · exact below (.inl rfl)
          · exact below (.inr later)
    · rw [if_neg lower]
      obtain ⟨found,below⟩ := ih positive
      refine ⟨?_,fun l member => ?_⟩
      · rcases found with same | later
        · exact .inl same
        · exact .inr ((limits_cons p policies _).mpr (.inr later))
      · rcases member with rfl | member
        · exact below (.inl rfl)
        · rcases (limits_cons p policies l).mp member with ⟨counts,rfl⟩ | later
          · exact (below (.inl rfl)).trans (not_lt.mp fun less => lower ⟨counts,less⟩)
          · exact below (.inr later)

/-! ### What is left -/

def BudgetEnforcer.reorder (e : BudgetEnforcer ℚ) (order : List (BudgetPolicy ℚ)) : BudgetEnforcer ℚ :=
  { e with policies := order }

theorem clipped_eq_max (remaining : ℚ) : (if remaining < 0 then 0 else remaining) = max 0 remaining := by
  split
  · exact (max_eq_left (le_of_lt (by assumption))).symm
  · exact (max_eq_right (not_lt.mp (by assumption))).symm

variable {m : ℚ}

theorem max_sub_eq_zero_iff : max 0 (m-spend) = 0 ↔ m ≤ spend := by rw [max_eq_left_iff,sub_nonpos]

theorem remainingBudget_of_limited (positive : 0 < p.limit) (least : IsLeast (limits (p :: policies)) m) :
    (e.reorder (p :: policies)).remainingBudget = max 0 (m-e.internalCost) := by
  have found := minLimit_isLeast policies positive
  have all : limits (p :: policies) = insert p.limit (limits policies) := by
    ext l
    rw [limits_cons,Set.mem_insert_iff]
    exact or_congr_left ⟨fun both => both.2.symm,fun same => ⟨positive,same.symm⟩⟩
  have same : minLimit p.limit policies = m := by
    rw [← all] at found
    exact found.unique least
  exact (clipped_eq_max _).trans (by rw [same]; rfl)

theorem remainingBudget_of_unlimited (nonpos : p.limit ≤ 0) :
    (e.reorder (p :: policies)).remainingBudget = max 0 (p.limit-e.internalCost) := by
  refine (clipped_eq_max _).trans ?_
  rw [minLimit_of_nonpos nonpos]
  rfl

theorem exists_exceeded_iff (least : IsLeast (limits policies) m) :
    (∃ p ∈ policies, Exceeded spend p) ↔ m ≤ spend := by
  constructor
  · rintro ⟨p,member,exceeded⟩
    obtain ⟨positive,reached⟩ := exceeded_iff.mp exceeded
    exact (least.2 ⟨p,member,positive,rfl⟩).trans reached
  · intro reached
    obtain ⟨p,member,positive,same⟩ := least.1
    exact ⟨p,member,exceeded_iff.mpr ⟨positive,same ▸ reached⟩⟩

theorem exists_least (limited : ∃ p ∈ policies, 0 < p.limit) : ∃ m, IsLeast (limits policies) m := by
  obtain ⟨p,member,positive⟩ := limited
  obtain ⟨found,below⟩ := minLimit_isLeast policies positive
  refine ⟨minLimit p.limit policies,?_,fun l inside => below (.inr inside)⟩
  rcases found with same | found
  · exact ⟨p,member,positive,same.symm⟩
  · exact found

/-! ### The check -/

def Calls (policies : List (BudgetPolicy ℚ)) (spend : ℚ) (action : BudgetAction) : Prop :=
  ∃ p ∈ policies, Exceeded spend p ∧ p.action = action

theorem calls_cons (p : BudgetPolicy ℚ) (policies : List (BudgetPolicy ℚ)) (spend : ℚ) (action : BudgetAction) :
    Calls (p :: policies) spend action ↔ (Exceeded spend p ∧ p.action = action) ∨ Calls policies spend action := by
  simp only [Calls,mem_cons,exists_eq_or_imp]

theorem calls_perm (perm : order.Perm policies) (spend : ℚ) (action : BudgetAction) :
    Calls order spend action ↔ Calls policies spend action := by
  simp only [Calls,perm.mem_iff]

/-- What `Check` is to answer, given the exceeded policies: a block error, or a downgrade, or a warning. -/
structure Answers (policies : List (BudgetPolicy ℚ)) (spend : ℚ)
    (answer : BudgetAction × Option (DollarBudgetExceededError ℚ)) : Prop where
  blocks : answer.2.isSome = true ↔ Calls policies spend .actionBlock
  blocked : answer.2.isSome = true → answer.1 = .actionBlock
  downgrades : answer.2 = none → (answer.1 = .actionDowngrade ↔ Calls policies spend .actionDowngrade)
  warns : answer.2 = none → ¬ Calls policies spend .actionDowngrade → answer.1 = .actionWarn

theorem checkLoop_continue (quiet : ¬ (Exceeded spend p ∧ p.action = .actionBlock))
    (result : BudgetAction) (policies : List (BudgetPolicy ℚ)) (e : BudgetEnforcer ℚ) :
    ∃ e', (checkLoop spend result (p :: policies) e).1 = (checkLoop spend
      (if Exceeded spend p ∧ p.action = .actionDowngrade then .actionDowngrade else result) policies e').1 := by
  rw [checkLoop]
  by_cases unlimited : p.limit ≤ 0
  · rw [if_pos unlimited,if_neg fun both => absurd both.1.1 (not_lt.mpr unlimited)]
    exact ⟨e,rfl⟩
  · rw [if_neg unlimited]
    refine ⟨(e.fireAlerts p spend).1,?_⟩
    by_cases full : spend/p.limit ≥ 1
    · have exceeded : Exceeded spend p := ⟨not_le.mp unlimited,full⟩
      simp only [if_pos full,exceeded,true_and]
      cases action : p.action with
      | actionWarn => simp
      | actionBlock => exact absurd ⟨exceeded,action⟩ quiet
      | actionDowngrade | other text => simp
    · rw [if_neg full,if_neg fun both => full both.1.2]

theorem checkLoop_block (exceeded : Exceeded spend p) (blocks : p.action = .actionBlock)
    (result : BudgetAction) (policies : List (BudgetPolicy ℚ)) (e : BudgetEnforcer ℚ) :
    (checkLoop spend result (p :: policies) e).1 = (.actionBlock,some ⟨p.limit,spend⟩) := by
  rw [checkLoop,if_neg (not_le.mpr exceeded.1)]
  simp only [if_pos exceeded.2,blocks]

theorem checkLoop_answer (spend : ℚ) (policies : List (BudgetPolicy ℚ)) : ∀ (result : BudgetAction)
    (e : BudgetEnforcer ℚ),
    (Calls policies spend .actionBlock →
      ∃ error, (checkLoop spend result policies e).1 = (.actionBlock,some error)) ∧
    (¬ Calls policies spend .actionBlock → Calls policies spend .actionDowngrade →
      (checkLoop spend result policies e).1 = (.actionDowngrade,none)) ∧
    (¬ Calls policies spend .actionBlock → ¬ Calls policies spend .actionDowngrade →
      (checkLoop spend result policies e).1 = (result,none)) := by
  induction policies with
  | nil =>
    have nobody (action : BudgetAction) : ¬ Calls [] spend action := fun ⟨_,member,_⟩ => not_mem_nil member
    exact fun result e => ⟨fun calls => absurd calls (nobody _),fun _ calls => absurd calls (nobody _),fun _ _ => rfl⟩
  | cons p policies ih =>
    intro result e
    simp only [calls_cons,not_or]
    by_cases blocking : Exceeded spend p ∧ p.action = .actionBlock
    · have blocked := checkLoop_block blocking.1 blocking.2 result policies e
      exact ⟨fun _ => ⟨_,blocked⟩,fun calls => absurd blocking calls.1,fun calls => absurd blocking calls.1⟩
    · obtain ⟨e',continued⟩ := checkLoop_continue blocking result policies e
      rw [continued]
      by_cases noted : Exceeded spend p ∧ p.action = .actionDowngrade
      · rw [if_pos noted]
        obtain ⟨block,downgrade,warn⟩ := ih .actionDowngrade e'
        refine ⟨fun calls => block (calls.resolve_left blocking),fun calls _ => ?_,fun _ calls => absurd noted calls.1⟩
        by_cases again : Calls policies spend .actionDowngrade
        · exact downgrade calls.2 again
        · exact warn calls.2 again
      · rw [if_neg noted]
        obtain ⟨block,downgrade,warn⟩ := ih result e'
        exact ⟨fun calls => block (calls.resolve_left blocking),
          fun calls later => downgrade calls.2 (later.resolve_left noted),fun calls later => warn calls.2 later.2⟩

theorem check_answers (e : BudgetEnforcer ℚ) : Answers e.policies e.internalCost e.check.1 := by
  obtain ⟨block,downgrade,warn⟩ := checkLoop_answer e.internalCost e.policies .actionWarn e
  change Answers e.policies e.internalCost (checkLoop e.internalCost .actionWarn e.policies e).1
  by_cases blocking : Calls e.policies e.internalCost .actionBlock
  · obtain ⟨error,answer⟩ := block blocking
    rw [answer]
    exact ⟨by simp [blocking],fun _ => rfl,by simp,by simp⟩
  · by_cases noted : Calls e.policies e.internalCost .actionDowngrade
    · rw [downgrade blocking noted]
      exact ⟨by simp [blocking],by simp,by simp [noted],fun _ calm => absurd noted calm⟩
    · rw [warn blocking noted]
      exact ⟨by simp [blocking],by simp,by simp [noted],fun _ _ => rfl⟩

/-! ### Both together -/

/-- In every order of the policies, what is left of the least limit is shown, nothing being left just when a
    policy is exceeded, and the check answers for the exceeded ones. -/
structure Consistent (e : BudgetEnforcer ℚ) : Prop where
  remaining : ∀ order m, order.Perm e.policies → IsLeast (limits e.policies) m →
    (e.reorder order).remainingBudget = max 0 (m-e.internalCost)
  unordered : ∀ order, order.Perm e.policies → (e.reorder order).remainingBudget = e.remainingBudget
  spent : ∀ order, order.Perm e.policies →
    ((e.reorder order).remainingBudget = 0 ↔ ∃ p ∈ e.policies, Exceeded e.internalCost p)
  answers : ∀ order, order.Perm e.policies → Answers e.policies e.internalCost (e.reorder order).check.1

theorem answers_perm (perm : order.Perm policies) {answer : BudgetAction × Option (DollarBudgetExceededError ℚ)}
    (answers : Answers order spend answer) : Answers policies spend answer := by
  obtain ⟨blocks,blocked,downgrades,warns⟩ := answers
  simp only [calls_perm perm] at blocks downgrades warns
  exact ⟨blocks,blocked,downgrades,warns⟩

theorem remaining_of_order (least : IsLeast (limits e.policies) m)
    (fits : (∀ p ∈ e.policies, 0 < p.limit) ∨ m ≤ e.internalCost) (perm : order.Perm e.policies) :
    (e.reorder order).remainingBudget = max 0 (m-e.internalCost) := by
  rw [← limits_perm perm] at least
  cases order with
  | nil =>
    obtain ⟨p,member,-⟩ := least.1
    exact absurd member not_mem_nil
  | cons p policies =>
    by_cases positive : 0 < p.limit
    · exact remainingBudget_of_limited positive least
    · have spent : m ≤ e.internalCost :=
        fits.resolve_left fun all => positive (all p (perm.mem_iff.mp mem_cons_self))
      obtain ⟨q,-,counts,same⟩ := least.1
      have lower : p.limit ≤ m := (not_lt.mp positive).trans (same ▸ counts.le)
      rw [remainingBudget_of_unlimited (not_lt.mp positive),max_sub_eq_zero_iff.mpr spent,
        max_sub_eq_zero_iff.mpr (lower.trans spent)]

/-- An enforcer with a limit is consistent exactly if all of its policies have one or a limit is reached. -/
theorem consistent_iff (e : BudgetEnforcer ℚ) (limited : ∃ p ∈ e.policies, 0 < p.limit) :
    Consistent e ↔ (∀ p ∈ e.policies, 0 < p.limit) ∨ ∃ p ∈ e.policies, 0 < p.limit ∧ p.limit ≤ e.internalCost := by
  obtain ⟨m,least⟩ := exists_least limited
  have reached : (∃ p ∈ e.policies, 0 < p.limit ∧ p.limit ≤ e.internalCost) ↔ m ≤ e.internalCost := by
    rw [← exists_exceeded_iff least]
    simp only [exceeded_iff]
  rw [reached]
  constructor
  · intro consistent
    by_contra neither
    obtain ⟨unlimited,unspent⟩ := not_or.mp neither
    push Not at unlimited
    obtain ⟨p,member,nonpos⟩ := unlimited
    -- The policy without a limit goes to the front.
    obtain ⟨before,after,split⟩ := append_of_mem member
    have perm : (p :: (before ++ after)).Perm e.policies := split ▸ List.perm_middle.symm
    have shown := consistent.remaining _ m perm least
    rw [remainingBudget_of_unlimited nonpos,max_eq_right (a := 0) (b := m-e.internalCost)
      (sub_nonneg.mpr (not_le.mp unspent).le)] at shown
    obtain ⟨q,-,counts,same⟩ := least.1
    have left : 0 < m-e.internalCost := sub_pos.mpr (not_le.mp unspent)
    have below : p.limit-e.internalCost < m-e.internalCost := sub_lt_sub_right (nonpos.trans_lt (same ▸ counts)) _
    exact absurd shown (max_lt left below).ne
  · intro fits
    refine ⟨fun order n perm other => ?_,fun order perm => ?_,fun order perm => ?_,
      fun order perm => answers_perm perm (check_answers (e.reorder order))⟩
    · rw [other.unique least]
      exact remaining_of_order least fits perm
    · rw [remaining_of_order least fits perm]
      exact (remaining_of_order least fits (List.Perm.refl _)).symm
    · rw [remaining_of_order least fits perm,max_sub_eq_zero_iff,exists_exceeded_iff least]

/-- A policy that only warns and has no limit, beside one of ten dollars. -/
def noted : BudgetPolicy ℚ := ⟨"note",0,0,[],.actionWarn⟩

def daily : BudgetPolicy ℚ := ⟨"daily",10,86400000000000,[],.actionBlock⟩

def weekly : BudgetPolicy ℚ := ⟨"weekly",40,604800000000000,[],.actionDowngrade⟩

def enforcer (policies : List (BudgetPolicy ℚ)) : BudgetEnforcer ℚ :=
  policies.foldl BudgetEnforcer.addPolicy (newBudgetEnforcer false)

theorem consistent_two : (∃ p ∈ (enforcer [weekly,daily]).policies, 0 < p.limit) ∧ Consistent (enforcer [weekly,daily]) := by
  have limited : ∃ p ∈ (enforcer [weekly,daily]).policies, 0 < p.limit :=
    ⟨weekly,mem_cons_self,by decide⟩
  refine ⟨limited,(consistent_iff _ limited).mpr (.inl fun p member => ?_)⟩
  have either : p = weekly ∨ p = daily := by simpa [enforcer,newBudgetEnforcer,BudgetEnforcer.addPolicy] using member
  rcases either with rfl | rfl <;> decide

/-- Nothing is spent; ten dollars are left in one order, and none in the other. -/
theorem unlimited_hides : (enforcer [daily,noted]).remainingBudget = 10 ∧
    (enforcer [noted,daily]).remainingBudget = 0 ∧ ¬ Consistent (enforcer [daily,noted]) := by
  refine ⟨by decide +kernel,by decide +kernel,fun consistent => ?_⟩
  have perm : [noted,daily].Perm (enforcer [daily,noted]).policies := .swap daily noted []
  have same := consistent.unordered [noted,daily] perm
  exact absurd same (by decide +kernel)

end Mcpkit.Budgets
