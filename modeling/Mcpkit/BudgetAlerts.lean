import Mcpkit.Budgets
import Mcpkit.Transitions

/-!
Threshold alerts. A threshold of a policy fires when the spend is first seen to have reached it,
by `RecordCost` or by `Check`, and is marked as fired before the alert goes out.
-/
namespace Mcpkit.BudgetAlerts
open Transitions GoMaps Budgets List

/-- What rounded arithmetic keeps: adding does not lower a sum, and a greater cost is no lesser part of a limit. -/
class Monotonic (F : Type) [LinearOrder F] [Zero F] [Add F] [Div F] : Prop where
  le_add : ∀ cost amount : F, 0 ≤ amount → cost ≤ cost+amount
  div_le_div : ∀ cost cost' limit : F, 0 < limit → cost ≤ cost' → cost/limit ≤ cost'/limit

instance : Monotonic ℚ where
  le_add := fun _ _ nonneg => le_add_of_nonneg_right nonneg
  div_le_div := fun _ _ _ positive le => div_le_div_of_nonneg_right le positive.le

open BudgetEnforcer

section
variable {F : Type}

def mark (a : BudgetAlert F) : String × F := (a.policyName,a.threshold)

/-! ### What firing does -/

/-- From one enforcer to a later one, some alerts were delivered: each is marked as fired, and none had fired. -/
structure Fires (e e' : BudgetEnforcer F) (alerts : List (BudgetAlert F)) : Prop where
  policies : e'.policies = e.policies
  heard : e'.alerts = e.alerts
  cost : e'.internalCost = e.internalCost
  marked : ∀ name t, t ∈ e'.fired name ↔ t ∈ e.fired name ∨ (name,t) ∈ alerts.map mark
  fresh : ∀ name t, (name,t) ∈ alerts.map mark → t ∉ e.fired name
  once : (alerts.map mark).Nodup

variable (e : BudgetEnforcer F)

theorem Fires.none : Fires e e [] := ⟨rfl,rfl,rfl,by simp,by simp,by simp⟩

variable (p : BudgetPolicy F) {e' : BudgetEnforcer F} {first second : List (BudgetAlert F)}

theorem Fires.trans {e e'' : BudgetEnforcer F} (fires : Fires e e' first)
    (again : Fires e' e'' second) : Fires e e'' (first ++ second) := by
  refine ⟨again.policies.trans fires.policies,again.heard.trans fires.heard,again.cost.trans fires.cost,?_,?_,?_⟩
  · intro name t
    rw [again.marked,fires.marked,map_append,mem_append,or_assoc]
  · intro name t member
    rw [map_append,mem_append] at member
    rcases member with earlier | later
    · exact fires.fresh name t earlier
    · exact fun fired => again.fresh name t later ((fires.marked name t).mpr (.inl fired))
  · rw [map_append]
    refine nodup_append'.mpr ⟨fires.once,again.once,?_⟩
    rintro ⟨name,t⟩ earlier later
    exact again.fresh name t later ((fires.marked name t).mpr (.inr earlier))

theorem fired_insert (name : String) (fired : Finset F) (other : String) :
    BudgetEnforcer.fired { e with firedThresholds := e.firedThresholds.insert name fired } other =
      if other = name then fired else e.fired other := by
  unfold BudgetEnforcer.fired
  split
  · subst other
    simp
  · rename_i different
    simp [Finmap.lookup_insert_of_ne _ different]

variable [LinearOrder F]

theorem addPolicies [Zero F] (policies : List (BudgetPolicy F)) : ∀ e : BudgetEnforcer F,
    (policies.foldl addPolicy e).policies = e.policies ++ policies ∧
    (policies.foldl addPolicy e).alerts = e.alerts ∧
    (policies.foldl addPolicy e).internalCost = e.internalCost ∧
    ((∀ name, e.fired name = ∅) → ∀ name, (policies.foldl addPolicy e).fired name = ∅) := by
  induction policies with
  | nil => exact fun e => ⟨(append_nil _).symm,rfl,rfl,id⟩
  | cons p policies ih =>
    intro e
    obtain ⟨added,heard,cost,silent⟩ := ih (e.addPolicy p)
    rw [foldl_cons]
    refine ⟨by rw [added]; simp [addPolicy],heard,cost,fun quiet => silent fun name => ?_⟩
    exact (fired_insert e p.name ∅ name).trans (by rw [quiet name,ite_self])

variable {alerts : List (BudgetAlert F)}

theorem ascending_of_sublist {p : BudgetPolicy F} {ts : List F} (sorted : ts.Pairwise (· ≤ ·))
    (sub : (alerts.map (·.threshold)).Sublist ts) (own : ∀ a ∈ alerts, a.policyName = p.name)
    (once : (alerts.map mark).Nodup) : (alerts.map (·.threshold)).Pairwise (· < ·) := by
  have le := sorted.sublist sub
  rw [pairwise_map] at le ⊢
  rw [List.Nodup,pairwise_map] at once
  refine (le.and once).imp_of_mem ?_
  intro a b left right both
  refine lt_of_le_of_ne both.1 fun same => both.2 ?_
  rw [mark,mark,own a left,own b right,same]

variable [Div F] (cost : F)

/-- One turn of the loop delivers the alert of a threshold that is reached and has not fired, and no other. -/
theorem fireAlert_cases (s : BudgetEnforcer F × List (BudgetAlert F)) (t : F) :
    (∃ e', fireAlert p cost s t = (e',s.2 ++ [⟨p.name,t,cost,p.limit⟩]) ∧
      Fires s.1 e' [⟨p.name,t,cost,p.limit⟩] ∧ t ≤ cost/p.limit ∧ t ∉ s.1.fired p.name) ∨
    (fireAlert p cost s t = s ∧ (t ≤ cost/p.limit → t ∈ s.1.fired p.name)) := by
  unfold fireAlert
  split
  · split
    · exact .inr ⟨rfl,fun _ => by assumption⟩
    · rename_i reached fresh
      refine .inl ⟨_,rfl,⟨rfl,rfl,rfl,?_,?_,by simp⟩,reached,fresh⟩
      · intro name u
        rw [fired_insert]
        by_cases same : name = p.name
        · subst same
          simp [mark,or_comm]
        · simp [mark,same]
      · intro name u member
        obtain ⟨rfl,rfl⟩ : name = p.name ∧ u = t := by simpa [mark] using member
        exact fresh
  · rename_i short
    exact .inr ⟨rfl,fun reached => absurd reached short⟩

theorem foldl_fireAlert (ts : List F) : ∀ s : BudgetEnforcer F × List (BudgetAlert F),
    ∃ e' alerts, ts.foldl (fireAlert p cost) s = (e',s.2 ++ alerts) ∧ Fires s.1 e' alerts ∧
      (∀ a ∈ alerts, a.policyName = p.name ∧ a.threshold ≤ cost/p.limit) ∧
      (alerts.map (·.threshold)).Sublist ts ∧ ∀ t ∈ ts, t ≤ cost/p.limit → t ∈ e'.fired p.name := by
  induction ts with
  | nil => exact fun s => ⟨s.1,[],by simp,Fires.none s.1,by simp,.slnil,by simp⟩
  | cons t ts ih =>
    intro s
    rw [foldl_cons]
    rcases fireAlert_cases p cost s t with ⟨e',turn,fires,reached,-⟩ | ⟨turn,fired⟩
    · obtain ⟨e'',alerts,rest,later,own,sub,all⟩ := ih (e',s.2 ++ [⟨p.name,t,cost,p.limit⟩])
      refine ⟨e'',⟨p.name,t,cost,p.limit⟩ :: alerts,?_,fires.trans later,?_,sub.cons_cons t,?_⟩
      · rw [turn,rest,append_assoc]
        rfl
      · intro a member
        rcases mem_cons.mp member with rfl | member
        · exact ⟨rfl,reached⟩
        · exact own a member
      · intro u member within
        rcases mem_cons.mp member with rfl | member
        · exact (later.marked _ _).mpr (.inl ((fires.marked _ _).mpr (.inr (by simp [mark]))))
        · exact all u member within
    · obtain ⟨e'',alerts,rest,later,own,sub,all⟩ := ih s
      refine ⟨e'',alerts,by rw [turn,rest],later,own,sub.cons t,?_⟩
      intro u member within
      rcases mem_cons.mp member with rfl | member
      · exact (later.marked _ _).mpr (.inl (fired within))
      · exact all u member within

/-- The alerts are those of thresholds of the policies that the cost has reached. -/
def Due (policies : List (BudgetPolicy F)) (cost : F) (alerts : List (BudgetAlert F)) : Prop :=
  ∀ a ∈ alerts, ∃ p ∈ policies, a.policyName = p.name ∧ a.threshold ∈ p.thresholds ∧ a.threshold ≤ cost/p.limit

variable {policies : List (BudgetPolicy F)}

theorem Due.later {cost : F} (due : Due policies cost alerts) (p : BudgetPolicy F) : Due (p :: policies) cost alerts := by
  intro a member
  obtain ⟨q,inside,reached⟩ := due a member
  exact ⟨q,mem_cons_of_mem p inside,reached⟩

theorem Due.append {cost : F}
    (due : Due policies cost first) (more : Due policies cost second) : Due policies cost (first ++ second) :=
  forall_mem_append.mpr ⟨due,more⟩

/-! ### Books -/

/-- An enforcer, the alerts it has delivered, oldest first, and what the spend has been. -/
structure System (F : Type) where
  enforcer : BudgetEnforcer F
  delivered : List (BudgetAlert F)
  spends : List F

inductive Action (F : Type) where
  | recordCost (amount : F)
  | check

/-- The marks are those of the alerts delivered, which were all due, and spend has grown. -/
structure Books (policies : List (BudgetPolicy F)) (s : System F) : Prop where
  kept : s.enforcer.policies = policies
  heard : s.enforcer.alerts = true
  marked : ∀ name t, t ∈ s.enforcer.fired name ↔ (name,t) ∈ s.delivered.map mark
  once : (s.delivered.map mark).Nodup
  due : Due policies s.enforcer.internalCost s.delivered
  most : ∀ c ∈ s.spends, c ≤ s.enforcer.internalCost
  last : s.enforcer.internalCost ∈ s.spends

theorem Books.fires {s : System F} (books : Books policies s) (fires : Fires s.enforcer e' alerts)
    (due : Due policies s.enforcer.internalCost alerts) : Books policies ⟨e',s.delivered ++ alerts,s.spends⟩ := by
  have cost := fires.cost
  refine ⟨fires.policies.trans books.kept,fires.heard.trans books.heard,?_,?_,?_,?_,?_⟩
  · intro name t
    rw [fires.marked,books.marked,map_append,mem_append]
  · rw [map_append]
    refine nodup_append'.mpr ⟨books.once,fires.once,?_⟩
    rintro ⟨name,t⟩ earlier later
    exact fires.fresh name t later ((books.marked name t).mpr earlier)
  · rw [cost]
    exact books.due.append due
  · rw [cost]
    exact books.most
  · rw [cost]
    exact books.last

/-! ### The loops -/

variable [Zero F]

/-- What `fireAlerts` delivers for a policy: thresholds that are reached, in ascending order; and all of them have
    fired. -/
structure Alerts (p : BudgetPolicy F) (cost : F) (e e' : BudgetEnforcer F) (alerts : List (BudgetAlert F)) : Prop where
  fires : Fires e e' alerts
  own : ∀ a ∈ alerts, a.policyName = p.name ∧ a.threshold ∈ p.thresholds ∧ a.threshold ≤ cost/p.limit
  ascending : (alerts.map (·.threshold)).Pairwise (· < ·)
  all : e.alerts = true → 0 < p.limit → ∀ t ∈ p.thresholds, t ≤ cost/p.limit → t ∈ e'.fired p.name

theorem fireAlerts_alerts : Alerts p cost e (e.fireAlerts p cost).1 (e.fireAlerts p cost).2 := by
  unfold fireAlerts
  split
  · rename_i silent
    refine ⟨Fires.none e,by simp,by simp,fun heard positive t member _ => ?_⟩
    rcases silent with unheard | unlimited | nothing
    · rw [heard] at unheard
      cases unheard
    · exact absurd positive (not_lt.mpr unlimited)
    · rw [length_eq_zero_iff.mp nothing] at member
      exact absurd member not_mem_nil
  · obtain ⟨e',alerts,fold,fires,own,sub,all⟩ := foldl_fireAlert p cost (p.thresholds.insertionSort (· ≤ ·)) (e,[])
    rw [fold,nil_append]
    have sorted : (p.thresholds.insertionSort (· ≤ ·)).Pairwise (· ≤ ·) := pairwise_insertionSort (· ≤ ·) _
    refine ⟨fires,fun a member => ⟨(own a member).1,?_,(own a member).2⟩,
      ascending_of_sublist sorted sub (fun a member => (own a member).1) fires.once,fun _ _ t member => ?_⟩
    · exact (mem_insertionSort (· ≤ ·)).mp (sub.subset (mem_map_of_mem member))
    · exact all t ((mem_insertionSort (· ≤ ·)).mpr member)

theorem Alerts.due {p : BudgetPolicy F} {cost : F} {e : BudgetEnforcer F} (delivered : Alerts p cost e e' alerts)
    (policies : List (BudgetPolicy F)) : Due (p :: policies) cost alerts :=
  fun a member => ⟨p,mem_cons_self,delivered.own a member⟩

theorem checkLoop_fires [One F] (policies : List (BudgetPolicy F)) : ∀ (result : BudgetAction) (e : BudgetEnforcer F),
    Fires e (checkLoop cost result policies e).2.1 (checkLoop cost result policies e).2.2 ∧
      Due policies cost (checkLoop cost result policies e).2.2 := by
  induction policies with
  | nil => exact fun result e => ⟨Fires.none e,fun a member => absurd member not_mem_nil⟩
  | cons p policies ih =>
    intro result e
    have alerts := fireAlerts_alerts e p cost
    have continued (result : BudgetAction) :
        Fires e (checkLoop cost result policies (e.fireAlerts p cost).1).2.1
          ((e.fireAlerts p cost).2 ++ (checkLoop cost result policies (e.fireAlerts p cost).1).2.2) ∧
        Due (p :: policies) cost
          ((e.fireAlerts p cost).2 ++ (checkLoop cost result policies (e.fireAlerts p cost).1).2.2) := by
      obtain ⟨later,due⟩ := ih result (e.fireAlerts p cost).1
      exact ⟨alerts.fires.trans later,(alerts.due policies).append (due.later p)⟩
    rw [checkLoop]
    split
    · obtain ⟨later,due⟩ := ih result e
      exact ⟨later,due.later p⟩
    · split
      · split
        · exact ⟨alerts.fires,alerts.due policies⟩
        · exact continued .actionDowngrade
        · exact continued result
      · exact continued result

theorem fireAll_fires (policies : List (BudgetPolicy F)) : ∀ e : BudgetEnforcer F,
    Fires e (fireAll cost policies e).1 (fireAll cost policies e).2 ∧ Due policies cost (fireAll cost policies e).2 ∧
      (e.alerts = true → ∀ p ∈ policies, 0 < p.limit → ∀ t ∈ p.thresholds, t ≤ cost/p.limit →
        t ∈ (fireAll cost policies e).1.fired p.name) := by
  induction policies with
  | nil =>
    exact fun e => ⟨Fires.none e,fun a member => absurd member not_mem_nil,
      fun _ p member => absurd member not_mem_nil⟩
  | cons p policies ih =>
    intro e
    have alerts := fireAlerts_alerts e p cost
    obtain ⟨later,due,all⟩ := ih (e.fireAlerts p cost).1
    refine ⟨alerts.fires.trans later,(alerts.due policies).append (due.later p),
      fun heard q member positive t inside reached => ?_⟩
    rcases mem_cons.mp member with rfl | member
    · exact (later.marked _ _).mpr (.inl (alerts.all heard positive t inside reached))
    · exact all (alerts.fires.heard.trans heard) q member positive t inside reached

theorem fireAll_ascending (policies : List (BudgetPolicy F)) : ∀ e : BudgetEnforcer F,
    (policies.map (·.name)).Nodup → ∀ name,
      (((fireAll cost policies e).2.filter fun a => a.policyName = name).map (·.threshold)).Pairwise (· < ·) := by
  induction policies with
  | nil => exact fun e _ name => .nil
  | cons p policies ih =>
    intro e distinct name
    rw [map_cons,nodup_cons] at distinct
    have alerts := fireAlerts_alerts e p cost
    rw [fireAll,filter_append]
    by_cases same : p.name = name
    · subst same
      -- The later policies have other names.
      have others : (fireAll cost policies (e.fireAlerts p cost).1).2.filter (fun a => a.policyName = p.name) = [] := by
        rw [filter_eq_nil_iff]
        intro a member
        obtain ⟨q,inside,named,-⟩ := (fireAll_fires cost policies (e.fireAlerts p cost).1).2.1 a member
        have different : q.name ≠ p.name := fun eq => distinct.1 (eq ▸ mem_map_of_mem inside)
        simp [named,different]
      rw [others,append_nil,filter_eq_self.mpr fun a member => by simp [(alerts.own a member).1]]
      exact alerts.ascending
    · have none : (e.fireAlerts p cost).2.filter (fun a => a.policyName = name) = [] := by
        rw [filter_eq_nil_iff]
        intro a member
        simp [(alerts.own a member).1,same]
      rw [none,nil_append]
      exact ih _ distinct.2 name

/-! ### Whole runs -/

def new (policies : List (BudgetPolicy F)) : System F where
  enforcer := policies.foldl BudgetEnforcer.addPolicy (newBudgetEnforcer true)
  delivered := []
  spends := [0]

theorem books_new (policies : List (BudgetPolicy F)) : Books policies (new policies) := by
  obtain ⟨added,heard,cost,silent⟩ := addPolicies policies (newBudgetEnforcer true)
  have quiet := silent fun name => by simp [fired,newBudgetEnforcer]
  refine ⟨added,heard,fun name t => ?_,by simp [new],fun a member => absurd member not_mem_nil,?_,?_⟩
  · change t ∈ (policies.foldl addPolicy (newBudgetEnforcer true)).fired name ↔ _
    rw [quiet name]
    simp [new]
  · intro c member
    exact ((mem_singleton.mp member).trans cost.symm).le
  · exact mem_singleton.mpr cost

variable [Add F]

def spent (e : BudgetEnforcer F) (amount : F) : BudgetEnforcer F := { e with internalCost := e.internalCost+amount }

section
variable [One F]

def step (s : System F) : Action F → Option (System F)
  | .recordCost amount =>
    if 0 ≤ amount then
      let after := s.enforcer.recordCost amount
      some ⟨after.1,s.delivered ++ after.2,s.spends ++ [after.1.internalCost]⟩
    else none
  | .check =>
    let after := s.enforcer.check.2
    some ⟨after.1,s.delivered ++ after.2,s.spends⟩

theorem step_recordCost {s s' : System F} {amount : F} (moved : step s (.recordCost amount) = some s') :
    0 ≤ amount ∧ s' = ⟨(s.enforcer.recordCost amount).1,s.delivered ++ (s.enforcer.recordCost amount).2,
      s.spends ++ [(spent s.enforcer amount).internalCost]⟩ := by
  simp only [step,guarded] at moved
  obtain ⟨nonneg,rfl⟩ := moved
  refine ⟨nonneg,?_⟩
  have cost : (s.enforcer.recordCost amount).1.internalCost = (spent s.enforcer amount).internalCost :=
    (fireAll_fires _ s.enforcer.policies (spent s.enforcer amount)).1.cost
  rw [cost]

end

variable [Monotonic F]

theorem Due.grows {cost cost' : F} (due : Due policies cost alerts) (limited : ∀ p ∈ policies, 0 < p.limit)
    (le : cost ≤ cost') : Due policies cost' alerts := by
  intro a member
  obtain ⟨p,inside,named,own,reached⟩ := due a member
  exact ⟨p,inside,named,own,reached.trans (Monotonic.div_le_div cost cost' p.limit (limited p inside) le)⟩

theorem Books.spend {s : System F} (books : Books policies s)
    (limited : ∀ p ∈ policies, 0 < p.limit) {amount : F} (nonneg : 0 ≤ amount) :
    Books policies ⟨spent s.enforcer amount,s.delivered,s.spends ++ [(spent s.enforcer amount).internalCost]⟩ := by
  have more := Monotonic.le_add s.enforcer.internalCost amount nonneg
  refine ⟨books.kept,books.heard,books.marked,books.once,books.due.grows limited more,?_,by simp⟩
  exact forall_mem_snoc (fun c earlier => (books.most c earlier).trans more) le_rfl

variable [One F]

theorem books_step (limited : ∀ p ∈ policies, 0 < p.limit) {s s' : System F}
    {a : Action F} (books : Books policies s) (moved : step s a = some s') : Books policies s' := by
  cases a with
  | recordCost amount =>
    obtain ⟨nonneg,rfl⟩ := step_recordCost moved
    obtain ⟨fires,due,-⟩ := fireAll_fires (spent s.enforcer amount).internalCost s.enforcer.policies
      (spent s.enforcer amount)
    exact (books.spend limited nonneg).fires fires (books.kept ▸ due)
  | check =>
    simp only [step,Option.some.injEq] at moved
    subst moved
    obtain ⟨fires,due⟩ := checkLoop_fires s.enforcer.internalCost s.enforcer.policies .actionWarn s.enforcer
    exact books.fires fires (books.kept ▸ due)

/-- For policies with limits and names of their own, each threshold is alerted at most once, as soon as the spend
    has reached it, and those of one policy in ascending order. -/
theorem alerts_fire_once (policies : List (BudgetPolicy F)) (named : (policies.map (·.name)).Nodup)
    (limited : ∀ p ∈ policies, 0 < p.limit) {s : System F} (reached : Reachable step free (new policies) s) :
    (s.delivered.map mark).Nodup ∧
    ∀ amount s', step s (.recordCost amount) = some s' →
      (∀ name t, (∃ a ∈ s'.delivered, a.policyName = name ∧ a.threshold = t) ↔
        ∃ p ∈ policies, p.name = name ∧ t ∈ p.thresholds ∧ ∃ spend ∈ s'.spends, t ≤ spend/p.limit) ∧
      ∃ alerts, s'.delivered = s.delivered ++ alerts ∧
        ∀ p ∈ policies, ((alerts.filter fun a => a.policyName = p.name).map (·.threshold)).Pairwise (· < ·) := by
  have books : Books policies s :=
    Reachable.invariant (books_new policies) (fun s a s' books _ moved => books_step limited books moved) reached
  refine ⟨books.once,fun amount s' moved => ⟨fun name t => ⟨?_,?_⟩,?_⟩⟩
  · rintro ⟨a,member,rfl,rfl⟩
    have after := books_step limited books moved
    obtain ⟨p,inside,same,own,within⟩ := after.due a member
    exact ⟨p,inside,same.symm,own,s'.enforcer.internalCost,after.last,within⟩
  · rintro ⟨p,inside,rfl,own,spend,was,within⟩
    have after := books_step limited books moved
    have now : t ≤ s'.enforcer.internalCost/p.limit :=
      within.trans (Monotonic.div_le_div _ _ p.limit (limited p inside) (after.most spend was))
    have fired : t ∈ s'.enforcer.fired p.name := by
      obtain ⟨-,rfl⟩ := step_recordCost moved
      obtain ⟨fires,-,all⟩ := fireAll_fires (spent s.enforcer amount).internalCost s.enforcer.policies
        (spent s.enforcer amount)
      exact all books.heard p (books.kept.symm ▸ inside) (limited p inside) t own (fires.cost ▸ now)
    obtain ⟨a,member,same⟩ := mem_map.mp ((after.marked p.name t).mp fired)
    exact ⟨a,member,congrArg Prod.fst same,congrArg Prod.snd same⟩
  · obtain ⟨-,rfl⟩ := step_recordCost moved
    refine ⟨_,rfl,fun p _ => ?_⟩
    exact fireAll_ascending _ s.enforcer.policies (spent s.enforcer amount) (books.kept.symm ▸ named) p.name

end

def samplePolicies : List (BudgetPolicy ℚ) :=
  [⟨"day",10,0,[9/10,1/2,1/2],.actionBlock⟩,⟨"week",40,0,[1/4],.actionWarn⟩]

def sampleRun : System ℚ :=
  (exec step free (new samplePolicies) [.recordCost 4,.check]).getD (new samplePolicies)

/-- Six more dollars reach both thresholds of the day and that of the week. -/
theorem alerts_fire_once_sample :
    (step sampleRun (.recordCost 6)).map (fun s => s.delivered.map mark) = some [("day",1/2),("day",9/10),("week",1/4)] ∧
    (sampleRun.delivered.map mark).Nodup := by
  have reached : Reachable step free (new samplePolicies) sampleRun := exec_getD_reachable _ (by decide)
  exact ⟨by decide +kernel,(alerts_fire_once samplePolicies (by decide +kernel) (by decide +kernel) reached).1⟩

end Mcpkit.BudgetAlerts
