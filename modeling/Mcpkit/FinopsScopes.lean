import Mcpkit.FinopsTracker
import Mcpkit.Noninterference
import Mcpkit.ToolResults

/-!
Budgets per tenant, user and session.
-/
namespace Mcpkit.FinopsScopes
open FinopsTracker Noninterference ToolResults Finmap Finset

structure BudgetScope where
  tenantID : String
  userID : String
  sessionID : String
  deriving DecidableEq

structure ScopedBudget where
  maxTokens : Int64
  deriving DecidableEq

structure ScopedTracker where
  global : Tracker
  «scoped» : Finmap fun _ : BudgetScope => Tracker
  budgets : Finmap fun _ : BudgetScope => ScopedBudget

def newScopedTracker (global : Tracker) : ScopedTracker := ⟨global,∅,∅⟩

variable (st : ScopedTracker) (scope : BudgetScope)

def ScopedTracker.setBudget (budget : ScopedBudget) : ScopedTracker :=
  { st with budgets := st.budgets.insert scope budget }

def ScopedTracker.getTracker : Tracker × ScopedTracker :=
  match st.«scoped».lookup scope with
  | some t => (t,st)
  | none => (newTracker none,{ st with «scoped» := st.«scoped».insert scope (newTracker none) })

def ScopedTracker.usage : UsageSummary × ScopedTracker :=
  ((st.getTracker scope).1.summary,(st.getTracker scope).2)

structure ScopedBudgetExceededError where
  scope : BudgetScope
  limit : Int64
  used : Int64

variable (quote : Quote)

def ScopedBudgetExceededError.error (e : ScopedBudgetExceededError) : String :=
  "finops: scoped token budget exceeded for tenant=" ++ quote e.scope.tenantID ++ " user=" ++ quote e.scope.userID ++
    " session=" ++ quote e.scope.sessionID ++ " (limit=" ++ toString e.limit ++ ", used=" ++ toString e.used ++ ")"

def defaultEstimate (text : String) : Int64 :=
  if text.utf8ByteSize = 0 then 0 else Int64.ofNat ((text.utf8ByteSize+3)/4)

/-- The arguments come as their JSON text, `none` when there are none or they have no JSON form. -/
def estimateFromRequest (args : Option String) (estimate : String → Int64) : Int64 :=
  match args with
  | none => 0
  | some data => estimate data

def estimateFromResult (result : CallToolResult) (estimate : String → Int64) : Int64 :=
  ((result.content.filterMap extractTextContent).map estimate).sum

/-- A call: the tool, what the resolver made of its context, the arguments, and how
    the handler ends when it is reached (`none` for a panic). -/
structure Call where
  name : String
  category : String
  scope : Option BudgetScope
  args : Option String
  handler : Option (Option CallToolResult × Option String)
  deriving DecidableEq

/-- Whether the handler was reached, and what the caller gets (`none` for a panic). -/
structure Reply where
  admitted : Bool
  outcome : Option (Option CallToolResult × Option String)

def exceeded (scope : BudgetScope) (budget : ScopedBudget) (t : Tracker) : CallToolResult :=
  makeErrorResult (ScopedBudgetExceededError.error quote
    ⟨scope,budget.maxTokens,t.summary.totalInputTokens+t.summary.totalOutputTokens⟩)

variable (st : ScopedTracker)

/-- The check before the execution: the result of a rejection, if it is one. -/
def admission : Option BudgetScope → Option CallToolResult × ScopedTracker
  | none => (none,st)
  | some scope =>
    match st.budgets.lookup scope with
    | none => (none,st)
    | some budget =>
      if budget.maxTokens > 0 then
        let (t,st) := st.getTracker scope
        if t.total ≥ budget.maxTokens then (some (exceeded quote scope budget t),st) else (none,st)
      else (none,st)

def ScopedTracker.estimate : String → Int64 := st.global.estimateFunc.getD defaultEstimate

def entryOf (estimate : String → Int64) (call : Call) (result : Option CallToolResult) : UsageEntry where
  toolName := call.name
  category := if call.category = "" then "unknown" else call.category
  inputTokens := estimateFromRequest call.args estimate
  outputTokens := match result with
    | none => 0
    | some r => estimateFromResult r estimate

variable (scope : BudgetScope)

/-- Records an entry on the tracker of a scope, and gives that tracker back. -/
def ScopedTracker.recordScoped (entry : UsageEntry) : Tracker × ScopedTracker :=
  let (t,st) := st.getTracker scope
  (t.record entry,{ st with «scoped» := st.«scoped».insert scope (t.record entry) })

def settlement (t : Tracker) : Option CallToolResult :=
  match st.budgets.lookup scope with
  | none => none
  | some budget =>
    if budget.maxTokens > 0 ∧ t.total > budget.maxTokens then some (exceeded quote scope budget t) else none

def scopedMiddleware (call : Call) : Reply × ScopedTracker :=
  match admission quote st call.scope with
  | (some rejection,st) => (⟨false,some (some rejection,none)⟩,st)
  | (none,st) =>
    match call.handler with
    | none => (⟨true,none⟩,st)
    | some (result,err) =>
      let entry := entryOf st.estimate call result
      let st := { st with global := st.global.record entry }
      match call.scope with
      | none => (⟨true,some (result,err)⟩,st)
      | some scope =>
        let (t,st) := st.recordScoped scope entry
        match settlement quote st scope t with
        | some failure => (⟨true,some (some failure,none)⟩,st)
        | none => (⟨true,some (result,err)⟩,st)

inductive Event where
  | call (call : Call)
  | setBudget (scope : BudgetScope) (budget : ScopedBudget)
  | usage (scope : BudgetScope)
  deriving DecidableEq

inductive Answer where
  | reply (reply : Reply)
  | done
  | usage (summary : UsageSummary)

def step : Event → Answer × ScopedTracker
  | .call call => (.reply (scopedMiddleware quote st call).1,(scopedMiddleware quote st call).2)
  | .setBudget scope budget => (.done,st.setBudget scope budget)
  | .usage scope => (.usage (st.usage scope).1,(st.usage scope).2)

def Event.concerns : Event → Bool
  | .call c => c.scope = some scope
  | .setBudget other _ => other = scope
  | .usage other => other = scope

/-! ### The account of a scope -/

/-- All that a scope can depend on; how tokens are estimated is fixed. -/
structure Account where
  tracker : Tracker
  budget : Option ScopedBudget
  estimate : String → Int64

def ScopedTracker.account : Account where
  tracker := (st.«scoped».lookup scope).getD (newTracker none)
  budget := st.budgets.lookup scope
  estimate := st.estimate

variable (a : Account)

def Account.refused : Option CallToolResult :=
  match a.budget with
  | none => none
  | some budget =>
    if budget.maxTokens > 0 ∧ a.tracker.total ≥ budget.maxTokens then some (exceeded quote scope budget a.tracker)
    else none

def Account.overdrawn : Option CallToolResult :=
  match a.budget with
  | none => none
  | some budget =>
    if budget.maxTokens > 0 ∧ a.tracker.total > budget.maxTokens then some (exceeded quote scope budget a.tracker)
    else none

def Account.record (a : Account) (entry : UsageEntry) : Account := { a with tracker := a.tracker.record entry }

/-- A call of the scope, as if there were no other scope and no global tracker. -/
def Account.serve (call : Call) : Reply × Account :=
  match a.refused quote scope with
  | some rejection => (⟨false,some (some rejection,none)⟩,a)
  | none =>
    match call.handler with
    | none => (⟨true,none⟩,a)
    | some (result,err) =>
      let a := a.record (entryOf a.estimate call result)
      match a.overdrawn quote scope with
      | some failure => (⟨true,some (some failure,none)⟩,a)
      | none => (⟨true,some (result,err)⟩,a)

def Account.step : Event → Answer × Account
  | .call call => (.reply (a.serve quote scope call).1,(a.serve quote scope call).2)
  | .setBudget _ budget => (.done,{ a with budget := some budget })
  | .usage _ => (.usage a.tracker.summary,a)

/-- The trackers are as before, but for ones that were made without usage. -/
structure Quiet (st st' : ScopedTracker) : Prop where
  global : st'.global = st.global
  keys : st.«scoped».keys ⊆ st'.«scoped».keys
  account : ∀ scope, st'.account scope = st.account scope

variable (quote : Quote) (st : ScopedTracker) (scope : BudgetScope) (entry : UsageEntry)

theorem Quiet.refl : Quiet st st := ⟨rfl,subset_rfl,fun _ => rfl⟩

open ScopedTracker

@[simp] theorem getTracker_fst : (st.getTracker scope).1 = (st.account scope).tracker := by
  unfold getTracker account
  cases st.«scoped».lookup scope <;> rfl

theorem getTracker_quiet : Quiet st (st.getTracker scope).2 := by
  unfold getTracker
  cases found : st.«scoped».lookup scope with
  | some t => exact Quiet.refl st
  | none =>
    refine ⟨rfl,fun other member => ?_,fun other => ?_⟩
    · exact mem_keys.mpr (mem_insert.mpr (.inr (mem_keys.mp member)))
    · unfold account estimate
      by_cases same : other = scope
      · subst same; simp [found]
      · simp [lookup_insert_of_ne _ same]

theorem admission_quiet (scope : Option BudgetScope) : Quiet st (admission quote st scope).2 := by
  unfold admission
  split
  · exact Quiet.refl st
  · split
    · exact Quiet.refl st
    · split
      · dsimp only
        split <;> exact getTracker_quiet st _
      · exact Quiet.refl st

theorem admission_fst : (admission quote st (some scope)).1 = (st.account scope).refused quote scope := by
  have budget : (st.account scope).budget = st.budgets.lookup scope := rfl
  unfold admission Account.refused
  dsimp only
  rw [budget,getTracker_fst]
  cases st.budgets.lookup scope with
  | none => rfl
  | some budget =>
    by_cases limited : budget.maxTokens > 0
    · by_cases reached : (st.account scope).tracker.total ≥ budget.maxTokens <;> simp [limited,reached]
    · simp [limited]

@[simp] theorem recordScoped_fst : (st.recordScoped scope entry).1 = (st.account scope).tracker.record entry := by
  rw [← getTracker_fst]
  rfl

@[simp] theorem recordScoped_global : (st.recordScoped scope entry).2.global = st.global :=
  (getTracker_quiet st scope).global

@[simp] theorem recordScoped_account_self :
    (st.recordScoped scope entry).2.account scope = (st.account scope).record entry := by
  have quiet := (getTracker_quiet st scope).account scope
  unfold recordScoped
  dsimp only
  rw [getTracker_fst,← quiet]
  unfold Account.record account estimate
  simp

variable {scope} {other : BudgetScope}

theorem recordScoped_account_other
    (different : other ≠ scope) : (st.recordScoped scope entry).2.account other = st.account other := by
  have quiet := (getTracker_quiet st scope).account other
  unfold recordScoped
  rw [← quiet]
  unfold account estimate
  simp [lookup_insert_of_ne _ different]

theorem settlement_recorded (scope : BudgetScope) (entry : UsageEntry) :
    settlement quote (st.recordScoped scope entry).2 scope (st.recordScoped scope entry).1 =
      ((st.account scope).record entry).overdrawn quote scope := by
  have tracker : (st.recordScoped scope entry).1 = ((st.recordScoped scope entry).2.account scope).tracker := by
    rw [recordScoped_fst,recordScoped_account_self]
    rfl
  rw [tracker,← recordScoped_account_self]
  rfl

/-! ### A call in the accounts -/

/-- The entry of an executed call on the global tracker and on that of its scope. -/
def ScopedTracker.charge (st : ScopedTracker) (scope : Option BudgetScope) (entry : UsageEntry) : ScopedTracker :=
  let st := { st with global := st.global.record entry }
  match scope with
  | none => st
  | some scope => (st.recordScoped scope entry).2

@[simp] theorem charge_global (scope : Option BudgetScope) (entry : UsageEntry) :
    (st.charge scope entry).global = st.global.record entry := by
  cases scope with
  | none => rfl
  | some scope => exact recordScoped_global _ scope entry

theorem record_global_account (scope : BudgetScope) :
    ({ st with global := st.global.record entry } : ScopedTracker).account scope = st.account scope := rfl

theorem charge_account_self (scope : BudgetScope) (entry : UsageEntry) :
    (st.charge (some scope) entry).account scope = (st.account scope).record entry :=
  recordScoped_account_self _ scope entry

theorem charge_account_other {scope : Option BudgetScope}
    (different : scope ≠ some other) : (st.charge scope entry).account other = st.account other := by
  cases scope with
  | none => rfl
  | some scope => exact recordScoped_account_other _ entry fun same => different (congrArg some same.symm)

theorem scopedMiddleware_snd (call : Call) : (scopedMiddleware quote st call).2 =
      match (admission quote st call.scope).1,call.handler with
      | none,some (result,_) =>
        (admission quote st call.scope).2.charge call.scope
          (entryOf (admission quote st call.scope).2.estimate call result)
      | _,_ => (admission quote st call.scope).2 := by
  unfold scopedMiddleware
  obtain ⟨verdict,admitted⟩ := admission quote st call.scope
  cases verdict with
  | some rejection => rfl
  | none =>
    cases call.handler with
    | none => rfl
    | some outcome =>
      cases call.scope with
      | none => rfl
      | some scope =>
        dsimp only
        split <;> rfl

theorem admission_estimate (scope : Option BudgetScope) : (admission quote st scope).2.estimate = st.estimate := by
  unfold estimate
  rw [(admission_quiet quote st scope).global]

variable {call : Call}

theorem scopedMiddleware_serve (resolved : call.scope = some scope) :
    (scopedMiddleware quote st call).1 = ((st.account scope).serve quote scope call).1 ∧
    (scopedMiddleware quote st call).2.account scope = ((st.account scope).serve quote scope call).2 := by
  have verdict := admission_fst quote st scope
  have quiet := (admission_quiet quote st (some scope)).account scope
  have estimate := admission_estimate quote st (some scope)
  unfold scopedMiddleware Account.serve
  rw [resolved]
  rcases checked : admission quote st (some scope) with ⟨decision,admitted⟩
  rw [checked] at verdict quiet estimate
  have entries : admitted.estimate = (st.account scope).estimate := estimate
  dsimp only at verdict quiet ⊢
  rw [verdict]
  cases (st.account scope).refused quote scope with
  | some rejection => exact ⟨rfl,quiet⟩
  | none =>
    cases call.handler with
    | none => exact ⟨rfl,quiet⟩
    | some outcome =>
      obtain ⟨result,err⟩ := outcome
      dsimp only
      rw [entries]
      rw [settlement_recorded,record_global_account,quiet]
      have charged := charge_account_self admitted scope (entryOf (st.account scope).estimate call result)
      rw [quiet] at charged
      cases ((st.account scope).record (entryOf (st.account scope).estimate call result)).overdrawn quote scope with
      | some failure | none => exact ⟨rfl,charged⟩

theorem scopedMiddleware_frame
    (other : call.scope ≠ some scope) : (scopedMiddleware quote st call).2.account scope = st.account scope := by
  have quiet := (admission_quiet quote st call.scope).account scope
  rw [scopedMiddleware_snd]
  split
  · rw [charge_account_other _ _ other,quiet]
  · exact quiet

theorem setBudget_account_self (scope : BudgetScope) (budget : ScopedBudget) :
    (st.setBudget scope budget).account scope = { st.account scope with budget := some budget } := by
  simp [setBudget,account,estimate]

theorem setBudget_account_other (budget : ScopedBudget)
    (different : scope ≠ other) : (st.setBudget other budget).account scope = st.account scope := by
  simp [setBudget,account,estimate,
    lookup_insert_of_ne _ different]

/-- On its own events the scoped tracker does for a scope what the account alone would do. -/
theorem step_account {event : Event} (own : event.concerns scope = true) :
    (step quote st event).1 = ((st.account scope).step quote scope event).1 ∧
    (step quote st event).2.account scope = ((st.account scope).step quote scope event).2 := by
  cases event with
  | call c =>
    obtain ⟨reply,account⟩ := scopedMiddleware_serve quote st (of_decide_eq_true own)
    exact ⟨congrArg Answer.reply reply,account⟩
  | setBudget other budget =>
    cases of_decide_eq_true own
    exact ⟨rfl,setBudget_account_self st scope budget⟩
  | usage other =>
    cases of_decide_eq_true own
    refine ⟨?_,(getTracker_quiet st scope).account scope⟩
    simp only [step,usage,getTracker_fst,Account.step]

theorem step_frame {event : Event}
    (other : event.concerns scope = false) : (step quote st event).2.account scope = st.account scope := by
  cases event with
  | call c => exact scopedMiddleware_frame quote st (of_decide_eq_false other)
  | setBudget owner budget => exact setBudget_account_other st budget fun same => of_decide_eq_false other same.symm
  | usage owner => exact (getTracker_quiet st owner).account scope

theorem unwinding (scope : BudgetScope) :
    Unwinding (step quote) (fun st => st.account scope) (Event.concerns scope) where
  frame st event other := step_frame quote st other
  answered st st' event own alike := by
    rw [(step_account quote st own).1,(step_account quote st' own).1,alike]
  moved st st' event own alike := by
    rw [(step_account quote st own).2,(step_account quote st' own).2,alike]

/-! ### The global tracker -/

def tokens (entry : UsageEntry) : Int64 := entry.inputTokens+entry.outputTokens

def scopedTotal (st : ScopedTracker) : Int64 := ∑ scope ∈ st.«scoped».keys,(st.account scope).tracker.total

def unscopedTokens (estimate : String → Int64) : Event → Int64
  | .call c =>
    match c.scope,c.handler with
    | none,some (result,_) => tokens (entryOf estimate c result)
    | _,_ => 0
  | .setBudget _ _ => 0
  | .usage _ => 0

variable {st}

theorem account_total_absent (absent : scope ∉ st.«scoped».keys) : (st.account scope).tracker.total = 0 := by
  have missing : st.«scoped».lookup scope = none :=
    lookup_eq_none.mpr fun member => absent (mem_keys.mpr member)
  simp [account,missing]

theorem scopedTotal_eq_sum {scopes : Finset BudgetScope} (all : st.«scoped».keys ⊆ scopes) :
    scopedTotal st = ∑ scope ∈ scopes,(st.account scope).tracker.total :=
  sum_subset all fun _ _ absent => account_total_absent absent

theorem Quiet.scopedTotal {st' : ScopedTracker} (quiet : Quiet st st') : scopedTotal st' = scopedTotal st := by
  rw [scopedTotal_eq_sum quiet.keys]
  exact sum_congr rfl fun scope _ => by rw [quiet.account]

theorem getTracker_keys (st : ScopedTracker) (scope : BudgetScope) :
    (st.getTracker scope).2.«scoped».keys ⊆ insert scope st.«scoped».keys := by
  unfold getTracker
  cases st.«scoped».lookup scope with
  | some t => exact subset_insert _ _
  | none =>
    intro other member
    simpa [mem_keys] using member

theorem recordScoped_keys (st : ScopedTracker) (scope : BudgetScope) (entry : UsageEntry) :
    (st.recordScoped scope entry).2.«scoped».keys ⊆ insert scope st.«scoped».keys := by
  intro other member
  rcases mem_insert.mp (mem_keys.mp member) with same | earlier
  · exact mem_insert.mpr (.inl same)
  · exact getTracker_keys st scope (mem_keys.mpr earlier)

theorem scopedTotal_charge (st : ScopedTracker) (scope : BudgetScope) (entry : UsageEntry) :
    scopedTotal (st.charge (some scope) entry) = scopedTotal st+tokens entry := by
  have others : ∀ other ∈ st.«scoped».keys.erase scope,
      ((st.charge (some scope) entry).account other).tracker.total = (st.account other).tracker.total := by
    intro other member
    have different : some scope ≠ some other := fun same => ne_of_mem_erase member (Option.some.inj same).symm
    rw [charge_account_other st entry different]
  have own : ((st.charge (some scope) entry).account scope).tracker.total =
      (st.account scope).tracker.total+tokens entry := by
    rw [charge_account_self]
    rfl
  have split : insert scope st.«scoped».keys = insert scope (st.«scoped».keys.erase scope) := by
    ext other
    simp [or_and_left,em]
  have keys : (st.charge (some scope) entry).«scoped».keys ⊆ insert scope st.«scoped».keys :=
    recordScoped_keys { st with global := st.global.record entry } scope entry
  rw [scopedTotal_eq_sum keys,scopedTotal_eq_sum (subset_insert scope st.«scoped».keys),split,
    sum_insert (notMem_erase _ _),sum_insert (notMem_erase _ _),own,
    sum_congr rfl others]
  exact add_right_comm _ _ _

/-- The global tracker is at `base`, plus the scoped trackers, plus `unscoped`. -/
def Balanced (base unscoped : Int64) (st : ScopedTracker) : Prop :=
  st.global.total = base+scopedTotal st+unscoped

variable {base unscoped : Int64}

theorem Quiet.balanced {st' : ScopedTracker} (quiet : Quiet st st')
    (balanced : Balanced base unscoped st) : Balanced base unscoped st' := by
  unfold Balanced
  rw [quiet.global,quiet.scopedTotal]
  exact balanced

theorem charge_balanced (scope : Option BudgetScope) (entry : UsageEntry) (balanced : Balanced base unscoped st) :
    Balanced base (unscoped+if scope = none then tokens entry else 0) (st.charge scope entry) := by
  unfold Balanced at balanced ⊢
  have recorded : (st.global.record entry).total = st.global.total+tokens entry := rfl
  rw [charge_global,recorded,balanced]
  cases scope with
  | none =>
    have same : scopedTotal (st.charge none entry) = scopedTotal st := rfl
    exact add_assoc _ _ _
  | some scope =>
    rw [scopedTotal_charge,if_neg (by simp),add_zero,← add_assoc]
    exact add_right_comm _ _ _

theorem step_balanced (event : Event) (balanced : Balanced base unscoped st) :
    Balanced base (unscoped+unscopedTokens st.estimate event) (step quote st event).2 := by
  cases event with
  | call c =>
    change Balanced _ _ (scopedMiddleware quote st c).2
    rw [scopedMiddleware_snd]
    cases resolved : c.scope with
    | none =>
      cases handled : c.handler with
      | none => simpa [unscopedTokens,resolved,handled,admission] using balanced
      | some outcome =>
        simpa [unscopedTokens,resolved,handled,admission] using
          charge_balanced none (entryOf st.estimate c outcome.1) balanced
    | some scope =>
      have nothing : unscopedTokens st.estimate (.call c) = 0 := by simp [unscopedTokens,resolved]
      have quiet := (admission_quiet quote st (some scope)).balanced balanced
      rw [nothing,add_zero]
      split
      · simpa using charge_balanced (some scope) _ quiet
      · exact quiet
  | setBudget scope budget => rw [unscopedTokens,add_zero]; exact balanced
  | usage scope => rw [unscopedTokens,add_zero]; exact (getTracker_quiet st scope).balanced balanced

theorem step_estimate (st : ScopedTracker) (event : Event) : (step quote st event).2.estimate = st.estimate := by
  cases event with
  | call c =>
    have before := admission_estimate quote st c.scope
    change (scopedMiddleware quote st c).2.estimate = _
    rw [scopedMiddleware_snd]
    split
    · rw [← before,estimate,charge_global]
      rfl
    · exact before
  | setBudget scope budget => rfl
  | usage scope => exact congrArg (fun g => g.estimateFunc.getD defaultEstimate) (getTracker_quiet st scope).global

theorem run_balanced (events : List Event) : ∀ {st : ScopedTracker} {base unscoped : Int64},
    Balanced base unscoped st →
    Balanced base (unscoped+(events.map (unscopedTokens st.estimate)).sum) (run (step quote) st events).2 := by
  induction events with
  | nil => intro st base unscoped balanced; simpa [run] using balanced
  | cons event rest ih =>
    intro st base unscoped balanced
    have later := ih (step_balanced quote event balanced)
    rw [step_estimate,add_assoc] at later
    exact later

theorem rejected_quiet
    (rejected : (scopedMiddleware quote st call).1.admitted = false) : Quiet st (scopedMiddleware quote st call).2 := by
  have quiet := admission_quiet quote st call.scope
  unfold scopedMiddleware at rejected ⊢
  rcases checked : admission quote st call.scope with ⟨decision,admitted⟩
  rw [checked] at rejected quiet
  cases decision with
  | some rejection => exact quiet
  | none =>
    revert rejected
    dsimp only
    split
    · simp
    · split
      · simp
      · split <;> simp

/-- The calls of a scope are admitted and end alike in runs with the same events of the scope. The global tracker
    counts the executed calls, inside the scopes and outside. -/
theorem scopes_do_not_interfere (quote : Quote) (scope : BudgetScope) (global : Tracker) {st st' : ScopedTracker}
    {events events' : List Event} (alike : st.account scope = st'.account scope)
    (same : events.filter (Event.concerns scope) = events'.filter (Event.concerns scope)) :
    answers (Event.concerns scope) (run (step quote) st events).1 =
      answers (Event.concerns scope) (run (step quote) st' events').1 ∧
    ((run (step quote) st events).2.usage scope).1 = ((run (step quote) st' events').2.usage scope).1 ∧
    (run (step quote) (newScopedTracker global) events).2.global.total =
      global.total+scopedTotal (run (step quote) (newScopedTracker global) events).2+
        (events.map (unscopedTokens (newScopedTracker global).estimate)).sum ∧
    ∀ call, (scopedMiddleware quote st call).1.admitted = false →
      (scopedMiddleware quote st call).2.global = st.global ∧
      ∀ other, (scopedMiddleware quote st call).2.account other = st.account other := by
  obtain ⟨replies,accounts⟩ := (unwinding quote scope).two_runs alike same
  refine ⟨replies,?_,?_,fun call rejected => ?_⟩
  · unfold usage
    rw [getTracker_fst,getTracker_fst,accounts]
  · have start : Balanced global.total 0 (newScopedTracker global) := by
      simp [Balanced,newScopedTracker,scopedTotal]
    have balanced := run_balanced quote events start
    rw [zero_add] at balanced
    exact balanced
  · have quiet := rejected_quiet quote rejected
    exact ⟨quiet.global,quiet.account⟩

/-! ### Two tenants -/

def alice : BudgetScope := ⟨"a","u","s"⟩

def bob : BudgetScope := ⟨"b","u","s"⟩

/-- A call of three tokens, one for the arguments and two for the text. -/
def echo (scope : Option BudgetScope) : Event :=
  .call ⟨"echo","",scope,some "\x7b\x7d",some (some ⟨[.text "hello"],false⟩,none)⟩

def calm : List Event := [.setBudget alice ⟨4⟩,echo (some alice),echo (some alice),echo (some alice)]

def busy : List Event :=
  [echo (some bob),.setBudget alice ⟨4⟩,echo (some alice),echo none,echo (some alice),echo (some bob),
    echo (some alice)]

def Answer.admitted : Answer → Option Bool
  | .reply r => some r.admitted
  | .done => none
  | .usage _ => none

def start : ScopedTracker := newScopedTracker (newTracker none)

/-- The third call of the scope is rejected, with or without the others, and the
    global tracker counts five executed calls. -/
theorem scopes_do_not_interfere_sample : (answers (Event.concerns alice) (run (step id) start busy).1 =
      answers (Event.concerns alice) (run (step id) start calm).1 ∧
    (answers (Event.concerns alice) (run (step id) start calm).1).map Answer.admitted =
      [none,some true,some true,some false]) ∧
    (run (step id) start busy).2.global.total = 15 := by
  have alone := scopes_do_not_interfere id alice (newTracker none) (rfl : start.account alice = start.account alice)
    (show busy.filter (Event.concerns alice) = calm.filter (Event.concerns alice) by decide)
  exact ⟨⟨alone.1,by decide⟩,by decide⟩

end Mcpkit.FinopsScopes
