import Mcpkit.ResponseCap

/-!
Error recovery by retries.
-/
namespace Mcpkit.ErrorRecovery
open ResponseCap List Nat

/-- What is read of Go errors: their texts, the sentinels of `errors.Is`, and `errors.New`. -/
structure Errors (E : Type) where
  text : E → Text
  deadlineExceeded : E → Bool
  canceled : E → Bool
  circuitOpen : E → Bool
  new : Text → E
  toLower : Text → Text
  quote : Text → Text

structure ErrorEscalation (E : Type) where
  toolName : Text
  error : E
  retries : Int
  duration : Int
  deriving DecidableEq

structure ErrorRecoveryConfig (E : Type) where
  maxRetries : Int
  retryDelay : Int
  escalateFunc : Bool
  formatError : Option (E → Text)
  shouldRetry : Option (E → Bool)

/-! ### Texts of errors -/

inductive ErrType where
  | timeout
  | cancelled
  | circuitOpen
  | rateLimited
  | permission
  | notFound
  | network
  | transient

def ErrType.text : ErrType → String
  | .timeout => "TIMEOUT"
  | .cancelled => "CANCELLED"
  | .circuitOpen => "CIRCUIT_OPEN"
  | .rateLimited => "RATE_LIMITED"
  | .permission => "PERMISSION"
  | .notFound => "NOT_FOUND"
  | .network => "NETWORK"
  | .transient => "TRANSIENT"

variable {E B S : Type} (lib : Errors E)

def classifyError (err : E) : ErrType :=
  let contains (part : String) : Bool := utf8 part <:+: lib.toLower (lib.text err)
  if lib.deadlineExceeded err then .timeout
  else if lib.canceled err then .cancelled
  else if lib.circuitOpen err then .circuitOpen
  else if contains "rate limit" || contains "rate_limited" || contains "429" then .rateLimited
  else if contains "permission" || contains "forbidden" || contains "403" then .permission
  else if contains "not found" || contains "404" then .notFound
  else if contains "connection" || contains "network" || contains "dns" then .network
  else if contains "timeout" then .timeout
  else .transient

def recoveryHint : ErrType → String
  | .timeout => "The operation timed out. Retry with a simpler request or increase the timeout."
  | .cancelled => "The request was cancelled. This is usually intentional; no retry needed."
  | .circuitOpen => "The upstream service is temporarily unavailable. Wait before retrying."
  | .rateLimited => "Rate limit hit. Back off and retry after a short delay."
  | .permission => "Access denied. Check credentials or permissions before retrying."
  | .notFound => "The resource was not found. Verify the identifier and try again."
  | .network => "A network error occurred. Check connectivity and retry."
  | .transient => "A transient error occurred. Retry may succeed."

def compactError (err : E) : Text :=
  let errType := classifyError lib err
  utf8 "[" ++ utf8 errType.text ++ utf8 "] " ++ lib.text err ++ utf8 "\nHint: " ++ utf8 (recoveryHint errType)

/-! ### The middleware -/

structure Outcome (E B S : Type) where
  result : Option (CallToolResult B S)
  err : Option E

def isFailure (o : Outcome E B S) : Bool :=
  match o.err with
  | some _ => true
  | none => isResultError o.result

def extractError (o : Outcome E B S) : E :=
  match o.err,o.result with
  | some err,_ => err
  | none,some r =>
    match r.isError,r.content with
    | true,.text text :: _ => lib.new text
    | _,_ => lib.new (utf8 "unknown tool error")
  | none,none => lib.new (utf8 "unknown tool error")

def makeCompactErrorResult (formatFn : E → Text) (toolName : Text) (err : E) : CallToolResult B S :=
  makeErrorResult (utf8 "Tool " ++ lib.quote toolName ++ utf8 " failed: " ++ formatFn err)

/-- The places before an attempt: the check of the loop, the check after the delay, and the call of the handler. -/
inductive Place where
  | check
  | recheck
  | call

def Place.index : Place → Nat
  | .check => 0
  | .recheck => 1
  | .call => 2

def moment (attempt : Nat) (place : Place) : Nat := 3*attempt+place.index

/-- The outcome of each attempt, the first moment at which the context is cancelled, its error then, and how long
    it all takes. -/
structure Env (E B S : Type) where
  outcome : Nat → Outcome E B S
  cancel : Option Nat
  ctxErr : E
  duration : Int

def Env.cancelled (env : Env E B S) (attempt : Nat) (place : Place) : Bool :=
  match env.cancel with
  | none => false
  | some first => first ≤ moment attempt place

/-- How often the handler was called, what was escalated, and what is returned. -/
structure Run (E B S : Type) where
  calls : Nat
  escalations : List (ErrorEscalation E)
  reply : Option (CallToolResult B S)

section
variable (lib : Errors E) (cfg : ErrorRecoveryConfig E) (name : Text) (env : Env E B S)

def ErrorRecoveryConfig.retries : Nat := cfg.maxRetries.toNat

def ErrorRecoveryConfig.format : E → Text := cfg.formatError.getD (compactError lib)

def ErrorRecoveryConfig.retryable (err : E) : Bool :=
  match cfg.shouldRetry with
  | some shouldRetry => shouldRetry err
  | none => true

def escalate (calls : Nat) (lastErr : E) : Run E B S where
  calls := calls
  escalations := if cfg.escalateFunc then [⟨name,lastErr,cfg.retries,env.duration⟩] else []
  reply := some (makeCompactErrorResult lib (cfg.format lib) name lastErr)

variable (attempt : Nat)

def Sees : Prop :=
  env.cancelled attempt .check = true ∨ (cfg.retryDelay > 0 ∧ env.cancelled attempt .recheck = true)

instance (attempt : Nat) : Decidable (Sees cfg env attempt) := inferInstanceAs (Decidable (_ ∨ _))

def retryLoop : Nat → Nat → E → Run E B S
  | 0,attempt,lastErr => escalate lib cfg name env attempt lastErr
  | left+1,attempt,_ =>
    if Sees cfg env attempt then escalate lib cfg name env attempt env.ctxErr
    else
      let o := env.outcome attempt
      if isFailure o then retryLoop left (attempt+1) (extractError lib o) else ⟨attempt+1,[],o.result⟩

def errorRecoveryMiddleware : Run E B S :=
  let o := env.outcome 0
  if isFailure o then
    let toolErr := extractError lib o
    if cfg.retryable toolErr then retryLoop lib cfg name env cfg.retries 1 toolErr
    else ⟨1,[],some (makeCompactErrorResult lib (cfg.format lib) name toolErr)⟩
  else ⟨1,[],o.result⟩

/-! ### The law -/

def Fails : Prop := isFailure (env.outcome attempt) = true

def Retryable : Prop := cfg.retryable (extractError lib (env.outcome attempt)) = true

/-- What is asked of a run: the calls that it makes, the success that it returns, and when it escalates. -/
structure RetryLaw (run : Run E B S) : Prop where
  bounded : (run.calls : Int) ≤ 1+max 0 cfg.maxRetries
  rejected : ∀ k, k+1 < run.calls → Retryable lib cfg env k
  succeeded : ∀ k, k+1 < run.calls → Fails env k
  cancelled : ∀ k, 1 ≤ k → k < run.calls → env.cancelled k .call = false
  returned : ∀ k, k < run.calls → ¬ Fails env k → run.reply = (env.outcome k).result
  escalated : cfg.escalateFunc = true →
    ((∃ e, run.escalations = [e]) ↔ (∀ k, k < run.calls → Fails env k) ∧ Retryable lib cfg env (run.calls-1))
  counted : ∀ e ∈ run.escalations, e.retries = run.calls-1

/-- There are that many retries, the attempts before this one fail, the first on an error worth a retry, and no
    check before it sees a cancellation. -/
structure Reaches (k : Nat) : Prop where
  allowed : k ≤ cfg.retries
  failed : ∀ j < k, Fails env j
  worth : Retryable lib cfg env 0
  seen : ∀ j, 1 ≤ j → j ≤ k → ¬ Sees cfg env j

/-- No retry fails on an error not worth a retry, except a last one with nobody to escalate to; no cancellation
    comes between a check and its retry; and nobody is to hear of retries that a cancellation cut short. -/
structure Orderly : Prop where
  steady : ∀ k, 1 ≤ k → Reaches lib cfg env k → Fails env k → ¬ Retryable lib cfg env k →
    ¬ Reaches lib cfg env (k+1) ∧ cfg.escalateFunc = false
  timely : ∀ k, 1 ≤ k → Reaches lib cfg env k → env.cancelled k .call = false
  complete : cfg.escalateFunc = true → Retryable lib cfg env 0 →
    ∀ k, 1 ≤ k → k ≤ cfg.retries → (∀ j < k, Fails env j) → ¬ Sees cfg env k

/-! ### The loop -/

/-- The loop makes the attempts up to the first success or the first check that sees a cancellation, returns the
    success, and else escalates. -/
structure Loops (left attempt : Nat) (run : Run E B S) : Prop where
  begun : attempt ≤ run.calls
  calls : ∀ k, attempt ≤ k → (k < run.calls ↔ k < attempt+left ∧ (∀ j, attempt ≤ j → j < k → Fails env j) ∧
    ∀ j, attempt ≤ j → j ≤ k → ¬ Sees cfg env j)
  returned : ∀ k, attempt ≤ k → k < run.calls → ¬ Fails env k → run.reply = (env.outcome k).result ∧ run.escalations = []
  escalates : (∀ k, attempt ≤ k → k < run.calls → Fails env k) →
    ∃ err, run.escalations = (escalate lib cfg name env run.calls err).escalations

variable {lib cfg name env} {left attempt : Nat}

theorem loops_escalate (ends : left = 0 ∨ Sees cfg env attempt) (err : E) :
    Loops lib cfg name env left attempt (escalate lib cfg name env attempt err) := by
  refine ⟨le_refl _,fun k onward => ⟨fun early => absurd early (not_lt.mpr onward),fun both => ?_⟩,
    fun k onward early => absurd early (not_lt.mpr onward),fun _ => ⟨err,rfl⟩⟩
  rcases ends with none | sees
  · exact absurd both.1 (by omega)
  · exact absurd sees (both.2.2 attempt (le_refl _) onward)

theorem loops_success (unseen : ¬ Sees cfg env attempt) (success : ¬ Fails env attempt) :
    Loops lib cfg name env (left+1) attempt ⟨attempt+1,[],(env.outcome attempt).result⟩ := by
  refine ⟨Nat.le_succ _,fun k onward => ?_,fun k onward early fine => ?_,fun all => ?_⟩
  · constructor
    · intro early
      have same : k = attempt := Nat.le_antisymm (Nat.lt_succ_iff.mp early) onward
      subst same
      exact ⟨by omega,fun j low high => absurd high (not_lt.mpr low),fun j low high => Nat.le_antisymm high low ▸ unseen⟩
    · rintro ⟨-,failed,-⟩
      by_contra late
      exact success (failed attempt (le_refl _) (Nat.lt_of_succ_le (not_lt.mp late)))
  · have same : k = attempt := Nat.le_antisymm (Nat.lt_succ_iff.mp early) onward
    subst same
    exact ⟨rfl,rfl⟩
  · exact absurd (all attempt (le_refl _) (Nat.lt_succ_self _)) success

theorem loops_failure {run : Run E B S} (unseen : ¬ Sees cfg env attempt)
    (fails : Fails env attempt) (loops : Loops lib cfg name env left (attempt+1) run) :
    Loops lib cfg name env (left+1) attempt run := by
  have begun : attempt < run.calls := loops.begun
  refine ⟨begun.le,fun k onward => ?_,fun k onward early fine => ?_,fun all => ?_⟩
  · rcases eq_or_lt_of_le onward with rfl | later
    · exact ⟨fun _ => ⟨by omega,fun j low high => absurd high (not_lt.mpr low),
        fun j low high => le_antisymm high low ▸ unseen⟩,fun _ => begun⟩
    · rw [loops.calls k later]
      constructor
      · rintro ⟨few,failed,seen⟩
        refine ⟨by omega,fun j low high => ?_,fun j low high => ?_⟩
        · rcases eq_or_lt_of_le low with rfl | low
          · exact fails
          · exact failed j low high
        · rcases eq_or_lt_of_le low with rfl | low
          · exact unseen
          · exact seen j low high
      · rintro ⟨few,failed,seen⟩
        exact ⟨by omega,fun j low high => failed j (by omega) high,fun j low high => seen j (by omega) high⟩
  · rcases eq_or_lt_of_le onward with rfl | later
    · exact absurd fails fine
    · exact loops.returned k later early fine
  · exact loops.escalates fun k later early => all k (by omega) early

theorem retryLoop_loops (left : Nat) : ∀ (attempt : Nat) (lastErr : E),
    Loops lib cfg name env left attempt (retryLoop lib cfg name env left attempt lastErr) := by
  induction left with
  | zero => exact fun attempt lastErr => loops_escalate (.inl rfl) lastErr
  | succ left ih =>
    intro attempt lastErr
    rw [retryLoop]
    split
    · exact loops_escalate (.inr (by assumption)) env.ctxErr
    · rename_i unseen
      simp only
      split
      · exact loops_failure unseen (by assumption) (ih (attempt+1) _)
      · exact loops_success unseen (by assumption)

/-! ### The middleware -/

/-- The attempts that are made, what is returned, and whether something is escalated. -/
structure Behaves (lib : Errors E) (cfg : ErrorRecoveryConfig E) (name : Text) (env : Env E B S) (run : Run E B S) :
    Prop where
  begun : 1 ≤ run.calls
  calls : ∀ k, 1 ≤ k → (k < run.calls ↔ Reaches lib cfg env k)
  returned : ∀ k, k < run.calls → ¬ Fails env k → run.reply = (env.outcome k).result ∧ run.escalations = []
  escalates : (∀ k, k < run.calls → Fails env k) → Retryable lib cfg env 0 →
    ∃ err, run.escalations = (escalate lib cfg name env run.calls err).escalations
  silent : ¬ Retryable lib cfg env 0 → run.escalations = []

theorem middleware_behaves : Behaves lib cfg name env (errorRecoveryMiddleware lib cfg name env) := by
  rw [errorRecoveryMiddleware]
  simp only
  split
  · rename_i fails
    split
    · rename_i worth
      have loops : Loops lib cfg name env cfg.retries 1 (retryLoop lib cfg name env cfg.retries 1 _) :=
        retryLoop_loops cfg.retries 1 (extractError lib (env.outcome 0))
      refine ⟨loops.begun,fun k low => ?_,fun k early fine => ?_,fun all _ => ?_,fun no => absurd worth no⟩
      · rw [loops.calls k low]
        constructor
        · rintro ⟨few,failed,seen⟩
          refine ⟨by omega,fun j high => ?_,worth,seen⟩
          rcases Nat.eq_zero_or_pos j with rfl | low
          · exact fails
          · exact failed j low high
        · rintro ⟨few,failed,-,seen⟩
          exact ⟨by omega,fun j _ high => failed j high,seen⟩
      · rcases Nat.eq_zero_or_pos k with rfl | low
        · exact absurd fails fine
        · exact loops.returned k low early fine
      · exact loops.escalates fun k _ early => all k early
    · rename_i rejected
      refine ⟨le_refl _,
        fun k low => ⟨fun early => absurd early (not_lt.mpr low),fun reaches => absurd reaches.worth rejected⟩,
        fun k early fine => ?_,fun _ worth => absurd worth rejected,fun _ => rfl⟩
      exact absurd fails (Nat.lt_one_iff.mp early ▸ fine)
  · rename_i success
    refine ⟨le_refl _,
      fun k low => ⟨fun early => absurd early (not_lt.mpr low),fun reaches => absurd (reaches.failed 0 low) success⟩,
      fun k early fine => ?_,fun all => absurd (all 0 Nat.zero_lt_one) success,fun _ => rfl⟩
    rw [Nat.lt_one_iff.mp early]
    exact ⟨rfl,rfl⟩

section
variable {run : Run E B S} (behaves : Behaves lib cfg name env run)
include behaves

theorem Behaves.failed {k : Nat} (early : k+1 < run.calls) : Fails env k :=
  ((behaves.calls (k+1) (succ_pos k)).mp early).failed k (lt_succ_self k)

theorem Behaves.calls_le : run.calls ≤ cfg.retries+1 := by
  by_contra more
  have reaches := (behaves.calls (cfg.retries+1) (succ_pos _)).mp (not_le.mp more)
  exact absurd reaches.allowed (by omega)

theorem Behaves.escalations_cases : ((∀ k, k < run.calls → Fails env k) ∧ Retryable lib cfg env 0 ∧
      ∃ err, run.escalations = (escalate lib cfg name env run.calls err).escalations) ∨
    (¬ ((∀ k, k < run.calls → Fails env k) ∧ Retryable lib cfg env 0) ∧ run.escalations = []) := by
  by_cases all : ∀ k, k < run.calls → Fails env k
  · by_cases worth : Retryable lib cfg env 0
    · exact .inl ⟨all,worth,behaves.escalates all worth⟩
    · exact .inr ⟨fun both => worth both.2,behaves.silent worth⟩
  · refine .inr ⟨fun both => all both.1,?_⟩
    push Not at all
    obtain ⟨k,early,fine⟩ := all
    exact (behaves.returned k early fine).2

theorem Behaves.escalated_iff (heard : cfg.escalateFunc = true) :
    (∃ e, run.escalations = [e]) ↔ (∀ k, k < run.calls → Fails env k) ∧ Retryable lib cfg env 0 := by
  rcases behaves.escalations_cases with ⟨all,worth,err,escalations⟩ | ⟨no,escalations⟩
  · rw [escalations,escalate,heard]
    exact ⟨fun _ => ⟨all,worth⟩,fun _ => ⟨_,rfl⟩⟩
  · rw [escalations]
    exact ⟨fun ⟨_,one⟩ => absurd one (by simp),fun both => absurd both no⟩

theorem Behaves.of_mem {e : ErrorEscalation E} (member : e ∈ run.escalations) :
    cfg.escalateFunc = true ∧ e.retries = cfg.retries ∧ (∀ k, k < run.calls → Fails env k) ∧ Retryable lib cfg env 0 := by
  rcases behaves.escalations_cases with ⟨all,worth,err,escalations⟩ | ⟨-,escalations⟩
  · rw [escalations,escalate] at member
    split at member
    · rename_i heard
      exact ⟨heard,by rw [List.mem_singleton.mp member],all,worth⟩
    · exact absurd member not_mem_nil
  · rw [escalations] at member
    exact absurd member not_mem_nil

theorem Behaves.orderly (law : RetryLaw lib cfg env run) : Orderly lib cfg env := by
  refine ⟨fun k low reaches fails worthless => ?_,
    fun k low reaches => law.cancelled k low ((behaves.calls k low).mpr reaches),
    fun heard worth k low few failed sees => ?_⟩
  · have last : ¬ k+1 < run.calls := fun early => worthless (law.rejected k early)
    refine ⟨fun again => last ((behaves.calls (k+1) (Nat.succ_pos k)).mpr again),?_⟩
    by_contra heard
    have made : run.calls = k+1 := Nat.le_antisymm (not_lt.mp last) ((behaves.calls k low).mpr reaches)
    have all : ∀ j, j < run.calls → Fails env j := by
      intro j early
      rcases Nat.lt_succ_iff_lt_or_eq.mp (made ▸ early) with early | rfl
      · exact reaches.failed j early
      · exact fails
    have heard : cfg.escalateFunc = true := by simpa using heard
    have ended := ((law.escalated heard).mp ((behaves.escalated_iff heard).mpr ⟨all,reaches.worth⟩)).2
    rw [made] at ended
    exact worthless ended
  · have short : run.calls ≤ k := by
      by_contra more
      exact ((behaves.calls k low).mp (not_le.mp more)).seen k low (le_refl k) sees
    obtain ⟨e,one⟩ := (behaves.escalated_iff heard).mpr ⟨fun j early => failed j (by omega),worth⟩
    have member : e ∈ run.escalations := one ▸ mem_singleton_self e
    have said := (behaves.of_mem member).2.1
    have made := law.counted e member
    omega

theorem Behaves.retryLaw (orderly : Orderly lib cfg env) : RetryLaw lib cfg env run := by
  refine ⟨?_,fun k early => ?_,fun k early => behaves.failed early,
    fun k low early => orderly.timely k low ((behaves.calls k low).mp early),
    fun k early fine => (behaves.returned k early fine).1,fun heard => ?_,fun e member => ?_⟩
  · have most := behaves.calls_le
    unfold ErrorRecoveryConfig.retries at most
    omega
  · have again := (behaves.calls (k+1) (succ_pos k)).mp early
    rcases Nat.eq_zero_or_pos k with rfl | low
    · exact again.worth
    · by_contra worthless
      have reaches := (behaves.calls k low).mp (lt_of_succ_lt early)
      exact (orderly.steady k low reaches (behaves.failed early) worthless).1 again
  · rw [behaves.escalated_iff heard]
    refine and_congr_right fun all => ?_
    rcases Nat.eq_zero_or_pos (run.calls-1) with first | low
    · rw [first]
    · have reaches := (behaves.calls (run.calls-1) low).mp (by omega)
      refine ⟨fun _ => ?_,fun _ => reaches.worth⟩
      by_contra worthless
      have unheard := (orderly.steady _ low reaches (all _ (by omega)) worthless).2
      rw [heard] at unheard
      cases unheard
  · obtain ⟨heard,said,all,worth⟩ := behaves.of_mem member
    have begun := behaves.begun
    have most := behaves.calls_le
    have full : ¬ run.calls ≤ cfg.retries := by
      intro few
      -- Nothing keeps the loop from one more attempt.
      have reaches : Reaches lib cfg env run.calls := by
        refine ⟨few,all,worth,fun j low high => ?_⟩
        exact orderly.complete heard worth j low (high.trans few) fun i early => all i (by omega)
      exact absurd ((behaves.calls run.calls begun).mpr reaches) (lt_irrefl _)
    omega

end

/-- The law of retries holds for a call exactly if things are orderly. -/
theorem retryLaw_iff (lib : Errors E) (cfg : ErrorRecoveryConfig E) (name : Text) (env : Env E B S) :
    RetryLaw lib cfg env (errorRecoveryMiddleware lib cfg name env) ↔ Orderly lib cfg env :=
  ⟨middleware_behaves.orderly,middleware_behaves.retryLaw⟩

end

def textErrors : Errors Text := ⟨id,fun _ => false,fun _ => false,fun _ => false,id,id,id⟩

def deniedStops : ErrorRecoveryConfig Text := ⟨3,0,true,none,some fun err => err ≠ utf8 "denied"⟩

def failure (text : String) : Outcome Text Unit Unit := ⟨none,some (utf8 text)⟩

/-- The first attempt fails by chance and all later ones on access. -/
def denied : Env Text Unit Unit := ⟨fun k => if k = 0 then failure "reset" else failure "denied",none,utf8 "canceled",0⟩

/-- Every attempt fails by chance, and the context is cancelled during the second one. -/
def ended : Env Text Unit Unit := ⟨fun _ => failure "reset",some (moment 2 .check),utf8 "canceled",0⟩

/-- The handler is called again after an error that rules this out, and the escalation counts
    retries that were not made. -/
theorem retries_go_on : (errorRecoveryMiddleware textErrors deniedStops (utf8 "tool") denied).calls = 4 ∧
    ¬ RetryLaw textErrors deniedStops denied (errorRecoveryMiddleware textErrors deniedStops (utf8 "tool") denied) ∧
    (errorRecoveryMiddleware textErrors deniedStops (utf8 "tool") ended).calls = 2 ∧
    (errorRecoveryMiddleware textErrors deniedStops (utf8 "tool") ended).escalations.map (·.retries) = [3] ∧
    ¬ RetryLaw textErrors deniedStops ended (errorRecoveryMiddleware textErrors deniedStops (utf8 "tool") ended) := by
  refine ⟨by decide,fun law => ?_,by decide,by decide,fun law => ?_⟩
  · have worth := law.rejected 1 (by decide)
    unfold Retryable at worth
    exact absurd worth (by decide)
  · have counts := law.counted ⟨utf8 "tool",utf8 "canceled",3,0⟩ (by decide)
    exact absurd counts (by decide)

end Mcpkit.ErrorRecovery
