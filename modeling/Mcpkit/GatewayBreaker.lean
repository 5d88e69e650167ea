import Mathlib.Data.Fintype.EquivFin
import Mcpkit.CacheModel
import Mcpkit.CircuitModel
import Mcpkit.Noninterference
import Mcpkit.ToolResults

/-!
The handler that the gateway registers for a tool of an upstream: the proxy that forwards the
call, inside the layers of the upstream's policy.
-/
namespace Mcpkit.GatewayBreaker
open CacheModel CircuitModel Noninterference ToolResults

/-! ### The layers -/

structure ResponseCacheConfig where
  ttl : Int
  maxEntries : Int

/-- Of a rate limit only its presence is kept: what the limiter answers comes with each call. -/
structure UpstreamPolicy where
  circuitBreaker : Option CircuitBreakerConfig
  rateLimit : Bool
  callTimeout : Int
  responseCache : Option ResponseCacheConfig

structure UpstreamResilience where
  cb : Option (CircuitBreakerConfig × CircuitBreaker)
  limiter : Bool
  timeout : Int
  cache : Option (KeyedCache CallToolResult)

def newUpstreamResilience (policy : UpstreamPolicy) : Option UpstreamResilience :=
  if policy.circuitBreaker.isNone ∧ policy.rateLimit = false ∧ policy.callTimeout = 0 ∧ policy.responseCache.isNone then
    none
  else
    some {
      cb := policy.circuitBreaker.map fun cfg => (cfg,newCircuitBreaker)
      limiter := policy.rateLimit
      timeout := policy.callTimeout
      cache := policy.responseCache.map (fun cfg => newKeyedCache cfg.ttl cfg.maxEntries) }

/-- What `callTool` of the client is asked for: a tool, and the deadline of the context, if it has one. -/
structure Forward where
  tool : String
  deadline : Option Int
  deriving DecidableEq

/-- A call and what it meets: the clock before and after its work, its cache key and deadline, the answer of the
    rate limiter, and what the upstream does if it is reached. -/
structure Call where
  now : Int
  later : Int
  key : String
  deadline : Option Int
  allowed : Bool
  target : Option Bool
  outcome : Except String (Option CallToolResult)

inductive HandlerError where
  | circuitOpen (name : String)
  | failed (text : String)
  deriving DecidableEq

/-- The result and the Go error of a handler, and the calls that it forwarded. -/
structure Response where
  result : Option CallToolResult
  err : Option HandlerError
  forwards : List Forward

abbrev Handler := Call → Response

def makeProxyHandler (quote : Quote) (upstreamName originalToolName : String) : Handler := fun call =>
  match call.target with
  | none => ⟨some (makeErrorResult ("upstream " ++ quote upstreamName ++ " not found")),none,[]⟩
  | some false => ⟨some (makeErrorResult ("upstream " ++ quote upstreamName ++ " is unhealthy")),none,[]⟩
  | some true =>
    let forwards := [⟨originalToolName,call.deadline⟩]
    match call.outcome with
    | .error err =>
      ⟨some (makeErrorResult ("upstream " ++ quote upstreamName ++ " call failed: " ++ err)),none,forwards⟩
    | .ok result => ⟨result,none,forwards⟩

def executeWithResult (name : String) (cfg : CircuitBreakerConfig) (cb : CircuitBreaker) (now later : Int)
    (fn : Response) : Response × CircuitBreaker :=
  match cb.canExecute cfg now with
  | (false,cb) => (⟨none,some (.circuitOpen name),[]⟩,{ cb with notices := cb.notices ++ [.rejection] })
  | (true,cb) => (fn,cb.recordResult cfg later fn.err.isSome)

variable (ur : UpstreamResilience) (call : Call)

def UpstreamResilience.cached : Option CallToolResult × UpstreamResilience :=
  match ur.cache with
  | none => (none,ur)
  | some cache => ((cache.get call.now call.key).1.map (·.value),{ ur with cache := some (cache.get call.now call.key).2 })

def UpstreamResilience.store (response : Response) : UpstreamResilience :=
  match ur.cache,response.err,response.result with
  | some cache,none,some result =>
    if isResultError (some result) then ur else { ur with cache := some (cache.set call.later call.key result none) }
  | _,_,_ => ur

def UpstreamResilience.withTimeout : Call :=
  if ur.timeout > 0 then
    { call with deadline := some (match call.deadline with
        | none => call.now+ur.timeout
        | some deadline => min deadline (call.now+ur.timeout)) }
  else call

/-- The layers from the outermost on: cache, rate limit, timeout, circuit breaker. -/
def UpstreamResilience.wrapHandler (quote : Quote) (upstreamName : String) (next : Handler)
    (call : Call) : Response × UpstreamResilience :=
  match ur.cached call with
  | (some cached,ur) => (⟨some cached,none,[]⟩,ur)
  | (none,ur) =>
    if ur.limiter = true ∧ call.allowed = false then
      (⟨some (makeErrorResult ("upstream " ++ quote upstreamName ++ " rate limit exceeded")),none,[]⟩,ur)
    else
      let call := ur.withTimeout call
      match ur.cb with
      | none => (next call,ur.store call (next call))
      | some (cfg,cb) =>
        let (response,cb) := executeWithResult upstreamName cfg cb call.now call.later (next call)
        let ur := { ur with cb := some (cfg,cb) }
        match response.err with
        | some (.circuitOpen _) =>
          (⟨some (makeErrorResult ("upstream " ++ quote upstreamName ++ " circuit breaker is open")),none,
            response.forwards⟩,ur)
        | _ => (response,ur.store call response)

structure Invocation where
  tool : String
  call : Call

/-- The handler that `AddUpstream` registers, for an upstream with a policy. -/
def handle (quote : Quote) (upstreamName : String) (ur : UpstreamResilience) (invocation : Invocation) :
    Response × UpstreamResilience :=
  ur.wrapHandler quote upstreamName (makeProxyHandler quote upstreamName invocation.tool) invocation.call

/-! ### What the layers do to the breaker -/

def Passes : Prop :=
  (ur.cached call).1 = none ∧ ¬ (ur.limiter = true ∧ call.allowed = false)

variable (ur : UpstreamResilience) (call : Call)

open UpstreamResilience

@[simp] theorem cached_cb : (ur.cached call).2.cb = ur.cb := by
  unfold cached
  split <;> rfl

@[simp] theorem cached_limiter : (ur.cached call).2.limiter = ur.limiter := by
  unfold cached
  split <;> rfl

@[simp] theorem cached_timeout : (ur.cached call).2.timeout = ur.timeout := by
  unfold cached
  split <;> rfl

@[simp] theorem store_cb (response : Response) : (ur.store call response).cb = ur.cb := by
  unfold store
  split
  · split <;> rfl
  · rfl

theorem withTimeout_cached : (ur.cached call).2.withTimeout call = ur.withTimeout call := by
  unfold withTimeout
  rw [cached_timeout]

@[simp] theorem withTimeout_now : (ur.withTimeout call).now = call.now := by
  unfold withTimeout
  split <;> rfl

@[simp] theorem withTimeout_later : (ur.withTimeout call).later = call.later := by
  unfold withTimeout
  split <;> rfl

variable {ur} (quote : Quote) (upstreamName : String) (cfg : CircuitBreakerConfig)

theorem wrapHandler_stopped (next : Handler)
    {call : Call} (stopped : ¬ Passes ur call) : (ur.wrapHandler quote upstreamName next call).2.cb = ur.cb := by
  have cb := cached_cb ur call
  have limiter := cached_limiter ur call
  unfold Passes at stopped
  unfold wrapHandler
  rcases looked : ur.cached call with ⟨hit,after⟩
  rw [looked] at cb limiter stopped
  cases hit with
  | some cached => exact cb
  | none =>
    have refused : after.limiter = true ∧ call.allowed = false := by
      rw [limiter]
      exact not_not.mp fun free => stopped ⟨rfl,free⟩
    dsimp only
    rw [if_pos refused]
    exact cb

theorem wrapHandler_passed (next : Handler) {call : Call}
    {cfg : CircuitBreakerConfig} {cb : CircuitBreaker} (present : ur.cb = some (cfg,cb)) (passes : Passes ur call) :
    let executed := executeWithResult upstreamName cfg cb call.now call.later (next (ur.withTimeout call))
    (ur.wrapHandler quote upstreamName next call).1.forwards = executed.1.forwards ∧
    (ur.wrapHandler quote upstreamName next call).2.cb = some (cfg,executed.2) := by
  have same := cached_cb ur call
  have limiter := cached_limiter ur call
  have timeout := withTimeout_cached ur call
  obtain ⟨miss,free⟩ := passes
  unfold wrapHandler
  rcases looked : ur.cached call with ⟨hit,after⟩
  rw [looked] at same limiter timeout miss
  subst miss
  rw [← limiter] at free
  dsimp only
  rw [if_neg free,same,present,timeout]
  dsimp only
  rw [withTimeout_now,withTimeout_later]
  split
  · exact ⟨rfl,rfl⟩
  · exact ⟨rfl,store_cb _ _ _⟩

/-! ### The proxy hides failures -/

@[simp] theorem makeProxyHandler_err (upstreamName tool : String) (call : Call) :
    (makeProxyHandler quote upstreamName tool call).err = none := by
  unfold makeProxyHandler
  split
  · rfl
  · rfl
  · dsimp only; split <;> rfl

theorem makeProxyHandler_forwards (upstreamName tool : String) {call : Call} (healthy : call.target = some true) :
    (makeProxyHandler quote upstreamName tool call).forwards = [⟨tool,call.deadline⟩] := by
  unfold makeProxyHandler
  rw [healthy]
  dsimp only
  split <;> rfl

@[simp] theorem withTimeout_target (ur : UpstreamResilience) (call : Call) :
    (ur.withTimeout call).target = call.target := by
  unfold withTimeout
  split <;> rfl

def Closed (cfg : CircuitBreakerConfig) (ur : UpstreamResilience) : Prop :=
  ∃ cb, ur.cb = some (cfg,cb) ∧ cb.state = .circuitClosed

open CircuitBreaker

theorem executeWithResult_closed (name : String) (cfg : CircuitBreakerConfig) {cb : CircuitBreaker} (now later : Int)
    (fn : Response) (closed : cb.state = .circuitClosed) :
    executeWithResult name cfg cb now later fn = (fn,cb.recordResult cfg later fn.err.isSome) := by
  unfold executeWithResult canExecute
  rw [closed]

theorem handle_closed
    (invocation : Invocation) (closed : Closed cfg ur) : Closed cfg (handle quote upstreamName ur invocation).2 := by
  obtain ⟨cb,present,state⟩ := closed
  by_cases passes : Passes ur invocation.call
  · obtain ⟨-,after⟩ := wrapHandler_passed quote upstreamName
      (makeProxyHandler quote upstreamName invocation.tool) present passes
    rw [executeWithResult_closed _ _ _ _ _ state] at after
    refine ⟨_,after,?_⟩
    simp [recordResult,recordSuccess,state]
  · exact ⟨cb,(wrapHandler_stopped _ _ _ passes).trans present,state⟩

theorem run_closed (invocations : List Invocation) :
    ∀ {ur : UpstreamResilience}, Closed cfg ur → Closed cfg (run (handle quote upstreamName) ur invocations).2 := by
  induction invocations with
  | nil => intro ur closed; exact closed
  | cons invocation rest ih => intro ur closed; exact ih (handle_closed quote upstreamName cfg invocation closed)

theorem newUpstreamResilience_closed {policy : UpstreamPolicy} {cfg : CircuitBreakerConfig}
    (configured : policy.circuitBreaker = some cfg) (made : newUpstreamResilience policy = some ur) : Closed cfg ur := by
  unfold newUpstreamResilience at made
  rw [configured] at made
  simp only [Option.isNone_some,Bool.false_eq_true,false_and,↓reduceIte,Option.map_some,Option.some.injEq] at made
  subst made
  exact ⟨newCircuitBreaker,rfl,rfl⟩

theorem handle_reaches {cfg : CircuitBreakerConfig}
    {invocation : Invocation} (closed : Closed cfg ur) (passes : Passes ur invocation.call)
    (healthy : invocation.call.target = some true) : (handle quote upstreamName ur invocation).1.forwards =
      [⟨invocation.tool,(ur.withTimeout invocation.call).deadline⟩] := by
  obtain ⟨cb,present,state⟩ := closed
  obtain ⟨forwards,-⟩ := wrapHandler_passed quote upstreamName
    (makeProxyHandler quote upstreamName invocation.tool) present passes
  rw [executeWithResult_closed _ _ _ _ _ state,
    makeProxyHandler_forwards _ _ _ ((withTimeout_target _ _).trans healthy)] at forwards
  exact forwards

theorem exists_passes (ur : UpstreamResilience) (now : Int) :
    ∃ call : Call, call.now = now ∧ call.target = some true ∧ Passes ur call := by
  cases stored : ur.cache with
  | none =>
    refine ⟨⟨now,now,"",none,true,some true,.ok none⟩,rfl,rfl,?_,by simp⟩
    simp [cached,stored]
  | some cache =>
    obtain ⟨key,fresh⟩ := Infinite.exists_notMem_finset cache.entries.keys
    have absent : cache.entries.lookup key = none :=
      Finmap.lookup_eq_none.mpr fun member => fresh (Finmap.mem_keys.mpr member)
    refine ⟨⟨now,now,key,none,true,some true,.ok none⟩,rfl,rfl,?_,by simp⟩
    simp [cached,stored,KeyedCache.get,absent]

def Failed (entry : Invocation × Response) : Prop :=
  entry.2.forwards ≠ [] ∧ ∃ text, entry.1.call.outcome = .error text

/-- After as many consecutive failures as the threshold asks for, the breaker is not open, and calls reach the
    upstream but for those that the cache or the rate limiter stops. -/
theorem breaker_never_trips (quote : Quote) (upstreamName : String) {policy : UpstreamPolicy}
    {cfg : CircuitBreakerConfig} {ur : UpstreamResilience} (configured : policy.circuitBreaker = some cfg)
    (made : newUpstreamResilience policy = some ur) (invocations : List Invocation) :
    let final := (run (handle quote upstreamName) ur invocations).2
    (∀ (earlier failures : List (Invocation × Response)) (since : Int), 1 ≤ cfg.failureThreshold → 0 < cfg.timeout →
      (run (handle quote upstreamName) ur invocations).1 = earlier ++ failures →
      (failures.length : Int) = cfg.failureThreshold → (∀ entry ∈ failures, Failed entry) →
      (∀ cb, final.cb = some (cfg,cb) → cb.state ≠ .circuitOpen) ∧
      ∃ next, since ≤ next.call.now ∧ next.call.now < since+cfg.timeout ∧
        (handle quote upstreamName final next).1.forwards ≠ []) ∧
    ∀ next, Passes final next.call → next.call.target = some true →
      (handle quote upstreamName final next).1.forwards ≠ [] := by
  intro final
  have closed : Closed cfg final :=
    run_closed quote upstreamName cfg invocations (newUpstreamResilience_closed configured made)
  have reaches : ∀ next, Passes final next.call → next.call.target = some true →
      (handle quote upstreamName final next).1.forwards ≠ [] := by
    intro next passes healthy
    rw [handle_reaches quote upstreamName closed passes healthy]
    simp
  refine ⟨fun earlier failures since _ positive _ _ _ => ⟨fun cb present opened => ?_,?_⟩,reaches⟩
  · obtain ⟨other,present',state⟩ := closed
    rw [present] at present'
    cases present'
    rw [state] at opened
    cases opened
  · obtain ⟨call,when,healthy,passes⟩ := exists_passes final since
    refine ⟨⟨"",call⟩,?_,?_,reaches ⟨"",call⟩ passes healthy⟩
    · exact le_of_eq when.symm
    · change call.now < _
      omega

/-! ### A breaker that opens after one failure -/

def strict : UpstreamPolicy := ⟨some ⟨1,1,100,1⟩,false,0,none⟩

def strictLayers : UpstreamResilience := ⟨some (⟨1,1,100,1⟩,newCircuitBreaker),false,0,none⟩

def refusedAt (t : Int) : Invocation := ⟨"search",⟨t,t+1,"k",none,true,some true,.error "boom"⟩⟩

/-- One failure, and the next call a moment later is forwarded all the same. -/
theorem failure_goes_unnoticed : newUpstreamResilience strict = some strictLayers ∧
    (∀ entry ∈ (run (handle id "up") strictLayers [refusedAt 0]).1,Failed entry) ∧
    ((run (handle id "up") strictLayers [refusedAt 0]).2.cb.map (·.2.state)) = some .circuitClosed ∧
    (handle id "up" (run (handle id "up") strictLayers [refusedAt 0]).2 (refusedAt 2)).1.forwards =
      [⟨"search",none⟩] := by
  refine ⟨rfl,?_,rfl,rfl⟩
  intro entry member
  cases List.mem_singleton.mp member
  exact ⟨by decide,"boom",rfl⟩

theorem breaker_never_trips_sample :
    (∀ cb, (run (handle id "up") strictLayers [refusedAt 0]).2.cb = some (⟨1,1,100,1⟩,cb) → cb.state ≠ .circuitOpen) ∧
    ∃ next, (1 : Int) ≤ next.call.now ∧ next.call.now < 1+100 ∧
      (handle id "up" (run (handle id "up") strictLayers [refusedAt 0]).2 next).1.forwards ≠ [] := by
  refine (breaker_never_trips id "up" (rfl : strict.circuitBreaker = some ⟨1,1,100,1⟩) rfl [refusedAt 0]).1 []
    (run (handle id "up") strictLayers [refusedAt 0]).1 1 (by decide) (by decide) rfl rfl ?_
  intro entry member
  cases List.mem_singleton.mp member
  exact ⟨by decide,"boom",rfl⟩

end Mcpkit.GatewayBreaker
