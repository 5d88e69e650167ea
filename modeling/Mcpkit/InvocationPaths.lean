import Mcpkit.Invocation

/-!
What the ways to a tool have in common with the wrapped handler.
-/
namespace Mcpkit.InvocationPaths
open GoMaps Invocation ResponseCap List Finmap Option
variable {M V A W B S : Type}

/-! ### The wrapped handler -/

def withMiddleware (config : Config M V A W B S) (middleware : List (Middleware M V A W B S)) : Config M V A W B S :=
  { config with middleware := middleware }

def withHandler (td : ToolDefinition M V A W B S) (handler : Option (ToolHandlerFunc V A W B S)) :
    ToolDefinition M V A W B S := { td with handler := handler }

variable (rt : Runtime W S) (config : Config M V A W B S)

def timed (td : ToolDefinition M V A W B S) (ctx : Context V) (w : W) :
    Context V :=
  if ctx.deadline.isSome then ctx
  else ctx.withTimeout (rt.now w) (if td.timeout = 0 then config.defaultTimeout else td.timeout)

def Unchanged (toolName : String) (td : ToolDefinition M V A W B S)
    (result : Option (CallToolResult B S)) : Prop :=
  let cap := truncateResponse rt.library (truncationPolicyFor toolName td)
    (effectiveMaxResponseSize td config.maxResponseSize)
  cap (cap result) = result

def Plain (toolName : String) (td : ToolDefinition M V A W B S)
    (did : Outcome B S × W) : Prop :=
  ∃ result err w, did = (.returned result err,w) ∧ Unchanged rt config toolName td result

def rejects (message : Text) : Middleware M V A W B S := fun _ _ _ _ _ w => (.returned none (some message),w)

section
variable (rt : Runtime W S) (config : Config M V A W B S) (toolName : String) (td : ToolDefinition M V A W B S)
  (ctx : Context V) (request : CallToolRequest A) (w : W)

theorem truncateResponse_none (lib : Library S) (policy : TruncationPolicy) (maxSize : Int) :
    truncateResponse lib policy maxSize (none : Option (CallToolResult B S)) = none := by
  simp [truncateResponse]

theorem wrapHandler_rejects (message : Text) (rest : List (Middleware M V A W B S)) :
    wrapHandler rt (withMiddleware config (rejects message :: rest)) toolName td ctx request w =
      (.returned none (some message),w) := by
  simp [wrapHandler,withMiddleware,chain,rejects,truncateResponse_none]

theorem wrapHandler_returned {result : Option (CallToolResult B S)} {err : Option Text} {w' : W}
    (did : invoke td.handler (timed rt config td ctx w) request w = (.returned result err,w')) :
    wrapHandler rt (withMiddleware config []) toolName td ctx request w =
      (.returned (truncateResponse rt.library (truncationPolicyFor toolName td)
        (effectiveMaxResponseSize td config.maxResponseSize) (truncateResponse rt.library (truncationPolicyFor toolName td)
          (effectiveMaxResponseSize td config.maxResponseSize) result)) err,w') := by
  unfold timed at did
  simp only [wrapHandler,withMiddleware,chain,foldr_nil,truncationHandler,did]

theorem wrapHandler_panicked {value : Text} {w' : W}
    (did : invoke td.handler (timed rt config td ctx w) request w = (.panicked value,w')) :
    wrapHandler rt (withMiddleware config []) toolName td ctx request w = (recovered rt toolName value,w') := by
  unfold timed at did
  simp only [wrapHandler,withMiddleware,chain,foldr_nil,truncationHandler,did]

omit rt toolName td ctx request w in
theorem nil_of_length {config : Config M V A W B S} (none : config.middleware = [])
    {middleware : List (Middleware M V A W B S)} (length : middleware.length = config.middleware.length) : middleware = [] :=
  length_eq_zero_iff.mp (by rw [length,none,length_nil])

theorem timed_deadline : (timed rt config td ctx w).deadline.isSome := by
  unfold timed
  split
  · assumption
  · rfl

theorem wrapHandler_plain (plain : Plain rt config toolName td (invoke td.handler (timed rt config td ctx w) request w)) :
    wrapHandler rt (withMiddleware config []) toolName td ctx request w =
      invoke td.handler (timed rt config td ctx w) request w := by
  obtain ⟨result,err,w',did,unchanged⟩ := plain
  rw [wrapHandler_returned rt config toolName td ctx request w did,did]
  rw [show truncateResponse _ _ _ (truncateResponse _ _ _ result) = result from unchanged]

theorem same_iff_plain (deadline : ctx.deadline.isSome) :
    invoke td.handler ctx request w = wrapHandler rt (withMiddleware config []) toolName td ctx request w ↔
    Plain rt config toolName td (invoke td.handler ctx request w) := by
  have timeless : timed rt config td ctx w = ctx := if_pos deadline
  constructor
  · intro same
    rcases did : invoke td.handler ctx request w with ⟨⟨result,err⟩ | value,w'⟩
    · rw [did,wrapHandler_returned rt config toolName td ctx request w (by rw [timeless,did])] at same
      simp only [Prod.mk.injEq,Outcome.returned.injEq,and_true] at same
      exact ⟨result,err,w',rfl,same.symm⟩
    -- a panic is recovered from
    · rw [did,wrapHandler_panicked rt config toolName td ctx request w (by rw [timeless,did])] at same
      simp [recovered] at same
  · intro plain
    rw [← timeless] at plain
    rw [wrapHandler_plain rt config toolName td ctx request w plain,timeless]

theorem no_middleware {n : Nat} {did : Outcome B S × W}
    (same : ∀ middleware : List (Middleware M V A W B S), middleware.length = n →
      did = wrapHandler rt (withMiddleware config middleware) toolName td ctx request w) : n = 0 := by
  cases n with
  | zero => rfl
  | succ n =>
    have first := same (rejects [] :: replicate n (rejects [])) (by simp)
    have second := same (rejects [0] :: replicate n (rejects [])) (by simp)
    rw [wrapHandler_rejects] at first second
    rw [first] at second
    simp at second

end

/-! ### The paths -/

def registryDoes (rt : Runtime W S) (r : ToolRegistry M V A W B S) (name : String) (ctx : Context V) (arguments : A)
    (w : W) : Option (Outcome B S × W) :=
  (r.getTool name).map fun td => wrapHandler rt r.config name td ctx ⟨name,arguments⟩ w

variable (r : ToolRegistry M V A W B S)

def routerDoes (ctx : Context V) (req : CanonicalRequest A) (w : W) :
    Option (Outcome B S × W) := (r.getTool req.toolName).bind fun td => routerCall td ctx req w

def executorDoes (rt : Runtime W S) (e : BridgeExecutor M V A W B S) (skillID : String) (ctx : Context V) (arguments : A)
    (w : W) : Option (Outcome B S × W) :=
  (e.registry.getTool skillID).map fun td => executorCall rt e skillID td ctx arguments w

theorem serveHTTP_does (rt : Runtime W S) {r : ToolRegistry M V A W B S} {ctx : Context V} {req : CanonicalRequest A}
    {w w' : W} {outcome : Outcome B S} (does : routerDoes r ctx req w = some (outcome,w')) :
    serveHTTP rt r ctx req w = (respond req.requestID outcome,w') := by
  obtain ⟨td,found,call⟩ := bind_eq_some_iff.mp does
  simp [serveHTTP,found,invokeTool,call]

theorem execute_does {rt : Runtime W S} {e : BridgeExecutor M V A W B S} {skillID : String} {ctx : Context V}
    {arguments : A} {w w' : W} {outcome : Outcome B S} (does : executorDoes rt e skillID ctx arguments w = some (outcome,w')) :
    execute rt e ctx none true (some (.ok (skillID,arguments))) none w =
      ((conclude outcome).map fun events => .working :: events,w') := by
  obtain ⟨td,found,call⟩ := map_eq_some_iff.mp does
  simp [execute,found,call]

/-- The registry with other middleware, and another handler for a tool. -/
def variant (name : String) (td : ToolDefinition M V A W B S)
    (middleware : List (Middleware M V A W B S)) (handler : Option (ToolHandlerFunc V A W B S)) :
    ToolRegistry M V A W B S :=
  ⟨withMiddleware r.config middleware,r.tools.insert name (withHandler td handler)⟩

section
variable (rt : Runtime W S) (r : ToolRegistry M V A W B S) (name : String) (td : ToolDefinition M V A W B S)
  (ctx : Context V) (arguments : A) (w : W)

theorem registryDoes_variant (middleware : List (Middleware M V A W B S))
    (handler : Option (ToolHandlerFunc V A W B S)) :
    registryDoes rt (variant r name td middleware handler) name ctx arguments w =
      some (wrapHandler rt (withMiddleware r.config middleware) name (withHandler td handler) ctx ⟨name,arguments⟩
        w) := by
  rw [registryDoes,variant,ToolRegistry.getTool,lookup_insert]
  rfl

theorem routerDoes_variant (requestID : String) (middleware : List (Middleware M V A W B S))
    (handler : Option (ToolHandlerFunc V A W B S)) :
    routerDoes (variant r name td middleware handler) ctx ⟨name,arguments,requestID⟩ w =
      handler.map fun h => h ctx ⟨name,arguments⟩ w := by
  rw [routerDoes,variant,ToolRegistry.getTool,lookup_insert]
  rfl

theorem executorDoes_variant (own : List (Middleware M V A W B S)) (timeout : Int)
    (middleware : List (Middleware M V A W B S)) (handler : Option (ToolHandlerFunc V A W B S)) :
    executorDoes rt ⟨variant r name td middleware handler,own,timeout⟩ name ctx arguments w =
      some (chain own name (withHandler td handler) (invoke handler) (ctx.withTimeout (rt.now w) timeout)
        ⟨name,arguments⟩ w) := by
  rw [executorDoes,variant,ToolRegistry.getTool,lookup_insert]
  rfl

end

/-! ### What the registry enforces -/

/-- However as many middlewares behave, and however the handler behaves in other calls, the
    router does with this call what the registry's own handler does. -/
def RouterEnforces (rt : Runtime W S) (r : ToolRegistry M V A W B S) (name : String) (td : ToolDefinition M V A W B S)
    (ctx : Context V) (arguments : A) (requestID : String) (w : W) : Prop :=
  ∀ middleware handler, middleware.length = r.config.middleware.length →
    handler.map (fun h => h ctx ⟨name,arguments⟩ w) = td.handler.map (fun h => h ctx ⟨name,arguments⟩ w) →
    routerDoes (variant r name td middleware handler) ctx ⟨name,arguments,requestID⟩ w =
      registryDoes rt (variant r name td middleware handler) name ctx arguments w

/-- Without middleware, the executor does what the registry's own handler does under its timeout. -/
def ExecutorEnforces (rt : Runtime W S) (r : ToolRegistry M V A W B S) (name : String) (td : ToolDefinition M V A W B S)
    (ctx : Context V) (arguments : A) (timeout : Int) (w : W) : Prop :=
  ∀ middleware, middleware.length = r.config.middleware.length →
    executorDoes rt ⟨variant r name td middleware td.handler,[],timeout⟩ name ctx arguments w =
      registryDoes rt (variant r name td middleware td.handler) name (ctx.withTimeout (rt.now w) timeout) arguments w

/-- The executor's middleware runs in addition to the registry's. -/
def ExecutorAdds (rt : Runtime W S) (r : ToolRegistry M V A W B S) (name : String) (td : ToolDefinition M V A W B S)
    (ctx : Context V) (arguments : A) (timeout : Int) (w : W) : Prop :=
  ∀ own middleware, middleware.length = r.config.middleware.length →
    executorDoes rt ⟨variant r name td middleware td.handler,own,timeout⟩ name ctx arguments w =
      some (chain own name td (wrapHandler rt (withMiddleware r.config middleware) name td)
        (ctx.withTimeout (rt.now w) timeout) ⟨name,arguments⟩ w)

def failsTimed (handler : ToolHandlerFunc V A W B S) (message : Text) : ToolHandlerFunc V A W B S :=
  fun ctx request w => if ctx.deadline.isSome then (.returned none (some message),w) else handler ctx request w

section
variable {rt r} {name : String} {td : ToolDefinition M V A W B S}
  {ctx : Context V} {arguments : A} {requestID : String} {timeout : Int} {w : W}

section
variable (enforces : RouterEnforces rt r name td ctx arguments requestID w)
include enforces

theorem RouterEnforces.handler : ∃ handler, td.handler = some handler := by
  have same := enforces r.config.middleware td.handler rfl rfl
  rw [routerDoes_variant,registryDoes_variant] at same
  cases found : td.handler with
  | none => simp [found] at same
  | some handler => exact ⟨handler,rfl⟩

theorem RouterEnforces.call
    (middleware : List (Middleware M V A W B S)) (length : middleware.length = r.config.middleware.length)
    {handler handler' : ToolHandlerFunc V A W B S} (found : td.handler = some handler)
    (same : handler' ctx ⟨name,arguments⟩ w = handler ctx ⟨name,arguments⟩ w) : handler ctx ⟨name,arguments⟩ w =
      wrapHandler rt (withMiddleware r.config middleware) name (withHandler td (some handler')) ctx ⟨name,arguments⟩ w := by
  have equal := enforces middleware (some handler') length (by simp [found,same])
  rw [routerDoes_variant,registryDoes_variant] at equal
  exact same ▸ some.inj equal

theorem RouterEnforces.middleware_nil : r.config.middleware = [] := by
  obtain ⟨handler,found⟩ := enforces.handler
  exact length_eq_zero_iff.mp
    (no_middleware rt r.config name _ ctx _ w fun middleware length => enforces.call middleware length found rfl)

theorem RouterEnforces.deadline : ctx.deadline.isSome := by
  obtain ⟨handler,found⟩ := enforces.handler
  by_contra absent
  have wrapped (message : Text) : handler ctx ⟨name,arguments⟩ w = (.returned none (some message),w) := by
    rw [enforces.call [] (by simp [enforces.middleware_nil]) found
      (show failsTimed handler message ctx ⟨name,arguments⟩ w = _ from if_neg absent)]
    rw [wrapHandler_returned rt r.config name (withHandler td (some (failsTimed handler message))) ctx _ w
      (show failsTimed handler message _ _ w = _ from if_pos (timed_deadline rt r.config _ ctx w))]
    simp [truncateResponse_none]
  have different := (wrapped []).symm.trans (wrapped [0])
  simp at different

end

theorem router_enforces_iff : RouterEnforces rt r name td ctx arguments requestID w ↔
    r.config.middleware = [] ∧ ctx.deadline.isSome ∧ Plain rt r.config name td (invoke td.handler ctx ⟨name,arguments⟩ w) := by
  constructor
  · intro enforces
    obtain ⟨handler,found⟩ := enforces.handler
    refine ⟨enforces.middleware_nil,enforces.deadline,?_⟩
    rw [← same_iff_plain rt r.config name td ctx _ w enforces.deadline,found]
    have call := enforces.call [] (by simp [enforces.middleware_nil]) found rfl
    rwa [← found] at call
  · rintro ⟨none,deadline,plain⟩ middleware handler length same
    obtain rfl := nil_of_length none length
    rw [routerDoes_variant,registryDoes_variant,same]
    obtain ⟨result,err,w',did,unchanged⟩ := plain
    cases found : td.handler with
    | none => simp [found,invoke] at did
    | some handler₀ =>
      cases handler with
      | none => simp [found] at same
      | some handler =>
        have equal : handler ctx ⟨name,arguments⟩ w = handler₀ ctx ⟨name,arguments⟩ w := by simpa [found] using same
        have plain : Plain rt r.config name td (handler ctx ⟨name,arguments⟩ w) := by
          rw [equal]
          exact ⟨result,err,w',by simpa [found,invoke] using did,unchanged⟩
        rw [map_some,← equal]
        exact congrArg some ((same_iff_plain rt r.config name (withHandler td (some handler)) ctx _ w deadline).mpr plain)

theorem executor_enforces_iff : ExecutorEnforces rt r name td ctx arguments timeout w ↔ r.config.middleware = [] ∧
    Plain rt r.config name td (invoke td.handler (ctx.withTimeout (rt.now w) timeout) ⟨name,arguments⟩ w) := by
  have deadline : (ctx.withTimeout (rt.now w) timeout).deadline.isSome := rfl
  unfold ExecutorEnforces
  simp only [executorDoes_variant,registryDoes_variant,some.injEq]
  constructor
  · intro same
    have none := length_eq_zero_iff.mp (no_middleware rt r.config name td _ _ w same)
    exact ⟨none,(same_iff_plain rt r.config name td _ _ w deadline).mp (same [] (by simp [none]))⟩
  · rintro ⟨none,plain⟩ middleware length
    obtain rfl := nil_of_length none length
    exact (same_iff_plain rt r.config name td _ _ w deadline).mpr plain

/-- With middleware of its own, the executor may make any call in place of the one asked for. -/
theorem ExecutorAdds.wrapped (adds : ExecutorAdds rt r name td ctx arguments timeout w)
    (middleware : List (Middleware M V A W B S)) (length : middleware.length = r.config.middleware.length)
    (c : Context V) (request : CallToolRequest A) (v : W) :
    invoke td.handler c request v = wrapHandler rt (withMiddleware r.config middleware) name td c request v := by
  have same := adds [fun _ _ next _ _ _ => next c request v] middleware length
  rw [executorDoes_variant] at same
  exact some.inj same

theorem executor_adds_iff : ExecutorAdds rt r name td ctx arguments timeout w ↔ r.config.middleware = [] ∧
    ∀ c request v, Plain rt r.config name td (invoke td.handler c request v) ∧
      invoke td.handler (timed rt r.config td c v) request v = invoke td.handler c request v := by
  constructor
  · intro adds
    have none := length_eq_zero_iff.mp
      (no_middleware rt r.config name td ctx ⟨name,arguments⟩ w fun middleware length => adds.wrapped middleware length _ _ _)
    have wrapped := adds.wrapped [] (by simp [none])
    refine ⟨none,fun c request v => ?_⟩
    have plain : Plain rt r.config name td (invoke td.handler (timed rt r.config td c v) request v) :=
      (same_iff_plain rt r.config name td _ request v (timed_deadline rt r.config td c v)).mp (wrapped _ _ _)
    have same := (wrapHandler_plain rt r.config name td c request v plain).symm.trans (wrapped c request v).symm
    exact ⟨same ▸ plain,same⟩
  · rintro ⟨none,plain⟩ own middleware length
    obtain rfl := nil_of_length none length
    have same : invoke td.handler = wrapHandler rt (withMiddleware r.config []) name td := by
      funext c request v
      obtain ⟨plain,timeless⟩ := plain c request v
      rw [← timeless] at plain
      rw [wrapHandler_plain rt r.config name td c request v plain,timeless]
    rw [executorDoes_variant,same]
    rfl

end

def plainRuntime : Runtime Nat Unit := ⟨⟨id,id,fun _ => none⟩,id,fun _ => 0,[]⟩

def counting : ToolDefinition Unit Unit Unit Nat Unit Unit where
  about := ()
  handler := some fun _ _ w => (.returned (some ⟨[.text (utf8 "done")],none,false⟩) none,w+1)
  timeout := 0
  maxResultChars := 0
  outputSchema := false
  outputType := ""
  outputProperties := []
  inputProperties := []

def registered (middleware : List (Middleware Unit Unit Unit Nat Unit Unit)) : ToolRegistry Unit Unit Unit Nat Unit Unit :=
  let r := newToolRegistry ⟨0,0,middleware⟩
  { r with tools := r.tools.insert "deploy" counting }

theorem counting_plain (ctx : Context Unit) (request : CallToolRequest Unit) (w : Nat) :
    Plain plainRuntime (registered []).config "deploy" counting (invoke counting.handler ctx request w) := by
  refine ⟨some ⟨[.text (utf8 "done")],none,false⟩,none,w+1,rfl,?_⟩
  have within : truncateResponse plainRuntime.library (truncationPolicyFor "deploy" counting)
      (effectiveMaxResponseSize counting (registered []).config.maxResponseSize)
      (some ⟨[.text (utf8 "done")],none,false⟩ : Option (CallToolResult Unit Unit)) =
      some ⟨[.text (utf8 "done")],none,false⟩ := truncateResponse_within _ _ (by decide)
  rw [Unchanged,within,within]

end Mcpkit.InvocationPaths
