import Mcpkit.GoMaps
import Mcpkit.ResponseCap

/-!
The ways to a tool. The registry wraps a handler into its middleware, its timeout, panic recovery
and the response cap when it registers the tool with a server; it keeps the handler itself.
-/
namespace Mcpkit.Invocation
open GoMaps ResponseCap

/-! ### Handlers -/

structure Context (V : Type) where
  deadline : Option Int
  values : V

def Context.withTimeout {V : Type} (ctx : Context V) (now timeout : Int) : Context V :=
  { ctx with deadline := some (match ctx.deadline with
    | none => now+timeout
    | some deadline => min deadline (now+timeout)) }

structure CallToolRequest (A : Type) where
  name : String
  arguments : A

inductive Outcome (B S : Type) where
  | returned (result : Option (CallToolResult B S)) (err : Option Text)
  | panicked (value : Text)
  deriving DecidableEq

/-- What a handler does with a context and a request may depend on the state of the world and change it. -/
abbrev ToolHandlerFunc (V A W B S : Type) := Context V → CallToolRequest A → W → Outcome B S × W

variable (M V A W B S : Type)

structure ToolDefinition where
  about : M
  handler : Option (ToolHandlerFunc V A W B S)
  timeout : Int
  maxResultChars : Int
  outputSchema : Bool
  outputType : String
  outputProperties : List String
  inputProperties : List String

abbrev Middleware :=
  String → ToolDefinition M V A W B S → ToolHandlerFunc V A W B S → ToolHandlerFunc V A W B S

structure Config where
  defaultTimeout : Int
  maxResponseSize : Int
  middleware : List (Middleware M V A W B S)

structure ToolRegistry where
  config : Config M V A W B S
  tools : GoMap (ToolDefinition M V A W B S)

structure Runtime (W S : Type) where
  library : Library S
  quote : String → String
  now : W → Int
  stack : Text

variable {M V A W B S : Type}

def newToolRegistry (config : Config M V A W B S) : ToolRegistry M V A W B S where
  config :=
    { config with
      defaultTimeout := if config.defaultTimeout = 0 then 30000000000 else config.defaultTimeout
      maxResponseSize := if config.maxResponseSize = 0 then 128*1024 else config.maxResponseSize }
  tools := ∅

variable (rt : Runtime W S) (td : ToolDefinition M V A W B S) (r : ToolRegistry M V A W B S)

def ToolRegistry.getTool (name : String) : Option (ToolDefinition M V A W B S) :=
  r.tools.lookup name

def invoke : Option (ToolHandlerFunc V A W B S) → ToolHandlerFunc V A W B S
  | some handler => handler
  | none => fun _ _ w => (.panicked (utf8 "runtime error: invalid memory address or nil pointer dereference"),w)

/-! ### The registry -/

def effectiveMaxResponseSize (defaultSize : Int) : Int :=
  if 0 < td.maxResultChars ∧ (defaultSize ≤ 0 ∨ td.maxResultChars < defaultSize) then td.maxResultChars else defaultSize

def truncationPolicyFor (toolName : String) (td : ToolDefinition M V A W B S) : TruncationPolicy where
  toolName := toolName
  declaresOutputSchema := td.outputSchema || td.outputType != "" || !td.outputProperties.isEmpty
  paramNames := td.inputProperties.mergeSort fun a b => decide (a ≤ b)

def truncationHandler (maxSize : Int) (policy : TruncationPolicy) (next : ToolHandlerFunc V A W B S) :
    ToolHandlerFunc V A W B S := fun ctx request w =>
  match next ctx request w with
  | (.returned result err,w) => (.returned (truncateResponse rt.library policy maxSize result) err,w)
  | (.panicked value,w) => (.panicked value,w)

def chain (middleware : List (Middleware M V A W B S)) (toolName : String) (td : ToolDefinition M V A W B S)
    (handler : ToolHandlerFunc V A W B S) : ToolHandlerFunc V A W B S :=
  middleware.foldr (fun m next => m toolName td next) handler

def recovered (toolName : String) (value : Text) : Outcome B S :=
  .returned (some (makeErrorResult (utf8 ("Internal error in " ++ toolName ++ ": recovered from panic"))))
    (some (utf8 ("panic in " ++ toolName ++ ": ") ++ value ++ utf8 "\n" ++ rt.stack))

def wrapHandler (config : Config M V A W B S) (toolName : String) (td : ToolDefinition M V A W B S) :
    ToolHandlerFunc V A W B S := fun ctx request w =>
  let maxSize := effectiveMaxResponseSize td config.maxResponseSize
  let policy := truncationPolicyFor toolName td
  let handler := chain config.middleware toolName td (truncationHandler rt maxSize policy (invoke td.handler))
  let timeout := if td.timeout = 0 then config.defaultTimeout else td.timeout
  let ctx := if ctx.deadline.isSome then ctx else ctx.withTimeout (rt.now w) timeout
  match handler ctx request w with
  | (.returned result err,w) => (.returned (truncateResponse rt.library policy maxSize result) err,w)
  | (.panicked value,w) => (recovered rt toolName value,w)

/-! ### The router -/

inductive ErrorCode where
  | invalidParams
  | notFound
  | internal
  deriving DecidableEq

structure ErrorInfo where
  code : ErrorCode
  message : Text
  deriving DecidableEq

structure CanonicalRequest (A : Type) where
  toolName : String
  arguments : A
  requestID : String

/-- What an adapter encodes; blocks other than text are passed on as JSON. -/
structure CanonicalResponse (B : Type) where
  success : Bool
  content : List (Content B)
  error : Option ErrorInfo
  requestID : String
  deriving DecidableEq

def failure (code : ErrorCode) (message : Text) (requestID : String) : CanonicalResponse B :=
  ⟨false,[],some ⟨code,message⟩,requestID⟩

def errorMessage : List (Content B) → Text
  | [] => utf8 "tool returned error"
  | .text [] :: rest => errorMessage rest
  | .text content :: _ => content
  | .other _ :: rest => errorMessage rest

/-- The response for what a handler did. The router looks into a missing result, and does not recover from a panic. -/
def respond (requestID : String) : Outcome B S → Except Text (CanonicalResponse B)
  | .panicked value => .error value
  | .returned _ (some err) => .ok (failure .internal err requestID)
  | .returned none none => .error (utf8 "runtime error: invalid memory address or nil pointer dereference")
  | .returned (some result) none => .ok
    { success := !result.isError
      content := result.content
      error := if result.isError then some ⟨.internal,errorMessage result.content⟩ else none
      requestID := requestID }

variable (ctx : Context V) (req : CanonicalRequest A)

def routerCall (w : W) : Option (Outcome B S × W) :=
  td.handler.map fun handler => handler ctx ⟨req.toolName,req.arguments⟩ w

def invokeTool (w : W) : Except Text (CanonicalResponse B) × W :=
  match routerCall td ctx req w with
  | none => (.ok (failure .internal (utf8 ("tool " ++ rt.quote req.toolName ++ " has no handler")) req.requestID),w)
  | some (outcome,w) => (respond req.requestID outcome,w)

def serveHTTP (w : W) : Except Text (CanonicalResponse B) × W :=
  match r.getTool req.toolName with
  | none => (.ok (failure .notFound (utf8 ("tool " ++ rt.quote req.toolName ++ " not found")) req.requestID),w)
  | some td => invokeTool rt td ctx req w

/-! ### The executor of the A2A bridge -/

structure BridgeExecutor (M V A W B S : Type) where
  registry : ToolRegistry M V A W B S
  middleware : List (Middleware M V A W B S)
  timeout : Int

def newBridgeExecutor (middleware : List (Middleware M V A W B S)) (taskTimeout : Int) :
    BridgeExecutor M V A W B S := ⟨r,middleware,if taskTimeout = 0 then 30000000000 else taskTimeout⟩

inductive Event (B : Type) where
  | submitted
  | working
  | failed (message : Text)
  | artifact (parts : List (Content B))
  | completed
  deriving DecidableEq

variable (e : BridgeExecutor M V A W B S)

def executorCall (skillID : String) (td : ToolDefinition M V A W B S)
    (ctx : Context V) (arguments : A) (w : W) : Outcome B S × W :=
  chain e.middleware skillID td (invoke td.handler) (ctx.withTimeout (rt.now w) e.timeout) ⟨skillID,arguments⟩ w

def errorText : List (Content B) → Text
  | .text (byte :: rest) :: _ => byte :: rest
  | _ => utf8 "tool returned an error"

def conclude : Outcome B S → Except Text (List (Event B))
  | .panicked value => .error value
  | .returned _ (some err) => .ok [.failed (utf8 "tool error: " ++ err)]
  | .returned none none => .ok [.failed (utf8 "tool returned nil result")]
  | .returned (some result) none =>
    if result.isError then .ok [.failed (errorText result.content)] else .ok [.artifact result.content,.completed]

/-- `Execute` for a consumer that takes every event: `translated` is what the translator makes of the message, and
    `built` whether its arguments make a request. -/
def execute (ctx : Context V) (ctxErr : Option Text) (stored : Bool)
    (translated : Option (Except Text (String × A))) (built : Option Text) (w : W) : Except Text (List (Event B)) × W :=
  match ctxErr with
  | some err => (.ok [.failed (utf8 "context error: " ++ err)],w)
  | none =>
    let start : List (Event B) := if stored then [] else [.submitted]
    match translated with
    | none => (.ok (start ++ [.failed (utf8 "no message in execution context")]),w)
    | some (.error err) => (.ok (start ++ [.failed (utf8 "invalid request: " ++ err)]),w)
    | some (.ok (skillID,arguments)) =>
      match e.registry.getTool skillID with
      | none => (.ok (start ++ [.failed (utf8 ("unknown tool: " ++ skillID))]),w)
      | some td =>
        match built with
        | some err => (.ok (start ++ [.working,.failed (utf8 "invalid arguments: " ++ err)]),w)
        | none =>
          let (outcome,w) := executorCall rt e skillID td ctx arguments w
          ((conclude outcome).map fun events => start ++ .working :: events,w)

end Mcpkit.Invocation
