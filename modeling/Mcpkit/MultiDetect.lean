import Mcpkit.HTTPHeaders

/-!
How the multi-protocol gateway tells the protocol of a request: by its headers, its path and the
first bytes of its body.
-/
namespace Mcpkit.MultiDetect
open HTTPHeaders

/-! ### Bytes -/

abbrev Bytes := List UInt8

def ascii (text : String) : Bytes := text.toList.map fun c => UInt8.ofNat c.toNat

def index (pattern : Bytes) : Bytes → Option Nat
  | [] => if pattern = [] then some 0 else none
  | c :: rest => if pattern.isPrefixOf (c :: rest) then some 0 else (index pattern rest).map (·+1)

def contains (bytes pattern : Bytes) : Bool := (index pattern bytes).isSome

def trimLeft (bytes : Bytes) : Bytes := bytes.dropWhile fun c => c ∈ ascii " \t\n\r"

def colon : UInt8 := 58
def quote : UInt8 := 34

/-! ### Requests -/

structure Request where
  method : String
  path : String
  header : Header
  contentLength : Int

def hasPrefix (text start : String) : Bool := start.toList.isPrefixOf text.toList

def trimSlash (text : String) : String :=
  if text.toList.getLast? = some '/' then String.ofList text.toList.dropLast else text

/-- Names of protocols. An adapter of another package can have a name of its own. -/
abbrev Protocol := String

def protocolMCP : Protocol := "mcp"
def protocolA2A : Protocol := "a2a"
def protocolOpenAI : Protocol := "openai"
def protocolUnknown : Protocol := "unknown"

abbrev Confidence := Int

def confidenceLow : Confidence := 0
def confidenceMedium : Confidence := 1
def confidenceHigh : Confidence := 2
def confidenceDefinitive : Confidence := 3

/-! ### Signals in the headers and the path -/

def hasMCPHeader (r : Request) : Bool :=
  r.header.get "MCP-Protocol-Version" ≠ "" || r.header.get "Mcp-Session-Id" ≠ ""

variable (path : String)

def isAgentCardPath : Bool := path = "/.well-known/agent-card.json" || path = "/agent-card:extended"

def isMCPPath : Bool := trimSlash path = "/mcp" || hasPrefix path "/mcp/"

def isA2APath : Bool := trimSlash path = "/a2a" || hasPrefix path "/a2a/"

def isOpenAIPath : Bool := hasPrefix path "/openai/" || hasPrefix path "/v1/chat/"

def detectByPathPrefix : Option Protocol :=
  if isMCPPath path then some protocolMCP
  else if isA2APath path then some protocolA2A
  else if isOpenAIPath path then some protocolOpenAI
  else none

def hasJSONContentType (r : Request) : Bool :=
  hasPrefix (r.header.get "Content-Type") "application/json" || hasPrefix (r.header.get "Content-Type") "application/jsonrpc"

/-! ### Signals in the body -/

/-- The value after the first `"method"`, if it is a string that ends within the peek. -/
def extractJSONRPCMethod (peek : Bytes) : Bytes :=
  match index (ascii "\"method\"") peek with
  | none => []
  | some idx =>
    match trimLeft (peek.drop (idx+8)) with
    | [] => []
    | first :: rest =>
      if first ≠ colon then []
      else
        match trimLeft rest with
        | [] => []
        | first :: rest =>
          if first ≠ quote then []
          else if quote ∈ rest then rest.takeWhile (· ≠ quote)
          else []

def isMCPMethod (method : Bytes) : Bool :=
  method ∈ ["initialize","ping","tools/list","tools/call","resources/list","resources/read","resources/templates/list",
    "resources/subscribe","resources/unsubscribe","prompts/list","prompts/get","logging/setLevel","sampling/createMessage",
    "roots/list","completion/complete","elicitation/create","notifications/initialized","notifications/cancelled",
    "notifications/progress","notifications/message","notifications/resources/updated",
    "notifications/resources/list_changed","notifications/tools/list_changed","notifications/prompts/list_changed",
    "notifications/roots/list_changed"].map ascii

def isA2AMethod (method : Bytes) : Bool :=
  method ∈ ["a2a.sendMessage","a2a.sendStreamingMessage","a2a.getTask","a2a.cancelTask","a2a.listTasks",
    "a2a.getExtendedAgentCard","a2a.subscribeToTask","a2a.createPushNotificationConfig","a2a.getPushNotificationConfig",
    "a2a.listPushNotificationConfigs","a2a.deletePushNotificationConfig"].map ascii

def hasMethod (table : Bytes → Bool) (peek : Bytes) : Bool :=
  extractJSONRPCMethod peek ≠ [] && table (extractJSONRPCMethod peek)

def hasOpenAIStructure (peek : Bytes) : Bool :=
  contains peek (ascii "\"tool_calls\"") || contains peek (ascii "\"function_call\"") ||
    contains peek (ascii "\"functions\"")

/-! ### The detection function -/

def detectProtocol (r : Request) (bodyPeek : Bytes) : Protocol × Confidence :=
  if hasMCPHeader r then (protocolMCP,confidenceDefinitive)
  else if isAgentCardPath r.path then (protocolA2A,confidenceDefinitive)
  else
    match detectByPathPrefix r.path with
    | some proto => (proto,confidenceHigh)
    | none =>
      if r.method = "POST" && hasJSONContentType r && bodyPeek ≠ [] then
        if hasMethod isMCPMethod bodyPeek then (protocolMCP,confidenceDefinitive)
        else if hasMethod isA2AMethod bodyPeek then (protocolA2A,confidenceDefinitive)
        else if hasOpenAIStructure bodyPeek then (protocolOpenAI,confidenceHigh)
        else (protocolUnknown,confidenceLow)
      else (protocolUnknown,confidenceLow)

theorem detectProtocol_high {r : Request} {bodyPeek : Bytes} (known : (detectProtocol r bodyPeek).1 ≠ protocolUnknown) :
    confidenceHigh ≤ (detectProtocol r bodyPeek).2 := by
  revert known
  unfold detectProtocol
  repeat' split
  all_goals simp [protocolUnknown,confidenceHigh,confidenceDefinitive]

/-! ### The adapters' own detection -/

structure Adapter where
  protocol : Protocol
  detect : Request → Bytes → Bool × Confidence

def mcpAdapter : Adapter where
  protocol := protocolMCP
  detect r bodyPeek :=
    if hasMCPHeader r then (true,confidenceDefinitive)
    else if isMCPPath r.path then (true,confidenceHigh)
    else if r.method = "POST" && bodyPeek ≠ [] && hasMethod isMCPMethod bodyPeek then (true,confidenceDefinitive)
    else (false,confidenceLow)

def a2aAdapter : Adapter where
  protocol := protocolA2A
  detect r bodyPeek :=
    if isAgentCardPath r.path then (true,confidenceDefinitive)
    else if isA2APath r.path then (true,confidenceHigh)
    else if r.method = "POST" && bodyPeek ≠ [] && hasMethod isA2AMethod bodyPeek then (true,confidenceDefinitive)
    else (false,confidenceLow)

def openAIAdapter : Adapter where
  protocol := protocolOpenAI
  detect r bodyPeek :=
    if r.path = "/v1/chat/completions" || r.path = "/openai/v1/chat/completions" then (true,confidenceHigh)
    else if isOpenAIPath r.path then (true,confidenceHigh)
    else if bodyPeek ≠ [] && hasOpenAIStructure bodyPeek then (true,confidenceHigh)
    else (false,confidenceLow)

end Mcpkit.MultiDetect
