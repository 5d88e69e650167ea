import Mcpkit.A2ATranslate
import Mcpkit.GoMaps
import Mcpkit.JsonRaw

/-!
The MCP and A2A adapters of the multi-protocol gateway, from the JSON-RPC request to the JSON-RPC
response.
-/
namespace Mcpkit.MultiAdapters
open A2ATranslate GoMaps JsonText JsonRaw

/-! ### The canonical model -/

inductive ContentType where
  | text
  | json
  | image
  | data
  | other
  deriving DecidableEq

/-- `data` is nil or the bytes, and `json` what the JSON field marshals to. -/
structure ContentPart where
  type : ContentType
  text : Text
  mimeType : Text
  data : Option (List UInt8)
  json : Json

inductive ErrorCode where
  | none
  | invalidParams
  | notFound
  | unauthorized
  | forbidden
  | rateLimit
  | timeout
  | internal
  deriving DecidableEq

structure ErrorInfo where
  code : ErrorCode
  message : Text

structure CanonicalRequest where
  toolName : Text
  arguments : Option Object
  requestID : Text
  metadata : GoMap Text

structure CanonicalResponse where
  success : Bool
  content : List ContentPart
  error : Option ErrorInfo
  requestID : Text
  metadata : GoMap Text

/-! ### Requests -/

/-- A JSON-RPC request after json.Unmarshal; a raw message is empty when its member is missing. -/
structure RPCRequest where
  jsonrpc : String
  method : String
  id : Text
  params : Text

structure ToolsCallParams where
  name : Text
  arguments : Option Object
  progressToken : Text

/-- The message of a send request: its parts, and the context and task it belongs to. -/
structure SendMessage where
  parts : List Part
  contextID : Text
  taskID : Text

structure Task where
  id : Text
  contextID : Text
  failure : Option Text
  artifacts : List (List Part)

structure Library where
  toolsCall : Text → Except String ToolsCallParams
  sendMessage : Text → Except String (Option SendMessage)
  unmarshal : Unmarshal
  quote : String → String
  bytesText : List UInt8 → Text
  taskJson : Task → Json
  invalidRaw : Text → String

variable (lib : Library) (raw : Text)

/-- json.Unmarshal of a raw message into a string; null changes nothing. -/
def unmarshalString : Option Text :=
  match parse raw with
  | some (.string text) => some text
  | some .null => some []
  | _ => none

/-- json.Unmarshal of a raw message into a json.Number, which a string can be too. -/
def unmarshalNumber : Option Text :=
  match parse raw with
  | some (.number n) => some n.lexeme
  | some (.string text) => if scanNumber .start text = some (text,[]) then some text else none
  | some .null => some []
  | _ => none

/-! ### The MCP adapter -/

def formatJSONRPCID : Text :=
  if raw = [] then []
  else
    match unmarshalString raw with
    | some text => text
    | none => trimSpace raw

def decodeToolsCall (params requestID : Text) (metadata : GoMap Text) : Except String CanonicalRequest :=
  if params = [] then .error "tools/call missing params"
  else
    match lib.toolsCall params with
    | .error err => .error ("parse tools/call params: " ++ err)
    | .ok call =>
      if call.name = [] then .error "tools/call params missing tool name"
      else .ok
        { toolName := call.name
          arguments := call.arguments
          requestID := requestID
          metadata := if call.progressToken = [] then metadata else metadata.insert "mcp.progressToken" call.progressToken }

def lifecycleMethods : List String :=
  ["initialize","ping","tools/list","resources/list","resources/read","resources/templates/list","prompts/list",
    "prompts/get","logging/setLevel","completion/complete"]

def mcpDecode (req : RPCRequest) : Except String CanonicalRequest :=
  if req.jsonrpc ≠ "2.0" then .error ("unsupported JSON-RPC version: " ++ lib.quote req.jsonrpc)
  else
    let metadata : GoMap Text := Finmap.singleton "jsonrpc.method" req.method.toList
    if req.method = "tools/call" then decodeToolsCall lib req.params (formatJSONRPCID req.id) metadata
    else if req.method ∈ lifecycleMethods ∨ "notifications/".toList <+: req.method.toList then
      .ok ⟨[],none,formatJSONRPCID req.id,metadata⟩
    else .error ("unsupported MCP method: " ++ lib.quote req.method)

def marshalRequestID (id : Text) : Text :=
  match id with
  | [] => ['n','u','l','l']
  | c :: _ => if isDigit c && (unmarshalNumber id).isSome then id else stringText id

def omitEmpty (key : String) (text : Text) : List (Text × Json) := if text = [] then [] else [(key.toList,.string text)]

/-- A content block of MCP: its type, and its fields that are not empty. -/
def mcpContent (type : String) (text mimeType data : Text) : Json :=
  .object (("type".toList,.string type.toList) ::
    (omitEmpty "text" text ++ omitEmpty "mimeType" mimeType ++ omitEmpty "data" data))

def canonicalToMCPContent (parts : List ContentPart) : List Json :=
  parts.filterMap (fun p =>
    match p.type with
    | .text => some (mcpContent "text" p.text [] [])
    | .json => some (mcpContent "text" (render p.json) [] [])
    | .image => some (mcpContent "image" [] p.mimeType (lib.bytesText (p.data.getD [])))
    | .data | .other => if p.text = [] then none else some (mcpContent "text" p.text [] []))

/-- json.Marshal of a response: the version, the raw id, and a result or an error. -/
def marshalResponse (rawID : Text) (key : String) (value : Json) : Except String Text :=
  match compact rawID with
  | some id => .ok (objectText [("jsonrpc".toList,stringText "2.0".toList),("id".toList,id),(key.toList,render value)])
  | none => .error (lib.invalidRaw rawID)

def mcpResult (content : List Json) (isError : Bool) : Json :=
  .object (("content".toList,.array content) :: (if isError then [("isError".toList,.bool true)] else []))

def mcpRPCError (code : Number) (message : Text) : Json :=
  .object [("code".toList,.number code),("message".toList,.string message)]

def jsonRPCMethodNotFound : Number := ⟨"-32601".toList,by decide⟩
def jsonRPCInvalidParams : Number := ⟨"-32602".toList,by decide⟩
def jsonRPCInternalError : Number := ⟨"-32603".toList,by decide⟩

def blockText : Json → Text
  | .object fields => stringField fields "text"
  | _ => []

variable (resp : CanonicalResponse)

def mcpErrorContent (message : Text) : List Json :=
  let first := mcpContent "text" message [] []
  let content := canonicalToMCPContent lib resp.content
  if resp.content = [] then [first]
  else
    match content with
    | [] => [first]
    | block :: _ => if blockText block ≠ message then first :: content else content

def mcpEncode : Except String Text :=
  let id := marshalRequestID resp.requestID
  if resp.success then
    (marshalResponse lib id "result" (mcpResult (canonicalToMCPContent lib resp.content) false)).mapError
      ("marshal MCP response: " ++ ·)
  else
    match resp.error with
    | none =>
      (marshalResponse lib id "error" (mcpRPCError jsonRPCInternalError "unknown error".toList)).mapError
        ("marshal JSON-RPC error: " ++ ·)
    | some error =>
      match error.code with
      | .invalidParams =>
        (marshalResponse lib id "error" (mcpRPCError jsonRPCInvalidParams error.message)).mapError
          ("marshal JSON-RPC error: " ++ ·)
      | .notFound =>
        (marshalResponse lib id "error" (mcpRPCError jsonRPCMethodNotFound error.message)).mapError
          ("marshal JSON-RPC error: " ++ ·)
      | _ =>
        (marshalResponse lib id "result" (mcpResult (mcpErrorContent lib resp error.message) true)).mapError
          ("marshal MCP error response: " ++ ·)

/-! ### The A2A adapter -/

def extractRequestID : Text :=
  if raw = [] then []
  else if trimSpace raw = "null".toList then "null".toList
  else
    match unmarshalString raw with
    | some text => text
    | none =>
      match unmarshalNumber raw with
      | some text => text
      | none => trimSpace raw

def a2aDecode (req : RPCRequest) : Except String CanonicalRequest :=
  if req.method = "" then .error "a2a: missing JSON-RPC method"
  else
    let metadata : GoMap Text := Finmap.singleton "a2a.method" req.method.toList
    if req.method ≠ "a2a.sendMessage" then .ok ⟨[],none,extractRequestID req.id,metadata⟩
    else
      match lib.sendMessage req.params with
      | .error err => .error ("a2a: failed to decode SendMessageRequest params: " ++ err)
      | .ok none => .error "a2a: SendMessageRequest has no message"
      | .ok (some msg) =>
        match extractSkillFromMessage lib.unmarshal msg.parts with
        | .error err => .error ("a2a: " ++ err)
        | .ok (toolName,args) =>
          let metadata := if msg.contextID = [] then metadata else metadata.insert "a2a.contextId" msg.contextID
          let metadata := if msg.taskID = [] then metadata else metadata.insert "a2a.taskId" msg.taskID
          .ok ⟨toolName,some args,extractRequestID req.id,metadata⟩

def canonicalPartToA2A (cp : ContentPart) : Option Part :=
  match cp.type with
  | .text => some (.text cp.text)
  | .json => some (.data cp.json)
  | .data => cp.data.map fun bytes => .raw bytes []
  | .image => cp.data.map fun bytes => .raw bytes cp.mimeType
  | .other => if cp.text = [] then none else some (.text cp.text)

def metadataOr (key : String) (fresh : Text) : Text :=
  match resp.metadata.lookup key with
  | some (c :: cs) => c :: cs
  | _ => fresh

variable (newTask newContext : Text)

/-- The task of a response; `newTask` and `newContext` are the generated ids. -/
def responseTask : Task where
  id := metadataOr resp "a2a.taskId" newTask
  contextID := metadataOr resp "a2a.contextId" newContext
  failure :=
    if resp.success then none
    else
      match resp.error with
      | some ⟨_,c :: cs⟩ => some (c :: cs)
      | _ => some "unknown error".toList
  artifacts := if resp.success then [resp.content.filterMap canonicalPartToA2A] else []

def a2aEncode : Except String Text :=
  (marshalResponse lib ('"' :: (resp.requestID ++ ['"'])) "result"
    (lib.taskJson (responseTask resp newTask newContext))).mapError ("a2a: failed to encode response: " ++ ·)

end Mcpkit.MultiAdapters
