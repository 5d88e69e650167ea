import Mathlib.Algebra.GroupWithZero.Nat
import Mathlib.Data.List.Infix

/-!
The response cap. A result is bounded as a whole, its text blocks together with the encoded
structured content, by cutting text or, if the tool declares an output schema, by an error in its
place.
-/
namespace Mcpkit.ResponseCap

abbrev Text := List UInt8

def utf8 (text : String) : Text := text.toUTF8.data.toList

inductive Content (B : Type) where
  | text (text : Text)
  | other (block : B)
  deriving DecidableEq

structure CallToolResult (B S : Type) where
  content : List (Content B)
  structuredContent : Option S
  isError : Bool
  deriving DecidableEq

/-- `strings.ToLower`, `strings.ToValidUTF8` without a replacement, and `json.Marshal`. -/
structure Library (S : Type) where
  toLower : String → String
  toValidUTF8 : Text → Text
  marshal : S → Option Text

structure TruncationPolicy where
  toolName : String
  declaresOutputSchema : Bool
  paramNames : List String

variable {B S : Type}

def makeErrorResult (text : Text) : CallToolResult B S := ⟨[.text text],none,true⟩

def isResultError : Option (CallToolResult B S) → Bool
  | none => false
  | some r => r.isError

/-! ### Messages -/

def narrowingParamHints : List String :=
  ["limit","offset","page","cursor","max","top_n","count","since","until","filter","fields","scope","detail","brief"]

variable (lib : Library S) (policy : TruncationPolicy)

def narrowingParams : List String :=
  policy.paramNames.filter fun name => narrowingParamHints.any fun hint => hint.toList <:+: (lib.toLower name).toList

def capNames (names : List String) (limit : Nat) : List String :=
  if limit = 0 ∨ names.length ≤ limit then names
  else names.take limit ++ ["(+" ++ toString (names.length-limit) ++ " more)"]

def narrowingHint : String :=
  match narrowingParams lib policy with
  | [] => "limit/offset/filters"
  | names => String.intercalate "/" (capNames names 6)

def maxListedParams : Nat := 16

variable (maxSize : Nat)

def oversizeErrorMessage (textBytes structBytes : Nat) : String :=
  let name := if policy.toolName = "" then "this tool" else policy.toolName
  "[RESULT_TOO_LARGE] " ++ name ++ " produced a " ++ toString (textBytes+structBytes) ++ "-byte result (text " ++
    toString textBytes ++ " + structuredContent " ++ toString structBytes ++ "), over its " ++ toString maxSize ++
    "-byte response limit.\n\n" ++
    "No partial result was returned. This tool declares an outputSchema, and structuredContent cannot be clipped and still satisfy it — a truncated success-shaped result is rejected by schema-validating clients with \"has an output schema but did not return structured content\", which hides the real cause.\n\n" ++
    (match narrowingParams lib policy with
      | [] => "Retry with a narrower request.\n"
      | names => "Retry with a narrower request. Narrowing parameters this tool accepts: " ++
          String.intercalate ", " (capNames names maxListedParams) ++ ".\n") ++
    (match policy.paramNames with
      | [] => ""
      | names => "All parameters " ++ name ++ " accepts: " ++
          String.intercalate ", " (capNames names maxListedParams) ++ ".\n")

def clampMessage (msg : Text) (maxSize : Nat) : Text :=
  if msg.length ≤ maxSize then msg else lib.toValidUTF8 (msg.take maxSize)

def limitText : String :=
  if maxSize < 1024 then toString maxSize ++ "B" else toString (maxSize/1024) ++ "KB"

def cutMarker (dropped : Bool) : Text :=
  utf8 ("\n\n[TRUNCATED: response exceeded " ++ limitText maxSize ++ " limit" ++
    (if dropped then "; structuredContent omitted for the same reason — narrow the request (" ++ narrowingHint lib policy ++
      ") for a complete result]" else "]"))

def noticeBlock (structBytes : Nat) : Text :=
  utf8 ("[TRUNCATED: response exceeded " ++ limitText maxSize ++ " limit; structuredContent (" ++ toString structBytes ++
    " bytes) omitted — narrow the request (" ++ narrowingHint lib policy ++ ") for a complete result]")

/-! ### Truncation -/

def Content.bytes : Content B → Nat
  | .text content => content.length
  | .other _ => 0

def textBytes (content : List (Content B)) : Nat := (content.map Content.bytes).sum

/-- The bytes of the structured content; of what cannot be encoded there are none. -/
def encodedBytes (structured : Option S) : Nat := ((structured.bind lib.marshal).map List.length).getD 0

/-- The text blocks share what remains; the block that is cut has the marker, and those
    after it are emptied. Also whether there was one. -/
def cutBlocks (marker : Text) : Nat → Bool → List (Content B) → List (Content B) × Bool
  | _,cut,[] => ([],cut)
  | remaining,cut,.other block :: rest =>
    let (rest,cut) := cutBlocks marker remaining cut rest
    (.other block :: rest,cut)
  | remaining,true,.text _ :: rest =>
    let (rest,cut) := cutBlocks marker remaining true rest
    (.text [] :: rest,cut)
  | remaining,false,.text text :: rest =>
    if text.length ≤ remaining then
      let (rest,cut) := cutBlocks marker (remaining-text.length) false rest
      (.text text :: rest,cut)
    else
      let (rest,cut) := cutBlocks marker 0 true rest
      (.text (text.take remaining ++ marker) :: rest,cut)

/-- A result over the cap that may be degraded: structured content goes, then text. -/
def degrade (structBytes : Nat) (result : CallToolResult B S) : CallToolResult B S :=
  let dropped := result.structuredContent.isSome
  let marker := cutMarker lib policy maxSize dropped
  let notice := noticeBlock lib policy maxSize structBytes
  let reserve := if dropped && marker.length < notice.length then notice.length else marker.length
  let (content,cut) := cutBlocks marker (maxSize-reserve) false result.content
  { result with
    structuredContent := none
    content := if !cut && dropped then content ++ [.text notice] else content }

/-- `truncateResponse` of a result that is there, with a positive cap. -/
def bound (result : CallToolResult B S) : CallToolResult B S :=
  let text := textBytes result.content
  -- structured content is measured only if the text has not used up the cap
  let struct := if text ≤ maxSize then encodedBytes lib result.structuredContent else 0
  if text+struct ≤ maxSize then result
  else if result.structuredContent.isSome && policy.declaresOutputSchema then
    let struct := if struct = 0 then encodedBytes lib result.structuredContent else struct
    makeErrorResult (clampMessage lib (utf8 (oversizeErrorMessage lib policy maxSize text struct)) maxSize)
  else degrade lib policy maxSize struct result

def truncateResponse (maxSize : Int) (result : Option (CallToolResult B S)) : Option (CallToolResult B S) :=
  if maxSize ≤ 0 then result else result.map (bound lib policy maxSize.toNat)

theorem truncateResponse_within {maxSize : Int} {result : CallToolResult B S}
    (within : textBytes result.content + encodedBytes lib result.structuredContent ≤ maxSize.toNat) :
    truncateResponse lib policy maxSize (some result) = some result := by
  have text : textBytes result.content ≤ maxSize.toNat := by omega
  simp [truncateResponse,bound,text,within]

end Mcpkit.ResponseCap
