import Mathlib.Init

/-!
What a tool handler returns: a result with content blocks and an error mark, or a
Go error, or both.
-/
namespace Mcpkit.ToolResults

inductive Content where
  | text (text : String)
  | other
  deriving DecidableEq, Repr

structure CallToolResult where
  content : List Content
  isError : Bool
  deriving DecidableEq, Repr

/-- Go's `%q`. -/
abbrev Quote := String → String

def makeErrorResult (text : String) : CallToolResult := ⟨[.text text],true⟩

def isResultError : Option CallToolResult → Bool
  | none => false
  | some r => r.isError

def extractTextContent : Content → Option String
  | .text text => some text
  | .other => none

end Mcpkit.ToolResults
