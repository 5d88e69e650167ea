import Mcpkit.JsonText

/-!
How a tool call travels in an A2A message. The bridge and the gateway both look for a
data part that names a skill and its arguments, and differ in what they make of text.
-/
namespace Mcpkit.A2ATranslate
open JsonText List

abbrev Text := List Char

abbrev Object := List (Text × Json)

/-- json.Unmarshal into a map: an error, a nil map for null, or the object. -/
abbrev Unmarshal := Text → Option (Option Object)

def isSpace (c : Char) : Bool :=
  c = ' ' || ('\t' ≤ c && c ≤ '\r') || c = '\u0085' || c = '\u00a0' || c = '\u1680' || ('\u2000' ≤ c && c ≤ '\u200a') ||
    c = '\u2028' || c = '\u2029' || c = '\u202f' || c = '\u205f' || c = '\u3000'

def trimSpace (text : Text) : Text := ((text.dropWhile isSpace).reverse.dropWhile isSpace).reverse

theorem trimSpace_of_ink {text : Text} (ink : ∀ c ∈ text, isSpace c = false) : trimSpace text = text := by
  have whole : ∀ cs : Text, (∀ c ∈ cs, isSpace c = false) → cs.dropWhile isSpace = cs := by
    intro cs ink
    cases cs with
    | nil => rfl
    | cons c cs => simp [ink c mem_cons_self]
  rw [trimSpace,whole text ink,whole text.reverse fun c member => ink c (List.mem_reverse.mp member),reverse_reverse]

theorem trimSpace_cons {c : Char} (ink : isSpace c = false) (cs : Text) : ∃ rest, trimSpace (c :: cs) = c :: rest := by
  have first : (c :: cs).dropWhile isSpace = c :: cs := by simp [ink]
  rw [trimSpace,first,reverse_cons,dropWhile_append]
  split_ifs
  · exact ⟨[],by simp [ink]⟩
  · exact ⟨_,by rw [reverse_append]; rfl⟩

/-- A part of a message that is there; the code passes over nil parts. -/
inductive Part where
  | text (text : Text)
  | data (value : Json)
  | raw (bytes : List UInt8) (mediaType : Text)

def Part.textOf : Part → Text
  | .text content => content
  | _ => []

def Part.dataOf : Part → Json
  | .data value => value
  | _ => .null

def toStringMap : Json → Option Object
  | .object fields => some fields
  | _ => none

variable (o : Object)

def stringField (key : String) : Text :=
  match o.lookup key.toList with
  | some (.string text) => text
  | _ => []

def objectField (key : String) : Object := ((o.lookup key.toList).bind toStringMap).getD []

def objectCall : Option (Text × Object) :=
  if stringField o "skill" = [] then none else some (stringField o "skill",objectField o "arguments")

def dataCall (part : Part) : Option (Text × Object) := (toStringMap part.dataOf).bind objectCall

def noSkillFound : String :=
  "no skill identifier found in message: expected DataPart with 'skill' field or non-empty skill hint"

variable (unmarshal : Unmarshal)

/-- The translator of the bridge; `skill` is the hint. -/
def messageToCallToolRequest (parts : List Part) (skill : Text) :
    Except String (Text × Option Object) :=
  match parts.findSome? dataCall with
  | some (skillID,args) => .ok (skillID,some args)
  | none =>
    if skill ≠ [] then
      match parts.find? (fun part => part.textOf ≠ []) with
      | none => .ok (skill,some [])
      | some part =>
        match unmarshal part.textOf with
        | some args => .ok (skill,args)
        | none => .ok (skill,some [("input".toList,.string part.textOf)])
    else .error noSkillFound

def textCall (part : Part) : Option (Text × Object) :=
  if part.textOf = [] then none
  else
    match unmarshal part.textOf with
    | some (some parsed) => objectCall parsed
    | _ => none

def extractSkillFromMessage (parts : List Part) : Except String (Text × Object) :=
  if parts = [] then .error "no parts in message"
  else
    match parts.findSome? dataCall with
    | some call => .ok call
    | none =>
      match parts.findSome? (textCall unmarshal) with
      | some call => .ok call
      | none => .error "no skill identifier found in message: expected DataPart with 'skill' field"

end Mcpkit.A2ATranslate
