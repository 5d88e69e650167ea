import Mcpkit.A2ATranslate
import Mcpkit.Invocation

/-!
The two ends of the A2A bridge put together.
-/
namespace Mcpkit.RemoteAgent
open A2ATranslate Invocation JsonText ResponseCap List
variable {M V W B S : Type}

/-! ### The message -/

def mapJson : Option Object → Json
  | some o => .object o
  | none => .null

variable (unmarshal : Unmarshal) (describe : B → Option ResponseCap.Text) (skillID : A2ATranslate.Text)

def skillData (jsonArgs : Option Object) : Object :=
  [("skill".toList,.string skillID),("arguments".toList,mapJson jsonArgs)]

variable (message : A2ATranslate.Text)

def looksLikeObject : Bool := (trimSpace message).head? = some '\x7b'

def messageParts : List Part :=
  let text : List Part := [.text (if message = [] then skillID else message)]
  if looksLikeObject message then
    match unmarshal message with
    | some jsonArgs => [.data (.object (skillData skillID jsonArgs))]
    | none => text
  else text

/-! ### The task -/

inductive TaskState where
  | unspecified
  | submitted
  | working
  | completed
  | failed
  | canceled
  | rejected
  | inputRequired
  | authRequired
  deriving DecidableEq

/-- A task: its status with the text of the first part of its message, and its artifacts. -/
structure Task (B : Type) where
  state : TaskState
  message : Option ResponseCap.Text
  artifacts : List (List (Content B))

def Task.apply (t : Task B) : Event B → Task B
  | .submitted => ⟨.submitted,none,[]⟩
  | .working => { t with state := .working, message := none }
  | .failed message => { t with state := .failed, message := some message }
  | .artifact parts => { t with artifacts := t.artifacts ++ [parts] }
  | .completed => { t with state := .completed, message := none }

def taskOf (events : List (Event B)) : Task B := events.foldl Task.apply ⟨.unspecified,none,[]⟩

/-! ### The result -/

def makeTextResult (text : ResponseCap.Text) : CallToolResult B S := ⟨[.text text],none,false⟩

/-- What a part adds to the result: its text, or its data as JSON; bytes add nothing. -/
def partText : Content B → Option ResponseCap.Text
  | .text [] => none
  | .text text => some text
  | .other block => describe block

def joinTexts : List ResponseCap.Text → ResponseCap.Text
  | [] => utf8 "(no output)"
  | texts => (utf8 "\n").intercalate texts

def translateTask (task : Task B) : CallToolResult B S :=
  match task.state with
  | .failed | .rejected =>
    makeErrorResult (match task.message with
      | some (byte :: rest) => byte :: rest
      | _ => utf8 "remote agent task failed")
  | _ => makeTextResult (joinTexts (task.artifacts.flatten.filterMap (partText describe)))

/-! ### The whole way -/

def translated (parts : List Part) : Except ResponseCap.Text (String × Option Object) :=
  match messageToCallToolRequest unmarshal parts [] with
  | .ok (skillID,args) => .ok (String.ofList skillID,args)
  | .error err => .error (utf8 err)

/-- The handler of a remote agent's tool whose agent is the executor, from the arguments to the
    result. A panic of the tool is reported by the transport. -/
def remoteCall (rt : Runtime W S) (e : BridgeExecutor M V (Option Object) W B S) (skillID : A2ATranslate.Text)
    (ctx : Context V) (args : Object) (w : W) : Except ResponseCap.Text (CallToolResult B S) × W :=
  let parts := messageParts unmarshal skillID (stringField args "message")
  let (events,w) := execute rt e ctx none false (some (translated unmarshal parts)) none w
  (events.map fun events => translateTask describe (taskOf events),w)

/-! ### Composition -/

variable (result : Option (CallToolResult B S)) (err : Option ResponseCap.Text)

/-- The tool failed: a Go error, an error result, or no result. -/
def Failed : Prop :=
  err.isSome ∨ isResultError result ∨ result = none

def blockText : Content B → Option ResponseCap.Text
  | .text [] => none
  | .text text => some text
  | .other _ => none

/-- The answer is one text, and the tool's texts stand in it in their order. -/
def Carries (answer : CallToolResult B S) : Prop :=
  ∀ r, result = some r → ∃ pieces, answer.content = [.text (joinTexts pieces)] ∧
    (r.content.filterMap blockText).Sublist pieces

/-- The message is resolved to the skill and to the parsed object, and the answer tells what the tool did. -/
def Composes (M V W B S : Type) (unmarshal : Unmarshal) (describe : B → Option ResponseCap.Text)
    (skillID message : A2ATranslate.Text) : Prop :=
  ∃ args, messageToCallToolRequest unmarshal (messageParts unmarshal skillID message) [] = .ok (skillID,args) ∧
    (∀ o, unmarshal message = some (some o) → args = some o) ∧
    ∀ (rt : Runtime W S) (e : BridgeExecutor M V (Option Object) W B S) td ctx w result err w',
      e.registry.getTool (String.ofList skillID) = some td →
      executorCall rt e (String.ofList skillID) td ctx args w = (.returned result err,w') →
      ∃ answer, remoteCall unmarshal describe rt e skillID ctx [("message".toList,.string message)] w = (.ok answer,w') ∧
        (answer.isError ↔ Failed result err) ∧ (¬ Failed result err → Carries result answer)

theorem messageParts_cases : (looksLikeObject message ∧ ∃ jsonArgs, unmarshal message = some jsonArgs ∧
      messageParts unmarshal skillID message = [.data (.object (skillData skillID jsonArgs))]) ∨
    (¬ (looksLikeObject message ∧ (unmarshal message).isSome) ∧
      ∃ text, messageParts unmarshal skillID message = [.text text]) := by
  unfold messageParts
  by_cases looks : looksLikeObject message
  · cases decoded : unmarshal message with
    | some jsonArgs => exact .inl ⟨looks,jsonArgs,rfl,by simp [looks]⟩
    | none => exact .inr ⟨by simp,if message = [] then skillID else message,by simp only [looks,if_true]⟩
  · exact .inr ⟨fun both => looks both.1,if message = [] then skillID else message,if_neg looks⟩

theorem dataCall_skillData (jsonArgs : Option Object) : dataCall (.data (.object (skillData skillID jsonArgs))) =
      if skillID = [] then none else some (skillID,jsonArgs.getD []) := by
  have named : stringField (skillData skillID jsonArgs) "skill" = skillID := rfl
  have fields : objectField (skillData skillID jsonArgs) "arguments" = jsonArgs.getD [] := by cases jsonArgs <;> rfl
  simp only [dataCall,Part.dataOf,toStringMap,Option.bind_some,objectCall,named,fields]

theorem resolve_messageParts : (skillID ≠ [] ∧ looksLikeObject message ∧ ∃ jsonArgs, unmarshal message = some jsonArgs ∧
      messageToCallToolRequest unmarshal (messageParts unmarshal skillID message) [] = .ok (skillID,some (jsonArgs.getD []))) ∨
    (¬ (skillID ≠ [] ∧ looksLikeObject message ∧ (unmarshal message).isSome) ∧
      messageToCallToolRequest unmarshal (messageParts unmarshal skillID message) [] = .error noSkillFound) := by
  rcases messageParts_cases unmarshal skillID message with ⟨looks,jsonArgs,decoded,parts⟩ | ⟨other,text,parts⟩
  · by_cases empty : skillID = []
    · rw [parts]
      simp [messageToCallToolRequest,dataCall_skillData,empty]
    · refine .inl ⟨empty,looks,jsonArgs,decoded,?_⟩
      simp [parts,messageToCallToolRequest,dataCall_skillData,empty]
  · refine .inr ⟨fun named => other named.2,?_⟩
    simp [parts,messageToCallToolRequest,dataCall,Part.dataOf,toStringMap]

theorem partText_keeps (content : List (Content B)) :
    (content.filterMap blockText).Sublist (content.filterMap (partText describe)) := by
  induction content with
  | nil => exact List.Sublist.slnil
  | cons block content ih =>
    cases block with
    | text text =>
      cases text with
      | nil => simpa only [filterMap_cons,partText,blockText] using ih
      | cons byte rest => simpa only [filterMap_cons,partText,blockText] using ih.cons_cons _
    | other block =>
      simp only [filterMap_cons,partText,blockText]
      cases describe block with
      | none => exact ih
      | some text => exact ih.cons text

theorem translateTask_conclude :
    ∃ events, conclude (.returned result err) = .ok events ∧
      ((translateTask describe (taskOf (.submitted :: .working :: events)) : CallToolResult B S).isError ↔
        Failed result err) ∧
      (¬ Failed result err → Carries result (translateTask describe (taskOf (.submitted :: .working :: events)))) := by
  cases err with
  | some err =>
    have failed : Failed result (some err) := .inl rfl
    exact ⟨_,rfl,iff_of_true rfl failed,fun fine => absurd failed fine⟩
  | none =>
    cases result with
    | none =>
      have failed : Failed (none : Option (CallToolResult B S)) none := .inr (.inr rfl)
      exact ⟨_,rfl,iff_of_true rfl failed,fun fine => absurd failed fine⟩
    | some r =>
      by_cases isError : r.isError
      · have failed : Failed (some r) none := .inr (.inl isError)
        exact ⟨_,by rw [conclude,if_pos isError],iff_of_true rfl failed,fun fine => absurd failed fine⟩
      · refine ⟨_,by rw [conclude,if_neg isError],?_,?_⟩
        · simp [translateTask,taskOf,Task.apply,makeTextResult,Failed,isResultError,isError]
        · rintro - r' ⟨⟩
          refine ⟨_,rfl,?_⟩
          simpa [taskOf,Task.apply] using partText_keeps describe r.content

end Mcpkit.RemoteAgent
