import Mcpkit.GoMaps

/-!
The pipeline: stages one after the other, each with the data so far and what the one before it returned.
-/
namespace Mcpkit.Pipeline
open GoMaps List

structure StageOutput (V : Type) where
  data : GoMap V := ∅
  status : String
  error : String
  duration : Int
  metadata : GoMap String := ∅

structure StageInput (V : Type) where
  data : GoMap V
  previous : Option (StageOutput V)
  metadata : GoMap String

structure Answer (V : Type) where
  out : Option (StageOutput V)
  err : Option String
  elapsed : Int

/-- A stage may depend on the world, of which its context is a part, and change it. -/
abbrev StageFunc (W V : Type) := StageInput V → W → Answer V × W

/-- `calls` is history: the stages that were invoked, with their inputs and answers. -/
structure Result (V : Type) where
  calls : List (StageInput V × Answer V) := []
  outputs : List (Option (StageOutput V)) := []
  err : Option String := none

variable {W V : Type}

def Result.stageCount (r : Result V) : Nat := r.outputs.length

def mergeData (base : GoMap V) (out : Option (StageOutput V)) : GoMap V :=
  copy (copy ∅ base) (out.elim ∅ (·.data))

def Answer.errOutput (a : Answer V) (err : String) : StageOutput V where
  status := "error"
  error := err
  duration := a.elapsed

def Answer.timed (a : Answer V) : Option (StageOutput V) := a.out.map ({ · with duration := a.elapsed })

def StageInput.pass (current : StageInput V) (a : Answer V) : StageInput V :=
  ⟨mergeData current.data a.timed,a.timed,current.metadata⟩

/-- What a turn of the loop appends to the outputs, and the next input unless it returns. A mode that is none of the
    three falls out of the switch. -/
def turn (mode : String) (current : StageInput V) (a : Answer V) :
    List (Option (StageOutput V)) × Option (StageInput V) :=
  match a.err with
  | none => ([a.timed],current.pass a)
  | some err =>
    let errOutput := a.errOutput err
    if mode = "stop" then ([errOutput],none)
    else if mode = "skip" then ([errOutput],current)
    else if mode = "continue" then ([errOutput],some { current with previous := errOutput })
    else ([errOutput,a.timed],current.pass a)

def Result.after (r : Result V) (call : StageInput V × Answer V) (outputs : List (Option (StageOutput V))) : Result V :=
  ⟨call :: r.calls,outputs ++ r.outputs,r.err⟩

def loop (mode : String) : List (StageFunc W V) → StageInput V → W → Result V
  | [],_,_ => {}
  | stage :: stages,current,w =>
    let (a,w) := stage current w
    match turn mode current a with
    | (outputs,none) => Result.after { err := a.err } (current,a) outputs
    | (outputs,some next) => (loop mode stages next w).after (current,a) outputs

def effective (onStageError : String) : String := if onStageError = "" then "stop" else onStageError

def pipeline (stages : List (StageFunc W V)) (input : StageInput V) (onStageError : String) : W → Result V :=
  loop (effective onStageError) stages input

/-! ### The fold -/

def Answer.entry (a : Answer V) : Option (StageOutput V) := a.err.elim a.timed (a.errOutput ·)

def succeeded (answers : List (Answer V)) : List (Answer V) := answers.filter (·.err = none)

def received (mode : String) (input : StageInput V) (earlier : List (Answer V)) : StageInput V where
  data := copyAll input.data ((succeeded earlier).map (·.out.elim ∅ (·.data)))
  previous := ((if mode = "continue" then earlier else succeeded earlier).getLast?.map (·.entry)).getD input.previous
  metadata := input.metadata

structure Folds (mode : String) (input : StageInput V) (earlier : List (Answer V)) (r : Result V) : Prop where
  outputs : r.outputs = r.calls.map (·.2.entry)
  count : r.stageCount = r.calls.length
  inputs : ∀ k call, r.calls[k]? = some call → call.1 = received mode input (earlier ++ (r.calls.take k).map (·.2))
  stops : mode ≠ "skip" → mode ≠ "continue" → ∀ before call after err, r.calls = before ++ call :: after →
    call.2.err = some err → after = [] ∧ r.err = some err

variable {mode : String} {input : StageInput V} {earlier : List (Answer V)} {a : Answer V} {r : Result V}

theorem mergeData_eq (base : GoMap V) (a : Answer V) : mergeData base a.timed = copy base (a.out.elim ∅ (·.data)) := by
  rw [mergeData,show copy ∅ base = base from Finmap.union_empty,Answer.timed]
  cases a.out <;> rfl

def modes : List String := ["stop","skip","continue"]

theorem turn_known (known : mode ∈ modes ∨ a.err = none) : turn mode (received mode input earlier) a =
    ([a.entry],if mode = "stop" ∧ a.err ≠ none then none else some (received mode input (earlier ++ [a]))) := by
  cases failed : a.err with
  | none =>
    simp [turn,failed,Answer.entry,received,succeeded,StageInput.pass,mergeData_eq,copyAll_concat]
    split_ifs <;> simp [failed]
  | some err =>
    rcases (by simpa [modes,failed] using known : mode = "stop" ∨ mode = "skip" ∨ mode = "continue") with rfl | rfl | rfl
    all_goals simp [turn,failed,Answer.entry,received,succeeded]

theorem turn_unknown (unknown : mode ∉ modes) (current : StageInput V) : ∃ outputs next,
    turn mode current a = (outputs,some next) ∧ outputs.length = 1 + if a.err = none then 0 else 1 := by
  simp only [modes,mem_cons,not_mem_nil,or_false,not_or] at unknown
  cases failed : a.err <;> simp [turn,failed,unknown]

theorem Folds.after (folds : Folds mode input (earlier ++ [a]) r)
    (goes : a.err = none ∨ mode = "skip" ∨ mode = "continue" ∨ r.calls = [] ∧ r.err = a.err) :
    Folds mode input earlier (r.after (received mode input earlier,a) [a.entry]) where
  outputs := by rw [Result.after,folds.outputs]; rfl
  count := congrArg (· + 1) folds.count
  inputs k call found := by
    cases k with
    | zero =>
      cases found
      simp
    | succ k => simpa [Result.after] using folds.inputs k call found
  stops skip continues before call after err split failed := by
    cases before with
    | nil =>
      cases split
      simp_all [Result.after]
    | cons first before => exact folds.stops skip continues before call after err (cons.inj split).2 failed

variable {stages : List (StageFunc W V)} {w : W}

theorem loop_folds (fine : mode ∈ modes ∨ ∀ call ∈ (loop mode stages (received mode input earlier) w).calls,
    call.2.err = none) : Folds mode input earlier (loop mode stages (received mode input earlier) w) := by
  induction stages generalizing earlier w with
  | nil => exact ⟨rfl,rfl,nofun,by simp [loop]⟩
  | cons stage stages ih =>
    rw [loop] at fine ⊢
    generalize stage (received mode input earlier) w = answer at fine ⊢
    obtain ⟨a,w⟩ := answer
    have known : mode ∈ modes ∨ a.err = none := by
      refine fine.imp_right fun each => each (received mode input earlier,a) ?_
      dsimp only
      split <;> exact mem_cons_self
    simp only [turn_known known] at fine ⊢
    by_cases stops : mode = "stop" ∧ a.err ≠ none
    · rw [if_pos stops]
      exact Folds.after ⟨rfl,rfl,nofun,by simp⟩ (.inr (.inr (.inr ⟨rfl,rfl⟩)))
    · rw [if_neg stops] at fine ⊢
      refine (ih (fine.imp_right fun each call later => each call (mem_cons_of_mem _ later))).after ?_
      simp only [modes,mem_cons,not_mem_nil,or_false] at known
      grind

theorem loop_unknown (unknown : mode ∉ modes) : ∀ current (w : W), (loop mode stages current w).outputs.length =
    (loop mode stages current w).calls.length + (loop mode stages current w).calls.countP (·.2.err ≠ none) := by
  induction stages with
  | nil => exact fun _ _ => rfl
  | cons stage stages ih =>
    intro current w
    obtain ⟨outputs,next,turned,length⟩ := turn_unknown (a := (stage current w).1) unknown current
    simp only [loop,turned,Result.after,length_append,length,ih,length_cons,countP_cons]
    split_ifs <;> simp_all <;> omega

def failing : StageFunc Unit Nat := fun _ w => (⟨none,some "no",0⟩,w)

end Mcpkit.Pipeline
