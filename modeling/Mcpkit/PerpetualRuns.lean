import Mathlib.Logic.Function.Basic
import Mcpkit.Transitions

/-!
The handlers that start and stop the perpetual orchestrator.
-/
namespace Mcpkit.PerpetualRuns
open Transitions Function

/-! ### The module and its goroutines -/

/-- The goroutine of a start; `leaving` is past the loop but before the deferred function. -/
inductive Phase where
  | spawned
  | atHead
  | cycling
  | leaving
  | ended
  deriving DecidableEq

/-- `stopCh` is whether the channel is closed, if it has been made. The last two fields are history: the start has
    answered, and a stop was called after that. -/
structure Run where
  phase : Phase
  running : Bool
  stopCh : Option Bool
  cancelled : Bool
  answered : Bool
  asked : Bool
  deriving DecidableEq

/-- The handler that holds `orchMu`: a start before and after its goroutine is spawned, a stop before `Stop` and
    before `cancel`. -/
inductive Holder where
  | free
  | starting
  | started
  | stopping
  | cancelling
  deriving DecidableEq

structure System where
  holder : Holder
  orchState : Option Nat
  next : Nat
  runs : Nat → Run

def fresh : Run := ⟨.spawned,false,none,false,false,false⟩

def init : System := ⟨.free,none,0,fun _ => fresh⟩

def System.update (s : System) (r : Nat) (run : Run) : System := { s with runs := Function.update s.runs r run }

/-- `m.orchState != nil && m.orchState.orchestrator.Running()`. -/
def System.running (s : System) : Bool := s.orchState.any fun r => (s.runs r).running

/-- The history of a stop call: every run whose start has answered and that has not ended. -/
def Run.ask (run : Run) : Run := { run with asked := run.asked || (run.answered && run.phase ≠ .ended) }

def Run.stop (run : Run) : Run :=
  if run.running = true ∧ run.stopCh = some false then { run with stopCh := some true } else run

/-- `starter` is whether a `RalphStarter` is configured, `last` whether the cycle is the last one. -/
inductive Action where
  | startCall (starter : Bool)
  | startSpawn
  | startReturn
  | stopCall
  | stopSignal
  | stopCancel
  | enter (r : Nat)
  | look (r : Nat)
  | finish (r : Nat) (last : Bool)
  | leave (r : Nat)
  deriving DecidableEq

def Phase.looked (run : Run) : Phase := if run.cancelled = true ∨ run.stopCh = some true then .leaving else .cycling

variable (s : System)

def step : Action → Option System
  | .startCall starter =>
    if s.holder = .free then some (if s.running = false ∧ starter = true then { s with holder := .starting } else s)
    else none
  | .startSpawn =>
    if s.holder = .starting then
      some { holder := .started, orchState := some s.next, next := s.next+1, runs := Function.update s.runs s.next fresh }
    else none
  | .startReturn =>
    match s.holder,s.orchState with
    | .started,some r => some { s.update r { s.runs r with answered := true } with holder := .free }
    | _,_ => none
  | .stopCall =>
    if s.holder = .free then
      some { s with
        holder := if s.running then .stopping else .free
        runs := fun r => if r < s.next then (s.runs r).ask else s.runs r }
    else none
  | .stopSignal =>
    match s.holder,s.orchState with
    | .stopping,some r => some { s.update r (s.runs r).stop with holder := .cancelling }
    | _,_ => none
  | .stopCancel =>
    match s.holder,s.orchState with
    | .cancelling,some r => some { s.update r { s.runs r with cancelled := true } with holder := .free }
    | _,_ => none
  | .enter r =>
    if r < s.next ∧ (s.runs r).phase = .spawned then
      some (s.update r { s.runs r with phase := .atHead, running := true, stopCh := some false })
    else none
  | .look r =>
    if r < s.next ∧ (s.runs r).phase = .atHead then some (s.update r { s.runs r with phase := .looked (s.runs r) })
    else none
  | .finish r last =>
    if r < s.next ∧ (s.runs r).phase = .cycling then
      some (s.update r { s.runs r with phase := if last then .leaving else .atHead })
    else none
  | .leave r =>
    if r < s.next ∧ (s.runs r).phase = .leaving then
      some (s.update r { s.runs r with phase := .ended, running := false })
    else none

def own (r : Nat) : Action → Bool
  | .enter r' => r = r'
  | .look r' => r = r'
  | .finish r' _ => r = r'
  | .leave r' => r = r'
  | _ => false

/-! ### What is asked of the handlers -/

def Run.alive (run : Run) : Bool := run.phase = .atHead ∨ run.phase = .cycling ∨ run.phase = .leaving

/-- The run ends: whatever else is done, it has ended after three steps of its goroutine,
    and until then such a step can be taken. -/
def Ends (r : Nat) : Prop :=
  ∀ actions s', exec step free s actions = some s' →
    (3 ≤ (actions.filter (own r)).length → (s'.runs r).phase = .ended) ∧
    ((s'.runs r).phase ≠ .ended → ∃ a, own r a = true ∧ (step s' a).isSome = true)

structure Orderly : Prop where
  single : ∀ r r', r < s.next → r' < s.next → (s.runs r).alive = true → (s.runs r').alive = true →
    (s.runs r).answered = true → (s.runs r').answered = true →
    (s.runs r).asked = false → (s.runs r').asked = false → r = r'
  stopped : ∀ r, r < s.next → (s.runs r).asked = true → s.holder ≠ .stopping → s.holder ≠ .cancelling → Ends s r
  returns : s.holder = .stopping ∨ s.holder = .cancelling → (step s .stopSignal).isSome ∨ (step s .stopCancel).isSome

/-- Neither handler is called while the goroutine of the last start has not entered `Run`. -/
def Entered : Action → Prop
  | .startCall _ => ∀ r, s.orchState = some r → (s.runs r).phase ≠ .spawned
  | .stopCall => ∀ r, s.orchState = some r → (s.runs r).phase ≠ .spawned
  | _ => True

instance decidablePast (s : System) : Decidable (∀ r, s.orchState = some r → (s.runs r).phase ≠ .spawned) :=
  match s.orchState with
  | none => .isTrue nofun
  | some r =>
    decidable_of_iff ((s.runs r).phase ≠ .spawned) ⟨fun past _ is => Option.some.inj is ▸ past,fun all => all r rfl⟩

instance (s : System) : (a : Action) → Decidable (Entered s a)
  | .startCall _ => decidablePast s
  | .stopCall => decidablePast s
  | .startSpawn | .startReturn | .stopSignal | .stopCancel => .isTrue trivial
  | .enter _ | .look _ | .finish _ _ | .leave _ => .isTrue trivial

/-! ### The invariant -/

def Run.signalled (run : Run) : Prop := run.phase ≠ .spawned ∧ (run.cancelled = true ∨ run.stopCh = some true)

structure Run.Sound (run : Run) : Prop where
  flag : run.running = run.alive
  made : run.alive = true → run.stopCh.isSome = true

/-- All runs but the last have ended, and so has that one when the next may start. A run that was asked to stop
    has ended or was signalled, or is about to be. -/
structure Valid : Prop where
  sound : ∀ r, r < s.next → (s.runs r).Sound
  current : ∀ r, s.orchState = some r → r < s.next
  older : ∀ r, r < s.next → s.orchState ≠ some r → (s.runs r).phase = .ended
  starting : s.holder = .starting → ∀ r, r < s.next → (s.runs r).phase = .ended
  stopping : s.holder = .stopping ∨ s.holder = .cancelling → ∃ r, s.orchState = some r ∧ (s.runs r).phase ≠ .spawned
  asked : ∀ r, r < s.next → (s.runs r).asked = true → (s.runs r).phase = .ended ∨ (s.runs r).signalled ∨
    (s.holder = .stopping ∧ s.orchState = some r)

theorem init_valid : Valid init where
  sound r inside := absurd inside (Nat.not_lt_zero r)
  current r is := by cases is
  older r inside := absurd inside (Nat.not_lt_zero r)
  starting holds := by cases holds
  stopping holds := by rcases holds with holds | holds <;> cases holds
  asked r inside := absurd inside (Nat.not_lt_zero r)

theorem update_same (r : Nat) (run : Run) : (s.update r run).runs r = run := update_self ..

variable {r : Nat}

theorem update_other (s : System) {r' : Nat} (run : Run) (other : r' ≠ r) : (s.update r run).runs r' = s.runs r' :=
  update_of_ne other ..

structure Moved (before after : Run) : Prop where
  sound : after.Sound
  asked : after.asked = before.asked
  entered : after.phase ≠ .spawned
  unfinished : before.phase ≠ .ended
  signal : before.phase ≠ .spawned → after.cancelled = before.cancelled ∧ after.stopCh = before.stopCh

variable {s} {run : Run}

theorem Valid.moved (valid : Valid s) (inside : r < s.next)
    (moved : Moved (s.runs r) run) : Valid (s.update r run) := by
  have latest : s.orchState = some r := by
    by_contra other
    exact moved.unfinished (valid.older r inside other)
  have idle : s.holder ≠ .starting := fun holds => moved.unfinished (valid.starting holds r inside)
  refine ⟨?_,valid.current,?_,fun holds => absurd holds idle,?_,?_⟩
  · intro r' inside'
    by_cases same : r' = r
    · rw [same,update_same]; exact moved.sound
    · rw [update_other s run same]; exact valid.sound r' inside'
  · intro r' inside' other
    have same : r' ≠ r := by rintro rfl; exact other latest
    rw [update_other s run same]
    exact valid.older r' inside' other
  · intro holds
    exact ⟨r,latest,by rw [update_same]; exact moved.entered⟩
  · intro r' inside' asked
    by_cases same : r' = r
    · subst same
      rw [update_same] at asked ⊢
      rcases valid.asked r' inside' (moved.asked ▸ asked) with ended | ⟨entered,signal⟩ | pending
      · exact absurd ended moved.unfinished
      · obtain ⟨cancelled,stopCh⟩ := moved.signal entered
        exact .inr (.inl ⟨moved.entered,by rwa [cancelled,stopCh]⟩)
      · exact .inr (.inr pending)
    · rw [update_other s run same] at asked ⊢
      exact valid.asked r' inside' asked

attribute [local simp] Run.alive own

theorem Run.Sound.moved (sound : run.Sound) (alive : run.alive = true) {phase : Phase}
    (later : phase ≠ .spawned) {running : Bool} (flag : running = decide (phase ≠ .ended)) :
    Moved run { run with phase := phase, running := running } where
  sound := ⟨by rw [flag]; cases phase <;> simp at later ⊢,fun _ => sound.made alive⟩
  asked := rfl
  entered := later
  unfinished := by
    intro ended
    simp [ended] at alive
  signal _ := ⟨rfl,rfl⟩

open Phase

theorem looked_cases (run : Run) : looked run = .leaving ∨ looked run = .cycling := by
  unfold looked
  split
  · exact .inl rfl
  · exact .inr rfl

theorem running_iff : s.running = true ↔ ∃ r, s.orchState = some r ∧ (s.runs r).running = true := by
  unfold System.running
  cases s.orchState <;> simp

theorem ended_of_idle (idle : run.alive = false) (entered : run.phase ≠ .spawned) : run.phase = .ended := by
  unfold Run.alive at idle
  cases phase : run.phase with
  | spawned => exact absurd phase entered
  | ended => rfl
  | atHead | cycling | leaving => simp [phase] at idle

theorem Valid.all_ended (valid : Valid s) (entered : ∀ r, s.orchState = some r → (s.runs r).phase ≠ .spawned)
    (quiet : s.running = false) : ∀ r, r < s.next → (s.runs r).phase = .ended := by
  intro r inside
  by_cases latest : s.orchState = some r
  · have still : (s.runs r).running = false := by
      by_contra running
      rw [running_iff.mpr ⟨r,latest,Bool.not_eq_false _ ▸ running⟩] at quiet
      cases quiet
    exact ended_of_idle ((valid.sound r inside).flag.symm.trans still) (entered r latest)
  · exact valid.older r inside latest

theorem Valid.hold (valid : Valid s) {holder : Holder} (calm : s.holder ≠ .stopping)
    (starting : holder = .starting → ∀ r, r < s.next → (s.runs r).phase = .ended)
    (stopping : holder ≠ .stopping ∧ holder ≠ .cancelling) : Valid { s with holder := holder } where
  sound := valid.sound
  current := valid.current
  older := valid.older
  starting := starting
  stopping holds := by
    rcases holds with holds | holds
    · exact absurd holds stopping.1
    · exact absurd holds stopping.2
  asked r inside asked := by
    rcases valid.asked r inside asked with ended | signalled | ⟨holds,-⟩
    · exact .inl ended
    · exact .inr (.inl signalled)
    · exact absurd holds calm

structure Marked (before after : Run) : Prop where
  phase : after.phase = before.phase
  running : after.running = before.running
  asked : after.asked = before.asked
  made : before.stopCh.isSome = true → after.stopCh.isSome = true

theorem stop_marked (run : Run) : Marked run run.stop := by
  unfold Run.stop
  split
  · exact ⟨rfl,rfl,rfl,fun _ => rfl⟩
  · exact ⟨rfl,rfl,rfl,id⟩

theorem stop_signals (sound : run.Sound) (alive : run.alive = true) (entered : run.phase ≠ .spawned) :
    run.stop.signalled := by
  obtain ⟨shut,made⟩ := Option.isSome_iff_exists.mp (sound.made alive)
  refine ⟨(stop_marked run).phase ▸ entered,.inr ?_⟩
  unfold Run.stop
  cases shut with
  | true => rw [if_neg (by simp [made])]; exact made
  | false => rw [if_pos ⟨sound.flag.trans alive,made⟩]

section
variable (valid : Valid s)
include valid

theorem Valid.marked (latest : s.orchState = some r) (run : Run)
    (holder : Holder) (marked : Marked (s.runs r) run) (idle : holder ≠ .starting)
    (stopping : holder = .stopping ∨ holder = .cancelling → (s.runs r).phase ≠ .spawned)
    (asked : (s.runs r).asked = true → holder ≠ .stopping → (s.runs r).phase = .ended ∨ run.signalled) :
    Valid { s.update r run with holder := holder } := by
  have phase := marked.phase
  refine ⟨?_,valid.current,?_,fun holds => absurd holds idle,fun holds => ⟨r,latest,?_⟩,?_⟩
  · intro r' inside'
    by_cases same : r' = r
    · subst same
      have sound := valid.sound r' inside'
      have alive : run.alive = (s.runs r').alive := by unfold Run.alive; rw [phase]
      refine (update_same s r' run).symm ▸ ⟨?_,fun lives => marked.made (sound.made (alive ▸ lives))⟩
      rw [marked.running,sound.flag,alive]
    · rw [show ({ s.update r run with holder := holder } : System).runs r' = _ from update_other s run same]
      exact valid.sound r' inside'
  · intro r' inside' other
    have same : r' ≠ r := by rintro rfl; exact other latest
    exact (congrArg Run.phase (update_other s run same)).trans (valid.older r' inside' other)
  · rw [show ({ s.update r run with holder := holder } : System).runs r = _ from update_same s r run,phase]
    exact stopping holds
  · intro r' inside' wanted
    by_cases same : r' = r
    · subst same
      rw [show ({ s.update r' run with holder := holder } : System).runs r' = _ from update_same s r' run] at wanted ⊢
      rw [phase]
      by_cases stops : holder = .stopping
      · exact .inr (.inr ⟨stops,latest⟩)
      · rcases asked (marked.asked ▸ wanted) stops with ended | signalled
        · exact .inl ended
        · exact .inr (.inl signalled)
    · rw [show ({ s.update r run with holder := holder } : System).runs r' = _ from update_other s run same] at wanted ⊢
      rcases valid.asked r' inside' wanted with ended | signalled | ⟨-,also⟩
      · exact .inl ended
      · exact .inr (.inl signalled)
      · rw [latest,Option.some.injEq] at also
        exact absurd also.symm same

theorem Valid.spawn (holds : s.holder = .starting) :
    Valid ⟨.started,some s.next,s.next+1,Function.update s.runs s.next fresh⟩ := by
  have earlier : ∀ r, r < s.next → Function.update s.runs s.next fresh r = s.runs r :=
    fun r inside => update_of_ne (Nat.ne_of_lt inside) ..
  have split : ∀ r, r < s.next+1 → r = s.next ∨ r < s.next := fun r inside => by omega
  refine ⟨?_,?_,?_,nofun,(fun stops => by rcases stops with h | h <;> cases h),?_⟩
  · intro r inside
    rcases split r inside with rfl | inside'
    · simp only [update_self]
      exact ⟨rfl,fun alive => by cases alive⟩
    · simp only [earlier r inside']
      exact valid.sound r inside'
  · intro r latest
    cases latest
    exact Nat.lt_succ_self _
  · intro r inside other
    rcases split r inside with rfl | inside'
    · exact absurd rfl other
    · simp only [earlier r inside']
      exact valid.starting holds r inside'
  · intro r inside asked
    rcases split r inside with rfl | inside'
    · simp only [update_self] at asked
      cases asked
    · simp only [earlier r inside']
      exact .inl (valid.starting holds r inside')

theorem Valid.call (entered : ∀ r, s.orchState = some r → (s.runs r).phase ≠ .spawned) :
    Valid { s with
      holder := if s.running then .stopping else .free
      runs := fun r => if r < s.next then (s.runs r).ask else s.runs r } := by
  have runs : ∀ r, r < s.next → (if r < s.next then (s.runs r).ask else s.runs r) = (s.runs r).ask :=
    fun r inside => if_pos inside
  refine ⟨?_,valid.current,?_,?_,?_,?_⟩
  · intro r inside
    simp only [runs r inside]
    exact ⟨(valid.sound r inside).flag,(valid.sound r inside).made⟩
  · intro r inside other
    simp only [runs r inside]
    exact valid.older r inside other
  · intro holds
    split at holds <;> cases holds
  · intro holds
    have running : s.running = true := by
      by_contra quiet
      rcases holds with holds | holds <;> simp [quiet] at holds
    obtain ⟨r,latest,-⟩ := running_iff.mp running
    refine ⟨r,latest,?_⟩
    simp only [runs r (valid.current r latest)]
    exact entered r latest
  · intro r inside asked
    simp only [runs r inside] at asked ⊢
    by_cases ended : (s.runs r).phase = .ended
    · exact .inl ended
    · have latest : s.orchState = some r := by
        by_contra other
        exact ended (valid.older r inside other)
      have running : s.running = true := by
        by_contra quiet
        exact ended (valid.all_ended entered (Bool.eq_false_iff.mpr quiet) r inside)
      exact .inr (.inr ⟨by rw [if_pos running],latest⟩)

theorem step_valid {s' : System} (a : Action) (entered : Entered s a) (moved : step s a = some s') :
    Valid s' := by
  cases a with simp only [step,guarded] at moved
  | startCall starter =>
    obtain ⟨unheld,rfl⟩ := moved
    split
    · rename_i quiet
      exact valid.hold (by rw [unheld]; decide) (fun _ => valid.all_ended entered quiet.1) ⟨nofun,nofun⟩
    · exact valid
  | startSpawn =>
    obtain ⟨holds,rfl⟩ := moved
    exact valid.spawn holds
  | startReturn =>
    split at moved
    · rename_i r holds latest
      cases moved
      refine valid.marked latest { s.runs r with answered := true } .free ⟨rfl,rfl,rfl,id⟩ nofun
        (fun stops => by rcases stops with h | h <;> cases h) ?_
      intro asked _
      rcases valid.asked r (valid.current r latest) asked with ended | signalled | ⟨stops,-⟩
      · exact .inl ended
      · exact .inr signalled
      · rw [holds] at stops; cases stops
    · cases moved
  | stopCall =>
    obtain ⟨-,rfl⟩ := moved
    exact valid.call entered
  | stopSignal =>
    split at moved
    · rename_i r holds latest
      cases moved
      obtain ⟨r',latest',past⟩ := valid.stopping (.inl holds)
      cases latest.symm.trans latest'
      have sound := valid.sound r (valid.current r latest)
      refine valid.marked latest (s.runs r).stop .cancelling (stop_marked (s.runs r)) nofun (fun _ => past)
        (fun _ _ => ?_)
      by_cases alive : (s.runs r).alive = true
      · exact .inr (stop_signals sound alive past)
      · exact .inl (ended_of_idle (Bool.eq_false_iff.mpr alive) past)
    · cases moved
  | stopCancel =>
    split at moved
    · rename_i r holds latest
      cases moved
      obtain ⟨r',latest',past⟩ := valid.stopping (.inr holds)
      cases latest.symm.trans latest'
      exact valid.marked latest { s.runs r with cancelled := true } .free ⟨rfl,rfl,rfl,id⟩ nofun
        (fun stops => by rcases stops with h | h <;> cases h) fun _ _ => .inr ⟨past,.inl rfl⟩
    · cases moved
  | enter r =>
    obtain ⟨⟨inside,phase⟩,rfl⟩ := moved
    exact valid.moved inside ⟨⟨rfl,fun _ => rfl⟩,rfl,nofun,by rw [phase]; nofun,fun other => absurd phase other⟩
  | look r =>
    obtain ⟨⟨inside,phase⟩,rfl⟩ := moved
    have sound := valid.sound r inside
    have alive : (s.runs r).alive = true := by simp [phase]
    refine valid.moved inside (sound.moved alive ?_ (sound.flag.trans (alive.trans ?_)))
    · rcases looked_cases (s.runs r) with next | next <;> rw [next] <;> nofun
    · rcases looked_cases (s.runs r) with next | next <;> rw [next] <;> rfl
  | finish r last =>
    obtain ⟨⟨inside,phase⟩,rfl⟩ := moved
    have sound := valid.sound r inside
    have alive : (s.runs r).alive = true := by simp [phase]
    refine valid.moved inside (sound.moved alive ?_ (sound.flag.trans (alive.trans ?_)))
    · cases last <;> nofun
    · cases last <;> rfl
  | leave r =>
    obtain ⟨⟨inside,phase⟩,rfl⟩ := moved
    have last : ended ≠ .spawned := nofun
    exact valid.moved inside ((valid.sound r inside).moved (by simp [phase]) last rfl)

end

/-! ### The end of a run -/

def Phase.left : Phase → Nat
  | .spawned => 0
  | .cycling => 3
  | .atHead => 2
  | .leaving => 1
  | .ended => 0

def Run.due (run : Run) : Prop :=
  run.phase ≠ .spawned ∧ (run.phase ≠ .ended → run.cancelled = true ∨ run.stopCh = some true)

/-- The run is still due, and has made so many steps towards its end. -/
def Nearer (steps : Nat) (before after : Run) : Prop := after.due ∧ after.phase.left+steps ≤ before.phase.left

theorem due_kept {before after : Run} (due : before.due) (phase : after.phase = before.phase)
    (signals : before.cancelled = true ∨ before.stopCh = some true → after.cancelled = true ∨ after.stopCh = some true) :
    Nearer 0 before after :=
  ⟨⟨phase ▸ due.1,fun unfinished => signals (due.2 (phase ▸ unfinished))⟩,by rw [phase]; exact Nat.le_refl _⟩

theorem due_update {r' : Nat} {steps : Nat} (due : (s.runs r).due) (mine : r ≠ r' → steps = 0)
    (touched : r = r' → Nearer steps (s.runs r') run) : Nearer steps (s.runs r) ((s.update r' run).runs r) := by
  by_cases same : r = r'
  · subst same
    rw [update_same]
    exact touched rfl
  · rw [update_other s run same,mine same]
    exact due_kept due rfl id

theorem stop_signals_kept (signals : run.cancelled = true ∨ run.stopCh = some true) :
    run.stop.cancelled = true ∨ run.stop.stopCh = some true := by
  unfold Run.stop
  split
  · exact .inr rfl
  · exact signals

/-- A run that is due gets closer to its end with each of its own steps, and is not thrown back by others. -/
theorem due_step {s' : System} (inside : r < s.next) (due : (s.runs r).due) {a : Action}
    (moved : step s a = some s') : r < s'.next ∧ Nearer (if own r a then 1 else 0) (s.runs r) (s'.runs r) := by
  have still : Nearer 0 (s.runs r) (s.runs r) := due_kept due rfl id
  have other : ∀ r', r ≠ r' → (if decide (r = r') = true then 1 else 0) = 0 := fun r' differs => by simp [differs]
  cases a with simp only [step,guarded] at moved
  | startCall starter =>
    obtain ⟨-,rfl⟩ := moved
    split <;> exact ⟨inside,still⟩
  | startSpawn =>
    obtain ⟨-,rfl⟩ := moved
    simp only [update_of_ne (Nat.ne_of_lt inside)]
    exact ⟨Nat.lt_succ_of_lt inside,still⟩
  | stopCall =>
    obtain ⟨-,rfl⟩ := moved
    simp only [if_pos inside]
    exact ⟨inside,due_kept due rfl id⟩
  | startReturn =>
    split at moved
    · cases moved
      refine ⟨inside,due_update due (fun _ => rfl) ?_⟩
      rintro rfl
      exact due_kept due rfl id
    · cases moved
  | stopSignal =>
    split at moved
    · cases moved
      refine ⟨inside,due_update due (fun _ => rfl) ?_⟩
      rintro rfl
      exact due_kept due (stop_marked _).phase stop_signals_kept
    · cases moved
  | stopCancel =>
    split at moved
    · cases moved
      refine ⟨inside,due_update due (fun _ => rfl) ?_⟩
      rintro rfl
      exact due_kept due rfl fun _ => .inl rfl
    · cases moved
  | enter r' =>
    obtain ⟨⟨-,phase⟩,rfl⟩ := moved
    refine ⟨inside,due_update due (other r') ?_⟩
    rintro rfl
    exact absurd phase due.1
  | look r' =>
    obtain ⟨⟨-,phase⟩,rfl⟩ := moved
    refine ⟨inside,due_update due (other r') ?_⟩
    rintro rfl
    have signals := due.2 (by rw [phase]; nofun)
    have seen : looked (s.runs r) = .leaving := by rw [looked,if_pos signals]
    rw [seen]
    exact ⟨⟨nofun,fun _ => signals⟩,by simp [left,phase]⟩
  | finish r' last =>
    obtain ⟨⟨-,phase⟩,rfl⟩ := moved
    refine ⟨inside,due_update due (other r') ?_⟩
    rintro rfl
    have signals := due.2 (by rw [phase]; nofun)
    cases last
    · exact ⟨⟨nofun,fun _ => signals⟩,by simp [left,phase]⟩
    · exact ⟨⟨nofun,fun _ => signals⟩,by simp [left,phase]⟩
  | leave r' =>
    obtain ⟨⟨-,phase⟩,rfl⟩ := moved
    refine ⟨inside,due_update due (other r') ?_⟩
    rintro rfl
    exact ⟨⟨nofun,fun unfinished => absurd rfl unfinished⟩,by simp [left,phase]⟩

theorem due_exec (actions : List Action) : ∀ {s s' : System}, r < s.next → (s.runs r).due →
    exec step free s actions = some s' →
      r < s'.next ∧ Nearer (actions.filter (own r)).length (s.runs r) (s'.runs r) := by
  induction actions with
  | nil =>
    intro s s' inside due executed
    cases executed
    exact ⟨inside,due_kept due rfl id⟩
  | cons a rest ih =>
    intro s s' inside due executed
    obtain ⟨-,t,moved,later⟩ := exec_cons executed
    obtain ⟨inside',due',nearer⟩ := due_step inside due moved
    obtain ⟨inside'',due'',nearer'⟩ := ih inside' due' later
    refine ⟨inside'',due'',?_⟩
    rw [List.filter_cons]
    split <;> simp_all <;> omega

theorem Phase.left_le (phase : Phase) : phase.left ≤ 3 := by cases phase <;> decide

theorem Phase.left_pos {phase : Phase} (entered : phase ≠ .spawned) (unfinished : phase ≠ .ended) : 1 ≤ phase.left := by
  cases phase <;> first | decide | contradiction

theorem own_enabled (inside : r < s.next) (unfinished : (s.runs r).phase ≠ .ended) :
    ∃ a, own r a = true ∧ (step s a).isSome = true := by
  cases phase : (s.runs r).phase with
  | spawned => exact ⟨.enter r,by simp,by simp [step,inside,phase]⟩
  | atHead => exact ⟨.look r,by simp,by simp [step,inside,phase]⟩
  | cycling => exact ⟨.finish r true,by simp,by simp [step,inside,phase]⟩
  | leaving => exact ⟨.leave r,by simp,by simp [step,inside,phase]⟩
  | ended => exact absurd phase unfinished

theorem due_ends (inside : r < s.next) (due : (s.runs r).due) : Ends s r := by
  intro actions s' executed
  obtain ⟨inside',due',nearer⟩ := due_exec actions inside due executed
  refine ⟨fun many => ?_,own_enabled inside'⟩
  have bound := left_le (s.runs r).phase
  by_contra unfinished
  have pos := left_pos due'.1 unfinished
  omega

theorem Valid.due (valid : Valid s) (inside : r < s.next) (asked : (s.runs r).asked = true)
    (calm : s.holder ≠ .stopping) : (s.runs r).due := by
  rcases valid.asked r inside asked with ended | ⟨entered,signals⟩ | ⟨stops,-⟩
  · exact ⟨by rw [ended]; nofun,fun unfinished => absurd ended unfinished⟩
  · exact ⟨entered,fun _ => signals⟩
  · exact absurd stops calm

theorem alive_unfinished (alive : run.alive = true) : run.phase ≠ .ended := by
  intro ended
  simp [ended] at alive

theorem Valid.orderly (valid : Valid s) : Orderly s where
  single r r' inside inside' alive alive' _ _ _ _ := by
    -- only the run of the last start can be alive
    have latest : ∀ q, q < s.next → (s.runs q).alive = true → s.orchState = some q := by
      intro q within lives
      by_contra other
      exact alive_unfinished lives (valid.older q within other)
    exact Option.some.inj ((latest r inside alive).symm.trans (latest r' inside' alive'))
  stopped r inside asked calm _ := due_ends inside (valid.due inside asked calm)
  returns holds := by
    obtain ⟨r,latest,-⟩ := valid.stopping holds
    rcases holds with holds | holds
    · exact .inl (by simp [step,holds,latest])
    · exact .inr (by simp [step,holds,latest])

/-- If each call of a handler finds the goroutine of the last start in `Run`, at most one
    orchestrator runs, and a stop ends it. -/
theorem entered_orderly {s : System} (reached : Reachable step Entered init s) : Orderly s :=
  (reached.invariant init_valid fun _ a _ valid entered moved => step_valid valid a entered moved).orderly

theorem entered_orderly_stop : Orderly ((exec step Entered init
      [.startCall true,.startSpawn,.startReturn,.enter 0,.look 0,.startCall true,.stopCall,.stopSignal,
        .stopCancel]).getD init) :=
  entered_orderly (exec_getD_reachable _ rfl)

/-- Two starts before the goroutine of the first has entered `Run` both run; a stop in that time does nothing. -/
theorem early_calls_disorderly :
    (∃ s, Reachable step free init s ∧ s.holder = .free ∧ (s.runs 0).alive ∧ (s.runs 1).alive ∧ ¬ Orderly s) ∧
    (∃ s, Reachable step free init s ∧ s.holder = .free ∧ (s.runs 0).asked ∧ ¬ Ends s 0) := by
  refine ⟨⟨_,exec_reachable [.startCall true,.startSpawn,.startReturn,.startCall true,.startSpawn,.startReturn,
      .enter 0,.enter 1] .start rfl,rfl,rfl,rfl,fun orderly => ?_⟩,
    ⟨_,exec_reachable [.startCall true,.startSpawn,.startReturn,.stopCall] .start rfl,rfl,rfl,fun ends => ?_⟩⟩
  · exact absurd (orderly.single 0 1 (by decide) (by decide) rfl rfl rfl rfl rfl rfl) (by decide)
  · exact absurd ((ends [.enter 0,.look 0,.finish 0 false] _ rfl).1 (by decide)) nofun

end Mcpkit.PerpetualRuns
