import Mathlib
import Mcpkit.DispatcherModel

/-!
What holds in every state of the dispatcher, over all interleavings.
-/
namespace Mcpkit.DispatcherInvariants
open GoMaps DispatcherQueue DispatcherModel Transitions
variable {T : Type}

def jobs (role : Phase T → Option (Job T)) (workers : List (Phase T)) : List (Job T) := workers.filterMap role

def ofGroup (g : String) (job : Job T) : Bool := decide (job.group = g ∧ g ≠ "")

/-! ### Moving one worker -/

variable {workers : List (Phase T)} {w : Nat}

open List hiding count getElem?_eq_some_iff

private theorem worker_split {old : Phase T} (at_w : workers[w]? = some old) :
    ∃ rest, workers.Perm (old :: rest) ∧ ∀ new, (workers.set w new).Perm (new :: rest) := by
  obtain ⟨inside,same⟩ := List.getElem?_eq_some_iff.mp at_w
  refine ⟨workers.eraseIdx w,?_,fun new => set_perm_cons_eraseIdx inside new⟩
  rw [← same]
  exact (getElem_cons_eraseIdx_perm inside).symm

private theorem jobs_set {old : Phase T} (at_w : workers[w]? = some old)
    (new : Phase T) (role : Phase T → Option (Job T)) : ∃ rest, (jobs role workers).Perm ((role old).toList ++ rest) ∧
      (jobs role (workers.set w new)).Perm ((role new).toList ++ rest) := by
  obtain ⟨rest,before,after⟩ := worker_split at_w
  refine ⟨rest.filterMap role,?_,?_⟩
  · refine (before.filterMap role).trans ?_
    cases found : role old <;> simp [found]
  · refine ((after new).filterMap role).trans ?_
    cases found : role new <;> simp [found]

open Phase

private theorem jobs_wake (workers : List (Phase T)) (role : Phase T → Option (Job T))
    (idle : role .waiting = role .ready) : jobs role (workers.map wake) = jobs role workers := by
  simp only [jobs,filterMap_map]
  congr 1
  funext phase
  cases phase <;> simp [wake,idle]

private theorem held_executing (workers : List (Phase T)) (none : jobs finishing workers = []) :
    jobs held workers = jobs executing workers := by
  rw [jobs,filterMap_eq_nil_iff] at none
  apply filterMap_congr
  intro phase member
  have past := none phase member
  cases phase <;> first | rfl | cases past

/-! ### The queue -/

structure Ordered (cfg : Settings T) (d : Dispatcher T) : Prop where
  heap : BinaryHeap.Heap Job.less d.queue
  room : d.queue.length ≤ cfg.queueSize

variable {job : Job T}

open BinaryHeap

private theorem remove_length {queue : List (Job T)} (heap : BinaryHeap.Heap Job.less queue) {i : Nat}
    (found : queue[i]? = some job) : queue.length = (remove Job.less queue i).length+1 :=
  (remove_perm less_strictWeak heap found).length_eq

variable {cfg : Settings T} {d d' : Dispatcher T} {a : Action T}

attribute [local simp] Dispatcher.move Dispatcher.broadcast

open Dispatcher

theorem Ordered.step (ordered : Ordered cfg d) (stepped : Stepped cfg d a d') : Ordered cfg d' := by
  cases stepped with
  | accepted tool priority group job seq new opened room =>
    refine ⟨push_heap less_strictWeak ordered.heap job,?_⟩
    have size : (push Job.less d.queue job).length = d.queue.length+1 := (push_perm _ _).length_eq
    simp only [broadcast,size]
    omega
  | took w i job idle first =>
    have size := remove_length ordered.heap first.found
    have room := ordered.room
    exact ⟨remove_heap less_strictWeak ordered.heap first.found,by simp only [move]; omega⟩
  | _ => exact ⟨ordered.heap,ordered.room⟩

/-! ### The groups -/

structure Grouped (cfg : Settings T) (d : Dispatcher T) : Prop where
  limits : d.groups.limits = cfg.groupLimits
  active : ∀ g, count d.groups.active g = (jobs Phase.held d.workers).countP (ofGroup g)
  capped : ∀ g limit, cfg.groupLimits.lookup g = some limit → 0 < limit → count d.groups.active g ≤ limit

section
variable (grouped : Grouped cfg d)
include grouped

private theorem Grouped.keep
    (groups : d'.groups = d.groups) (held : (jobs held d'.workers).Perm (jobs held d.workers)) : Grouped cfg d' := by
  refine ⟨groups ▸ grouped.limits,?_,groups ▸ grouped.capped⟩
  intro g
  rw [groups,grouped.active,held.countP_eq]

private theorem Grouped.acquire
    (eligible : d.groups.canAcquire job.group = true) (groups : d'.groups = d.groups.acquire job.group)
    (held : (jobs held d'.workers).Perm (job :: jobs held d.workers)) : Grouped cfg d' := by
  refine ⟨by rw [groups,acquire_limits,grouped.limits],?_,?_⟩
  · intro g
    rw [groups,acquire_count,grouped.active,held.countP_eq,countP_cons]
    by_cases member : job.group = g ∧ g ≠ ""
    · simp [ofGroup,member]
    · simp [ofGroup,member]
  · intro g limit limited positive
    have below := grouped.capped g limit limited positive
    rw [groups,acquire_count]
    split
    · rename_i member
      obtain ⟨rfl,named⟩ := member
      have unfilled : ¬ d.groups.canAcquire job.group = false := by simp [eligible]
      rw [full_iff] at unfilled
      have notFull : ¬ limit ≤ count d.groups.active job.group :=
        fun full => unfilled ⟨named,limit,grouped.limits ▸ limited,positive,full⟩
      omega
    · omega

private theorem Grouped.release (groups : d'.groups = d.groups.release job.group)
    (held : (jobs held d.workers).Perm (job :: jobs held d'.workers)) : Grouped cfg d' := by
  have some : job.group ≠ "" → 0 < count d.groups.active job.group := by
    intro named
    rw [grouped.active,held.countP_eq,countP_cons]
    simp only [ofGroup,named,ne_eq,not_false_eq_true,and_self,decide_true,↓reduceIte]
    omega
  refine ⟨by rw [groups,release_limits,grouped.limits],?_,?_⟩
  · intro g
    rw [groups,release_count _ _ _ some,grouped.active,held.countP_eq,countP_cons]
    by_cases member : job.group = g ∧ g ≠ ""
    · simp [ofGroup,member]
    · simp [ofGroup,member]
  · intro g limit limited positive
    have below := grouped.capped g limit limited positive
    rw [groups,release_count _ _ _ some]
    split <;> omega

theorem Grouped.step (stepped : Stepped cfg d a d') : Grouped cfg d' := by
  cases stepped with
  | rejected tool priority group message reason => exact grouped.keep rfl (.refl _)
  | accepted tool priority group job seq new opened room => exact grouped.keep rfl (.of_eq (jobs_wake _ held rfl))
  | shutdown => exact grouped.keep rfl (.of_eq (jobs_wake _ held rfl))
  | took w i job idle first =>
    obtain ⟨rest,before,after⟩ := jobs_set idle (.running job) held
    exact grouped.acquire first.eligible rfl (after.trans (before.symm.cons job))
  | left w idle closed empty =>
    obtain ⟨rest,before,after⟩ := jobs_set idle .exited held
    exact grouped.keep rfl (after.trans before.symm)
  | slept w idle blocked reason =>
    obtain ⟨rest,before,after⟩ := jobs_set idle .waiting held
    exact grouped.keep rfl (after.trans before.symm)
  | handled w job failed total busy =>
    obtain ⟨rest,before,after⟩ := jobs_set busy (.handled job) held
    exact grouped.keep rfl (after.trans before.symm)
  | sent w job busy =>
    obtain ⟨rest,before,after⟩ := jobs_set busy (.sent job) held
    exact grouped.keep rfl (after.trans before.symm)
  | released w job busy =>
    obtain ⟨rest,before,after⟩ := jobs_set busy .ready held
    exact grouped.release rfl (before.trans ((after.symm.trans (.of_eq (jobs_wake _ held rfl).symm)).cons job))

end

/-! ### The jobs -/

/-- Every accepted job is in one place: queued, with a worker, or answered. -/
structure Logged (d : Dispatcher T) : Prop where
  fresh : ∀ id ∈ d.accepted, id < d.calls
  distinct : d.accepted.Nodup
  accepted : d.accepted.Perm (d.queue.map (·.id) ++ d.started)
  started : d.started.Perm ((jobs Phase.unsent d.workers).map (·.id) ++ d.answered)
  submitted : d.submitted = d.accepted.length
  completed : d.started.length = (jobs Phase.executing d.workers).length+d.completed

private theorem Logged.keep (logged : Logged d) (workers : List (Phase T)) (groups : GroupManager)
    (closed : Bool) (unsent : (jobs unsent workers).Perm (jobs unsent d.workers))
    (executing : (jobs executing workers).Perm (jobs executing d.workers)) :
    Logged { d with workers := workers, groups := groups, closed := closed } where
  fresh := logged.fresh
  distinct := logged.distinct
  accepted := logged.accepted
  started := logged.started.trans ((unsent.symm.map _).append_right _)
  submitted := logged.submitted
  completed := logged.completed.trans (by rw [← executing.length_eq])

private theorem perm_shift (id : Nat) (first second : List Nat) :
    ((id :: first) ++ second).Perm (first ++ (second ++ [id])) := by
  rw [← append_assoc]
  exact (perm_append_singleton id _).symm

private theorem Logged.accept (logged : Logged d) (new : job.id = d.calls) (seq : Nat) :
    Logged (broadcast { d with
      calls := d.calls+1
      seq := seq
      queue := push Job.less d.queue job
      submitted := d.submitted+1
      accepted := d.accepted ++ [job.id] }) := by
  have unused : d.calls ∉ d.accepted := fun member => Nat.lt_irrefl _ (logged.fresh _ member)
  rw [new]
  refine ⟨?_,?_,?_,?_,?_,?_⟩
  · exact forall_mem_snoc (fun id old => Nat.lt_succ_of_lt (logged.fresh id old)) (Nat.lt_succ_self _)
  · exact nodup_append.mpr ⟨logged.distinct,by simp,fun a old b last same => by
      rw [mem_singleton.mp last] at same
      exact unused (same ▸ old)⟩
  · have pushed : (push Job.less d.queue job).Perm (job :: d.queue) := push_perm _ _
    have queued := (pushed.map (·.id)).append_right d.started
    rw [map_cons,new] at queued
    exact ((perm_append_singleton _ _).trans (logged.accepted.cons _)).trans queued.symm
  · simp only [broadcast,jobs_wake _ unsent rfl]
    exact logged.started
  · simp [logged.submitted]
  · simp only [broadcast,jobs_wake _ executing rfl]
    exact logged.completed

theorem Logged.step (ordered : Ordered cfg d) (logged : Logged d) (stepped : Stepped cfg d a d') : Logged d' := by
  have moves {w : Nat} {old : Phase T} (at_w : d.workers[w]? = some old) (new : Phase T) :=
    And.intro (jobs_set at_w new unsent) (jobs_set at_w new executing)
  cases stepped with
  | rejected tool priority group message reason =>
    exact { logged with fresh := fun id member => Nat.lt_succ_of_lt (logged.fresh id member) }
  | accepted tool priority group job seq new opened room => exact logged.accept new seq
  | shutdown =>
    exact logged.keep _ _ _ (.of_eq (jobs_wake d.workers unsent rfl)) (.of_eq (jobs_wake d.workers executing rfl))
  | took w i job idle first =>
    obtain ⟨⟨rest,before,after⟩,⟨rest',before',after'⟩⟩ := moves idle (.running job)
    have taken := (remove_perm less_strictWeak ordered.heap first.found).map (·.id)
    refine ⟨logged.fresh,logged.distinct,?_,?_,logged.submitted,?_⟩
    · exact logged.accepted.trans ((taken.append_right d.started).trans (perm_shift job.id _ _))
    · refine (perm_append_singleton job.id d.started).trans ((logged.started.cons job.id).trans ?_)
      exact ((after.trans (before.symm.cons job)).symm.map (·.id)).append_right d.answered
    · have size := logged.completed
      have grown := (after'.trans (before'.symm.cons job)).length_eq
      simp only [move,length_append,length_cons,length_nil] at grown ⊢
      omega
  | left w idle closed empty =>
    obtain ⟨⟨rest,before,after⟩,⟨rest',before',after'⟩⟩ := moves idle .exited
    exact logged.keep _ _ _ (after.trans before.symm) (after'.trans before'.symm)
  | slept w idle blocked reason =>
    obtain ⟨⟨rest,before,after⟩,⟨rest',before',after'⟩⟩ := moves idle .waiting
    exact logged.keep _ _ _ (after.trans before.symm) (after'.trans before'.symm)
  | handled w job failed total busy =>
    obtain ⟨⟨rest,before,after⟩,⟨rest',before',after'⟩⟩ := moves busy (.handled job)
    refine ⟨logged.fresh,logged.distinct,logged.accepted,?_,logged.submitted,?_⟩
    · exact logged.started.trans (((after.trans before.symm).symm.map _).append_right _)
    · have size := logged.completed
      have shrunk := (before'.trans (after'.symm.cons job)).length_eq
      simp only [move,length_cons] at shrunk ⊢
      omega
  | sent w job busy =>
    obtain ⟨⟨rest,before,after⟩,⟨rest',before',after'⟩⟩ := moves busy (.sent job)
    refine ⟨logged.fresh,logged.distinct,logged.accepted,?_,logged.submitted,?_⟩
    · refine logged.started.trans ?_
      exact (((before.trans (after.symm.cons job)).map (·.id)).append_right d.answered).trans (perm_shift job.id _ _)
    · exact logged.completed.trans (by rw [← (after'.trans before'.symm).length_eq]; rfl)
  | released w job busy =>
    obtain ⟨⟨rest,before,after⟩,⟨rest',before',after'⟩⟩ := moves busy .ready
    refine logged.keep _ _ _ (.trans (.of_eq ?_) (after.trans before.symm)) (.trans (.of_eq ?_) (after'.trans before'.symm))
    · exact jobs_wake (d.workers.set w .ready) unsent rfl
    · exact jobs_wake (d.workers.set w .ready) executing rfl

/-! ### The workers -/

structure Alert (cfg : Settings T) (d : Dispatcher T) : Prop where
  staffed : d.workers.length = cfg.workers.toNat
  exits : .exited ∈ d.workers → d.closed = true ∧ d.queue = []
  awake : .waiting ∈ d.workers → ∀ job ∈ d.queue, d.groups.canAcquire job.group = false

private theorem waiting_wake (workers : List (Phase T)) : .waiting ∉ workers.map wake := by
  intro member
  obtain ⟨phase,-,woken⟩ := mem_map.mp member
  cases phase <;> cases woken

private theorem exited_wake (member : .exited ∈ workers.map wake) : .exited ∈ workers := by
  obtain ⟨phase,old,woken⟩ := mem_map.mp member
  cases phase <;> first | exact old | cases woken

private theorem mem_set {phase new : Phase T} (member : phase ∈ workers.set w new)
    (other : phase ≠ new) : phase ∈ workers :=
  (mem_or_eq_of_mem_set member).resolve_right other

theorem Alert.step (alert : Alert cfg d) (stepped : Stepped cfg d a d') : Alert cfg d' := by
  have size := alert.staffed
  cases stepped with
  | rejected tool priority group message reason => exact ⟨size,alert.exits,alert.awake⟩
  | accepted tool priority group job seq new opened room =>
    refine ⟨by simp [size],fun gone => ?_,fun asleep => absurd asleep (waiting_wake d.workers)⟩
    exact absurd (alert.exits (exited_wake gone)).1 (by simp [opened])
  | shutdown =>
    exact ⟨by simp [size],fun gone => ⟨rfl,(alert.exits (exited_wake gone)).2⟩,
      fun asleep => absurd asleep (waiting_wake d.workers)⟩
  | took w i job idle first =>
    have member := mem_of_getElem? first.found
    refine ⟨by simp [size],fun gone => ?_,fun asleep => ?_⟩
    · rw [(alert.exits (mem_set gone (by simp))).2] at member
      cases member
    · exact absurd first.eligible (by simp [alert.awake (mem_set asleep (by simp)) job member])
  | left w idle closed empty =>
    exact ⟨by simp [size],fun _ => ⟨closed,empty⟩,fun asleep => alert.awake (mem_set asleep (by simp))⟩
  | slept w idle blocked reason =>
    exact ⟨by simp [size],fun gone => alert.exits (mem_set gone (by simp)),fun _ => blocked⟩
  | handled w job failed total busy | sent w job busy =>
    exact ⟨by simp [size],fun gone => alert.exits (mem_set gone (by simp)),
      fun asleep => alert.awake (mem_set asleep (by simp))⟩
  | released w job busy =>
    exact ⟨by simp [size],
      fun gone => alert.exits (mem_set (exited_wake gone) (by simp)),
      fun asleep => absurd asleep (waiting_wake _)⟩

/-! ### Every reachable state -/

structure Valid (cfg : Settings T) (d : Dispatcher T) : Prop where
  ordered : Ordered cfg d
  grouped : Grouped cfg d
  logged : Logged d
  alert : Alert cfg d

private theorem jobs_replicate (role : Phase T → Option (Job T)) (idle : role .ready = none) (n : Nat) :
    jobs role (replicate n .ready) = [] := by
  simp [jobs,idle]

theorem valid_new (cfg : Settings T) : Valid cfg (new cfg) where
  ordered := ⟨by intro j inside; simp [new] at inside,by simpa [new] using cfg.room.le⟩
  grouped := by
    refine ⟨rfl,fun g => ?_,fun g limit limited positive => ?_⟩
    · simp [new,newGroupManager,jobs_replicate held rfl]
    · simpa [new,newGroupManager] using positive.le
  logged := by
    refine ⟨by simp [new],by simp [new],by simp [new],?_,rfl,?_⟩
    · simp [new,jobs_replicate unsent rfl]
    · simp [new,jobs_replicate executing rfl]
  alert := by
    refine ⟨by simp [new],fun gone => ?_,fun asleep => ?_⟩
    · cases eq_of_mem_replicate gone
    · cases eq_of_mem_replicate asleep

theorem Valid.step (valid : Valid cfg d) (stepped : Stepped cfg d a d') : Valid cfg d' :=
  ⟨valid.ordered.step stepped,valid.grouped.step stepped,valid.logged.step valid.ordered stepped,
    valid.alert.step stepped⟩

theorem reachable_valid (cfg : Settings T) (reached : Reachable (step cfg) free (new cfg) d) : Valid cfg d :=
  reached.invariant (valid_new cfg) fun _ _ _ valid _ moved => valid.step (step_cases moved)

/-! ### The workers come to an end -/

def ByWorker : Action T → Prop
  | .pick _ => True
  | .handle _ _ => True
  | .send _ => True
  | .release _ => True
  | _ => False

def weight : Phase T → Nat
  | .running _ => 3
  | .handled _ => 2
  | .sent _ => 1
  | _ => 0

def looks : Phase T → Bool
  | .ready => true
  | _ => false

def work (d : Dispatcher T) : Nat := 4*d.queue.length+(d.workers.map weight).sum

/-- The steps left for the jobs come first, then the workers that are about to look at the queue. -/
def rank (d : Dispatcher T) : Nat := (d.workers.length+1)*work d+d.workers.countP looks

private theorem rank_work (size : d'.workers.length = d.workers.length) (less : work d' < work d) :
    rank d' < rank d := by
  have few : d'.workers.countP looks ≤ d'.workers.length := countP_le_length
  have more : (d.workers.length+1)*(work d'+1) ≤ (d.workers.length+1)*work d := Nat.mul_le_mul_left _ less
  rw [Nat.mul_add] at more
  unfold rank
  rw [size] at few ⊢
  omega

private theorem rank_looks (size : d'.workers.length = d.workers.length) (same : work d' = work d)
    (less : d'.workers.countP looks < d.workers.countP looks) : rank d' < rank d := by
  unfold rank
  rw [size,same]
  omega

private theorem weight_set {old : Phase T} (at_w : workers[w]? = some old) (new : Phase T) :
    ((workers.set w new).map weight).sum+weight old = (workers.map weight).sum+weight new := by
  obtain ⟨rest,before,after⟩ := worker_split at_w
  rw [((after new).map _).sum_eq,(before.map _).sum_eq,map_cons,map_cons,sum_cons,sum_cons]
  omega

private theorem looks_set (at_w : workers[w]? = some .ready) {new : Phase T}
    (away : looks new = false) : (workers.set w new).countP looks < workers.countP looks := by
  obtain ⟨rest,before,after⟩ := worker_split at_w
  have looked : looks (.ready : Phase T) = true := rfl
  rw [(after new).countP_eq,before.countP_eq,countP_cons,countP_cons]
  simp [away,looked]

private theorem weight_wake (workers : List (Phase T)) :
    ((workers.map wake).map weight).sum = (workers.map weight).sum := by
  rw [map_map]
  congr 1
  apply map_congr_left
  intro phase _
  cases phase <;> rfl

theorem rank_step (ordered : Ordered cfg d)
    (byWorker : ByWorker a) (stepped : Stepped cfg d a d') : rank d' < rank d := by
  cases stepped with
  | rejected tool priority group message reason => cases byWorker
  | accepted tool priority group job seq new opened room | shutdown => cases byWorker
  | took w i job idle first =>
    refine rank_work (by simp) ?_
    have shorter := remove_length ordered.heap first.found
    have moved := weight_set idle (.running job)
    simp only [work,move,weight] at moved ⊢
    omega
  | left w idle closed empty =>
    have moved := weight_set idle .exited
    refine rank_looks (by simp) ?_ (looks_set idle rfl)
    simp only [work,move,weight] at moved ⊢
    omega
  | slept w idle blocked reason =>
    have moved := weight_set idle .waiting
    refine rank_looks (by simp) ?_ (looks_set idle rfl)
    simp only [work,move,weight] at moved ⊢
    omega
  | handled w job failed total busy =>
    refine rank_work (by simp) ?_
    have moved := weight_set busy (.handled job)
    simp only [work,move,weight] at moved ⊢
    omega
  | sent w job busy =>
    refine rank_work (by simp) ?_
    have moved := weight_set busy (.sent job)
    simp only [work,move,weight] at moved ⊢
    omega
  | released w job busy =>
    refine rank_work (by simp) ?_
    have moved := weight_set busy .ready
    simp only [work,move,broadcast,weight_wake,weight] at moved ⊢
    omega

theorem worker_steps_bounded (cfg : Settings T) (valid : Valid cfg d) {actions : List (Action T)}
    (byWorkers : ∀ a ∈ actions, ByWorker a) (executed : exec (step cfg) free d actions = some d') :
    actions.length ≤ rank d := by
  have lower : ∀ s a s', Valid cfg s → ByWorker a → step cfg s a = some s' → Valid cfg s' ∧ rank s' < rank s := by
    intro s a s' valid byWorker moved
    exact ⟨valid.step (step_cases moved),rank_step valid.ordered byWorker (step_cases moved)⟩
  have bounded := exec_bounded lower actions valid byWorkers executed
  omega

def Quiet (cfg : Settings T) (d : Dispatcher T) : Prop := ∀ a, ByWorker a → step cfg d a = none

private theorem quiet_phase (quiet : Quiet cfg d) {phase : Phase T}
    (member : phase ∈ d.workers) : phase = .waiting ∨ phase = .exited := by
  obtain ⟨w,at_w⟩ := getElem?_of_mem member
  cases phase with
  | ready => exact absurd (quiet (.pick w) trivial) (by simp [step,at_w])
  | waiting => exact .inl rfl
  | running job => exact absurd (quiet (.handle w false) trivial) (by simp [step,at_w])
  | handled job => exact absurd (quiet (.send w) trivial) (by simp [step,at_w])
  | sent job => exact absurd (quiet (.release w) trivial) (by simp [step,at_w])
  | exited => exact .inr rfl

private theorem quiet_jobs (quiet : Quiet cfg d) (role : Phase T → Option (Job T))
    (waiting : role .waiting = none) (exited : role .exited = none) : jobs role d.workers = [] := by
  rw [jobs,filterMap_eq_nil_iff]
  intro phase member
  rcases quiet_phase quiet member with rfl | rfl
  · exact waiting
  · exact exited

theorem eligible_of_idle (grouped : Grouped cfg d) (job : Job T)
    (nobody : ∀ other ∈ jobs held d.workers, other.group ≠ job.group) : d.groups.canAcquire job.group = true := by
  by_contra full
  rw [Bool.not_eq_true,full_iff] at full
  obtain ⟨-,limit,-,positive,reached⟩ := full
  have none : (jobs held d.workers).countP (ofGroup job.group) = 0 := by
    rw [countP_eq_zero]
    intro other member
    simp [ofGroup,nobody other member]
  rw [grouped.active,none] at reached
  omega

theorem quiet_done (valid : Valid cfg d) (quiet : Quiet cfg d) :
    d.started.Perm d.accepted ∧ d.answered.Perm d.accepted := by
  have held := quiet_jobs quiet held rfl rfl
  have unsent := quiet_jobs quiet unsent rfl rfl
  have empty : d.queue = [] := by
    have some : d.workers ≠ [] := by
      intro none
      have size := valid.alert.staffed
      have staffed := cfg.staffed
      rw [none,length_nil] at size
      omega
    obtain ⟨phase,member⟩ := exists_mem_of_ne_nil _ some
    rcases quiet_phase quiet member with rfl | rfl
    · by_contra queued
      obtain ⟨job,first⟩ := exists_mem_of_ne_nil _ queued
      have blocked := valid.alert.awake member job first
      rw [eligible_of_idle valid.grouped job (by simp [held])] at blocked
      cases blocked
    · exact (valid.alert.exits member).2
  have accepted := valid.logged.accepted
  have started := valid.logged.started
  rw [empty,map_nil,nil_append] at accepted
  rw [unsent,map_nil,nil_append] at started
  exact ⟨accepted.symm,(started.symm.trans accepted.symm)⟩

/-- In every reachable state the groups are within their limits, no job is lost or done twice, the workers come to
    an end with every accepted job answered once, and they exit only from an empty queue. -/
theorem dispatcher_conserves (cfg : Settings T) {d : Dispatcher T} (reached : Reachable (step cfg) free (new cfg) d) :
    (∀ g, count d.groups.active g = (jobs Phase.held d.workers).countP (ofGroup g)) ∧
    (∀ g limit, cfg.groupLimits.lookup g = some limit → 0 < limit → count d.groups.active g ≤ limit) ∧
    d.submitted = d.queue.length+(jobs Phase.executing d.workers).length+d.completed ∧
    (jobs Phase.finishing d.workers = [] → jobs Phase.held d.workers = jobs Phase.executing d.workers) ∧
    (d.accepted.Nodup ∧ d.started.Nodup ∧ d.answered.Nodup ∧
      d.accepted.Perm (d.queue.map (·.id) ++ d.started) ∧
      d.started.Perm ((jobs Phase.unsent d.workers).map (·.id) ++ d.answered)) ∧
    (∀ actions d', (∀ a ∈ actions, ByWorker a) → exec (step cfg) free d actions = some d' → actions.length ≤ rank d) ∧
    (Quiet cfg d → d.started.Perm d.accepted ∧ d.answered.Perm d.accepted) ∧
    d.queue.length ≤ cfg.queueSize ∧
    (.exited ∈ d.workers → d.queue = []) := by
  have valid := reachable_valid cfg reached
  have started : d.started.Nodup :=
    (nodup_append.mp (valid.logged.accepted.nodup_iff.mp valid.logged.distinct)).2.1
  have answered : d.answered.Nodup := (nodup_append.mp (valid.logged.started.nodup_iff.mp started)).2.1
  have total : d.submitted = d.queue.length+(jobs executing d.workers).length+d.completed := by
    have size := valid.logged.accepted.length_eq
    rw [length_append,length_map,valid.logged.completed] at size
    rw [valid.logged.submitted,size]
    omega
  exact ⟨valid.grouped.active,valid.grouped.capped,total,held_executing d.workers,
    ⟨valid.logged.distinct,started,answered,valid.logged.accepted,valid.logged.started⟩,
    fun actions d' byWorkers executed => worker_steps_bounded cfg valid byWorkers executed,
    quiet_done valid,valid.ordered.room,fun gone => (valid.alert.exits gone).2⟩

theorem dispatcher_conserves_sample : count sampleBlocked.groups.active "g" = 1 ∧
    count sampleBlocked.groups.active "g" = (jobs Phase.held sampleBlocked.workers).countP (ofGroup "g") ∧
    sampleBlocked.submitted = 4 ∧
    sampleBlocked.submitted =
      sampleBlocked.queue.length+(jobs Phase.executing sampleBlocked.workers).length+sampleBlocked.completed :=
  ⟨by decide,(dispatcher_conserves sampleSettings sampleBlocked_reachable).1 "g",by decide,
    (dispatcher_conserves sampleSettings sampleBlocked_reachable).2.2.1⟩

end Mcpkit.DispatcherInvariants
