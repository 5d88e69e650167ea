import Mathlib.Data.List.Basic
import Mcpkit.BinaryHeap
import Mcpkit.GoMaps

/-!
The queue of the dispatcher: jobs in a binary heap, the concurrency groups, and `dequeue`, which
takes the first job in the order of the slice whose group has room.
-/
namespace Mcpkit.DispatcherQueue
open GoMaps List
variable {T : Type}

def priorityNormal : Int := 1
def priorityHigh : Int := 2
def priorityCritical : Int := 3

/-- A queued tool call. The identity `id` stands for the pointer, `tool` for the
    name and the definition of the tool; the handler is not called here. -/
structure Job (T : Type) where
  id : Nat
  tool : T
  priority : Int
  group : String
  seq : Nat
  deriving DecidableEq

def Job.less (a b : Job T) : Bool :=
  if a.priority ≠ b.priority then decide (a.priority > b.priority) else decide (a.seq < b.seq)

theorem less_eq_false (a b : Job T) : a.less b = false ↔
    a.priority ≤ b.priority ∧ (a.priority = b.priority → b.seq ≤ a.seq) := by
  unfold Job.less
  split
  · simp only [decide_eq_false_iff_not]; omega
  · simp only [decide_eq_false_iff_not]; omega

theorem less_strictWeak : BinaryHeap.StrictWeak (Job.less : Job T → Job T → Bool) where
  asymm a b first := by
    have greater : ¬ a.less b = false := by simp [first]
    rw [less_eq_false] at *
    omega
  trans a b c one two := by
    rw [less_eq_false] at *
    omega

/-- The concurrency limits and the number of jobs that hold each group. -/
structure GroupManager where
  limits : GoMap Int
  active : GoMap Int

def newGroupManager (limits : GoMap Int) : GroupManager := ⟨limits,∅⟩

variable (gm : GroupManager) (group : String)

def GroupManager.canAcquire : Bool :=
  if group = "" then true
  else
    match gm.limits.lookup group with
    | none => true
    | some limit => if limit ≤ 0 then true else decide (count gm.active group < limit)

def GroupManager.acquire : GroupManager :=
  if group = "" then gm else { gm with active := gm.active.insert group (count gm.active group+1) }

def GroupManager.release : GroupManager :=
  if group = "" then gm
  else if count gm.active group > 0 then
    { gm with active := gm.active.insert group (count gm.active group-1) }
  else gm

open GroupManager

@[simp] theorem acquire_limits : (gm.acquire group).limits = gm.limits := by
  unfold acquire; split <;> rfl

@[simp] theorem release_limits : (gm.release group).limits = gm.limits := by
  unfold release; split <;> [rfl; split <;> rfl]

theorem acquire_count (group g : String) :
    count (gm.acquire group).active g = count gm.active g+if group = g ∧ g ≠ "" then 1 else 0 := by
  unfold acquire
  by_cases named : group = ""
  · rw [if_pos named,if_neg fun both => both.2 (both.1 ▸ named)]
    simp
  · rw [if_neg named]
    simp only [count_insert]
    by_cases same : g = group
    · subst same; simp [named]
    · simp [same,Ne.symm same]

theorem release_count (group g : String) (some : group ≠ "" → 0 < count gm.active group) :
    count (gm.release group).active g = count gm.active g-if group = g ∧ g ≠ "" then 1 else 0 := by
  unfold release
  by_cases named : group = ""
  · rw [if_pos named,if_neg fun both => both.2 (both.1 ▸ named)]
    simp
  · rw [if_neg named,if_pos (some named)]
    simp only [count_insert]
    by_cases same : g = group
    · subst same; simp [named]
    · simp [same,Ne.symm same]

theorem full_iff : gm.canAcquire group = false ↔
    group ≠ "" ∧ ∃ limit, gm.limits.lookup group = some limit ∧ 0 < limit ∧ limit ≤ count gm.active group := by
  unfold canAcquire
  by_cases named : group = ""
  · simp [named]
  · cases gm.limits.lookup group with
    | none => simp
    | some limit =>
      by_cases positive : limit ≤ 0
      · simp [positive]
      · simp [positive,named]; omega

/-! ### Taking a job -/

/-- The loop of `dequeue` over the slice from index `i` on. -/
def scan (gm : GroupManager) (queue : List (Job T)) : Nat → List (Job T) → Option (Job T × List (Job T))
  | _,[] => none
  | i,job :: rest =>
    if gm.canAcquire job.group then some (job,BinaryHeap.remove Job.less queue i) else scan gm queue (i+1) rest

def dequeue (queue : List (Job T)) (gm : GroupManager) : Option (Job T × List (Job T)) := scan gm queue 0 queue

/-- The slot of the first job in the order of the slice that may start. -/
structure FirstEligible (queue : List (Job T)) (gm : GroupManager) (i : Nat) (job : Job T) : Prop where
  found : queue[i]? = some job
  eligible : gm.canAcquire job.group = true
  first : ∀ k < i, ∀ earlier, queue[k]? = some earlier → gm.canAcquire earlier.group = false

variable {gm} {queue : List (Job T)} {left : List (Job T)} {job : Job T}

private theorem scan_some
    (rest : List (Job T)) : ∀ i, scan gm queue i rest = some (job,left) → ∃ k, FirstEligible rest gm k job ∧
      left = BinaryHeap.remove Job.less queue (i+k) := by
  induction rest with
  | nil => intro i scanned; cases scanned
  | cons head rest ih =>
    intro i scanned
    rw [scan] at scanned
    split at scanned
    · rename_i room
      cases scanned
      exact ⟨0,⟨rfl,room,fun k low => absurd low (Nat.not_lt_zero k)⟩,rfl⟩
    · rename_i full
      obtain ⟨k,⟨found,eligible,first⟩,same⟩ := ih (i+1) scanned
      refine ⟨k+1,⟨by simpa using found,eligible,?_⟩,by rw [same]; congr 1; omega⟩
      intro j low earlier at_j
      cases j with
      | zero => cases at_j; simpa using full
      | succ j => exact first j (by omega) earlier (by simpa using at_j)

private theorem scan_none (rest : List (Job T)) :
    ∀ i, scan gm queue i rest = none ↔ ∀ job ∈ rest, gm.canAcquire job.group = false := by
  induction rest with
  | nil => intro i; simp [scan]
  | cons head rest ih =>
    intro i
    rw [scan]
    by_cases room : gm.canAcquire head.group = true
    · simp [room]
    · simp [room,ih]

theorem dequeue_some (taken : dequeue queue gm = some (job,left)) :
    ∃ i, FirstEligible queue gm i job ∧ left = BinaryHeap.remove Job.less queue i := by
  obtain ⟨k,first,same⟩ := scan_some queue 0 taken
  exact ⟨k,first,by simpa using same⟩

theorem dequeue_none : dequeue queue gm = none ↔ ∀ job ∈ queue, gm.canAcquire job.group = false :=
  scan_none queue 0

/-- The job is eligible, and no eligible job of the queue comes before it. -/
def Best (queue : List (Job T)) (gm : GroupManager) (job : Job T) : Prop :=
  job ∈ queue ∧ gm.canAcquire job.group = true ∧ ∀ other ∈ queue, gm.canAcquire other.group = true →
    other.priority ≤ job.priority ∧ (other.priority = job.priority → job.seq ≤ other.seq)

/-- No eligible job in another branch of the heap than the first eligible slot beats the job in that slot. -/
def OtherBranchesYield (queue : List (Job T)) (gm : GroupManager) : Prop :=
  ∀ i job, FirstEligible queue gm i job → ∀ k other, queue[k]? = some other → gm.canAcquire other.group = true →
    ¬ BinaryHeap.Below i k → other.less job = false

theorem FirstEligible.unique {i k : Nat} {job other : Job T}
    (one : FirstEligible queue gm i job) (two : FirstEligible queue gm k other) : i = k := by
  rcases Nat.lt_trichotomy i k with low | same | high
  · exact absurd one.eligible (by simp [two.first i low job one.found])
  · exact same
  · exact absurd two.eligible (by simp [one.first k high other two.found])

theorem dequeue_best_iff (heap : BinaryHeap.Heap Job.less queue)
    (taken : dequeue queue gm = some (job,left)) : Best queue gm job ↔ OtherBranchesYield queue gm := by
  obtain ⟨i,first,-⟩ := dequeue_some taken
  constructor
  · rintro ⟨-,-,best⟩ k job' first' j other at_j eligible -
    cases first.unique first'
    cases first.found.symm.trans first'.found
    exact (less_eq_false other job).mpr (best other (mem_of_getElem? at_j) eligible)
  · intro yielding
    refine ⟨mem_of_getElem? first.found,first.eligible,?_⟩
    intro other member eligible
    obtain ⟨k,at_k⟩ := getElem?_of_mem member
    rw [← less_eq_false]
    by_cases below : BinaryHeap.Below i k
    · have inside : k < queue.length := (List.getElem?_eq_some_iff.mp at_k).1
      have ordered := heap.below less_strictWeak below inside
      simpa [BinaryHeap.before,at_k,first.found] using ordered
    · exact yielding i job first k other at_k eligible below

end Mcpkit.DispatcherQueue
