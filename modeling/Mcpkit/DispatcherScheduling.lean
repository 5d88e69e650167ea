import Mcpkit.DispatcherInvariants

/-!
Which job the dispatcher takes next, and that it always can go on. The slice of a heap is not
sorted, so scanning it for the first job with room in its group may pass over a better one in a
later slot.
-/
namespace Mcpkit.DispatcherScheduling
open GoMaps DispatcherQueue DispatcherModel DispatcherInvariants Transitions List
variable {T : Type}

/-! ### Priorities -/

/-- In every reachable state the job that `dequeue` takes is the best eligible one exactly when no eligible job in
    another branch of the heap beats it, and `dequeue` takes none only if no queued job is eligible. -/
theorem dequeue_priority_iff (cfg : Settings T) {d : Dispatcher T} (reached : Reachable (step cfg) free (new cfg) d) :
    (∀ job left, dequeue d.queue d.groups = some (job,left) →
      (Best d.queue d.groups job ↔ OtherBranchesYield d.queue d.groups)) ∧
    (dequeue d.queue d.groups = none → ∀ job ∈ d.queue, d.groups.canAcquire job.group = false) :=
  ⟨fun _ _ taken => dequeue_best_iff (reachable_valid cfg reached).ordered.heap taken,dequeue_none.mp⟩

/-- The normal job is taken, although the high one is eligible. -/
theorem dequeue_inverts_priorities : Reachable (step sampleSettings) free (new sampleSettings) sampleBlocked ∧
    (dequeue sampleBlocked.queue sampleBlocked.groups).map (·.1) = some ⟨2,(),priorityNormal,"",3⟩ ∧
    (⟨3,(),priorityHigh,"",4⟩ : Job Unit) ∈ sampleBlocked.queue ∧
    sampleBlocked.groups.canAcquire "" = true ∧
    ¬ Best sampleBlocked.queue sampleBlocked.groups ⟨2,(),priorityNormal,"",3⟩ := by
  refine ⟨sampleBlocked_reachable,by decide,by decide,by decide,?_⟩
  unfold Best
  decide

theorem dequeue_priority_sample : ¬ OtherBranchesYield sampleBlocked.queue sampleBlocked.groups := by
  intro yielding
  have best := ((dequeue_priority_iff sampleSettings sampleBlocked_reachable).1 _ _ rfl).mpr yielding
  revert best
  unfold Best
  decide

/-! ### Progress -/

def completion (w : Nat) (failed : Bool) : Phase T → List (Action T)
  | .running _ => [.handle w failed,.send w,.release w]
  | .handled _ => [.send w,.release w]
  | .sent _ => [.release w]
  | _ => []

/-- The end of a job that holds a full group makes room in it and wakes all. -/
structure Freed (d d' : Dispatcher T) (group : String) : Prop where
  room : d'.groups.canAcquire group = true
  woken : ∀ i : Nat, d.workers[i]? = some .waiting → d'.workers[i]? = some .ready

variable {d : Dispatcher T} {w : Nat} {workers : List (Phase T)}

private theorem set_waiting {i : Nat} {old new : Phase T} (at_w : workers[w]? = some old)
    (busy : old ≠ .waiting) (asleep : workers[i]? = some .waiting) : (workers.set w new)[i]? = some .waiting := by
  have apart : w ≠ i := by
    rintro rfl
    exact busy (Option.some.inj (at_w.symm.trans asleep))
  rw [getElem?_set_ne apart]
  exact asleep

private theorem set_self {old : Phase T} (at_w : workers[w]? = some old) (new : Phase T) :
    (workers.set w new)[w]? = some new :=
  getElem?_set_some at_w

variable {cfg : Settings T} {job : Job T}

open Dispatcher

private theorem release_frees (grouped : Grouped cfg d)
    (busy : d.workers[w]? = some (.sent job)) : ∃ d', step cfg d (.release w) = some d' ∧ Freed d d' job.group := by
  refine ⟨broadcast ({ d with groups := d.groups.release job.group }.move w .ready),
    by simp only [step,busy],?_,?_⟩
  · by_contra full
    rw [Bool.not_eq_true,full_iff] at full
    obtain ⟨named,limit,limited,positive,reached⟩ := full
    simp only [broadcast,move,release_limits] at limited reached
    have below := grouped.capped job.group limit (grouped.limits ▸ limited) positive
    have some : 0 < count d.groups.active job.group := by
      rw [grouped.active]
      have member : job ∈ jobs Phase.held d.workers := List.mem_filterMap.mpr ⟨_,mem_of_getElem? busy,rfl⟩
      exact_mod_cast List.countP_pos_iff.mpr ⟨job,member,by simp [ofGroup,named]⟩
    rw [release_count _ _ _ fun _ => some] at reached
    simp only [named,ne_eq,not_false_eq_true,and_self,↓reduceIte] at reached
    omega
  · intro i asleep
    simp only [broadcast,move,getElem?_map,set_waiting busy (by simp) asleep]
    rfl

private theorem Freed.after {d₁ d' : Dispatcher T} {old new : Phase T} {group : String} (freed : Freed d₁ d' group)
    (at_w : d.workers[w]? = some old) (busy : old ≠ .waiting) (workers : d₁.workers = d.workers.set w new) :
    Freed d d' group :=
  ⟨freed.room,fun i asleep => freed.woken i (workers ▸ set_waiting at_w busy asleep)⟩

private theorem send_frees (grouped : Grouped cfg d) (busy : d.workers[w]? = some (.handled job)) :
    ∃ d', exec (step cfg) free d [.send w,.release w] = some d' ∧ Freed d d' job.group := by
  have moved : step cfg d (.send w) = some ({ d with answered := d.answered ++ [job.id] }.move w (.sent job)) := by
    simp only [step,busy]
  obtain ⟨d',released,freed⟩ := release_frees (grouped.step (step_cases moved)) (set_self busy (.sent job))
  exact ⟨d',by rw [exec_next trivial moved,exec_next trivial released]; rfl,freed.after busy (by simp) rfl⟩

private theorem handle_frees (grouped : Grouped cfg d) (failed : Bool)
    (busy : d.workers[w]? = some (.running job)) :
    ∃ d', exec (step cfg) free d [.handle w failed,.send w,.release w] = some d' ∧ Freed d d' job.group := by
  have moved : step cfg d (.handle w failed) = some ({ d with
      completed := d.completed+1, failed := d.failed+if failed then 1 else 0 }.move w (.handled job)) := by
    simp only [step,busy]
  obtain ⟨d',sent,freed⟩ := send_frees (grouped.step (step_cases moved)) (set_self busy (.handled job))
  exact ⟨d',by rw [exec_next trivial moved]; exact sent,freed.after busy (by simp) rfl⟩

/-- A job can be taken if jobs are queued and no worker holds one; if all queued jobs are blocked, workers hold
    jobs of their groups; and a held job can be ended, after which its group has room. -/
theorem never_stuck (cfg : Settings T) {d : Dispatcher T} (reached : Reachable (step cfg) free (new cfg) d) :
    (d.queue ≠ [] → jobs Phase.held d.workers = [] → ∃ job left, dequeue d.queue d.groups = some (job,left)) ∧
    ((∀ job ∈ d.queue, d.groups.canAcquire job.group = false) →
      ∀ job ∈ d.queue, ∃ (w : Nat) (phase : Phase T) (other : Job T), d.workers[w]? = some phase ∧
        phase.held = some other ∧ other.group = job.group) ∧
    (∀ (w : Nat) (phase : Phase T) (other : Job T) (failed : Bool), d.workers[w]? = some phase → phase.held = some other →
      ∃ d', exec (step cfg) free d (completion w failed phase) = some d' ∧ Freed d d' other.group) := by
  have valid := reachable_valid cfg reached
  refine ⟨?_,?_,?_⟩
  · intro queued nobody
    obtain ⟨job,member⟩ := exists_mem_of_ne_nil _ queued
    have eligible := eligible_of_idle valid.grouped job (by simp [nobody])
    cases taken : dequeue d.queue d.groups with
    | none => exact absurd eligible (by simp [dequeue_none.mp taken job member])
    | some pair => exact ⟨pair.1,pair.2,rfl⟩
  · intro blocked job member
    by_contra nobody
    have eligible : d.groups.canAcquire job.group = true := by
      refine eligible_of_idle valid.grouped job fun other held same => nobody ?_
      obtain ⟨phase,inside,found⟩ := List.mem_filterMap.mp held
      obtain ⟨w,at_w⟩ := getElem?_of_mem inside
      exact ⟨w,phase,other,at_w,found,same⟩
    exact absurd eligible (by simp [blocked job member])
  · intro w phase other failed at_w held
    cases phase with
    | running job => cases held; exact handle_frees valid.grouped failed at_w
    | handled job => cases held; exact send_frees valid.grouped at_w
    | sent job =>
      cases held
      obtain ⟨d',released,freed⟩ := release_frees valid.grouped at_w
      exact ⟨d',by rw [completion,exec_next trivial released]; rfl,freed⟩
    | _ => cases held

/-- The end of the running job of the group `g` makes room for the queued one. -/
theorem never_stuck_sample : sampleBlocked.workers = [.running ⟨0,(),priorityCritical,"g",1⟩,.ready] ∧
    ∃ d', exec (step sampleSettings) free sampleBlocked [.handle 0 false,.send 0,.release 0] = some d' ∧
      Freed sampleBlocked d' "g" := by
  have busy : sampleBlocked.workers = [.running ⟨0,(),priorityCritical,"g",1⟩,.ready] := by decide
  refine ⟨busy,?_⟩
  exact (never_stuck sampleSettings sampleBlocked_reachable).2.2 0 (.running ⟨0,(),priorityCritical,"g",1⟩)
    ⟨0,(),priorityCritical,"g",1⟩ false (by rw [busy]; rfl) rfl

end Mcpkit.DispatcherScheduling
