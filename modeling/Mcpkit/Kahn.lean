import Mathlib.Data.List.Induction
import Mathlib.Data.List.Perm.Subperm
import Mathlib.Data.Set.Finite.List
import Mathlib.Logic.Function.Basic
import Mathlib.Logic.Relation
import Mathlib.Order.WellFounded

/-!
Kahn's algorithm. Every node has the number of its dependencies that were not visited yet; nodes
with none are queued, and a visit lowers the numbers of the nodes that depend on the visited one.
-/
namespace Mcpkit.Kahn
open List
variable {α : Type} [DecidableEq α]

structure State (α : Type) where
  degree : α → Int
  queue : List α
  visited : List α

def relax (s : (α → Int) × List α) (x : α) : (α → Int) × List α :=
  let degree := Function.update s.1 x (s.1 x-1)
  (degree,if degree x = 0 then s.2 ++ [x] else s.2)

def run (dependents : α → List α) : Nat → State α → State α
  | 0,s => s
  | fuel+1,s =>
    match s.queue with
    | [] => s
    | x :: rest =>
      let (degree,queue) := (dependents x).foldl relax (s.degree,rest)
      run dependents fuel ⟨degree,queue,s.visited ++ [x]⟩

def Ordered (deps : α → List α) (order : List α) : Prop :=
  ∀ before x after, order = before ++ x :: after → ∀ d ∈ deps x, d ∈ before

section
variable {deps : α → List α} {order : List α}

omit [DecidableEq α] in
theorem Ordered.snoc {x : α} (ordered : Ordered deps order) (met : ∀ d ∈ deps x, d ∈ order) : Ordered deps (order ++ [x]) := by
  intro before y after same
  rcases eq_nil_or_concat after with rfl | ⟨after',z,rfl⟩
  · have last := append_inj_right' same rfl
    obtain rfl := append_inj_left' same rfl
    cases last
    exact met
  · rw [concat_eq_append,← cons_append,← append_assoc] at same
    exact ordered before y after' (append_inj_left' same rfl)

omit [DecidableEq α] in
theorem Ordered.induction {P : α → Prop} (ordered : Ordered deps order)
    (passes : ∀ x ∈ order, (∀ d ∈ deps x, P d) → P x) : ∀ x ∈ order, P x := by
  -- every node of a part that the order begins with, by induction on that part
  have parts : ∀ part rest, order = part ++ rest → ∀ x ∈ part, P x := by
    intro part
    induction part using reverseRecOn with
    | nil => intro rest _ x member; cases member
    | append_singleton part y ih =>
      intro rest same x member
      rw [append_assoc] at same
      rcases mem_append.mp member with earlier | last
      · exact ih _ same x earlier
      · obtain rfl := mem_singleton.mp last
        refine passes x (same ▸ by simp) fun d dependency => ?_
        exact ih _ same d (ordered part x rest same d dependency)
  exact parts order [] (append_nil order).symm

end

theorem relax_degree (degree : α → Int) (queue : List α) (x y : α) :
    (relax (degree,queue) x).1 y = degree y - if x == y then 1 else 0 := by
  by_cases own : y = x
  · subst own
    simp [relax]
  · simp [relax,Function.update_of_ne own,Ne.symm own]

theorem foldl_relax (xs : List α) : ∀ (degree : α → Int) (queue : List α), ∃ pushed,
    xs.foldl relax (degree,queue) = (fun y => degree y-xs.count y,queue ++ pushed) ∧ pushed.Nodup ∧
      ∀ y, y ∈ pushed ↔ 0 < degree y ∧ degree y ≤ xs.count y := by
  induction xs with
  | nil =>
    intro degree queue
    refine ⟨[],by simp,nodup_nil,fun y => ?_⟩
    simp only [not_mem_nil,count_nil,Int.natCast_zero,false_iff]
    omega
  | cons x xs ih =>
    intro degree queue
    obtain ⟨pushed,same,nodup,crossed⟩ := ih (relax (degree,queue) x).1 (relax (degree,queue) x).2
    have degrees : (fun y => (relax (degree,queue) x).1 y-(xs.count y : Int)) = fun y => degree y-((x :: xs).count y : Int) := by
      funext y
      rw [relax_degree,count_cons]
      split <;> omega
    by_cases last : degree x = 1
    · refine ⟨x :: pushed,?_,?_,fun y => ?_⟩
      · rw [foldl_cons,same,degrees]
        simp [relax,last]
      · refine nodup_cons.mpr ⟨fun inside => ?_,nodup⟩
        have := ((crossed x).mp inside).1
        simp [relax_degree,last] at this
      · rw [mem_cons,crossed,relax_degree,count_cons]
        by_cases own : y = x
        · subst own
          simp only [true_or,beq_self_eq_true,if_true,true_iff]
          omega
        · simp [own,Ne.symm own]
    · refine ⟨pushed,?_,nodup,fun y => ?_⟩
      · rw [foldl_cons,same,degrees]
        have positive : degree x-1 ≠ 0 := by omega
        simp [relax,positive]
      · rw [crossed,relax_degree,count_cons]
        by_cases own : y = x
        · subst own
          simp only [beq_self_eq_true,if_true]
          omega
        · simp [Ne.symm own]

structure Graph (α : Type) [DecidableEq α] where
  nodes : List α
  deps : α → List α
  dependents : α → List α
  nodup : nodes.Nodup
  counts : ∀ x y, y ∈ nodes → (dependents x).count y = (deps y).count x
  inside : ∀ x y, y ∈ dependents x → y ∈ nodes

structure Sound (g : Graph α) (s : State α) : Prop where
  degree : ∀ y ∈ g.nodes, s.degree y = (g.deps y).countP (· ∉ s.visited)
  nodup : (s.visited ++ s.queue).Nodup
  inside : ∀ y ∈ s.visited ++ s.queue, y ∈ g.nodes
  queued : ∀ y ∈ g.nodes, y ∈ s.visited ++ s.queue ↔ s.degree y = 0
  ordered : Ordered g.deps s.visited

theorem countP_visit {visited : List α} {x : α} (new : x ∉ visited) (xs : List α) :
    xs.countP (· ∉ visited) = xs.countP (· ∉ visited ++ [x]) + xs.count x := by
  induction xs with
  | nil => rfl
  | cons y ys ih =>
    rw [countP_cons,countP_cons,count_cons,ih]
    by_cases own : y = x
    · subst own
      simp [new]
      omega
    · by_cases old : y ∈ visited
      · simp [own,old]
      · simp [own,old]
        omega

variable {g : Graph α} {s : State α}

theorem Sound.met (sound : Sound g s) {x : α} {rest : List α} (next : s.queue = x :: rest) : ∀ d ∈ g.deps x, d ∈ s.visited := by
  have member : x ∈ s.visited ++ s.queue := by simp [next]
  have node := sound.inside x member
  have none := (sound.queued x node).mp member
  rw [sound.degree x node] at none
  have zero : (g.deps x).countP (· ∉ s.visited) = 0 := by exact_mod_cast none
  intro d dependency
  simpa using countP_eq_zero.mp zero d dependency

theorem Sound.visit (sound : Sound g s) {x : α} {rest : List α} (next : s.queue = x :: rest) {degree : α → Int}
    {queue : List α} (relaxed : (g.dependents x).foldl relax (s.degree,rest) = (degree,queue)) :
    Sound g ⟨degree,queue,s.visited ++ [x]⟩ := by
  obtain ⟨pushed,same,nodup,crossed⟩ := foldl_relax (g.dependents x) s.degree rest
  cases same.symm.trans relaxed
  have old : (s.visited ++ [x]) ++ (rest ++ pushed) = (s.visited ++ s.queue) ++ pushed := by simp [next]
  have new : x ∉ s.visited := by
    have apart := sound.nodup
    rw [next,nodup_append] at apart
    exact fun inside => apart.2.2 x inside x mem_cons_self rfl
  have lowered : ∀ y ∈ g.nodes, s.degree y-(g.dependents x).count y = (g.deps y).countP (· ∉ s.visited ++ [x]) := by
    intro y node
    rw [sound.degree y node,g.counts x y node,countP_visit new]
    omega
  refine ⟨lowered,?_,?_,?_,sound.ordered.snoc (sound.met next)⟩
  · rw [old]
    refine nodup_append.mpr ⟨sound.nodup,nodup,?_⟩
    rintro y before y' inside rfl
    have zero := (sound.queued y (sound.inside y before)).mp before
    have positive := ((crossed y).mp inside).1
    omega
  · rw [old]
    intro y member
    rcases mem_append.mp member with before | inside
    · exact sound.inside y before
    · have counted := (crossed y).mp inside
      exact g.inside x y (count_pos_iff.mp (by omega))
  · intro y node
    have before := sound.queued y node
    have after := lowered y node
    rw [old,mem_append,before,crossed]
    simp only
    omega

theorem Sound.length_le (sound : Sound g s) : s.visited.length+s.queue.length ≤ g.nodes.length := by
  rw [← length_append]
  exact (subperm_of_subset sound.nodup sound.inside).length_le

theorem run_sound (fuel : Nat) : ∀ {s : State α}, Sound g s → g.nodes.length ≤ fuel+s.visited.length →
    Sound g (run g.dependents fuel s) ∧ (run g.dependents fuel s).queue = [] := by
  induction fuel with
  | zero =>
    intro s sound enough
    have := sound.length_le
    exact ⟨sound,eq_nil_of_length_eq_zero (by simp only [run]; omega)⟩
  | succ fuel ih =>
    intro s sound enough
    unfold run
    cases next : s.queue with
    | nil => exact ⟨sound,next⟩
    | cons x rest =>
      rcases relaxed : (g.dependents x).foldl relax (s.degree,rest) with ⟨degree,queue⟩
      simp only [relaxed]
      exact ih (sound.visit next relaxed) (by simp only [length_append,length_singleton]; omega)

theorem Sound.all_visited (sound : Sound g s) (all : s.visited.length = g.nodes.length) : ∀ x ∈ g.nodes, x ∈ s.visited := by
  have within : List.Subperm s.visited g.nodes :=
    subperm_of_subset (nodup_append.mp sound.nodup).1 fun y member => sound.inside y (mem_append_left _ member)
  have perm := within.perm_of_length_le (by omega)
  exact fun x node => perm.mem_iff.mpr node

/-- If properties pass along the dependencies to every node, a run that has emptied its queue
    has visited every node. -/
theorem Sound.complete (sound : Sound g s) (finished : s.queue = [])
    (founded : ∀ P : α → Prop, (∀ x ∈ g.nodes, (∀ d ∈ g.deps x, P d) → P x) → ∀ x ∈ g.nodes, P x) :
    s.visited.length = g.nodes.length := by
  have all : ∀ x ∈ g.nodes, x ∈ s.visited := founded (· ∈ s.visited) fun x node met => by
    have none : s.degree x = 0 := by
      rw [sound.degree x node,countP_eq_zero.mpr]
      · rfl
      · intro d dependency
        simpa using met d dependency
    simpa [finished] using (sound.queued x node).mpr none
  have least := (subperm_of_subset g.nodup all).length_le
  have most := sound.length_le
  omega

/-! ### Relations without cycles -/

omit [DecidableEq α] in
/-- Along a relation without cycles, what passes from its successors to a node of a list holds of the whole list. -/
theorem acyclic_induction {r : α → α → Prop} (acyclic : ∀ x, ¬ Relation.TransGen r x x) {nodes : List α} {P : α → Prop}
    (passes : ∀ x ∈ nodes, (∀ y ∈ nodes, r x y → P y) → P x) : ∀ x ∈ nodes, P x := by
  have finite : Finite {x // x ∈ nodes} := finite_toSet nodes
  let later (y x : {x // x ∈ nodes}) : Prop := Relation.TransGen r x.1 y.1
  have : IsTrans _ later := ⟨fun _ _ _ first second => second.trans first⟩
  have : Std.Irrefl later := ⟨fun x => acyclic x.1⟩
  have founded := Finite.wellFounded_of_trans_of_irrefl later
  intro x node
  exact founded.induction (C := fun x => P x.1) ⟨x,node⟩ fun x earlier =>
    passes x.1 x.2 fun y node' edge => earlier ⟨y,node'⟩ (.single edge)

end Mcpkit.Kahn
