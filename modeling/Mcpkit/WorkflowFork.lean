import Mcpkit.WorkflowGraph

/-!
Fork nodes.
-/
namespace Mcpkit.WorkflowFork
open GoMaps WorkflowGraph List
variable {V : Type}

abbrev Branch (V : Type) := State V → State V × Option String

/-- A merge function, given the order in which it ranges over the branch states. -/
abbrev MergeFunc (V : Type) := State V → List (String × State V) → State V × Option String

structure Fork (V : Type) where
  name : String
  branches : List (String × Branch V)
  merge : MergeFunc V

/-- The checks of `AddForkNode`, in the order of the branches; `taken` says which nodes there are. -/
def addForkNode (taken : String → Bool) (name : String) (branches : List (String × Option (Branch V)))
    (merge : Option (MergeFunc V)) : Except String (Fork V) :=
  if name = "" then .error "workflow: fork node name cannot be empty"
  else if name = endNode then .error s!"workflow: {endNode.quote} is reserved"
  else if branches.length = 0 then .error s!"workflow: fork node {name.quote} must have at least one branch"
  else
    match merge with
    | none => .error s!"workflow: fork node {name.quote} merge function cannot be nil"
    | some merge =>
      match branches.find? (fun b => b.2.isNone) with
      | some b => .error s!"workflow: fork node {name.quote} branch {b.1.quote} handler cannot be nil"
      | none =>
        if taken name then .error s!"workflow: duplicate node {name.quote}"
        else .ok ⟨name,branches.filterMap (fun b => b.2.map (fun fn => (b.1,fn))),merge⟩

structure Joined (V : Type) where
  results : GoMap (State V)
  firstErr : Option String

variable (name : String)

/-- A goroutine runs its branch on a clone and, under the lock, leaves the result. -/
def finish (state : State V) (j : Joined V) (b : String × Branch V) : Joined V :=
  match b.2 { state.clone with nodeName := name ++ "/" ++ b.1 } with
  | (result,none) => { j with results := j.results.insert b.1 result }
  | (_,some err) => { j with firstErr := j.firstErr.or (some s!"branch {b.1.quote}: {err}") }

/-- The state of the join after the goroutines, in the order in which they finish. -/
def joined (state : State V) (finishing : List (String × Branch V)) : Joined V :=
  finishing.foldl (finish name state) ⟨∅,none⟩

/-- The node function, given the order in which the branches finish and that of the merge. -/
def Fork.run (f : Fork V) (state : State V) (finishing : List (String × Branch V)) (range : List (String × State V)) :
    State V × Option String :=
  match (joined f.name state finishing).firstErr with
  | some err => (state,some err)
  | none => f.merge state range

def mergeAll : MergeFunc V := fun base branches =>
  (branches.foldl (fun result bs =>
    { result with data := copy result.data bs.2.data, metadata := copy result.metadata bs.2.metadata }) base.clone,none)

/-! ### The property -/

structure Writes (V : Type) where
  data : GoMap V
  metadata : GoMap String

def Writes.branch (w : Writes V) : Branch V := fun s =>
  ({ s with data := copy s.data w.data, metadata := copy s.metadata w.metadata },none)

def fork (branches : List (String × Writes V)) : Fork V :=
  ⟨name,branches.map (fun b => (b.1,b.2.branch)),mergeAll⟩

/-- A merged map has what was written and for the rest what was there. -/
structure Keeps {α : Type} (base : GoMap α) (writes : List (GoMap α)) (merged : GoMap α) : Prop where
  written : ∀ w ∈ writes, ∀ key value, w.lookup key = some value → merged.lookup key = some value
  kept : ∀ key, (∀ w ∈ writes, w.lookup key = none) → merged.lookup key = base.lookup key

/-- The branches finish in some order, and the merge ranges over their states in some order. -/
def Outcome (base : State V) (branches : List (String × Writes V)) (merged : State V × Option String) :
    Prop :=
  ∃ order range, order.Perm branches ∧ Ranges (joined name base (fork name order).branches).results range ∧
    merged = (fork name branches).run base (fork name order).branches range

/-- Whatever the orders, the merged state has all that was written and for the rest what was there. -/
structure NoLoss (base : State V) (branches : List (String × Writes V)) : Prop where
  keeps : ∀ merged, Outcome name base branches merged → merged.2 = none ∧
    Keeps base.data (branches.map (·.2.data)) merged.1.data ∧
    Keeps base.metadata (branches.map (·.2.metadata)) merged.1.metadata
  unordered : ∀ merged merged', Outcome name base branches merged → Outcome name base branches merged' → merged = merged'

def Separate {α : Type} (writes : List (GoMap α)) : Prop :=
  writes.Pairwise (fun w w' => ∀ key, w.lookup key = none ∨ w'.lookup key = none)

def Fresh {α : Type} (base : GoMap α) (writes : List (GoMap α)) : Prop :=
  ∀ w ∈ writes, ∀ key value old, w.lookup key = some value → base.lookup key = some old → old = value

/-! ### One map -/

section
variable {α : Type} {base : GoMap α} {writes sources : List (GoMap α)} {key : String}

theorem Separate.lookup (separate : Separate writes) {w w' : GoMap α} (left : w ∈ writes) (right : w' ∈ writes)
    {value value' : α} (one : w.lookup key = some value) (other : w'.lookup key = some value') : value' = value := by
  by_cases same : w = w'
  · subst same
    exact Option.some.inj (other.symm.trans one)
  · have symm : Std.Symm (fun w w' : GoMap α => ∀ key, w.lookup key = none ∨ w'.lookup key = none) :=
      ⟨fun _ _ either key => (either key).symm⟩
    rcases separate.forall left right same key with none | none
    · rw [none] at one
      cases one
    · rw [none] at other
      cases other

structure Sourced (base : GoMap α) (writes sources : List (GoMap α)) : Prop where
  made : ∀ source ∈ sources, ∃ w ∈ writes, source = copy base w
  all : ∀ w ∈ writes, copy base w ∈ sources

theorem Sourced.kept (sourced : Sourced base writes sources) (unwritten : ∀ w ∈ writes, w.lookup key = none) :
    (copyAll base sources).lookup key = base.lookup key := by
  have same : ∀ source ∈ sources, source.lookup key = base.lookup key := by
    intro source member
    obtain ⟨w,inside,rfl⟩ := sourced.made source member
    rw [lookup_copy,unwritten w inside,Option.none_or]
  cases old : base.lookup key with
  | none => rw [lookup_copyAll_of_none (fun source member => (same source member).trans old),old]
  | some value =>
    by_cases nothing : sources = []
    · rw [nothing]
      exact old
    · obtain ⟨source,member⟩ := exists_mem_of_ne_nil sources nothing
      exact lookup_copyAll_of_agree (fun source member => .inr ((same source member).trans old))
        ⟨source,member,(same source member).trans old⟩ base

theorem Sourced.keeps (sourced : Sourced base writes sources) (separate : Separate writes)
    (fits : writes.length ≤ 1 ∨ Fresh base writes) : Keeps base writes (copyAll base sources) := by
  refine ⟨fun w member key value wrote => ?_,fun key unwritten => sourced.kept unwritten⟩
  refine lookup_copyAll_of_agree (fun source inside => ?_)
    ⟨copy base w,sourced.all w member,by rw [lookup_copy,wrote,Option.some_or]⟩ base
  obtain ⟨w',other,rfl⟩ := sourced.made source inside
  rw [lookup_copy]
  cases also : w'.lookup key with
  | some value' =>
    rw [separate.lookup member other wrote also]
    exact .inr rfl
  | none =>
    rcases fits with single | fresh
    · have same : w' = w := by
        obtain ⟨only,rfl⟩ := length_eq_one_iff.mp (Nat.le_antisymm single (length_pos_of_mem member))
        rw [mem_singleton.mp other,mem_singleton.mp member]
      rw [same,wrote] at also
      cases also
    · cases old : base.lookup key with
      | none => exact .inl rfl
      | some value' =>
        rw [fresh w member key value value' wrote old]
        exact .inr rfl

theorem lookup_copyAll_back {w : GoMap α} {old : α} (unwritten : w.lookup key = none)
    (there : base.lookup key = some old) (sources : List (GoMap α)) :
    (copyAll base (sources ++ [copy base w])).lookup key = some old := by
  rw [copyAll_concat,lookup_copy,lookup_copy,unwritten,there]
  rfl

theorem Keeps.unique {merged merged' : GoMap α} (keeps : Keeps base writes merged) (keeps' : Keeps base writes merged') :
    merged = merged' := by
  refine Finmap.ext_lookup fun key => ?_
  by_cases unwritten : ∀ w ∈ writes, w.lookup key = none
  · rw [keeps.kept key unwritten,keeps'.kept key unwritten]
  · push Not at unwritten
    obtain ⟨w,member,there⟩ := unwritten
    obtain ⟨value,wrote⟩ := Option.ne_none_iff_exists'.mp there
    rw [keeps.written w member key value wrote,keeps'.written w member key value wrote]

end

/-! ### The fork -/

def branchState (name : String) (base : State V) (b : String × Writes V) : String × State V :=
  (b.1,{ base with
    nodeName := name ++ "/" ++ b.1
    data := copy base.data b.2.data
    metadata := copy base.metadata b.2.metadata })

theorem joined_writes (name : String) (base : State V) (branches : List (String × Writes V)) : ∀ j : Joined V,
    (branches.map (fun b => (b.1,b.2.branch))).foldl (finish name base) j =
      { j with results := insertAll j.results (branches.map (branchState name base)) } := by
  induction branches with
  | nil => exact fun j => rfl
  | cons b branches ih =>
    intro j
    rw [map_cons,foldl_cons,ih]
    rfl

theorem mergeAll_fold (range : List (String × State V)) : ∀ base : State V,
    mergeAll base range = ({ base with
      data := copyAll base.data (range.map (·.2.data)),
      metadata := copyAll base.metadata (range.map (·.2.metadata)) },none) := by
  induction range with
  | nil => exact fun base => rfl
  | cons pair range ih =>
    intro base
    exact ih { base with data := copy base.data pair.2.data, metadata := copy base.metadata pair.2.metadata }

section
variable {name} {base : State V} {branches : List (String × Writes V)}

theorem outcome_iff (distinct : (branches.map Prod.fst).Nodup) (merged : State V × Option String) :
    Outcome name base branches merged ↔
      ∃ range, range.Perm (branches.map (branchState name base)) ∧ merged = mergeAll base range := by
  have named (order : List (String × Writes V)) (perm : order.Perm branches) :
      ((order.map (branchState name base)).map Prod.fst).Nodup := by
    rw [map_map]
    exact (perm.map Prod.fst).nodup_iff.mpr distinct
  have joins (order : List (String × Writes V)) : joined name base (fork name order).branches =
      ⟨insertAll ∅ (order.map (branchState name base)),none⟩ := joined_writes name base order ⟨∅,none⟩
  have runs (order : List (String × Writes V)) (range : List (String × State V)) :
      (fork name branches).run base (fork name order).branches range = mergeAll base range := by
    change (match (joined name base (fork name order).branches).firstErr with
      | some err => (base,some err)
      | none => mergeAll base range) = mergeAll base range
    rw [joins]
  constructor
  · rintro ⟨order,range,perm,ranges,rfl⟩
    rw [joins,ranges_insertAll (named order perm)] at ranges
    exact ⟨range,ranges.trans (perm.map _),runs order range⟩
  · rintro ⟨range,perm,rfl⟩
    refine ⟨branches,range,.refl _,?_,(runs branches range).symm⟩
    rw [joins,ranges_insertAll (named branches (.refl _))]
    exact perm

theorem sourced_of_perm {α : Type} (field : State V → GoMap α) (wrote : Writes V → GoMap α)
    (reads : ∀ b, field (branchState name base b).2 = copy (field base) (wrote b.2)) {range : List (String × State V)}
    (perm : range.Perm (branches.map (branchState name base))) :
    Sourced (field base) (branches.map (fun b => wrote b.2)) (range.map (fun pair => field pair.2)) := by
  constructor
  · intro source member
    obtain ⟨pair,inside,rfl⟩ := mem_map.mp member
    obtain ⟨b,there,rfl⟩ := mem_map.mp (perm.mem_iff.mp inside)
    exact ⟨wrote b.2,mem_map_of_mem there,reads b⟩
  · intro w member
    obtain ⟨b,there,rfl⟩ := mem_map.mp member
    rw [← reads b]
    exact mem_map.mpr ⟨branchState name base b,perm.mem_iff.mpr (mem_map_of_mem there),rfl⟩

theorem fresh_of_keeps {α : Type} (field : State V → GoMap α) (wrote : Writes V → GoMap α)
    (reads : ∀ b, field (branchState name base b).2 = copy (field base) (wrote b.2))
    (several : 2 ≤ branches.length) (separate : Separate (branches.map (fun b => wrote b.2)))
    (keeps : ∀ range : List (String × State V), range.Perm (branches.map (branchState name base)) →
      Keeps (field base) (branches.map (fun b => wrote b.2))
        (copyAll (field base) (range.map (fun pair => field pair.2)))) :
    Fresh (field base) (branches.map (fun b => wrote b.2)) := by
  intro w member key value old written there
  obtain ⟨b,inside,rfl⟩ := mem_map.mp member
  -- Some other branch, which has not written the key, comes last.
  obtain ⟨first,last,order⟩ : ∃ first last, (b :: (first ++ [last])).Perm branches := by
    obtain ⟨before,after,rfl⟩ := append_of_mem inside
    rcases eq_nil_or_concat (before ++ after) with none | ⟨first,last,more⟩
    · obtain ⟨rfl,rfl⟩ := append_eq_nil_iff.mp none
      simp at several
    · refine ⟨first,last,?_⟩
      rw [← concat_eq_append,← more]
      exact perm_middle.symm
  have unwritten : (wrote last.2).lookup key = none := by
    have apart := (separate.perm (order.map (fun b => wrote b.2)).symm (fun either key => (either key).symm))
    rw [map_cons,pairwise_cons] at apart
    rcases apart.1 (wrote last.2) (by simp) key with none | none
    · rw [none] at written
      cases written
    · exact none
  have kept := (keeps _ (order.map (branchState name base))).written _ member key value written
  rw [← cons_append,map_append,map_append,map_singleton,map_singleton,reads,
    lookup_copyAll_back unwritten there] at kept
  exact Option.some.inj kept

/-- Branches with names of their own that write no key in common lose nothing exactly if there
    is one branch only, or if nothing is written over another value of the base. -/
theorem noLoss_iff (name : String) (base : State V) (branches : List (String × Writes V))
    (distinct : (branches.map Prod.fst).Nodup) (data : Separate (branches.map (·.2.data)))
    (metadata : Separate (branches.map (·.2.metadata))) :
    NoLoss name base branches ↔ branches.length ≤ 1 ∨
      (Fresh base.data (branches.map (·.2.data)) ∧ Fresh base.metadata (branches.map (·.2.metadata))) := by
  constructor
  · intro noLoss
    by_cases single : branches.length ≤ 1
    · exact .inl single
    · have several : 2 ≤ branches.length := by omega
      have keeps (range : List (String × State V)) (perm : range.Perm (branches.map (branchState name base))) :=
        (noLoss.keeps _ ((outcome_iff distinct _).mpr ⟨range,perm,rfl⟩)).2
      simp only [mergeAll_fold] at keeps
      exact .inr ⟨fresh_of_keeps (·.data) (·.data) (fun _ => rfl) several data (fun range perm => (keeps range perm).1),
        fresh_of_keeps (·.metadata) (·.metadata) (fun _ => rfl) several metadata (fun range perm => (keeps range perm).2)⟩
  · intro fits
    have keeps (merged : State V × Option String) (outcome : Outcome name base branches merged) :
        (∃ data metadata, merged = ({ base with data := data, metadata := metadata },none)) ∧
        Keeps base.data (branches.map (·.2.data)) merged.1.data ∧
        Keeps base.metadata (branches.map (·.2.metadata)) merged.1.metadata := by
      obtain ⟨range,perm,rfl⟩ := (outcome_iff distinct merged).mp outcome
      rw [mergeAll_fold]
      refine ⟨⟨_,_,rfl⟩,?_,?_⟩
      · exact (sourced_of_perm (·.data) (·.data) (fun _ => rfl) perm).keeps data (by simpa using fits.imp_right And.left)
      · exact (sourced_of_perm (·.metadata) (·.metadata) (fun _ => rfl) perm).keeps metadata
          (by simpa using fits.imp_right And.right)
    constructor
    · intro merged outcome
      obtain ⟨⟨_,_,rfl⟩,kept⟩ := keeps merged outcome
      exact ⟨rfl,kept⟩
    · intro merged merged' one other
      obtain ⟨⟨_,_,rfl⟩,data,metadata⟩ := keeps merged one
      obtain ⟨⟨_,_,rfl⟩,data',metadata'⟩ := keeps merged' other
      have same := data.unique data'
      have same' := metadata.unique metadata'
      simp only at same same'
      rw [same,same']

end

def counters (pairs : List (String × Nat)) : GoMap Nat := insertAll ∅ pairs

def sampleBase : State Nat := ⟨counters [("n",0)],∅,0,"fork",0⟩

/-- One branch raises a number that is there, the other one adds a number. -/
def raising : List (String × Writes Nat) := [("raise",⟨counters [("n",1)],∅⟩),("add",⟨counters [("m",5)],∅⟩)]

def adding : List (String × Writes Nat) := [("first",⟨counters [("k",1)],∅⟩),("add",⟨counters [("m",5)],∅⟩)]

theorem lookup_counters {n : Nat} {other : String} {value : Nat}
    (found : (counters [(key,n)]).lookup other = some value) : other = key ∧ value = n := by
  have member := (lookup_insertAll_iff (by simp) other value).mp found
  simpa using member

theorem separate_counters {key other : String} (apart : key ≠ other) (n m : Nat) :
    Separate [counters [(key,n)],counters [(other,m)]] := by
  refine .cons (fun w member used => ?_) (.cons (by simp) .nil)
  rw [mem_singleton.mp member]
  by_cases same : used = key
  · refine .inr (Option.eq_none_iff_forall_ne_some.mpr fun value found => ?_)
    exact apart (same.symm.trans (lookup_counters found).1)
  · exact .inl (Option.eq_none_iff_forall_ne_some.mpr fun value found => same (lookup_counters found).1)

theorem separate_empty : Separate [(∅ : GoMap String),∅] :=
  .cons (fun _ _ key => .inl (Finmap.lookup_empty key)) (.cons (by simp) .nil)

theorem noLoss_adding : (adding.map Prod.fst).Nodup ∧ NoLoss "fork" sampleBase adding := by
  refine ⟨by decide,(noLoss_iff "fork" sampleBase adding (by decide) (separate_counters (by decide) 1 5)
    separate_empty).mpr (.inr ⟨?_,?_⟩)⟩
  · intro w member key value old written there
    have named : key = "n" := (lookup_counters there).1
    rcases (by simpa [adding] using member : w = counters [("k",1)] ∨ w = counters [("m",5)]) with rfl | rfl
    · exact absurd (named.symm.trans (lookup_counters written).1) (by decide)
    · exact absurd (named.symm.trans (lookup_counters written).1) (by decide)
  · intro w member key value old written there
    cases there

/-- The branch that adds comes last and puts back the number that the other one raised. -/
theorem raise_lost : (raising.map Prod.fst).Nodup ∧ Separate (raising.map (·.2.data)) ∧
    Separate (raising.map (·.2.metadata)) ∧
    (mergeAll sampleBase (raising.map (branchState "fork" sampleBase))).1.data.lookup "n" = some 0 ∧
    ¬ NoLoss "fork" sampleBase raising := by
  have back : (mergeAll sampleBase (raising.map (branchState "fork" sampleBase))).1.data.lookup "n" = some 0 := by
    decide
  refine ⟨by decide,separate_counters (by decide) 1 5,separate_empty,back,fun noLoss => ?_⟩
  have outcome : Outcome "fork" sampleBase raising (mergeAll sampleBase (raising.map (branchState "fork" sampleBase))) :=
    (outcome_iff (by decide) _).mpr ⟨_,.refl _,rfl⟩
  have written := (noLoss.keeps _ outcome).2.1.written (counters [("n",1)]) (by simp [raising]) "n" 1 (by decide)
  rw [back] at written
  exact absurd written (by decide)

end Mcpkit.WorkflowFork
