import Mathlib.Data.List.Perm.Basic
import Mathlib.Logic.Equiv.Basic

/-!
Binary heaps in a list, with the sifts of the Go package `container/heap`. The order is any strict
weak order `less`.
-/
namespace Mcpkit.BinaryHeap
open List Equiv
variable {α : Type}

/-- `less` orders by some key, ties allowed. -/
structure StrictWeak (less : α → α → Bool) : Prop where
  asymm : ∀ x y, less x y = true → less y x = false
  trans : ∀ x y z, less y x = false → less z y = false → less z x = false

section
variable (less : α → α → Bool) (h : List α)

def before (i j : Nat) : Bool :=
  match h[i]?,h[j]? with
  | some x,some y => less x y
  | _,_ => false

def parent (j : Nat) : Nat := (j-1)/2

def upFrom : Nat → List α → Nat → List α
  | 0,h,_ => h
  | turns+1,h,j =>
    if parent j = j ∨ before less h j (parent j) = false then h
    else upFrom turns (h.swap (parent j) j) (parent j)

def up (j : Nat) : List α := upFrom less j h j

def firstChild (i n : Nat) : Nat :=
  if 2*i+2 < n ∧ before less h (2*i+2) (2*i+1) = true then 2*i+2 else 2*i+1

/-- The loop of `down` with some turns left: the heap and the last index. -/
def downFrom : Nat → List α → Nat → Nat → List α × Nat
  | 0,h,i,_ => (h,i)
  | turns+1,h,i,n =>
    if n ≤ 2*i+1 ∨ before less h (firstChild less h i n) i = false then (h,i)
    else downFrom turns (h.swap i (firstChild less h i n)) (firstChild less h i n) n

def down (i n : Nat) : List α × Nat := downFrom less (n-i) h i n

def push (x : α) : List α := up less (h ++ [x]) h.length

def sift (i : Nat) : List α :=
  if h.length-1 = i then h
  else
    let (sunk,last) := down less (h.swap i (h.length-1)) i (h.length-1)
    if i < last then sunk else up less sunk i

def remove (i : Nat) : List α := (sift less h i).dropLast

def HeapTo (n : Nat) : Prop := ∀ j < n, 0 < j → before less h j (parent j) = false

def Heap : Prop := HeapTo less h h.length

end

variable {less : α → α → Bool}

/-! ### Swaps -/

variable {h : List α} {i j n : Nat}

theorem getElem?_swap (hi : i < h.length) (hj : j < h.length) (k : Nat) : (h.swap i j)[k]? = h[swap i j k]? := by
  grind

theorem before_swap (hi : i < h.length) (hj : j < h.length) (a b : Nat) :
    before less (h.swap i j) a b = before less h (swap i j a) (swap i j b) := by
  simp only [before,getElem?_swap hi hj]

section
variable (order : StrictWeak less)
include order

theorem before_asymm (first : before less h i j = true) : before less h j i = false := by
  unfold before at *
  cases x : h[i]? with
  | none => simp [x] at first
  | some x' =>
    cases y : h[j]? with
    | none => rfl
    | some y' => exact order.asymm x' y' (by simpa [x,y] using first)

theorem before_irrefl (h : List α) (i : Nat) : before less h i i = false := by
  by_contra first
  rw [Bool.not_eq_false] at first
  exact Bool.noConfusion (first.symm.trans (before_asymm order first))

theorem not_before_trans {k : Nat} (inside : j < h.length)
    (one : before less h j i = false) (two : before less h k j = false) : before less h k i = false := by
  unfold before at *
  cases x : h[i]? with
  | none => cases h[k]? <;> rfl
  | some x' =>
    cases z : h[k]? with
    | none => rfl
    | some z' =>
      have y : h[j]? = some h[j] := getElem?_eq_getElem inside
      exact order.trans x' h[j] z' (by simpa [x,y] using one) (by simpa [z,y] using two)

theorem not_before_of_before {k : Nat} (inside : j < h.length)
    (strict : before less h i j = true) (two : before less h k j = false) : before less h k i = false :=
  not_before_trans order inside (before_asymm order strict) two

end

theorem parent_lt (positive : 0 < j) : parent j < j := by unfold parent; omega

theorem parent_eq (same : parent j = j) : j = 0 := by unfold parent at same; omega

theorem child_of_parent {c : Nat} (positive : 0 < c) (child : parent c = i) : c = 2*i+1 ∨ c = 2*i+2 := by
  unfold parent at child; omega

/-! ### Sifting up -/

/-- In order except that the element at `j` may come before its parent. -/
structure RisingTo (less : α → α → Bool) (h : List α) (n j : Nat) : Prop where
  others : ∀ c < n, 0 < c → c ≠ j → before less h c (parent c) = false
  grand : ∀ c < n, 0 < c → parent c = j → 0 < j → before less h c (parent j) = false

theorem RisingTo.finish (rising : RisingTo less h n j)
    (stop : parent j = j ∨ before less h j (parent j) = false) : HeapTo less h n := by
  intro c inside positive
  by_cases same : c = j
  · subst same
    rcases stop with root | ordered
    · exact absurd (parent_eq root) (by omega)
    · exact ordered
  · exact rising.others c inside positive same

theorem RisingTo.move (order : StrictWeak less) (rising : RisingTo less h n j)
    (within : n ≤ h.length) (inside : j < n) (moved : parent j ≠ j) (first : before less h j (parent j) = true) :
    RisingTo less (h.swap (parent j) j) n (parent j) := by
  have positive : 0 < j := Nat.pos_of_ne_zero fun zero => moved (by subst zero; rfl)
  have higher : parent j < j := parent_lt positive
  constructor
  · intro c inside' positive' different
    rw [before_swap (by omega) (by omega)]
    by_cases same : c = j
    · subst same
      rw [swap_apply_right,swap_apply_left]
      exact before_asymm order first
    rw [swap_apply_of_ne_of_ne different same]
    by_cases below : parent c = j
    · rw [below,swap_apply_right]
      exact rising.grand c inside' positive' below positive
    by_cases sibling : parent c = parent j
    · rw [sibling,swap_apply_left]
      have ordered := rising.others c inside' positive' same
      rw [sibling] at ordered
      exact not_before_of_before order (by omega) first ordered
    · rw [swap_apply_of_ne_of_ne sibling below]
      exact rising.others c inside' positive' same
  · intro c inside' positive' child upper
    have top : parent (parent j) < parent j := parent_lt upper
    have ordered := rising.others (parent j) (by omega) upper moved
    have fixed : swap (parent j) j (parent (parent j)) = parent (parent j) :=
      swap_apply_of_ne_of_ne (by omega) (by omega)
    rw [before_swap (by omega) (by omega),fixed]
    by_cases same : c = j
    · subst same
      rwa [swap_apply_right]
    · rw [swap_apply_of_ne_of_ne (by have := parent_lt positive'; omega) same]
      exact not_before_trans order (by omega) ordered (child ▸ rising.others c inside' positive' same)

variable (turns : Nat)

theorem upFrom_perm : ∀ (h : List α) (j : Nat), (upFrom less turns h j).Perm h := by
  induction turns with
  | zero => intro h j; exact .refl h
  | succ turns ih =>
    intro h j
    rw [upFrom]
    split
    · exact .refl h
    · exact (ih _ _).trans (swap_perm h (parent j) j)

theorem upFrom_after : ∀ (h : List α) (j k : Nat), j < h.length → j < k → (upFrom less turns h j)[k]? = h[k]? := by
  induction turns with
  | zero => intro h j k inside after; rfl
  | succ turns ih =>
    intro h j k inside after
    rw [upFrom]
    split
    · rfl
    · rename_i go
      simp only [not_or] at go
      have higher : parent j < j := parent_lt (Nat.pos_of_ne_zero fun zero => go.1 (by subst zero; rfl))
      rw [ih _ _ k (by simp; omega) (by omega),getElem?_swap (by omega) inside,
        swap_apply_of_ne_of_ne (by omega) (by omega)]

theorem upFrom_heap (order : StrictWeak less) (turns : Nat) : ∀ (h : List α) (n j : Nat), n ≤ h.length → j < n →
    j ≤ turns → RisingTo less h n j → HeapTo less (upFrom less turns h j) n := by
  induction turns with
  | zero =>
    intro h n j within inside enough rising
    have root : j = 0 := by omega
    exact rising.finish (.inl (by subst root; rfl))
  | succ turns ih =>
    intro h n j within inside enough rising
    rw [upFrom]
    split
    · rename_i stop
      exact rising.finish stop
    · rename_i go
      simp only [not_or,Bool.not_eq_false] at go
      have higher : parent j < j := parent_lt (Nat.pos_of_ne_zero fun zero => go.1 (by subst zero; rfl))
      exact ih _ n (parent j) (by simpa using within) (by omega) (by omega)
        (rising.move order within inside go.1 go.2)

/-! ### Sifting down -/

/-- In order except that children of `i` may come before it; the order between `i` and its parent is left open. -/
structure SinkingTo (less : α → α → Bool) (h : List α) (n i : Nat) : Prop where
  others : ∀ c < n, 0 < c → c ≠ i → parent c ≠ i → before less h c (parent c) = false
  grand : ∀ c < n, 0 < c → parent c = i → 0 < i → before less h c (parent i) = false

theorem firstChild_child (less : α → α → Bool) (h : List α) (some : 2*i+1 < n) :
    firstChild less h i n < n ∧ 0 < firstChild less h i n ∧ parent (firstChild less h i n) = i := by
  unfold firstChild parent
  split
  · omega
  · omega

theorem firstChild_first (order : StrictWeak less) (h : List α) {c : Nat} (inside : c < n) (positive : 0 < c)
    (child : parent c = i) : before less h c (firstChild less h i n) = false := by
  unfold firstChild
  rcases child_of_parent positive child with left | right
  · subst left
    split
    · rename_i right
      exact before_asymm order right.2
    · exact before_irrefl order h _
  · subst right
    split
    · exact before_irrefl order h _
    · rename_i left
      simpa [inside] using left

theorem SinkingTo.children (order : StrictWeak less) (within : n ≤ h.length)
    (stop : n ≤ 2*i+1 ∨ before less h (firstChild less h i n) i = false) :
    ∀ c < n, 0 < c → parent c = i → before less h c i = false := by
  intro c inside positive child
  have some : 2*i+1 < n := by
    rcases child_of_parent positive child with left | right
    · omega
    · omega
  rcases stop with none | ordered
  · omega
  · exact not_before_trans order (by have := (firstChild_child less h some).1; omega) ordered
      (firstChild_first order h inside positive child)

section
variable (order : StrictWeak less) (sinking : SinkingTo less h n i)
include order sinking

theorem SinkingTo.finish (within : n ≤ h.length)
    (stop : n ≤ 2*i+1 ∨ before less h (firstChild less h i n) i = false) : RisingTo less h n i := by
  refine ⟨fun c inside positive different => ?_,sinking.grand⟩
  by_cases child : parent c = i
  · rw [child]
    exact SinkingTo.children order within stop c inside positive child
  · exact sinking.others c inside positive different child

theorem SinkingTo.settle (above : 0 < i → before less h i (parent i) = false) (within : n ≤ h.length)
    (stop : n ≤ 2*i+1 ∨ before less h (firstChild less h i n) i = false) : HeapTo less h n := by
  refine (sinking.finish order within stop).finish ?_
  rcases Nat.eq_zero_or_pos i with zero | positive
  · exact .inl (by subst zero; rfl)
  · exact .inr (above positive)

theorem SinkingTo.move
    (within : n ≤ h.length) (some : 2*i+1 < n) (first : before less h (firstChild less h i n) i = true) :
    i < firstChild less h i n ∧ SinkingTo less (h.swap i (firstChild less h i n)) n (firstChild less h i n) ∧
      before less (h.swap i (firstChild less h i n)) (firstChild less h i n) (parent (firstChild less h i n)) = false := by
  obtain ⟨inside,positive,child⟩ := firstChild_child less h some
  have least := fun c (low : c < n) (pos : 0 < c) (sib : parent c = i) => firstChild_first order h low pos sib
  generalize firstChild less h i n = j at first inside positive child least
  have lower : i < j := child ▸ parent_lt positive
  refine ⟨lower,⟨?_,?_⟩,?_⟩
  · intro c inside' positive' different apart
    rw [before_swap (by omega) (by omega)]
    by_cases same : c = i
    · subst same
      rw [swap_apply_left,swap_apply_of_ne_of_ne (by have := parent_lt positive'; omega) apart]
      exact sinking.grand j inside positive child positive'
    rw [swap_apply_of_ne_of_ne same different]
    by_cases sibling : parent c = i
    · rw [sibling,swap_apply_left]
      exact least c inside' positive' sibling
    · rw [swap_apply_of_ne_of_ne sibling apart]
      exact sinking.others c inside' positive' same sibling
  · intro c inside' positive' below _
    have deeper : j < c := below ▸ parent_lt positive'
    rw [before_swap (by omega) (by omega),child,swap_apply_left,
      swap_apply_of_ne_of_ne (by omega) (by omega)]
    exact below ▸ sinking.others c inside' positive' (by omega) (by omega)
  · rw [child,before_swap (by omega) (by omega),swap_apply_left,swap_apply_right]
    exact before_asymm order first

end

theorem downFrom_perm : ∀ (h : List α) (i n : Nat), (downFrom less turns h i n).1.Perm h := by
  induction turns with
  | zero => intro h i n; exact .refl h
  | succ turns ih =>
    intro h i n
    rw [downFrom]
    split
    · exact .refl h
    · exact (ih _ _ n).trans (swap_perm h i _)

theorem downFrom_le : ∀ (h : List α) (i n : Nat), i ≤ (downFrom less turns h i n).2 := by
  induction turns with
  | zero => intro h i n; exact Nat.le_refl i
  | succ turns ih =>
    intro h i n
    rw [downFrom]
    split
    · exact Nat.le_refl i
    · exact Nat.le_trans (by unfold firstChild; split <;> omega) (ih _ _ n)

theorem downFrom_after : ∀ (h : List α) (i n k : Nat), n ≤ h.length → n ≤ k →
    (downFrom less turns h i n).1[k]? = h[k]? := by
  induction turns with
  | zero => intro h i n k within after; rfl
  | succ turns ih =>
    intro h i n k within after
    rw [downFrom]
    split
    · rfl
    · rename_i go
      simp only [not_or,Nat.not_le] at go
      have inside := (firstChild_child less h go.1).1
      rw [ih _ _ n k (by simpa using within) after,getElem?_swap (by omega) (by omega),
        swap_apply_of_ne_of_ne (by omega) (by omega)]

theorem downFrom_heap (order : StrictWeak less) (turns : Nat) : ∀ (h : List α) (i n : Nat), n ≤ h.length →
    n-i ≤ turns → SinkingTo less h n i → (0 < i → before less h i (parent i) = false) →
    HeapTo less (downFrom less turns h i n).1 n := by
  induction turns with
  | zero =>
    intro h i n within enough sinking above
    exact sinking.settle order above within (.inl (by omega))
  | succ turns ih =>
    intro h i n within enough sinking above
    rw [downFrom]
    split
    · rename_i stop
      exact sinking.settle order above within stop
    · rename_i go
      simp only [not_or,Nat.not_le,Bool.not_eq_false] at go
      obtain ⟨lower,sinking',ordered⟩ := sinking.move order within go.1 go.2
      exact ih _ _ n (by simpa using within) (by omega) sinking' fun _ => ordered

/-- `down` either orders the first `n` elements or does not move at all. -/
theorem down_cases (order : StrictWeak less) (within : n ≤ h.length) (inside : i < n)
    (sinking : SinkingTo less h n i) : (i < (down less h i n).2 ∧ HeapTo less (down less h i n).1 n) ∨
    ((down less h i n).2 = i ∧ RisingTo less (down less h i n).1 n i) := by
  unfold down
  obtain ⟨turns,enough⟩ : ∃ turns, n-i = turns+1 := ⟨n-i-1,by omega⟩
  rw [enough,downFrom]
  split
  · rename_i stop
    exact .inr ⟨rfl,sinking.finish order within stop⟩
  · rename_i go
    simp only [not_or,Nat.not_le,Bool.not_eq_false] at go
    obtain ⟨lower,sinking',ordered⟩ := sinking.move order within go.1 go.2
    refine .inl ⟨Nat.lt_of_lt_of_le lower (downFrom_le turns _ _ n),?_⟩
    exact downFrom_heap order turns _ _ n (by simpa using within) (by omega) sinking' fun _ => ordered

/-! ### The operations -/

@[simp] theorem push_perm (h : List α) (x : α) : (push less h x).Perm (x :: h) :=
  (upFrom_perm _ _ _).trans (perm_append_singleton x h)

section
variable (order : StrictWeak less) (heap : Heap less h)
include order heap

theorem push_heap (x : α) : Heap less (push less h x) := by
  have size : (push less h x).length = h.length+1 := (push_perm h x).length_eq
  rw [Heap,size]
  refine upFrom_heap order h.length (h ++ [x]) (h.length+1) h.length (by simp) (by omega) (Nat.le_refl _) ⟨?_,?_⟩
  · intro c inside positive different
    have higher := parent_lt positive
    have same : before less (h ++ [x]) c (parent c) = before less h c (parent c) := by
      unfold before
      rw [getElem?_append_left (by omega),getElem?_append_left (by omega)]
    rw [same]
    exact heap c (by omega) positive
  · intro c inside positive child _
    have := parent_lt positive
    omega

/-- Before `Remove` drops the last element, that one is the removed element and the others are in order. -/
theorem sift_spec {x : α} (found : h[i]? = some x) :
    (sift less h i).Perm h ∧ (sift less h i)[h.length-1]? = some x ∧ HeapTo less (sift less h i) (h.length-1) := by
  obtain ⟨inside,same⟩ := List.getElem?_eq_some_iff.mp found
  unfold sift
  by_cases last : h.length-1 = i
  · rw [if_pos last]
    exact ⟨.refl h,by rw [last]; exact found,fun j low => heap j (by omega)⟩
  rw [if_neg last]
  have sinking : SinkingTo less (h.swap i (h.length-1)) (h.length-1) i := by
    constructor
    · intro c low positive different apart
      have higher := parent_lt positive
      rw [before_swap inside (by omega),swap_apply_of_ne_of_ne different (by omega),
        swap_apply_of_ne_of_ne apart (by omega)]
      exact heap c (by omega) positive
    · intro c low positive child upper
      have higher := parent_lt positive
      have top := parent_lt upper
      rw [before_swap inside (by omega),swap_apply_of_ne_of_ne (by omega) (by omega),
        swap_apply_of_ne_of_ne (by omega) (by omega)]
      exact not_before_trans order inside (heap i inside upper) (child ▸ heap c (by omega) positive)
  have sunk := down_cases order (by simp) (by omega : i < h.length-1) sinking
  have perm : (down less (h.swap i (h.length-1)) i (h.length-1)).1.Perm h :=
    (downFrom_perm _ _ _ _).trans (swap_perm h i _)
  have moved : (down less (h.swap i (h.length-1)) i (h.length-1)).1[h.length-1]? = some x := by
    rw [down,downFrom_after _ _ _ _ _ (by simp) (Nat.le_refl _),getElem?_swap inside (by omega),swap_apply_right]
    exact found
  dsimp only
  rcases sunk with ⟨deeper,ordered⟩ | ⟨stayed,rising⟩
  · rw [if_pos deeper]
    exact ⟨perm,moved,ordered⟩
  · rw [if_neg (by omega)]
    have size := perm.length_eq
    refine ⟨(upFrom_perm _ _ _).trans perm,?_,?_⟩
    · rw [up,upFrom_after _ _ _ _ (by omega) (by omega)]
      exact moved
    · exact upFrom_heap order i _ (h.length-1) i (by omega) (by omega) (Nat.le_refl i) rising

theorem remove_perm {x : α} (found : h[i]? = some x) : h.Perm (x :: remove less h i) := by
  obtain ⟨perm,last,-⟩ := sift_spec order heap found
  have size := perm.length_eq
  have split : sift less h i = remove less h i ++ [x] := by
    rw [← size,← getLast?_eq_getElem?] at last
    obtain ⟨earlier,same⟩ := List.getLast?_eq_some_iff.mp last
    rw [remove,same,dropLast_concat]
  exact perm.symm.trans (split ▸ perm_append_singleton x _)

theorem remove_heap {x : α} (found : h[i]? = some x) : Heap less (remove less h i) := by
  obtain ⟨perm,-,ordered⟩ := sift_spec order heap found
  intro j inside positive
  have size : (remove less h i).length = h.length-1 := by rw [remove,length_dropLast,perm.length_eq]
  have higher := parent_lt positive
  have same : before less (remove less h i) j (parent j) = before less (sift less h i) j (parent j) := by
    simp only [before,remove,getElem?_dropLast]
    rw [perm.length_eq,if_pos (by omega),if_pos (by omega)]
  rw [same]
  exact ordered j (by omega) positive

end

/-! ### Below an element -/

inductive Below (i : Nat) : Nat → Prop
  | here : Below i i
  | under (j : Nat) (positive : 0 < j) (upper : Below i (parent j)) : Below i j

theorem Heap.below (order : StrictWeak less) (heap : Heap less h) (below : Below i j)
    (inside : j < h.length) : before less h j i = false := by
  induction below with
  | here => exact before_irrefl order h i
  | under j positive upper ih =>
    have higher := parent_lt positive
    exact not_before_trans order (by omega) (ih (by omega)) (heap j inside positive)

end Mcpkit.BinaryHeap
