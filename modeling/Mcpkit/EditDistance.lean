import Mathlib.Data.List.Basic

/-!
Edit distance of the runes of two names. Of the table only two rows are kept, which are swapped after
each rune of the first name.
-/
namespace Mcpkit.EditDistance
open List

variable {α : Type} [DecidableEq α]

/-- The inner loop from the rune in place `j` on; `x` is the rune of the outer loop. -/
def fill (x : α) (prev : List Nat) : Nat → List α → List Nat → List Nat
  | _,[],curr => curr
  | j,y :: ys,curr =>
    let cost := if x = y then 0 else 1
    let insert := curr.getD j 0 + 1
    let delete := prev.getD (j+1) 0 + 1
    let substitute := prev.getD j 0 + cost
    let minimum := if delete < insert then delete else insert
    let minimum := if substitute < minimum then substitute else minimum
    fill x prev (j+1) ys (curr.set (j+1) minimum)

/-- The outer loop from the `i`-th rune on. -/
def rows (b : List α) : Nat → List α → List Nat → List Nat → List Nat
  | _,[],prev,_ => prev
  | i,x :: xs,prev,curr => rows b (i+1) xs (fill x prev 0 b (curr.set 0 i)) prev

def levenshtein (a b : List α) : Nat :=
  if a = [] then b.length
  else if b = [] then a.length
  else (rows b 1 a (range (b.length+1)) (replicate (b.length+1) 0)).getD b.length 0

/-! ### The distance -/

def distance : List α → List α → Nat
  | [],ys => ys.length
  | x :: xs,[] => xs.length+1
  | x :: xs,y :: ys =>
    min (min (distance (x :: xs) ys + 1) (distance xs (y :: ys) + 1)) (distance xs ys + if x = y then 0 else 1)
termination_by xs ys => xs.length + ys.length

/-- The recursive edit distance, by the last runes. -/
def editDistance (a b : List α) : Nat := distance a.reverse b.reverse

theorem distance_nil (xs : List α) : distance xs [] = xs.length := by
  cases xs <;> simp [distance]

theorem distance_bounds (xs ys : List α) : xs.length ≤ distance xs ys + ys.length ∧
    ys.length ≤ distance xs ys + xs.length ∧ distance xs ys ≤ max xs.length ys.length := by
  fun_induction distance xs ys with
  | case1 ys | case2 x xs => simp
  | case3 x xs y ys insert delete substitute =>
    simp only [length_cons] at *
    split_ifs <;> omega

theorem distance_eq_zero (xs ys : List α) : distance xs ys = 0 ↔ xs = ys := by
  fun_induction distance xs ys with
  | case1 ys => simp [eq_comm]
  | case2 x xs => simp
  | case3 x xs y ys insert delete substitute =>
    rw [cons.injEq,← substitute]
    split_ifs with same <;> simp [same]

theorem distance_comm (xs ys : List α) : distance xs ys = distance ys xs := by
  fun_induction distance xs ys with
  | case1 ys => rw [distance_nil]
  | case2 x xs => simp [distance]
  | case3 x xs y ys insert delete substitute =>
    rw [insert,delete,substitute,distance,Nat.min_comm (distance (y :: ys) xs + 1)]
    simp only [eq_comm]

theorem distance_triangle : ∀ xs ys zs : List α, distance xs zs ≤ distance xs ys + distance ys zs
  | [],ys,zs => by
    have bounds := distance_bounds ys zs
    simp only [distance]
    omega
  | x :: xs,[],zs => by
    have bounds := distance_bounds (x :: xs) zs
    rw [distance_nil,distance]
    omega
  | x :: xs,y :: ys,[] => by
    have bounds := distance_bounds (x :: xs) (y :: ys)
    rw [distance_nil,distance_nil]
    omega
  | x :: xs,y :: ys,z :: zs => by
    have delete := distance_triangle xs (y :: ys) (z :: zs)
    have insert := distance_triangle (x :: xs) (y :: ys) zs
    have both := distance_triangle (x :: xs) ys (z :: zs)
    have first := distance_triangle (x :: xs) ys zs
    have second := distance_triangle xs ys (z :: zs)
    have substitute := distance_triangle xs ys zs
    have cost : (if x = z then 0 else 1) ≤ (if x = y then 0 else 1) + if y = z then 0 else 1 := by
      split_ifs <;> simp_all
    have whole : distance (x :: xs) (z :: zs) = _ := distance.eq_3 ..
    have left : distance (x :: xs) (y :: ys) = _ := distance.eq_3 ..
    have right : distance (y :: ys) (z :: zs) = _ := distance.eq_3 ..
    omega
termination_by xs ys zs => xs.length + ys.length + zs.length

/-! ### The rows -/

/-- Up to place `n`, the row has the distances of the prefixes of `b`; `as` are the runes so far, the last one first. -/
structure Row (as b : List α) (n : Nat) (row : List Nat) : Prop where
  length : row.length = b.length+1
  cells : ∀ k ≤ n, row.getD k 0 = distance as (b.take k).reverse

variable {as b : List α} {x : α} {prev : List Nat}

theorem row_fill (full : Row as b b.length prev) : ∀ ys before curr, before ++ ys = b →
    Row (x :: as) b before.length curr → Row (x :: as) b b.length (fill x prev before.length ys curr) := by
  intro ys
  induction ys with
  | nil =>
    intro before curr whole row
    rw [append_nil] at whole
    exact whole ▸ row
  | cons y ys ih =>
    intro before curr whole row
    have next := fun curr => ih (before ++ [y]) curr (by rw [append_assoc]; exact whole)
    rw [length_append,length_singleton] at next
    refine next _ ⟨(length_set ..).trans row.length,fun k le => ?_⟩
    have short : before.length + 1 ≤ b.length := by simp [← whole]
    have inside : before.length + 1 < curr.length := by rw [row.length]; omega
    rcases Nat.lt_or_eq_of_le le with earlier | rfl
    · rw [getD_eq_getElem?_getD,getElem?_set_ne (by omega),← getD_eq_getElem?_getD]
      exact row.cells k (by omega)
    · have consumed : (b.take before.length).reverse = before.reverse := by simp [← whole]
      have consumed' : (b.take (before.length+1)).reverse = y :: before.reverse := by
        rw [← whole,take_length_add_append]
        simp
      have insert := row.cells before.length (Nat.le_refl _)
      have delete := full.cells (before.length+1) short
      have substitute := full.cells before.length (by omega)
      rw [consumed] at insert substitute
      rw [consumed'] at delete ⊢
      rw [getD_eq_getElem?_getD,getElem?_set_self inside,Option.getD_some,insert,delete,substitute,distance]
      split_ifs <;> omega

theorem row_rows : ∀ xs as prev curr, Row as b b.length prev → curr.length = b.length+1 →
    Row (xs.reverse ++ as) b b.length (rows b (as.length+1) xs prev curr) := by
  intro xs
  induction xs with
  | nil => exact fun _ _ _ row _ => row
  | cons x xs ih =>
    intro as prev curr full size
    have begun : Row (x :: as) b 0 (curr.set 0 (as.length+1)) := by
      refine ⟨(length_set ..).trans size,fun k le => ?_⟩
      obtain rfl := Nat.le_zero.mp le
      rw [getD_eq_getElem?_getD,getElem?_set_self (by omega),take_zero,reverse_nil,distance_nil]
      rfl
    have filled := row_fill full b [] _ rfl begun
    rw [reverse_cons,append_assoc]
    exact ih _ _ _ filled full.length

theorem levenshtein_eq (a b : List α) : levenshtein a b = editDistance a b := by
  unfold levenshtein editDistance
  split_ifs with empty empty
  · simp [empty,distance]
  · simp [empty,distance_nil]
  · have first : Row ([] : List α) b b.length (range (b.length+1)) := by
      refine ⟨length_range,fun k le => ?_⟩
      rw [getD_eq_getElem?_getD,getElem?_range (by omega),distance,length_reverse,length_take]
      exact (Nat.min_eq_left le).symm
    have last := row_rows a [] _ (replicate (b.length+1) 0) first length_replicate
    rw [append_nil] at last
    refine (last.cells b.length (Nat.le_refl _)).trans ?_
    rw [take_length]

theorem levenshtein_metric (a b c : List α) : levenshtein a b = editDistance a b ∧ (levenshtein a b = 0 ↔ a = b) ∧
    levenshtein a b = levenshtein b a ∧ levenshtein a c ≤ levenshtein a b + levenshtein b c ∧
      a.length - b.length ≤ levenshtein a b ∧ b.length - a.length ≤ levenshtein a b ∧
        levenshtein a b ≤ max a.length b.length := by
  have bounds := distance_bounds a.reverse b.reverse
  simp only [levenshtein_eq,editDistance,length_reverse] at bounds ⊢
  refine ⟨trivial,?_,distance_comm _ _,distance_triangle _ _ _,by omega,by omega,bounds.2.2⟩
  rw [distance_eq_zero,reverse_inj]

end Mcpkit.EditDistance
