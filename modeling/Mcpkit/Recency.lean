import Mathlib.Data.List.Basic

/-!
Recency in a log. A list of distinct keys ranks a log of touches when each key was touched after
the last touch of every key behind it: its last key is the least recently touched one.
-/
namespace Mcpkit.Recency
open List
variable {α β : Type}

def Since (log : List α) (older newer : α) : Prop :=
  ∃ before after, log = before ++ newer :: after ∧ older ∉ after

theorem since_last (log : List α) (older newer : α) : Since (log ++ [newer]) older newer := ⟨log,[],rfl,by simp⟩

theorem Since.grow {log : List α} {older newer : α} (since : Since log older newer) {x : α} (other : older ≠ x) :
    Since (log ++ [x]) older newer := by
  obtain ⟨before,after,rfl,fresh⟩ := since
  refine ⟨before,after ++ [x],by simp,?_⟩
  intro member
  rcases mem_append.mp member with old | last
  · exact fresh old
  · exact other (mem_singleton.mp last)

def Ranked (log order : List α) : Prop := order.Pairwise fun newer older => Since log older newer

theorem Ranked.touch [DecidableEq α] {log order : List α} (ranked : Ranked log order) (distinct : order.Nodup) (x : α) :
    Ranked (log ++ [x]) (x :: order.erase x) := by
  refine pairwise_cons.mpr ⟨fun older _ => since_last log older x,?_⟩
  have kept : (order.erase x).Pairwise (fun newer older => Since log older newer) := ranked.sublist erase_sublist
  refine kept.imp_of_mem ?_
  intro newer older _ member since
  refine since.grow ?_
  rintro rfl
  exact distinct.not_mem_erase member

theorem Ranked.sublist {log order fewer : List α} (ranked : Ranked log order) (part : fewer.Sublist order) :
    Ranked log fewer := List.Pairwise.sublist part ranked

theorem Ranked.last {log order rest : List α} {back : α} (ranked : Ranked log order)
    (reversed : order.reverse = back :: rest) {x : α} (member : x ∈ order) (other : x ≠ back) : Since log back x := by
  have listed : order = rest.reverse ++ [back] := by rw [← reverse_reverse order,reversed,reverse_cons]
  rw [listed] at ranked member
  rcases mem_append.mp member with inside | last
  · exact (pairwise_append.mp ranked).2.2 x inside back (by simp)
  · exact absurd (mem_singleton.mp last) other

def Latest (log : List (α × β)) (key : α) (value : β) : Prop :=
  ∃ before after, log = before ++ (key,value) :: after ∧ ∀ pair ∈ after, pair.1 ≠ key

theorem latest_last (log : List (α × β)) (key : α) (value : β) : Latest (log ++ [(key,value)]) key value :=
  ⟨log,[],rfl,by simp⟩

theorem Latest.grow {log : List (α × β)} {key : α} {value : β} (latest : Latest log key value) {pair : α × β}
    (other : pair.1 ≠ key) : Latest (log ++ [pair]) key value := by
  obtain ⟨before,after,rfl,fresh⟩ := latest
  refine ⟨before,after ++ [pair],by simp,?_⟩
  intro p member
  rcases mem_append.mp member with old | last
  · exact fresh p old
  · rw [mem_singleton.mp last]; exact other

end Mcpkit.Recency
