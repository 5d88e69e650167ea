import Mathlib.Data.Finmap

/-!
Go maps with string keys. Two maps are equal when they hold the same pairs, and
reading a missing counter gives zero.
-/
namespace Mcpkit.GoMaps
open List Finmap

/-- A Go map with string keys. -/
abbrev GoMap (α : Type) := Finmap fun _ : String => α

def count (m : GoMap Int) (key : String) : Int := (m.lookup key).getD 0

@[simp] theorem count_empty (key : String) : count ∅ key = 0 := by simp [count]

theorem count_insert (m : GoMap Int) (key other : String) (n : Int) :
    count (m.insert key n) other = if other = key then n else count m other := by
  unfold count
  by_cases same : other = key
  · subst same; simp
  · rw [lookup_insert_of_ne _ same,if_neg same]

def eraseAll {α : Type} (m : GoMap α) (keys : List String) : GoMap α := keys.foldl (fun m key => m.erase key) m

variable {α : Type}

theorem lookup_eraseAll (keys : List String) (key : String) : ∀ m : GoMap α,
    (eraseAll m keys).lookup key = if key ∈ keys then none else m.lookup key := by
  induction keys with
  | nil => intro m; simp [eraseAll]
  | cons first rest ih =>
    intro m
    rw [eraseAll,foldl_cons,← eraseAll,ih]
    by_cases same : key = first
    · subst same; simp
    · simp [same,lookup_erase_ne same]

def keep {α : Type} (m : GoMap α) (test : String → α → Bool) : GoMap α where
  entries := m.entries.filter fun entry => test entry.1 entry.2
  nodupKeys := Multiset.nodup_keys.mp
    (Multiset.nodup_of_le (Multiset.map_le_map (Multiset.filter_le _ _)) (Multiset.nodup_keys.mpr m.nodupKeys))

theorem lookup_keep (m : GoMap α) (test : String → α → Bool) (key : String) :
    (keep m test).lookup key = (m.lookup key).filter (test key) := by
  ext value
  rw [Finmap.lookup_eq_some_iff,Option.filter_eq_some_iff,Finmap.lookup_eq_some_iff]
  exact Multiset.mem_filter

def insertAll {α : Type} (m : GoMap α) (pairs : List (String × α)) : GoMap α :=
  pairs.foldl (fun m pair => m.insert pair.1 pair.2) m

variable {pairs : List (String × α)} {key : String}

theorem lookup_insertAll_of_notMem (missing : ∀ value, (key,value) ∉ pairs) (m : GoMap α) :
    (insertAll m pairs).lookup key = m.lookup key := by
  induction pairs generalizing m with
  | nil => rfl
  | cons pair rest ih =>
    rw [insertAll,foldl_cons,← insertAll,ih fun value member => missing value (mem_cons_of_mem _ member)]
    refine lookup_insert_of_ne _ ?_
    rintro rfl
    exact missing pair.2 mem_cons_self

theorem lookup_insertAll {value : α} (member : (key,value) ∈ pairs)
    (single : ∀ value', (key,value') ∈ pairs → value' = value) (m : GoMap α) :
    (insertAll m pairs).lookup key = some value := by
  induction pairs generalizing m with
  | nil => cases member
  | cons pair rest ih =>
    rw [insertAll,foldl_cons,← insertAll]
    by_cases later : (key,value) ∈ rest
    · exact ih later (fun value' member' => single value' (mem_cons_of_mem _ member')) _
    · rw [lookup_insertAll_of_notMem]
      · rcases mem_cons.mp member with rfl | there
        · exact lookup_insert _
        · exact absurd there later
      · intro value' there
        rw [single value' (mem_cons_of_mem _ there)] at there
        exact later there

def copy {α : Type} (target source : GoMap α) : GoMap α := source ∪ target

variable (target : GoMap α)

theorem lookup_copy (source : GoMap α) (key : String) :
    (copy target source).lookup key = (source.lookup key).or (target.lookup key) := by
  by_cases inside : key ∈ source
  · obtain ⟨value,found⟩ := Option.isSome_iff_exists.mp (lookup_isSome.mpr inside)
    rw [copy,lookup_union_left inside,found]
    rfl
  · rw [copy,lookup_union_right inside,lookup_eq_none.mpr inside]
    rfl

def copyAll {α : Type} (target : GoMap α) (sources : List (GoMap α)) : GoMap α := sources.foldl copy target

theorem copyAll_concat (sources : List (GoMap α)) (last : GoMap α) :
    copyAll target (sources ++ [last]) = copy (copyAll target sources) last := by
  rw [copyAll,foldl_append]
  rfl

variable {sources : List (GoMap α)}

theorem lookup_copyAll_of_none (missing : ∀ source ∈ sources, source.lookup key = none)
    (target : GoMap α) : (copyAll target sources).lookup key = target.lookup key := by
  induction sources using reverseRecOn with
  | nil => rfl
  | append_singleton sources last ih =>
    rw [copyAll_concat,lookup_copy,missing last (by simp)]
    exact ih fun source member => missing source (mem_append_left _ member)

theorem lookup_copyAll_of_agree {value : α}
    (agree : ∀ source ∈ sources, source.lookup key = none ∨ source.lookup key = some value)
    (present : ∃ source ∈ sources, source.lookup key = some value) (target : GoMap α) :
    (copyAll target sources).lookup key = some value := by
  induction sources using reverseRecOn with
  | nil =>
    obtain ⟨source,member,-⟩ := present
    exact absurd member not_mem_nil
  | append_singleton sources last ih =>
    rw [copyAll_concat,lookup_copy]
    rcases agree last (by simp) with none | found
    · obtain ⟨source,member,found⟩ := present
      rw [none,Option.none_or]
      refine ih (fun other inside => agree other (mem_append_left _ inside)) ⟨source,?_,found⟩
      rcases mem_append.mp member with earlier | now
      · exact earlier
      · rw [mem_singleton.mp now,none] at found
        cases found
    · rw [found,Option.some_or]

/-- An order in which a loop may range over a map. -/
structure Ranges {α : Type} (m : GoMap α) (pairs : List (String × α)) : Prop where
  distinct : (pairs.map Prod.fst).Nodup
  pairs : ∀ key value, (key,value) ∈ pairs ↔ m.lookup key = some value

theorem lookup_insertAll_iff (distinct : (pairs.map Prod.fst).Nodup) (key : String) (value : α) :
    (insertAll ∅ pairs).lookup key = some value ↔ (key,value) ∈ pairs := by
  have single {value value' : α} (one : (key,value) ∈ pairs) (other : (key,value') ∈ pairs) : value' = value :=
    congrArg Prod.snd (inj_on_of_nodup_map distinct other one rfl)
  constructor
  · intro found
    by_contra missing
    by_cases other : ∃ value', (key,value') ∈ pairs
    · obtain ⟨value',member⟩ := other
      rw [lookup_insertAll member (fun _ more => single member more) ∅,Option.some.injEq] at found
      exact missing (found ▸ member)
    · rw [lookup_insertAll_of_notMem (not_exists.mp other),lookup_empty] at found
      cases found
  · exact fun member => lookup_insertAll member (fun _ more => single member more) ∅

theorem ranges_insertAll {range : List (String × α)} (distinct : (pairs.map Prod.fst).Nodup) :
    Ranges (insertAll ∅ pairs) range ↔ range.Perm pairs := by
  constructor
  · intro ranges
    refine (perm_ext_iff_of_nodup ranges.distinct.of_map distinct.of_map).mpr ?_
    rintro ⟨key,value⟩
    rw [ranges.pairs,lookup_insertAll_iff distinct]
  · intro perm
    refine ⟨(perm.map Prod.fst).nodup_iff.mpr distinct,fun key value => ?_⟩
    rw [lookup_insertAll_iff distinct]
    exact perm.mem_iff

def anyPair {α : Type} (m : GoMap α) (test : String → α → Bool) : Bool :=
  @decide (∃ entry ∈ m.entries, test entry.1 entry.2 = true) Multiset.decidableExistsMultiset

theorem anyPair_iff {m : GoMap α} {test : String → α → Bool} :
    anyPair m test = true ↔ ∃ key value, m.lookup key = some value ∧ test key value = true := by
  refine (@decide_eq_true_iff _ Multiset.decidableExistsMultiset).trans ?_
  constructor
  · rintro ⟨⟨key,value⟩,member,passed⟩
    exact ⟨key,value,lookup_eq_some_iff.mpr member,passed⟩
  · rintro ⟨key,value,found,passed⟩
    exact ⟨⟨key,value⟩,lookup_eq_some_iff.mp found,passed⟩

/-- A loop in which each round changes its own key only, by a change that does nothing the second time. -/
theorem foldl_pointwise {σ ν : Type} (step : σ → String → σ) (view : σ → String → ν) (I : σ → Prop)
    (change : String → ν → ν) (kept : ∀ s key, I s → I (step s key))
    (stepped : ∀ s key other, I s → view (step s key) other = if other = key then change key (view s key) else view s other)
    (again : ∀ key v, change key (change key v) = change key v) (keys : List String) : ∀ s, I s →
      I (keys.foldl step s) ∧ ∀ other, view (keys.foldl step s) other =
        if other ∈ keys then change other (view s other) else view s other := by
  induction keys with
  | nil => intro s valid; exact ⟨valid,fun other => by simp⟩
  | cons key rest ih =>
    intro s valid
    obtain ⟨valid',seen⟩ := ih (step s key) (kept s key valid)
    refine ⟨valid',fun other => ?_⟩
    rw [foldl_cons,seen,stepped s key other valid]
    by_cases same : other = key
    · subst same; simp [again]
    · simp [same]

end Mcpkit.GoMaps
