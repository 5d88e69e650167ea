import Mathlib.Data.Multiset.Filter

/-!
Artifacts in memory and in files. The name of a file is made from an id by a replacement that
maps different ids to one name.
-/
namespace Mcpkit.ArtifactStores
open List

variable {C D : Type}

structure Artifact (C : Type) where
  id : String
  type : String
  content : C
  createdAt : String

structure Json (C D : Type) where
  marshal : Artifact C → D
  unmarshal : D → Option (Artifact C)
  unmarshal_marshal : ∀ a, unmarshal (marshal a) = some a

def put {V : Type} (key : String) (v : V) : List (String × V) → List (String × V)
  | [] => [(key,v)]
  | entry :: rest => if entry.1 = key then (key,v) :: rest else entry :: put key v rest

def sanitizeID (id : String) : String :=
  String.ofList (id.toList.map fun c => if c ∈ ['/','\\',':',' '] then '_' else c)

def fileName (id : String) : String := sanitizeID id ++ ".json"

inductive Call (C : Type) where
  | save (a : Artifact C)
  | get (id : String)
  | list (type : String)

def Call.id? : Call C → Option String
  | .save a => some a.id
  | .get id => some id
  | .list _ => none

inductive Answer (C : Type) where
  | saved
  | got (a : Option (Artifact C))
  | listed (as : Multiset (Artifact C))

def ofType (type : String) (a : Artifact C) : Bool := type = "" || a.type = type

/-- `InMemoryArtifactStore`. -/
def memory (s : List (String × Artifact C)) : Call C → Answer C × List (String × Artifact C)
  | .save a => (.saved,put a.id a s)
  | .get id => (.got (s.lookup id),s)
  | .list type => (.listed ((s.map Prod.snd).filter (ofType type)),s)

/-- `FileArtifactStore`, on the files of its directory. -/
def files (json : Json C D) (s : List (String × D)) : Call C → Answer C × List (String × D)
  | .save a => (.saved,put (fileName a.id) (json.marshal a) s)
  | .get id => (.got ((s.lookup (fileName id)).bind json.unmarshal),s)
  | .list type =>
    let found := (s.filter fun f => ".json".toList.isSuffixOf f.1.toList).filterMap fun f => json.unmarshal f.2
    (.listed (found.filter (ofType type)),s)

def answers {S : Type} (store : S → Call C → Answer C × S) : S → List (Call C) → List (Answer C)
  | _,[] => []
  | s,call :: calls => (store s call).1 :: answers store (store s call).2 calls

/-- All calls with ids of a set have the same answers from both stores. -/
def Agree (json : Json C D) (ids : Set String) : Prop :=
  ∀ calls : List (Call C), (∀ call ∈ calls, ∀ id ∈ call.id?, id ∈ ids) →
    answers (files json) [] calls = answers memory [] calls

variable {json : Json C D} {ids : Set String} {s : List (String × Artifact C)}

theorem fileName_inj {id id' : String} : fileName id = fileName id' ↔ sanitizeID id = sanitizeID id' := by
  simp [fileName,← String.toList_inj]

def written (json : Json C D) (s : List (String × Artifact C)) : List (String × D) :=
  s.map fun e => (fileName e.1,json.marshal e.2)

section
variable (injective : Set.InjOn sanitizeID ids) (inside : ∀ e ∈ s, e.1 ∈ ids)
include injective inside

theorem put_written {a : Artifact C} (own : a.id ∈ ids) :
    put (fileName a.id) (json.marshal a) (written json s) = written json (put a.id a s) := by
  induction s with
  | nil => rfl
  | cons e s ih =>
    rw [forall_mem_cons] at inside
    have same : fileName e.1 = fileName a.id ↔ e.1 = a.id := by
      rw [fileName_inj]
      exact injective.eq_iff inside.1 own
    have later := ih inside.2
    unfold written at later ⊢
    simp only [map_cons,put,same]
    split
    · rfl
    · rw [later]
      rfl

theorem lookup_written {id : String} (own : id ∈ ids) :
    ((written json s).lookup (fileName id)).bind json.unmarshal = s.lookup id := by
  induction s with
  | nil => rfl
  | cons e s ih =>
    obtain ⟨key,a⟩ := e
    rw [forall_mem_cons] at inside
    have same : (fileName id == fileName key) = (id == key) := by
      rw [Bool.eq_iff_iff,beq_iff_eq,beq_iff_eq,fileName_inj]
      exact injective.eq_iff own inside.1
    have later := ih inside.2
    unfold written at later ⊢
    rw [map_cons,lookup_cons,lookup_cons,same]
    cases id == key with
    | true => exact json.unmarshal_marshal a
    | false => exact later

end

theorem list_written (s : List (String × Artifact C)) :
    ((written json s).filter fun f => ".json".toList.isSuffixOf f.1.toList).filterMap (fun f => json.unmarshal f.2) =
      s.map Prod.snd := by
  have suffix (id : String) : ".json".toList.isSuffixOf (fileName id).toList := by
    rw [isSuffixOf_iff_suffix,fileName,String.toList_append]
    exact suffix_append _ _
  induction s with
  | nil => rfl
  | cons e s ih =>
    unfold written at ih ⊢
    rw [map_cons,filter_cons,if_pos (suffix e.1),filterMap_cons,json.unmarshal_marshal,ih]
    rfl

theorem mem_put {V : Type} {key : String} {v : V} {s : List (String × V)} {e : String × V} (member : e ∈ put key v s) :
    e.1 = key ∨ e ∈ s := by
  induction s with
  | nil => exact .inl (by rw [List.mem_singleton.mp member])
  | cons first s ih =>
    rw [put] at member
    split at member
    · rcases List.mem_cons.mp member with rfl | later
      · exact .inl rfl
      · exact .inr (mem_cons_of_mem _ later)
    · rcases List.mem_cons.mp member with rfl | later
      · exact .inr mem_cons_self
      · exact (ih later).imp_right (mem_cons_of_mem _)

theorem answers_written (injective : Set.InjOn sanitizeID ids) {calls : List (Call C)}
    (own : ∀ call ∈ calls, ∀ id ∈ call.id?, id ∈ ids) : ∀ {s : List (String × Artifact C)}, (∀ e ∈ s, e.1 ∈ ids) →
      answers (files json) (written json s) calls = answers memory s calls := by
  induction calls with
  | nil => exact fun _ => rfl
  | cons call calls ih =>
    intro s inside
    rw [forall_mem_cons] at own
    rw [answers,answers]
    cases call with
    | save a =>
      have mine : a.id ∈ ids := own.1 a.id rfl
      simp only [files,memory]
      rw [put_written injective inside mine,ih own.2 fun e member => ?_]
      exact (mem_put member).elim (fun is => is ▸ mine) (inside e)
    | get id =>
      simp only [files,memory]
      rw [lookup_written injective inside (own.1 id rfl),ih own.2 inside]
    | list type =>
      simp only [files,memory]
      rw [list_written,ih own.2 inside]

/-- The file store refines the store in memory exactly on sets of ids that have file names of their own. -/
theorem agree_iff [Inhabited C] (json : Json C D) (ids : Set String) : Agree json ids ↔ Set.InjOn sanitizeID ids := by
  constructor
  · intro agree id inside id' inside' same
    by_contra different
    have answer := agree [.save ⟨id,"",default,""⟩,.get id'] (by simp [Call.id?,inside,inside'])
    have missing (a : Artifact C) : [(id,a)].lookup id' = none := by simp [lookup_eq_none_iff,Ne.symm different]
    simp [answers,files,memory,put,missing,fileName_inj.mpr same,json.unmarshal_marshal] at answer
  · exact fun injective calls own => answers_written injective own (s := []) (by simp)

/-- The artifact of another id. -/
theorem other_artifact : answers (files (⟨id,some,fun _ => rfl⟩ : Json Unit (Artifact Unit))) []
    [.save ⟨"a/b","plan",(),""⟩,.get "a_b"] = [.saved,.got (some ⟨"a/b","plan",(),""⟩)] := by
  have name : fileName "a/b" = fileName "a_b" := by decide
  simp [answers,files,put,name]

end Mcpkit.ArtifactStores
