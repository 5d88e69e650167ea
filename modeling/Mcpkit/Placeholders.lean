import Mathlib.Data.List.Infix
import Mathlib.Data.List.Basic

/-!
Filling placeholders by replacing their marks in a text, one name after the other.
-/
namespace Mcpkit.Placeholders
open List
variable {α : Type} [DecidableEq α]

/-! ### Replacing a pattern -/

/-- Replaces from the left; so many elements of the last match are still to be dropped. -/
def replaceFrom (pat new : List α) : Nat → List α → List α
  | _,[] => []
  | skip+1,_ :: rest => replaceFrom pat new skip rest
  | 0,c :: rest =>
    if pat <+: c :: rest then new ++ replaceFrom pat new (pat.length-1) rest else c :: replaceFrom pat new 0 rest

/-- `strings.ReplaceAll`, of a pattern that is not empty. -/
def replaceAll (pat new text : List α) : List α := replaceFrom pat new 0 text

def occurrences (pat : List α) : List α → Nat
  | [] => 0
  | c :: rest => (if pat <+: c :: rest then 1 else 0)+occurrences pat rest

/-- It is not empty, and no proper end of it is a beginning of it. -/
structure Unbordered (pat : List α) : Prop where
  some_ : pat ≠ []
  ends : ∀ {x y : List α}, pat = x ++ y → x ≠ [] → y ≠ [] → ¬ y <+: pat

section
variable {pat : List α}

theorem occurrences_eq_zero (some_ : pat ≠ []) {text : List α} : occurrences pat text = 0 ↔ ¬ pat <:+: text := by
  induction text with
  | nil => simp [occurrences,some_]
  | cons c rest ih =>
    rw [infix_cons_iff,not_or,← ih,occurrences]
    by_cases here : pat <+: c :: rest <;> simp [here]

theorem replaceAll_of_not_infix {new text : List α} (missing : ¬ pat <:+: text) : replaceAll pat new text = text := by
  induction text with
  | nil => rfl
  | cons c rest ih =>
    rw [infix_cons_iff,not_or] at missing
    exact (if_neg missing.1).trans (congrArg (c :: ·) (ih missing.2))

omit [DecidableEq α] in
theorem Unbordered.before (unbordered : Unbordered pat) {x rest : List α} (some_ : x ≠ [])
    (begins : pat <+: x ++ (pat ++ rest)) : pat <+: x := by
  rcases Nat.le_total pat.length x.length with shorter | longer
  · exact prefix_of_prefix_length_le begins (prefix_append _ _) shorter
  · obtain ⟨y,same⟩ := prefix_of_prefix_length_le (prefix_append x (pat ++ rest)) begins longer
    by_cases more : y = []
    · rw [more,append_nil] at same
      exact same ▸ prefix_refl _
    · have cutOff : x ++ y <+: x ++ (pat ++ rest) := by
        rw [same]
        exact begins
      have within : y <+: pat := prefix_of_prefix_length_le ((prefix_append_right_inj x).mp cutOff)
        (prefix_append _ _) (by rw [← same,length_append]; omega)
      exact absurd within (unbordered.ends same.symm some_ more)

theorem replaceFrom_skip (new : List α) (dropped rest : List α) :
    replaceFrom pat new dropped.length (dropped ++ rest) = replaceAll pat new rest := by
  induction dropped with
  | nil => rfl
  | cons c dropped ih => exact ih

section
variable (unbordered : Unbordered pat)
include unbordered

theorem Unbordered.replaceAll_append {new x rest : List α} (missing : ¬ pat <:+: x) :
    replaceAll pat new (x ++ (pat ++ rest)) = x ++ (new ++ replaceAll pat new rest) := by
  induction x with
  | nil =>
    obtain ⟨c,more,rfl⟩ := exists_cons_of_ne_nil unbordered.some_
    have here : c :: more <+: c :: (more ++ rest) := prefix_append (c :: more) rest
    exact (if_pos here).trans (congrArg (new ++ ·) (replaceFrom_skip new more rest))
  | cons c x ih =>
    rw [infix_cons_iff,not_or] at missing
    have away : ¬ pat <+: c :: x ++ (pat ++ rest) := fun begins =>
      missing.1 (unbordered.before (cons_ne_nil c x) begins)
    exact (if_neg away).trans (congrArg (c :: ·) (ih missing.2))

theorem Unbordered.occurrences_inside {x y : List α} (rest : List α) (same : pat = x ++ y)
    (some_ : x ≠ []) : occurrences pat (y ++ rest) = occurrences pat rest := by
  induction y generalizing x with
  | nil => rfl
  | cons c y ih =>
    have away : ¬ pat <+: c :: (y ++ rest) := by
      intro begins
      have within : c :: y <+: pat := prefix_of_prefix_length_le (prefix_append (c :: y) rest) begins
        (by rw [same,length_append]; omega)
      exact unbordered.ends same some_ (cons_ne_nil c y) within
    have later := ih (x := x ++ [c]) (by simp [same]) (by simp)
    rw [cons_append,occurrences,if_neg away,later,Nat.zero_add]

theorem Unbordered.occurrences_append (x rest : List α) :
    occurrences pat (x ++ (pat ++ rest)) = occurrences pat x+1+occurrences pat rest := by
  induction x with
  | nil =>
    obtain ⟨c,more,isCons⟩ := exists_cons_of_ne_nil unbordered.some_
    have here : pat <+: c :: (more ++ rest) := by rw [isCons]; exact prefix_append (c :: more) rest
    have inside : occurrences pat (more ++ rest) = occurrences pat rest :=
      unbordered.occurrences_inside (x := [c]) rest isCons (cons_ne_nil c [])
    have whole : ([] : List α) ++ (pat ++ rest) = c :: (more ++ rest) := by rw [isCons]; rfl
    simp only [whole,occurrences,if_pos here,inside,Nat.zero_add]
  | cons c x ih =>
    have same : pat <+: c :: (x ++ (pat ++ rest)) ↔ pat <+: c :: x :=
      ⟨unbordered.before (cons_ne_nil c x),fun begins => begins.trans (prefix_append (c :: x) _)⟩
    rw [cons_append,occurrences,occurrences,ih]
    simp only [same]
    omega

theorem Unbordered.replaceAll_intercalate (new : List α) {runs : List (List α)}
    (clean : ∀ r ∈ runs, ¬ pat <:+: r) : replaceAll pat new (pat.intercalate runs) = new.intercalate runs := by
  induction runs with
  | nil => rfl
  | cons r runs ih =>
    have first := clean r mem_cons_self
    cases runs with
    | nil =>
      rw [intercalate_singleton,intercalate_singleton]
      exact replaceAll_of_not_infix first
    | cons r' runs =>
      rw [intercalate_cons_cons,intercalate_cons_cons,append_assoc,append_assoc,
        unbordered.replaceAll_append first,ih fun r member => clean r (mem_cons_of_mem _ member)]

theorem Unbordered.length_le_occurrences (r : List α) (runs : List (List α)) :
    runs.length ≤ occurrences pat (pat.intercalate (r :: runs)) := by
  induction runs generalizing r with
  | nil => exact Nat.zero_le _
  | cons r' runs ih =>
    have later := ih r'
    rw [intercalate_cons_cons,append_assoc,unbordered.occurrences_append,length_cons]
    omega

theorem Unbordered.occurrences_eq_length (r : List α) (runs : List (List α)) :
    occurrences pat (pat.intercalate (r :: runs)) = runs.length ↔ ∀ r' ∈ r :: runs, ¬ pat <:+: r' := by
  induction runs generalizing r with
  | nil => simpa using occurrences_eq_zero unbordered.some_
  | cons r' runs ih =>
    have most := unbordered.length_le_occurrences r' runs
    rw [intercalate_cons_cons,append_assoc,unbordered.occurrences_append,length_cons,
      forall_mem_cons,← ih r',← occurrences_eq_zero unbordered.some_]
    omega

end

end

/-! ### Templates -/

inductive Piece (α : Type) where
  | text (t : List α)
  | hole (name : List α)
  deriving DecidableEq

section
variable (mark : List α → List α)

def Piece.render : Piece α → List α
  | .text t => t
  | .hole name => mark name

def render (pieces : List (Piece α)) : List α := pieces.flatMap (Piece.render mark)

def Piece.fill (name t : List α) (p : Piece α) : Piece α := if p = .hole name then .text t else p

def fill (name t : List α) (pieces : List (Piece α)) : List (Piece α) := pieces.map (Piece.fill name t)

def runs (name : List α) : List (Piece α) → List (List α)
  | [] => [[]]
  | p :: rest => if p = .hole name then [] :: runs name rest else (runs name rest).modifyHead (p.render mark ++ ·)

def replaceEach (values : List (List α × List α)) (text : List α) : List α :=
  values.foldl (fun text value => replaceAll (mark value.1) value.2 text) text

def fillEach (values : List (List α × List α)) (pieces : List (Piece α)) : List (Piece α) :=
  values.foldl (fun pieces value => fill value.1 value.2 pieces) pieces

/-- Every replacement in the text is one of a placeholder of the template. -/
def OwnPlaces : List (List α × List α) → List α → List (Piece α) → Prop
  | [],_,_ => True
  | (name,t) :: values,text,pieces =>
    occurrences (mark name) text = pieces.count (.hole name) ∧
      OwnPlaces values (replaceAll (mark name) t text) (fill name t pieces)

/-- When its turn comes, no name's mark stands between the name's placeholders. -/
def Apart : List (List α × List α) → List (Piece α) → Prop
  | [],_ => True
  | (name,t) :: values,pieces => (∀ r ∈ runs mark name pieces, ¬ mark name <:+: r) ∧ Apart values (fill name t pieces)

end

section
variable {mark : List α → List α}

variable (mark) in
theorem runs_length (name : List α) (pieces : List (Piece α)) :
    (runs mark name pieces).length = pieces.count (.hole name)+1 := by
  induction pieces with
  | nil => rfl
  | cons p rest ih =>
    rw [runs,count_cons]
    by_cases is : p = .hole name
    · simp [is,ih]
    · simp [is,ih]

variable (mark) in
theorem runs_ne_nil (name : List α) (pieces : List (Piece α)) : runs mark name pieces ≠ [] :=
  ne_nil_of_length_eq_add_one (runs_length mark name pieces)

theorem render_fill (name t : List α) (pieces : List (Piece α)) :
    render mark (fill name t pieces) = t.intercalate (runs mark name pieces) := by
  induction pieces with
  | nil => rfl
  | cons p rest ih =>
    obtain ⟨r,more,split⟩ := exists_cons_of_ne_nil (runs_ne_nil mark name rest)
    have cons : render mark (fill name t (p :: rest)) =
        (p.fill name t).render mark ++ render mark (fill name t rest) := rfl
    rw [cons,ih,runs,split]
    by_cases is : p = .hole name
    · rw [if_pos is,Piece.fill,if_pos is,intercalate_cons_cons]
      rfl
    · rw [if_neg is,Piece.fill,if_neg is,modifyHead_cons]
      cases more with
      | nil => simp [intercalate_singleton]
      | cons r' more => simp [intercalate_cons_cons]

theorem render_runs (name : List α) (pieces : List (Piece α)) :
    render mark pieces = (mark name).intercalate (runs mark name pieces) := by
  have same : ∀ p : Piece α, (p.fill name (mark name)).render mark = p.render mark := by
    intro p
    unfold Piece.fill
    split
    · rename_i is
      rw [is]
      rfl
    · rfl
  rw [← render_fill,render,render,fill,flatMap_map]
  simp only [same]

variable {name : List α} {pieces : List (Piece α)}

theorem runs_of_no_hole (none : .hole name ∉ pieces) : runs mark name pieces = [render mark pieces] := by
  have one := runs_length mark name pieces
  rw [count_eq_zero_of_not_mem none] at one
  obtain ⟨r,only⟩ := length_eq_one_iff.mp one
  rw [render_runs name pieces,only,intercalate_singleton]

variable (some_ : ∀ name, mark name ≠ [])
include some_

/-- One name: the marks in the text are its placeholders if and only if there is no other
    between them, and then replacing the marks fills the placeholders. -/
theorem occurrences_render (unbordered : .hole name ∈ pieces → Unbordered (mark name)) :
    occurrences (mark name) (render mark pieces) = pieces.count (.hole name) ↔
      ∀ r ∈ runs mark name pieces, ¬ mark name <:+: r := by
  by_cases inside : .hole name ∈ pieces
  · obtain ⟨r,more,split⟩ := exists_cons_of_ne_nil (runs_ne_nil mark name pieces)
    have length := runs_length mark name pieces
    rw [split,length_cons,Nat.add_right_cancel_iff] at length
    rw [render_runs name pieces,split,← length]
    exact (unbordered inside).occurrences_eq_length r more
  · rw [runs_of_no_hole inside,count_eq_zero_of_not_mem inside,occurrences_eq_zero (some_ name)]
    simp

omit some_ in
theorem replaceAll_render
    (unbordered : .hole name ∈ pieces → Unbordered (mark name)) (clean : ∀ r ∈ runs mark name pieces, ¬ mark name <:+: r)
    (t : List α) : replaceAll (mark name) t (render mark pieces) = render mark (fill name t pieces) := by
  rw [render_fill]
  by_cases inside : .hole name ∈ pieces
  · rw [render_runs name pieces]
    exact (unbordered inside).replaceAll_intercalate t clean
  · rw [runs_of_no_hole inside] at clean ⊢
    rw [intercalate_singleton]
    exact replaceAll_of_not_infix (clean _ mem_cons_self)

omit some_ in
theorem hole_of_fill {name' t : List α} (inside : .hole name' ∈ fill name t pieces) : .hole name' ∈ pieces := by
  obtain ⟨p,member,same⟩ := mem_map.mp inside
  unfold Piece.fill at same
  split at same
  · cases same
  · exact same ▸ member

omit some_ in
theorem mem_fillEach {values : List (List α × List α)} {p : Piece α} (inside : p ∈ fillEach values pieces) :
    p ∈ pieces ∨ ∃ value ∈ values, .hole value.1 ∈ pieces ∧ p = .text value.2 := by
  induction values generalizing pieces with
  | nil => exact .inl inside
  | cons value values ih =>
    have later : p ∈ fillEach values (fill value.1 value.2 pieces) := inside
    rcases ih later with member | ⟨value',member,hole,is⟩
    · obtain ⟨p',member',same⟩ := mem_map.mp member
      unfold Piece.fill at same
      split at same
      · rename_i hole
        exact .inr ⟨value,mem_cons_self,hole ▸ member',same.symm⟩
      · exact .inl (same ▸ member')
    · exact .inr ⟨value',mem_cons_of_mem _ member,hole_of_fill hole,is⟩

omit some_ in
theorem text_mem_fillEach {values : List (List α × List α)} {t : List α} (hole : .hole name ∈ pieces)
    (given : (name,t) ∈ values) (same : ∀ t', (name,t') ∈ values → t' = t) : .text t ∈ fillEach values pieces := by
  have kept : ∀ (values : List (List α × List α)) (pieces : List (Piece α)), .text t ∈ pieces →
      .text t ∈ fillEach values pieces := by
    intro values
    induction values with
    | nil => exact fun _ inside => inside
    | cons value values ih =>
      intro pieces inside
      exact ih _ (mem_map.mpr ⟨.text t,inside,if_neg nofun⟩)
  induction values generalizing pieces with
  | nil => exact absurd given not_mem_nil
  | cons value values ih =>
    by_cases is : value.1 = name
    · have text : value.2 = t := same value.2 (by simp [← is])
      refine kept values _ (mem_map.mpr ⟨.hole name,hole,?_⟩)
      rw [Piece.fill,if_pos (by rw [is]),text]
    · have left : .hole name ∈ fill value.1 value.2 pieces :=
        mem_map.mpr ⟨.hole name,hole,if_neg fun other => is (Piece.hole.inj other).symm⟩
      have later : (name,t) ∈ values := by
        rcases mem_cons.mp given with rfl | later
        · exact absurd rfl is
        · exact later
      exact ih left later fun t' member => same t' (mem_cons_of_mem _ member)

theorem ownPlaces_iff {values : List (List α × List α)}
    (unbordered : ∀ name, .hole name ∈ pieces → Unbordered (mark name)) :
    OwnPlaces mark values (render mark pieces) pieces ↔ Apart mark values pieces := by
  induction values generalizing pieces with
  | nil => exact Iff.rfl
  | cons value values ih =>
    obtain ⟨name,t⟩ := value
    rw [OwnPlaces,Apart,occurrences_render some_ (unbordered name)]
    refine and_congr_right fun clean => ?_
    rw [replaceAll_render (unbordered name) clean]
    exact ih fun name' inside => unbordered name' (hole_of_fill inside)

omit some_ in
theorem replaceEach_render {values : List (List α × List α)}
    (unbordered : ∀ name, .hole name ∈ pieces → Unbordered (mark name)) (apart : Apart mark values pieces) :
    replaceEach mark values (render mark pieces) = render mark (fillEach values pieces) := by
  induction values generalizing pieces with
  | nil => rfl
  | cons value values ih =>
    obtain ⟨name,t⟩ := value
    rw [replaceEach,foldl_cons,replaceAll_render (unbordered name) apart.1]
    exact ih (fun name' inside => unbordered name' (hole_of_fill inside)) apart.2

end

end Mcpkit.Placeholders
