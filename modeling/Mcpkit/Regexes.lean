import Mathlib.Data.List.Basic
import Mathlib.Data.List.Infix

/-!
Regular expressions as backtracking matchers read them. An expression is matched between what
stands before a place and what stands after it, since word boundaries look at both.
-/
namespace Mcpkit.Regexes
open List

class Alphabet (σ : Type) where
  word : σ → Bool

/-- Expressions. `many` is a greedy repetition of single symbols and `boundary` is `\b`. -/
inductive Regex (σ : Type) where
  | empty
  | symbol (accepts : σ → Bool)
  | many (accepts : σ → Bool)
  | seq (first second : Regex σ)
  | alt (first second : Regex σ)
  | boundary

variable {σ : Type}

def manyEnds (accepts : σ → Bool) : List σ → List σ → List (List σ × List σ)
  | before, [] => [(before,[])]
  | before, x :: after =>
    if accepts x then manyEnds accepts (before ++ [x]) after ++ [(before,x :: after)] else [(before,x :: after)]

theorem mem_manyEnds (accepts : σ → Bool) (place : List σ × List σ) (after : List σ) : ∀ before,
    place ∈ manyEnds accepts before after ↔
      ∃ m, place.1 = before ++ m ∧ after = m ++ place.2 ∧ ∀ x ∈ m, accepts x = true := by
  induction after with
  | nil =>
    intro before
    rw [manyEnds,mem_singleton]
    constructor
    · rintro rfl
      exact ⟨[],by simp⟩
    · rintro ⟨m,starts,rest,-⟩
      obtain ⟨rfl,nothing⟩ := append_eq_nil_iff.mp rest.symm
      exact Prod.ext (by simpa using starts) nothing
  | cons x after ih =>
    intro before
    -- The end before `x` comes last, and there is no other when `x` is not accepted.
    have here : place = (before,x :: after) ↔ place.1 = before ++ [] ∧ x :: after = [] ++ place.2 := by
      simp [Prod.ext_iff,eq_comm]
    rw [manyEnds]
    split
    · rename_i accepted
      rw [mem_append,ih,mem_singleton,here]
      constructor
      · rintro (⟨m,starts,rest,all⟩ | ⟨starts,rest⟩)
        · exact ⟨x :: m,by simpa using starts,by rw [rest]; rfl,by simpa [accepted] using all⟩
        · exact ⟨[],starts,rest,by simp⟩
      · rintro ⟨m,starts,rest,all⟩
        cases m with
        | nil => exact .inr ⟨starts,rest⟩
        | cons y m =>
          obtain ⟨rfl,tail⟩ := cons.inj rest
          exact .inl ⟨m,by simpa using starts,tail,fun z member => all z (mem_cons_of_mem _ member)⟩
    · rename_i rejected
      rw [mem_singleton,here]
      constructor
      · rintro ⟨starts,rest⟩
        exact ⟨[],starts,rest,by simp⟩
      · rintro ⟨m,starts,rest,all⟩
        cases m with
        | nil => exact ⟨starts,rest⟩
        | cons y m =>
          obtain ⟨rfl,-⟩ := cons.inj rest
          exact absurd (all x mem_cons_self) rejected

section
variable [Alphabet σ]

def wordBefore (before : List σ) : Bool := before.getLast?.any Alphabet.word

def wordAfter (after : List σ) : Bool := after.head?.any Alphabet.word

def Boundary (before after : List σ) : Prop := wordBefore before ≠ wordAfter after

instance (before after : List σ) : Decidable (Boundary before after) := inferInstanceAs (Decidable (_ ≠ _))

theorem wordBefore_append (before : List σ) {m : List σ} (some : m ≠ []) : wordBefore (before ++ m) = wordBefore m := by
  rw [wordBefore,wordBefore,getLast?_append_of_ne_nil before some]

theorem wordAfter_append {m : List σ} (some : m ≠ []) (after : List σ) : wordAfter (m ++ after) = wordAfter m := by
  rw [wordAfter,wordAfter,head?_append_of_ne_nil m some]

/-- What is before and after the ends of the matches that begin here, in the order in which a
    backtracking matcher tries them. -/
def ends : Regex σ → List σ → List σ → List (List σ × List σ)
  | .empty, before, after => [(before,after)]
  | .symbol _, _, [] => []
  | .symbol accepts, before, x :: after => if accepts x then [(before ++ [x],after)] else []
  | .many accepts, before, after => manyEnds accepts before after
  | .seq first second, before, after => (ends first before after).flatMap fun place => ends second place.1 place.2
  | .alt first second, before, after => ends first before after ++ ends second before after
  | .boundary, before, after => if Boundary before after then [(before,after)] else []

def Matches : Regex σ → List σ → List σ → List σ → Prop
  | .empty, _, m, _ => m = []
  | .symbol accepts, _, m, _ => ∃ x, m = [x] ∧ accepts x = true
  | .many accepts, _, m, _ => ∀ x ∈ m, accepts x = true
  | .seq first second, before, m, after =>
    ∃ m₁ m₂, m = m₁ ++ m₂ ∧ Matches first before m₁ (m₂ ++ after) ∧ Matches second (before ++ m₁) m₂ after
  | .alt first second, before, m, after => Matches first before m after ∨ Matches second before m after
  | .boundary, before, m, after => m = [] ∧ Boundary before after

theorem mem_ends (r : Regex σ) (place : List σ × List σ) : ∀ before after, place ∈ ends r before after ↔
    ∃ m, place.1 = before ++ m ∧ after = m ++ place.2 ∧ Matches r before m place.2 := by
  induction r generalizing place with
  | empty =>
    intro before after
    simp [ends,Matches,Prod.ext_iff,eq_comm]
  | symbol accepts =>
    intro before after
    cases after with
    | nil => simp [ends,Matches]
    | cons x after =>
      by_cases accepted : accepts x = true
      · simp only [ends,if_pos accepted,mem_singleton,Prod.ext_iff,Matches]
        constructor
        · rintro ⟨starts,rfl⟩
          exact ⟨[x],starts,rfl,x,rfl,accepted⟩
        · rintro ⟨m,starts,rest,y,rfl,-⟩
          obtain ⟨rfl,tail⟩ := cons.inj rest
          exact ⟨starts,tail.symm⟩
      · simp only [ends,if_neg accepted,not_mem_nil,Matches,false_iff]
        rintro ⟨m,-,rest,y,rfl,takes⟩
        obtain ⟨rfl,-⟩ := cons.inj rest
        exact accepted takes
  | many accepts =>
    intro before after
    rw [ends,mem_manyEnds]
    rfl
  | seq first second ih ih' =>
    intro before after
    rw [ends,mem_flatMap]
    constructor
    · rintro ⟨middle,reached,ended⟩
      obtain ⟨m₁,starts,rest,matched⟩ := (ih middle before after).mp reached
      obtain ⟨m₂,starts',rest',matched'⟩ := (ih' place _ _).mp ended
      rw [starts] at starts' matched'
      rw [rest'] at rest matched
      exact ⟨m₁ ++ m₂,by rw [starts',append_assoc],by rw [rest,append_assoc],m₁,m₂,rfl,matched,matched'⟩
    · rintro ⟨m,starts,rest,m₁,m₂,rfl,matched,matched'⟩
      refine ⟨(before ++ m₁,m₂ ++ place.2),(ih _ _ _).mpr ⟨m₁,rfl,by rw [rest,append_assoc],matched⟩,?_⟩
      exact (ih' _ _ _).mpr ⟨m₂,by rw [starts,append_assoc],rfl,matched'⟩
  | alt first second ih ih' =>
    intro before after
    rw [ends,mem_append,ih,ih']
    simp only [Matches,and_or_left,exists_or]
  | boundary =>
    intro before after
    by_cases edge : Boundary before after
    · rw [ends,if_pos edge,mem_singleton]
      constructor
      · rintro rfl
        exact ⟨[],by simp,rfl,rfl,edge⟩
      · rintro ⟨m,starts,rest,rfl,-⟩
        exact Prod.ext (by simpa using starts) rest.symm
    · rw [ends,if_neg edge]
      simp only [not_mem_nil,Matches,false_iff]
      rintro ⟨m,-,rest,rfl,edge'⟩
      rw [rest] at edge
      exact edge edge'

def Clean (r : Regex σ) (text : List σ) : Prop :=
  ∀ before m after, text = before ++ m ++ after → ¬ Matches r before m after

end

/-! ### What can be in a match -/

namespace Regex

def nullable : Regex σ → Bool
  | empty => true
  | symbol _ => false
  | many _ => true
  | seq first second => first.nullable && second.nullable
  | alt first second => first.nullable || second.nullable
  | boundary => true

def free : Regex σ → Bool
  | seq first second => first.free && second.free
  | alt first second => first.free && second.free
  | boundary => false
  | _ => true

def uses (x : σ) : Regex σ → Bool
  | symbol accepts => accepts x
  | many accepts => accepts x
  | seq first second => first.uses x || second.uses x
  | alt first second => first.uses x || second.uses x
  | _ => false

def leads (x : σ) : Regex σ → Bool
  | symbol accepts => accepts x
  | many accepts => accepts x
  | seq first second => first.leads x || (first.nullable && second.leads x)
  | alt first second => first.leads x || second.leads x
  | _ => false

def bounded (core : Regex σ) : Regex σ := seq boundary (seq core boundary)

end Regex

open Regex

open Bool hiding not_or

section
variable [Alphabet σ] {before m after : List σ} {r : Regex σ}

theorem Matches.ne_nil (solid : r.nullable = false) (matched : Matches r before m after) : m ≠ [] := by
  induction r generalizing before m after with
  | empty => simp [nullable] at solid
  | symbol accepts =>
    obtain ⟨x,rfl,-⟩ := matched
    simp
  | many accepts => simp [nullable] at solid
  | seq first second ih ih' =>
    obtain ⟨m₁,m₂,rfl,matched,matched'⟩ := matched
    intro nothing
    obtain ⟨rfl,rfl⟩ := append_eq_nil_iff.mp nothing
    rcases and_eq_false_iff.mp solid with solid | solid
    · exact ih solid matched rfl
    · exact ih' solid matched' rfl
  | alt first second ih ih' =>
    obtain ⟨solid,solid'⟩ := or_eq_false_iff.mp solid
    exact matched.elim (ih solid) (ih' solid')
  | boundary => simp [nullable] at solid

theorem Matches.free (free : r.free = true)
    (matched : Matches r before m after) (before' after' : List σ) : Matches r before' m after' := by
  induction r generalizing before m after before' after' with
  | empty | symbol accepts | many accepts => exact matched
  | seq first second ih ih' =>
    obtain ⟨m₁,m₂,rfl,matched,matched'⟩ := matched
    obtain ⟨free,free'⟩ := (and_eq_true _ _).mp free
    exact ⟨m₁,m₂,rfl,ih free matched _ _,ih' free' matched' _ _⟩
  | alt first second ih ih' =>
    obtain ⟨free,free'⟩ := (and_eq_true _ _).mp free
    exact matched.imp (ih free · _ _) (ih' free' · _ _)
  | boundary => simp [Regex.free] at free

theorem Matches.uses (matched : Matches r before m after) {x : σ} (member : x ∈ m) : r.uses x = true := by
  induction r generalizing before m after with
  | empty => rw [matched] at member; cases member
  | symbol accepts =>
    obtain ⟨y,rfl,accepted⟩ := matched
    rw [mem_singleton.mp member]
    exact accepted
  | many accepts => exact matched x member
  | seq first second ih ih' =>
    obtain ⟨m₁,m₂,rfl,matched,matched'⟩ := matched
    rw [uses,or_eq_true]
    exact (mem_append.mp member).imp (ih matched) (ih' matched')
  | alt first second ih ih' =>
    rw [uses,or_eq_true]
    exact matched.imp (ih · member) (ih' · member)
  | boundary => rw [matched.1] at member; cases member

theorem Matches.leads {x : σ} (matched : Matches r before (x :: m) after) : r.leads x = true := by
  induction r generalizing before m after with
  | empty => cases matched
  | symbol accepts =>
    obtain ⟨y,same,accepted⟩ := matched
    rw [(cons.inj same).1]
    exact accepted
  | many accepts => exact matched x mem_cons_self
  | seq first second ih ih' =>
    obtain ⟨m₁,m₂,split,matched,matched'⟩ := matched
    rw [leads,or_eq_true,and_eq_true]
    cases m₁ with
    | nil =>
      subst split
      refine .inr ⟨?_,ih' matched'⟩
      by_contra solid
      exact matched.ne_nil (not_eq_true _ ▸ solid) rfl
    | cons y m₁ =>
      rw [← (cons.inj split).1] at matched
      exact .inl (ih matched)
  | alt first second ih ih' =>
    rw [leads,or_eq_true]
    exact matched.imp ih ih'
  | boundary => cases matched.1

theorem matches_bounded {core : Regex σ} : Matches core.bounded before m after ↔
    Boundary before (m ++ after) ∧ Matches core before m after ∧ Boundary (before ++ m) after := by
  constructor
  · rintro ⟨m₁,m₂,rfl,⟨rfl,left⟩,m₃,m₄,rfl,matched,rfl,right⟩
    exact ⟨by simpa using left,by simpa using matched,by simpa using right⟩
  · rintro ⟨left,matched,right⟩
    exact ⟨[],m,rfl,⟨rfl,left⟩,m,[],by simp,by simpa using matched,rfl,by simpa using right⟩

def Delimited (r : Regex σ) : Prop :=
  ∀ before m after, Matches r before m after → Boundary before (m ++ after) ∧ Boundary (before ++ m) after

theorem delimited_bounded (core : Regex σ) : Delimited core.bounded := by
  intro before m after matched
  obtain ⟨starts,-,ended⟩ := matches_bounded.mp matched
  exact ⟨starts,ended⟩

/-! ### Expressions that do not occur -/

def absent (r : Regex σ) (text : List σ) : Bool := text.tails.all fun t => (ends r [] t).isEmpty

theorem not_matches_of_absent (free : r.free = true)
    (none : absent r (before ++ m ++ after) = true) (before' after' : List σ) : ¬ Matches r before' m after' := by
  intro matched
  have ended : (m,after) ∈ ends r [] (m ++ after) := (mem_ends _ _ _ _).mpr ⟨m,rfl,rfl,matched.free free _ _⟩
  have tail : m ++ after ∈ (before ++ m ++ after).tails := by
    rw [mem_tails,append_assoc]
    exact suffix_append _ _
  have nothing := all_eq_true.mp none _ tail
  rw [isEmpty_iff.mp nothing] at ended
  cases ended

end

/-! ### Scans -/

inductive Piece (σ : Type) where
  | keep (x : σ)
  | found (m : List σ)
  deriving DecidableEq

def original (pieces : List (Piece σ)) : List σ :=
  pieces.flatMap fun | .keep x => [x] | .found m => m

def replaced (token : List σ) (pieces : List (Piece σ)) : List σ :=
  pieces.flatMap fun | .keep x => [x] | .found _ => token

theorem original_append (left right : List (Piece σ)) : original (left ++ right) = original left ++ original right :=
  flatMap_append

theorem original_keep (m : List σ) : original (m.map .keep) = m := by
  induction m with
  | nil => rfl
  | cons x m ih => exact congrArg (x :: ·) ih

section
variable {token : List σ}

@[simp] theorem replaced_cons_found (m : List σ) (pieces : List (Piece σ)) :
    replaced token (.found m :: pieces) = token ++ replaced token pieces := rfl

theorem replaced_append (left right : List (Piece σ)) :
    replaced token (left ++ right) = replaced token left ++ replaced token right := flatMap_append

theorem replaced_keep (m : List σ) : replaced token (m.map .keep) = m := by
  induction m with
  | nil => rfl
  | cons x m ih => exact congrArg (x :: ·) ih

end

section
variable [Alphabet σ]

/-- Goes through what is after the place, first past `skip` symbols of the last match. -/
def scan (r : Regex σ) : Nat → List σ → List σ → List (Piece σ)
  | _, _, [] => []
  | skip+1, before, x :: after => scan r skip (before ++ [x]) after
  | 0, before, x :: after =>
    match ends r before (x :: after) with
    | [] => .keep x :: scan r 0 (before ++ [x]) after
    | (_,rest) :: _ =>
      .found ((x :: after).take (after.length+1-rest.length)) :: scan r (after.length-rest.length) (before ++ [x]) after

/-- What a scan finds: a match where it takes one, and no match at what it keeps. -/
inductive Scans (r : Regex σ) : List σ → List σ → List (Piece σ) → Prop
  | nil {before} : Scans r before [] []
  | keep {before x after pieces} (unmatched : ∀ m rest, x :: after = m ++ rest → ¬ Matches r before m rest)
      (rest : Scans r (before ++ [x]) after pieces) : Scans r before (x :: after) (.keep x :: pieces)
  | found {before m after pieces} (matched : Matches r before m after) (rest : Scans r (before ++ m) after pieces) :
      Scans r before (m ++ after) (.found m :: pieces)

theorem scan_skip (r : Regex σ) (m after : List σ) : ∀ before,
    scan r m.length before (m ++ after) = scan r 0 (before ++ m) after := by
  induction m with
  | nil => simp
  | cons x m ih =>
    intro before
    rw [length_cons,cons_append,scan,ih,append_assoc]
    rfl

theorem scans_scan {r : Regex σ} (solid : r.nullable = false) (before after : List σ) :
    Scans r before after (scan r 0 before after) := by
  induction size : after.length using Nat.strongRecOn generalizing before after with
  | _ n ih =>
    subst size
    cases after with
    | nil =>
      rw [scan]
      exact .nil
    | cons x after =>
      rw [scan]
      split
      · rename_i none
        refine .keep (fun m rest split matched => ?_) (ih after.length (by simp) _ _ rfl)
        have ended := (mem_ends r (before ++ m,rest) before (x :: after)).mpr ⟨m,rfl,split,matched⟩
        rw [none] at ended
        cases ended
      · rename_i start rest others first
        have ended : (start,rest) ∈ ends r before (x :: after) := by
          rw [first]
          exact mem_cons_self
        obtain ⟨m,-,split,matched⟩ := (mem_ends _ _ _ _).mp ended
        cases m with
        | nil => exact absurd rfl (matched.ne_nil solid)
        | cons y m =>
          obtain ⟨rfl,tail⟩ := cons.inj split
          obtain rfl : after = m ++ rest := tail
          have shorter : (m ++ rest).length - rest.length = m.length := by simp
          have length : (m ++ rest).length + 1 - rest.length = (x :: m).length := by
            simp only [length_cons,length_append]
            omega
          have text : x :: (m ++ rest) = (x :: m) ++ rest := rfl
          rw [shorter,scan_skip,length,text,take_left]
          refine .found matched ?_
          rw [append_assoc]
          exact ih rest.length (by simp only [length_cons,length_append]; omega) _ _ rfl

namespace Scans
variable {r : Regex σ} {before after : List σ} {pieces : List (Piece σ)}

theorem original_eq (scans : Scans r before after pieces) : original pieces = after := by
  induction scans with
  | nil => rfl
  | keep _ _ ih => exact congrArg (_ :: ·) ih
  | found _ _ ih => exact congrArg (_ ++ ·) ih

variable {left right : List (Piece σ)}

theorem split (scans : Scans r before after (left ++ right)) :
    Scans r (before ++ original left) (original right) right := by
  induction left generalizing before after with
  | nil =>
    rw [scans.original_eq.symm] at scans
    simpa [original] using scans
  | cons piece left ih =>
    cases scans with
    | keep _ rest | found _ rest => simpa [original] using ih rest

theorem not_matches_keep {x : σ} (scans : Scans r before after (.keep x :: pieces)) {m rest : List σ}
    (split : x :: original pieces = m ++ rest) : ¬ Matches r before m rest := by
  cases scans with
  | keep unmatched kept =>
    rw [kept.original_eq] at split
    exact unmatched m rest split

theorem matches_found {m : List σ} (scans : Scans r before after (.found m :: pieces)) :
    Matches r before m (original pieces) := by
  cases scans with
  | found matched rest =>
    rw [rest.original_eq]
    exact matched

end Scans

def Unmatched (r : Regex σ) (pieces : List (Piece σ)) : Prop :=
  ∀ left x right, pieces = left ++ .keep x :: right →
    ∀ m after, x :: original right = m ++ after → ¬ Matches r (original left) m after

variable {pieces : List (Piece σ)}

theorem unmatched_of_clean {p r : Regex σ} {text : List σ} (scans : Scans p [] text pieces)
    (clean : Clean r text) : Unmatched r pieces := by
  rintro left x right rfl m after split
  refine clean _ _ _ ?_
  rw [← scans.original_eq,original_append,append_assoc,← split]
  rfl

theorem unmatched_self {r : Regex σ} {text : List σ} (scans : Scans r [] text pieces) :
    Unmatched r pieces := by
  rintro left x right rfl m after split
  exact scans.split.not_matches_keep split

theorem Unmatched.kept {r : Regex σ} {pieces : List (Piece σ)} (unmatched : Unmatched r pieces)
    {m : List σ} (kept : pieces = left ++ m.map .keep ++ right) (some : m ≠ [])
    (m' after : List σ) (split : m ++ original right = m' ++ after) : ¬ Matches r (original left) m' after := by
  cases m with
  | nil => exact absurd rfl some
  | cons x m =>
    refine unmatched left x (m.map .keep ++ right) (by rw [kept,append_assoc]; rfl) m' after ?_
    rw [original_append,original_keep,← split]
    rfl

end

/-! ### Replacement -/

/-- What stands in the place of matches, between two symbols of its own. -/
structure Token (σ : Type) where
  opening : σ
  body : List σ
  closing : σ

def Token.text (token : Token σ) : List σ := token.opening :: (token.body ++ [token.closing])

theorem kept_of_replaced {token : Token σ} {m : List σ} (outside : token.opening ∉ m) :
    ∀ {pieces : List (Piece σ)} {after : List σ}, replaced token.text pieces = m ++ after →
      ∃ right, pieces = m.map .keep ++ right ∧ replaced token.text right = after := by
  induction m with
  | nil => exact fun same => ⟨_,rfl,same⟩
  | cons x m ih =>
    intro pieces after same
    rw [mem_cons,not_or] at outside
    cases pieces with
    | nil => simp [replaced] at same
    | cons piece pieces =>
      cases piece with
      | keep y =>
        obtain ⟨rfl,rest⟩ := cons.inj same
        obtain ⟨right,split,ended⟩ := ih outside.2 rest
        exact ⟨right,by rw [split]; rfl,ended⟩
      | found w => exact absurd (cons.inj same).1 outside.1

/-- A text without the two symbols around a token lies in the token or was kept. -/
theorem factor_replaced {token : Token σ} {m : List σ} (some : m ≠ []) (outside : token.opening ∉ m)
    (outside' : token.closing ∉ m) {pieces : List (Piece σ)} :
    ∀ {before after : List σ}, replaced token.text pieces = before ++ m ++ after →
      (∃ u v, token.body = u ++ m ++ v) ∨
        ∃ left right, pieces = left ++ m.map .keep ++ right ∧ replaced token.text left = before ∧
          replaced token.text right = after := by
  induction pieces with
  | nil =>
    intro before after same
    simp [replaced] at same
    exact absurd same.2.1 some
  | cons piece pieces ih =>
    intro before after same
    cases piece with
    | keep y =>
      cases before with
      | nil =>
        obtain ⟨right,split,ended⟩ := kept_of_replaced outside same
        exact .inr ⟨[],right,split,rfl,ended⟩
      | cons x before =>
        obtain ⟨rfl,rest⟩ := cons.inj same
        refine (ih rest).imp_right ?_
        rintro ⟨left,right,split,starts,ended⟩
        exact ⟨.keep y :: left,right,by rw [split]; rfl,congrArg (y :: ·) starts,ended⟩
    | found w =>
      cases before with
      | nil =>
        cases m with
        | nil => exact absurd rfl some
        | cons x m => exact absurd ((cons.inj same).1 ▸ mem_cons_self) outside
      | cons x before =>
        simp only [replaced_cons_found,Token.text,cons_append,append_assoc,nil_append,
          cons.injEq] at same
        obtain ⟨rfl,rest⟩ := same
        rcases append_eq_append_iff.mp rest with ⟨gap,rfl,tail⟩ | ⟨gap,body,tail⟩
        · -- The token is over before the text begins, unless the text begins with its last symbol.
          cases gap with
          | nil =>
            cases m with
            | nil => exact absurd rfl some
            | cons y m => exact absurd ((cons.inj tail).1 ▸ mem_cons_self) outside'
          | cons y gap =>
            rw [cons_append,cons.injEq] at tail
            obtain ⟨rfl,later⟩ := tail
            refine (ih (by rw [Token.text,later,append_assoc])).imp_right ?_
            rintro ⟨left,right,split,starts,ended⟩
            refine ⟨.found w :: left,right,by rw [split]; rfl,?_,ended⟩
            simp [← starts,Token.text]
        · rcases append_eq_append_iff.mp tail with ⟨gap',rfl,tail'⟩ | ⟨gap',rfl,tail'⟩
          · exact .inl ⟨before,gap',by rw [body,append_assoc]⟩
          · cases gap' with
            | nil => exact .inl ⟨before,[],by simpa using body⟩
            | cons y gap' => exact absurd ((cons.inj tail').1 ▸ by simp) outside'

section
variable [Alphabet σ]

/-- No match of an expression, which does not look around it, has a symbol around the token or lies in it. -/
def foreign (r : Regex σ) (token : Token σ) : Bool :=
  r.free && !r.nullable && !r.uses token.opening && !r.uses token.closing && absent r token.body

variable {p r core : Regex σ} {text : List σ} {pieces : List (Piece σ)} {token : Token σ}

section
variable (apart : foreign r token = true)
include apart

theorem foreign_free : r.free = true := by
  simp only [foreign,and_eq_true] at apart
  exact apart.1.1.1.1

theorem kept_of_matches {before m after : List σ} (matched : Matches r before m after)
    {before' after' : List σ} (split : replaced token.text pieces = before' ++ m ++ after') :
    m ≠ [] ∧ ∃ left right, pieces = left ++ m.map .keep ++ right ∧ replaced token.text left = before' ∧
      replaced token.text right = after' := by
  simp only [foreign,and_eq_true,not_eq_true'] at apart
  obtain ⟨⟨⟨⟨free,solid⟩,unused⟩,unused'⟩,none⟩ := apart
  have some := matched.ne_nil solid
  have outside (x : σ) (unused : r.uses x = false) : x ∉ m := fun member =>
    false_ne_true (unused.symm.trans (matched.uses member))
  refine ⟨some,(factor_replaced some (outside _ unused) (outside _ unused') split).resolve_left ?_⟩
  rintro ⟨u,v,body⟩
  rw [body] at none
  exact not_matches_of_absent free none _ _ matched

/-- An expression that does not look around it has no match after a replacement if it has none in what was kept. -/
theorem clean_replaced (unmatched : Unmatched r pieces) : Clean r (replaced token.text pieces) := by
  intro before m after split matched
  obtain ⟨some,left,right,kept,-,-⟩ := kept_of_matches apart matched split
  exact unmatched.kept kept some m (original right) rfl (matched.free (foreign_free apart) _ _)

end

theorem wordBefore_replaced {token : List σ} (pieces : List (Piece σ)) (kept : ∀ m, pieces.getLast? ≠ some (.found m)) :
    wordBefore (replaced token pieces) = wordBefore (original pieces) := by
  rcases eq_nil_or_concat pieces with rfl | ⟨front,piece,rfl⟩
  · rfl
  · cases piece with
    | keep x => simp [wordBefore,replaced,original]
    | found m => simp at kept

theorem wordAfter_replaced {token : List σ} (pieces : List (Piece σ)) (kept : ∀ m, pieces.head? ≠ some (.found m)) :
    wordAfter (replaced token pieces) = wordAfter (original pieces) := by
  cases pieces with
  | nil => rfl
  | cons piece pieces =>
    cases piece with
    | keep x => rfl
    | found m => simp at kept

/-- If matches begin and end at boundaries, every boundary between two pieces was there before. -/
theorem boundary_original (token : List σ) (scans : Scans p [] text pieces) (delimited : Delimited p)
    (split : pieces = left ++ right)
    (edge : Boundary (replaced token left) (replaced token right)) : Boundary (original left) (original right) := by
  subst split
  by_cases ended : ∃ m, left.getLast? = some (.found m)
  · obtain ⟨m,last⟩ := ended
    obtain ⟨front,rfl⟩ := getLast?_eq_some_iff.mp last
    rw [append_assoc] at scans
    have edges := delimited _ _ _ scans.split.matches_found
    simpa [original_append,original] using edges.2
  by_cases begun : ∃ m, right.head? = some (.found m)
  · obtain ⟨m,first⟩ := begun
    obtain ⟨rest,rfl⟩ := head?_eq_some_iff.mp first
    have edges := delimited _ _ _ scans.split.matches_found
    simpa [original] using edges.1
  rwa [Boundary,wordBefore_replaced left (by simpa using ended),wordAfter_replaced right (by simpa using begun)] at edge

theorem clean_replaced_bounded (apart : foreign core token = true) (scans : Scans p [] text pieces)
    (delimited : Delimited p) (unmatched : Unmatched core.bounded pieces) :
    Clean core.bounded (replaced token.text pieces) := by
  intro before m after split bounded
  obtain ⟨starts,matched,ended⟩ := matches_bounded.mp bounded
  obtain ⟨some,left,right,kept,rfl,rfl⟩ := kept_of_matches apart matched split
  refine unmatched.kept kept some m (original right) rfl
    (matches_bounded.mpr ⟨?_,matched.free (foreign_free apart) _ _,?_⟩)
  · have edge := boundary_original token.text scans delimited (kept.trans (append_assoc _ _ _))
    rw [replaced_append,replaced_keep,original_append,original_keep] at edge
    exact edge starts
  · have edge := boundary_original token.text scans delimited kept
    rw [replaced_append,replaced_keep,original_append,original_keep] at edge
    exact edge ended

theorem Scans.keep_of_clean {r : Regex σ} {before after : List σ} (scans : Scans r before after pieces)
    (clean : Clean r (before ++ after)) : pieces = after.map .keep := by
  induction scans with
  | nil => rfl
  | keep _ _ ih => rw [map_cons,ih (by simpa using clean)]
  | found matched _ _ => exact absurd matched (clean _ _ _ (append_assoc _ _ _).symm)

end

end Mcpkit.Regexes
