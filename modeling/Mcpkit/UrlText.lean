import Mathlib.Data.List.Basic
import Mathlib.Data.List.TakeWhile

/-!
Texts of URLs, as net/url reads them. A text is a list of bytes, each written as the character
with its number.
-/
namespace Mcpkit.UrlText
open List Option

abbrev Text := List Char

/-! ### Cutting -/

/-- `strings.Cut`: what is before the first separator and what is after it. -/
def cut (c : Char) (t : Text) : Text × Text := (t.takeWhile (· ≠ c),(t.dropWhile (· ≠ c)).tail)

section
variable {c : Char}

theorem notMem_cut (t : Text) : c ∉ (cut c t).1 := by
  intro inside
  simpa using mem_takeWhile_imp inside

variable {x : Text}

theorem cut_append (clean : c ∉ x) (y : Text) : cut c (x ++ y) = (x ++ (cut c y).1,(cut c y).2) := by
  have all : ∀ d ∈ x, decide (d ≠ c) = true := fun d inside => decide_eq_true fun is => clean (is ▸ inside)
  unfold cut
  rw [takeWhile_append_of_pos all,dropWhile_append_of_pos all]

theorem cut_self (y : Text) : cut c (c :: y) = ([],y) := by simp [cut]

theorem cut_append_cons (clean : c ∉ x) (y : Text) : cut c (x ++ c :: y) = (x,y) := by
  rw [cut_append clean,cut_self,append_nil]

theorem cut_of_notMem (clean : c ∉ x) : cut c x = (x,[]) := by simpa [cut] using cut_append clean []

theorem cut_cons {d : Char} (other : d ≠ c) (y : Text) : cut c (d :: y) = (d :: (cut c y).1,(cut c y).2) := by
  simp [cut,other]

theorem cut_subset (t : Text) : (cut c t).1 ⊆ t := fun _ inside => takeWhile_subset _ inside

end

variable {t : Text}

theorem notMem_of_mem_splitOn {c : Char} (inside : x ∈ t.splitOn c) : c ∉ x := by
  induction t generalizing x with
  | nil =>
    rw [splitOn_nil,mem_singleton] at inside
    simp [inside]
  | cons d t ih =>
    rw [splitOn_eq_splitOnP,splitOnP_cons_eq_if_modifyHead,← splitOn_eq_splitOnP] at inside
    split at inside
    · rcases mem_cons.mp inside with rfl | later
      · exact not_mem_nil
      · exact ih later
    · rename_i other
      cases pieces : t.splitOn c with
      | nil => simp [pieces] at inside
      | cons first rest =>
        rw [pieces,modifyHead_cons] at inside
        rcases mem_cons.mp inside with rfl | later
        · have clean := ih (x := first) (by simp [pieces])
          simp only [mem_cons,not_or]
          exact ⟨fun is => other (by simp [is]),clean⟩
        · exact ih (by simp [pieces,later])

variable (c : Char)

theorem intercalate_cons (first : Text) (more : List Text) :
    [c].intercalate (first :: more) = first ++ more.flatMap (c :: ·) := by
  induction more generalizing first with
  | nil => simp [intercalate_singleton]
  | cons next more ih => simp [intercalate_cons_cons,ih next]

theorem intercalate_splitOn_append (t : Text) (more : List Text) :
    [c].intercalate (t.splitOn c ++ more) = t ++ more.flatMap (c :: ·) := by
  have whole : [c].intercalate (t.splitOn c) = t := intercalate_splitOn c
  obtain ⟨first,rest,split⟩ := exists_cons_of_ne_nil (splitOn_ne_nil c t)
  rw [split,intercalate_cons] at whole
  rw [split,cons_append,intercalate_cons,flatMap_append,← append_assoc,whole]

theorem splitOn_append_iff (t : Text) (more : List Text) :
    (t ++ more.flatMap (c :: ·)).splitOn c = t.splitOn c ++ more ↔ ∀ s ∈ more, c ∉ s := by
  constructor
  · intro split s member
    exact notMem_of_mem_splitOn (split ▸ mem_append_right _ member)
  · intro clean
    rw [← intercalate_splitOn_append]
    refine splitOn_intercalate c (fun s member => ?_) (by simp [splitOn_ne_nil])
    rcases mem_append.mp member with first | later
    · exact notMem_of_mem_splitOn first
    · exact clean s later

/-! ### Decoding -/

def hexValue : Option Nat :=
  if '0' ≤ c ∧ c ≤ '9' then some (c.toNat-48)
  else if 'a' ≤ c ∧ c ≤ 'f' then some (c.toNat-87)
  else if 'A' ≤ c ∧ c ≤ 'F' then some (c.toNat-55)
  else none

/-- Decodes bytes that are written as percent and two digits; in queries a plus is a blank. -/
def unescape (query : Bool) : Text → Option Text
  | [] => some []
  | '%' :: a :: b :: rest =>
    (hexValue a).bind fun x => (hexValue b).bind fun y => (unescape query rest).map (Char.ofNat (16*x+y) :: ·)
  | '%' :: _ => none
  | c :: rest => (unescape query rest).map ((if query && c = '+' then ' ' else c) :: ·)

theorem unescape_cons {c : Char} (plain : c ≠ '%') (query : Bool) (rest : Text) :
    unescape query (c :: rest) = (unescape query rest).map ((if query && c = '+' then ' ' else c) :: ·) := by
  rw [unescape]
  · simp [plain]
  · simp [plain]

theorem hexValue_ne {c : Char} {x : Nat} (digit : hexValue c = some x) : c ≠ '%' := by
  rintro rfl
  have none : hexValue '%' = none := by decide
  cases digit

variable {query : Bool} {d : Text}

theorem unescape_length (decoded : unescape query t = some d) : d.length+2*t.count '%' = t.length := by
  fun_induction unescape query t generalizing d with
  | case1 => cases decoded; rfl
  | case2 a b rest ih =>
    simp only [bind_eq_some_iff,map_eq_some_iff] at decoded
    obtain ⟨x,first,y,second,r,later,rfl⟩ := decoded
    have shorter := ih later
    simp only [count_cons_self,count_cons_of_ne (hexValue_ne first),count_cons_of_ne (hexValue_ne second),
      length_cons]
    omega
  | case3 => cases decoded
  | case4 c rest _ other ih =>
    obtain ⟨r,later,rfl⟩ := map_eq_some_iff.mp decoded
    have shorter := ih later
    have plain : c ≠ '%' := other
    simp only [count_cons_of_ne plain,length_cons]
    omega

theorem unescape_length_le (decoded : unescape query t = some d) : d.length ≤ t.length := by
  have shorter := unescape_length decoded
  omega

theorem unescape_plain (plain : '%' ∉ t) (query : Bool) :
    unescape query t = some (t.map fun c => if query && c = '+' then ' ' else c) := by
  induction t with
  | nil => rfl
  | cons c rest ih =>
    rw [mem_cons,not_or] at plain
    rw [unescape_cons (Ne.symm plain.1),ih plain.2]
    rfl

theorem plain_of_unescape (decoded : unescape query t = some d) (same : t.length ≤ d.length) : '%' ∉ t := by
  have shorter := unescape_length decoded
  rw [← count_eq_zero]
  omega

theorem unescape_self_iff : unescape query t = some t ↔ '%' ∉ t ∧ (query = true → '+' ∉ t) := by
  constructor
  · intro decoded
    have plain := plain_of_unescape decoded (Nat.le_refl _)
    refine ⟨plain,?_⟩
    rintro rfl inside
    rw [unescape_plain plain,some.injEq] at decoded
    have kept := map_inj_left.mp (decoded.trans (map_id t).symm) '+' inside
    exact absurd kept (by decide)
  · rintro ⟨plain,noPlus⟩
    rw [unescape_plain plain,some.injEq]
    refine (map_congr_left fun c inside => if_neg ?_).trans (map_id t)
    simp only [Bool.and_eq_true,decide_eq_true_eq]
    rintro ⟨inQuery,rfl⟩
    exact noPlus inQuery inside

theorem unescape_append (decoded : unescape query t = some d) (rest : Text) :
    unescape query (t ++ rest) = (unescape query rest).map (d ++ ·) := by
  fun_induction unescape query t generalizing d with
  | case1 => cases decoded; simp
  | case2 a b more ih =>
    simp only [bind_eq_some_iff,map_eq_some_iff] at decoded
    obtain ⟨x,first,y,second,r,later,rfl⟩ := decoded
    simp only [cons_append,unescape,first,second,ih later,Option.bind_some,Option.map_map]
    rfl
  | case3 => cases decoded
  | case4 c more _ other ih =>
    obtain ⟨r,later,rfl⟩ := Option.map_eq_some_iff.mp decoded
    rw [cons_append,unescape_cons other,ih later,Option.map_map]
    rfl

theorem unescape_isSome_append {x y : Text} (first : (unescape query x).isSome)
    (second : (unescape query y).isSome) : (unescape query (x ++ y)).isSome := by
  obtain ⟨d,decoded⟩ := isSome_iff_exists.mp first
  rw [unescape_append decoded,isSome_map]
  exact second

theorem unescape_isSome_flatMap {β : Type} {f : β → Text} {l : List β}
    (each : ∀ x ∈ l, (unescape query (f x)).isSome) : (unescape query (l.flatMap f)).isSome := by
  induction l with
  | nil => rfl
  | cons x l ih =>
    exact unescape_isSome_append (each x mem_cons_self) (ih fun y member => each y (mem_cons_of_mem x member))

/-! ### Queries -/

def parsePair (piece : Text) : Option (Text × Text) :=
  if ';' ∈ piece then none
  else (unescape true (cut '=' piece).1).bind fun key => (unescape true (cut '=' piece).2).map (Prod.mk key)

/-- `url.ParseQuery`, if it gives no error: the pairs in their order. -/
def parseQuery (query : Text) : Option (List (Text × Text)) := ((query.splitOn '&').filter (· ≠ [])).mapM parsePair

theorem parseQuery_first (clean : '&' ∉ x) (y : Text) : parseQuery (x ++ '&' :: y) =
    if x = [] then parseQuery y else (parsePair x).bind fun pair => (parseQuery y).map (pair :: ·) := by
  unfold parseQuery
  rw [splitOn_append_cons_self_of_not_mem clean]
  by_cases empty : x = []
  · simp [empty]
  · rw [filter_cons_of_pos (by simpa using empty),if_neg empty,mapM_cons]
    simp only [map_eq_bind]
    rfl

theorem parseQuery_amp (y : Text) : parseQuery ('&' :: y) = parseQuery y := by
  simpa using parseQuery_first not_mem_nil y

theorem parseQuery_nil : parseQuery [] = some [] := rfl

theorem parseQuery_last (clean : '&' ∉ x) (some_ : x ≠ []) : parseQuery x = (parsePair x).map ([·]) := by
  unfold parseQuery
  rw [splitOn_eq_singleton clean,filter_cons_of_pos (by simpa using some_),mapM_cons]
  cases parsePair x <;> rfl

theorem parseQuery_cut {query : Text} (some_ : (cut '&' query).1 ≠ []) : parseQuery query =
    (parsePair (cut '&' query).1).bind fun pair => (parseQuery (cut '&' query).2).map (pair :: ·) := by
  by_cases more : '&' ∈ query
  · obtain ⟨x,y,rfl,clean⟩ := eq_append_cons_of_mem more
    rw [cut_append_cons clean] at some_ ⊢
    rw [parseQuery_first clean,if_neg some_]
  · rw [cut_of_notMem more] at some_ ⊢
    rw [parseQuery_last more some_]
    cases parsePair query <;> rfl

def writtenKey (t : Text) : Text := (cut '=' (cut '&' (cut '#' t).1).1).1

theorem writtenKey_length (name rest : Text) : (writtenKey (name ++ '=' :: rest)).length ≤ name.length ∧
    (name.length ≤ (writtenKey (name ++ '=' :: rest)).length → ∀ c ∈ name, c ≠ '&' ∧ c ≠ '#' ∧ c ≠ '=') := by
  induction name with
  | nil => simp [writtenKey,cut]
  | cons c name ih =>
    by_cases plain : c ≠ '&' ∧ c ≠ '#' ∧ c ≠ '='
    · have step : writtenKey (c :: name ++ '=' :: rest) = c :: writtenKey (name ++ '=' :: rest) := by
        unfold writtenKey
        rw [cons_append,cut_cons plain.2.1,cut_cons plain.1,cut_cons plain.2.2]
      rw [step,length_cons,length_cons]
      refine ⟨Nat.succ_le_succ ih.1,fun long => ?_⟩
      exact forall_mem_cons.mpr ⟨plain,ih.2 (Nat.le_of_succ_le_succ long)⟩
    · have none : writtenKey (c :: name ++ '=' :: rest) = [] := by
        have which : c = '&' ∨ c = '#' ∨ c = '=' := by tauto
        rcases which with rfl | rfl | rfl <;> simp [writtenKey,cut]
      rw [none]
      simp

theorem parsePair_eq_some {piece : Text} {pair : Text × Text} : parsePair piece = some pair ↔
    ';' ∉ piece ∧ unescape true (cut '=' piece).1 = some pair.1 ∧ unescape true (cut '=' piece).2 = some pair.2 := by
  obtain ⟨key,value⟩ := pair
  unfold parsePair
  split
  · simp_all
  · simp_all [bind_eq_some_iff,map_eq_some_iff]

section
variable {name rest : Text} {pair : Text × Text} {more : List (Text × Text)}

theorem parseQuery_eq_cons {query : Text} (first : (cut '&' query).1 ≠ []) : parseQuery query = some (pair :: more) ↔
      parsePair (cut '&' query).1 = some pair ∧ parseQuery (cut '&' query).2 = some more := by
  rw [parseQuery_cut first]
  simp [bind_eq_some_iff,map_eq_some_iff]

theorem first_key_of_piece (first : (cut '&' (cut '#' (name ++ '=' :: rest)).1).1 ≠ [])
    (parsed : parseQuery (cut '#' (name ++ '=' :: rest)).1 = some (pair :: more)) :
    pair.1.length ≤ name.length ∧ (name.length ≤ pair.1.length → ∀ c ∈ name, c ≠ '&' ∧ c ≠ '#' ∧ c ≠ '=') := by
  obtain ⟨isPair,-⟩ := (parseQuery_eq_cons first).mp parsed
  have shorter := unescape_length_le (parsePair_eq_some.mp isPair).2.1
  have within := writtenKey_length name rest
  exact ⟨shorter.trans within.1,fun long => within.2 (long.trans shorter)⟩

theorem first_key (parsed : parseQuery (cut '#' (name ++ '=' :: rest)).1 = some (pair :: more)) :
    pair.1.length ≤ name.length ∧ (name.length ≤ pair.1.length → ∀ c ∈ name, c ≠ '&' ∧ c ≠ '#' ∧ c ≠ '=') := by
  induction name with
  | nil => exact first_key_of_piece (by simp [cut]) parsed
  | cons c name ih =>
    by_cases hash : c = '#'
    · rw [hash,cons_append,cut_self,parseQuery_nil] at parsed
      cases parsed
    · have front : (cut '#' (c :: name ++ '=' :: rest)).1 = c :: (cut '#' (name ++ '=' :: rest)).1 := by
        rw [cons_append,cut_cons hash]
      by_cases amp : c = '&'
      · rw [front,amp,parseQuery_amp] at parsed
        have shorter := (ih parsed).1
        rw [length_cons]
        exact ⟨by omega,by omega⟩
      · exact first_key_of_piece (by rw [front,cut_cons amp]; simp) parsed

end

/-- An entry that is read as it was meant: a name and a text without separators, which is decoded as it should be. -/
structure Fits (name raw value : Text) : Prop where
  key : ∀ c ∈ name, c ∉ ['&','=',';','#','%','+']
  text : ∀ c ∈ raw, c ∉ ['&',';','#']
  decoded : unescape true raw = some value

section
variable {name raw value tail : Text} (next : tail = [] ∨ ∃ y, tail = '&' :: y)
include next

theorem writtenValue_length : (cut '&' (cut '#' (raw ++ tail)).1).1.length ≤ raw.length ∧
    (raw.length ≤ (cut '&' (cut '#' (raw ++ tail)).1).1.length → ∀ c ∈ raw, c ≠ '&' ∧ c ≠ '#') := by
  induction raw with
  | nil => rcases next with rfl | ⟨y,rfl⟩ <;> simp [cut]
  | cons c raw ih =>
    by_cases plain : c ≠ '&' ∧ c ≠ '#'
    · rw [cons_append,cut_cons plain.2,cut_cons plain.1,length_cons,length_cons]
      refine ⟨Nat.succ_le_succ ih.1,fun long => ?_⟩
      exact forall_mem_cons.mpr ⟨plain,ih.2 (Nat.le_of_succ_le_succ long)⟩
    · have none : (cut '&' (cut '#' (c :: raw ++ tail)).1).1 = [] := by
        have which : c = '&' ∨ c = '#' := by tauto
        rcases which with rfl | rfl <;> simp [cut]
      rw [none]
      simp

theorem cut_tail (clean : ∀ c ∈ raw, c ≠ '&' ∧ c ≠ '#') :
    cut '&' (cut '#' (raw ++ tail)).1 = (raw,(cut '#' tail.tail).1) := by
  have amp : '&' ∉ raw := fun inside => (clean _ inside).1 rfl
  have hash : '#' ∉ raw := fun inside => (clean _ inside).2 rfl
  rw [cut_append hash,cut_append amp]
  rcases next with rfl | ⟨y,rfl⟩
  · simp [cut]
  · rw [cut_cons (by decide),cut_self,append_nil,tail_cons]

/-- The first of some entries is read as it was meant if and only if it fits. -/
theorem first_pair (fair : raw = value ∨ ∀ c ∈ raw, c ≠ '&' ∧ c ≠ '#') {more : List (Text × Text)} :
    parseQuery (cut '#' (name ++ '=' :: (raw ++ tail))).1 = some ((name,value) :: more) ↔
      Fits name raw value ∧ parseQuery (cut '#' tail.tail).1 = some more := by
  -- a name without separators is cut off as a whole
  have named : (∀ c ∈ name, c ≠ '&' ∧ c ≠ '#' ∧ c ≠ '=') → (parseQuery (cut '#' (name ++ '=' :: (raw ++ tail))).1 =
      some ((name,value) :: more) ↔ ';' ∉ name ++ '=' :: (cut '&' (cut '#' (raw ++ tail)).1).1 ∧
        unescape true name = some name ∧ unescape true (cut '&' (cut '#' (raw ++ tail)).1).1 = some value ∧
        parseQuery (cut '&' (cut '#' (raw ++ tail)).1).2 = some more) := by
    intro clean
    have amp : '&' ∉ name := fun inside => (clean _ inside).1 rfl
    have hash : '#' ∉ name := fun inside => (clean _ inside).2.1 rfl
    have equal : '=' ∉ name := fun inside => (clean _ inside).2.2 rfl
    have front : cut '&' (cut '#' (name ++ '=' :: (raw ++ tail))).1 =
        (name ++ '=' :: (cut '&' (cut '#' (raw ++ tail)).1).1,(cut '&' (cut '#' (raw ++ tail)).1).2) := by
      rw [cut_append hash,cut_cons (by decide),cut_append amp,cut_cons (by decide)]
    rw [parseQuery_eq_cons (by rw [front]; simp),front,parsePair_eq_some,cut_append_cons equal,and_assoc,and_assoc]
  constructor
  · intro parsed
    have clean := (first_key parsed).2 (Nat.le_refl _)
    obtain ⟨semicolon,key,decoded,others⟩ := (named clean).mp parsed
    have separate : ∀ c ∈ raw, c ≠ '&' ∧ c ≠ '#' := by
      rcases fair with same | plain
      · have shorter := unescape_length_le decoded
        rw [← same] at shorter
        exact (writtenValue_length next).2 shorter
      · exact plain
    rw [cut_tail next separate] at semicolon decoded others
    obtain ⟨percent,plus⟩ := unescape_self_iff.mp key
    simp only [mem_append,mem_cons,not_or] at semicolon
    refine ⟨⟨fun c inside => ?_,fun c inside => ?_,decoded⟩,others⟩
    · have apart := clean c inside
      have own : c ≠ ';' ∧ c ≠ '%' ∧ c ≠ '+' :=
        ⟨fun is => semicolon.1 (is ▸ inside),fun is => percent (is ▸ inside),fun is => plus rfl (is ▸ inside)⟩
      simp [apart,own]
    · have apart := separate c inside
      have own : c ≠ ';' := fun is => semicolon.2.2 (is ▸ inside)
      simp [apart,own]
  · rintro ⟨⟨key,text,decoded⟩,others⟩
    have clean : ∀ c ∈ name, c ≠ '&' ∧ c ≠ '#' ∧ c ≠ '=' := fun c inside => by
      have own := key c inside
      simp only [mem_cons,not_or] at own
      exact ⟨own.1,own.2.2.2.1,own.2.1⟩
    have separate : ∀ c ∈ raw, c ≠ '&' ∧ c ≠ '#' := fun c inside => by
      have own := text c inside
      simp only [mem_cons,not_or] at own
      exact ⟨own.1,own.2.2.1⟩
    rw [named clean,cut_tail next separate]
    refine ⟨?_,unescape_self_iff.mpr ⟨fun inside => ?_,fun _ inside => ?_⟩,decoded,others⟩
    · simp only [mem_append,mem_cons,not_or]
      exact ⟨fun inside => by simpa using key _ inside,by decide,fun inside => by simpa using text _ inside⟩
    · simpa using key _ inside
    · simpa using key _ inside

end

/-- One entry of a query: its name, its text and the value that it should have. -/
structure Entry where
  name : Text
  raw : Text
  value : Text

def Entry.part (e : Entry) : Text := e.name ++ '=' :: e.raw

open Entry

theorem parseQuery_join {entries : List Entry} (fair : ∀ e ∈ entries, e.raw = e.value ∨ ∀ c ∈ e.raw, c ≠ '&' ∧ c ≠ '#') :
    parseQuery (cut '#' (['&'].intercalate (entries.map part))).1 = some (entries.map fun e => (e.name,e.value)) ↔
      ∀ e ∈ entries, Fits e.name e.raw e.value := by
  induction entries with
  | nil => simp [cut,parseQuery_nil]
  | cons e rest ih =>
    let tail : Text := if rest = [] then [] else '&' :: ['&'].intercalate (rest.map part)
    have split : ['&'].intercalate ((e :: rest).map part) = e.name ++ '=' :: (e.raw ++ tail) := by
      cases rest with
      | nil => simp [tail,part,intercalate_singleton]
      | cons e' rest => simp [tail,part,intercalate_cons_cons]
    have later : tail.tail = ['&'].intercalate (rest.map part) := by cases rest <;> simp [tail]
    have next : tail = [] ∨ ∃ y, tail = '&' :: y := by cases rest <;> simp [tail]
    rw [split,map_cons,first_pair next (fair e mem_cons_self),later,
      ih fun e member => fair e (mem_cons_of_mem _ member),forall_mem_cons]

/-! ### URLs -/

/-- A byte that no URL may have. -/
def isControl (c : Char) : Bool := c.toNat < 32 || c.toNat = 127

structure URL (H : Type) where
  scheme : Text
  rootless : Text
  host : Option H
  path : Text
  rawQuery : Text
  fragment : Text
  deriving DecidableEq

def schemeExtra (c : Char) : Bool := c.isDigit || c = '+' || c = '-' || c = '.'

def schemeChar (c : Char) : Bool := c.isAlpha || schemeExtra c

def getScheme (raw : Text) : Option (Text × Text) :=
  match raw.takeWhile schemeChar,raw.dropWhile schemeChar with
  | [],':' :: _ => none
  | c :: name,':' :: rest => if schemeExtra c then some ([],raw) else some (c :: name,rest)
  | _,_ => some ([],raw)

section
variable {H : Type} (parseAuthority : Text → Option H)

def setPath (u : URL H) (path : Text) : Option (URL H) := (unescape false path).map fun _ => { u with path := path }

def parseWhole (raw : Text) : Option (URL H) :=
  if raw.any isControl then none
  else if raw = ['*'] then some ⟨[],[],none,['*'],[],[]⟩
  else
    (getScheme raw).bind fun (scheme,whole) =>
      let (rest,query) := cut '?' whole
      let u : URL H := ⟨scheme.map Char.toLower,[],none,[],query,[]⟩
      if ¬ ['/'] <+: rest then
        if scheme ≠ [] then some { u with rootless := rest }
        else if ':' ∈ (cut '/' rest).1 then none
        else setPath u rest
      else if (scheme ≠ [] ∨ ¬ ['/','/','/'] <+: rest) ∧ ['/','/'] <+: rest then
        let authority := (rest.drop 2).takeWhile (· ≠ '/')
        (parseAuthority authority).bind fun host =>
          setPath { u with host := some host } ((rest.drop 2).dropWhile (· ≠ '/'))
      else setPath u rest

def parse (raw : Text) : Option (URL H) :=
  (parseWhole parseAuthority (cut '#' raw).1).bind fun u =>
    (unescape false (cut '#' raw).2).map fun fragment => { u with fragment := fragment }

structure Root (H : Type) where
  scheme : Text
  authority : Text
  host : H

def Root.text (root : Root H) : Text := root.scheme ++ ':' :: '/' :: '/' :: root.authority

structure Root.Formed (root : Root H) : Prop where
  begins : ∃ c rest, root.scheme = c :: rest ∧ c.isAlpha = true
  scheme : ∀ c ∈ root.scheme, schemeChar c = true
  lower : root.scheme.map Char.toLower = root.scheme
  authority : ∀ c ∈ root.authority, c ∉ ['/','?','#'] ∧ isControl c = false
  host : parseAuthority root.authority = some root.host

end

section
variable {H : Type} {parseAuthority : Text → Option H}

theorem alpha_bounds {c : Char} (alpha : c.isAlpha = true) : 65 ≤ c.toNat ∧ c.toNat ≤ 122 := by
  have bounds : (65 ≤ c.toNat ∧ c.toNat ≤ 90) ∨ (97 ≤ c.toNat ∧ c.toNat ≤ 122) := by
    rcases Bool.or_eq_true_iff.mp alpha with upper | lower
    · exact .inl (of_decide_eq_true upper)
    · have both : (decide (97 ≤ c.toNat) && decide (c.toNat ≤ 122)) = true := lower
      exact .inr (by simpa using both)
  omega

theorem schemeExtra_bounds {c : Char} (extra : schemeExtra c = true) : 43 ≤ c.toNat ∧ c.toNat ≤ 57 := by
  simp only [schemeExtra,Bool.or_eq_true,decide_eq_true_eq] at extra
  rcases extra with ((digit | rfl) | rfl) | rfl
  · have bounds : 48 ≤ c.toNat ∧ c.toNat ≤ 57 := by
      simpa [Char.isDigit,UInt32.le_iff_toNat_le] using digit
    omega
  all_goals decide

theorem schemeChar_bounds {c : Char} (inside : schemeChar c = true) : 43 ≤ c.toNat ∧ c.toNat ≤ 122 := by
  rcases Bool.or_eq_true_iff.mp inside with alpha | extra
  · have bounds := alpha_bounds alpha
    omega
  · have bounds := schemeExtra_bounds extra
    omega

section
variable {root : Root H} (formed : root.Formed parseAuthority)
include formed

theorem Root.Formed.getScheme (rest : Text) : getScheme (root.scheme ++ ':' :: rest) = some (root.scheme,rest) := by
  obtain ⟨c,name,isCons,alpha⟩ := formed.begins
  have plain : schemeExtra c = false := Bool.eq_false_iff.mpr fun extra => by
    have letter := alpha_bounds alpha
    have other := schemeExtra_bounds extra
    omega
  have all := formed.scheme
  have colon : schemeChar ':' = false := by decide
  have before : (root.scheme ++ ':' :: rest).takeWhile schemeChar = c :: name := by
    rw [takeWhile_append_of_pos all,isCons]
    simp [colon]
  have after : (root.scheme ++ ':' :: rest).dropWhile schemeChar = ':' :: rest := by
    rw [dropWhile_append_of_pos all]
    simp [colon]
  unfold UrlText.getScheme
  rw [before,after]
  simp [plain,isCons]

theorem Root.Formed.plain : ∀ c ∈ root.text, isControl c = false ∧ c ≠ '#' := by
  intro c inside
  have own : ∀ d : Char, 43 ≤ d.toNat → d.toNat ≤ 122 → isControl d = false ∧ d ≠ '#' := by
    intro d least most
    refine ⟨by simp only [isControl,Bool.or_eq_false_iff,decide_eq_false_iff_not]; omega,?_⟩
    rintro rfl
    exact absurd least (by decide)
  simp only [Root.text,mem_append,mem_cons] at inside
  rcases inside with scheme | rfl | rfl | rfl | authority
  · have bounds := schemeChar_bounds (formed.scheme c scheme)
    exact own c bounds.1 bounds.2
  · exact own _ (by decide) (by decide)
  · exact own _ (by decide) (by decide)
  · exact own _ (by decide) (by decide)
  · obtain ⟨apart,quiet⟩ := formed.authority c authority
    exact ⟨quiet,fun is => apart (by simp [is])⟩

theorem parseWhole_root (x : Text) : parseWhole parseAuthority (root.text ++ '/' :: x) =
    if ('/' :: x).any isControl then none
    else setPath ⟨root.scheme,[],some root.host,[],(cut '?' x).2,[]⟩ ('/' :: (cut '?' x).1) := by
  have quiet : root.text.any isControl = false :=
    any_eq_false.mpr fun c inside => Bool.eq_false_iff.mp (formed.plain c inside).1
  have slash : ∀ c ∈ root.authority, (!decide (c = '/')) = true := by
    intro c inside
    have apart := (formed.authority c inside).1
    simp only [mem_cons,not_or] at apart
    simp [apart.1]
  have question : '?' ∉ '/' :: '/' :: root.authority := by
    simp only [mem_cons,not_or]
    exact ⟨by decide,by decide,fun inside => by simpa using (formed.authority _ inside).1⟩
  have whole : root.text ++ '/' :: x = root.scheme ++ ':' :: ('/' :: '/' :: root.authority ++ '/' :: x) := by
    simp [Root.text]
  have star : root.text ++ '/' :: x ≠ ['*'] := by
    intro same
    have size := congrArg length same
    simp only [Root.text,length_append,length_cons,length_nil] at size
    omega
  obtain ⟨c,name,isCons,-⟩ := formed.begins
  have some_ : root.scheme ≠ [] := by simp [isCons]
  unfold parseWhole
  rw [any_append,quiet,Bool.false_or,if_neg star]
  split
  · rfl
  · rw [whole,formed.getScheme,bind_some]
    simp only [cut_append question,cut_cons (show '/' ≠ '?' by decide),formed.lower]
    have front (y : Text) : (root.authority ++ '/' :: y).takeWhile (fun c => !decide (c = '/')) = root.authority := by
      simp [takeWhile_append_of_pos slash]
    have back (y : Text) : (root.authority ++ '/' :: y).dropWhile (fun c => !decide (c = '/')) = '/' :: y := by
      simp [dropWhile_append_of_pos slash]
    simp [some_,front,back,formed.host]

theorem parse_root (rest : Text) {u : URL H} : parse parseAuthority (root.text ++ '/' :: rest) = some u ↔
      (∀ c ∈ (cut '#' ('/' :: rest)).1, isControl c = false) ∧
      (unescape false (cut '?' (cut '#' ('/' :: rest)).1).1).isSome ∧
      ∃ fragment, unescape false (cut '#' ('/' :: rest)).2 = some fragment ∧
        u = ⟨root.scheme,[],some root.host,(cut '?' (cut '#' ('/' :: rest)).1).1,(cut '?' (cut '#' ('/' :: rest)).1).2,
          fragment⟩ := by
  have hash : '#' ∉ root.text := fun inside => (formed.plain _ inside).2 rfl
  unfold parse
  rw [cut_append hash,cut_cons (show '/' ≠ '#' by decide),parseWhole_root formed]
  simp only [cut_cons (show '/' ≠ '?' by decide),setPath]
  by_cases quiet : ('/' :: (cut '#' rest).1).any isControl = true
  · rw [if_pos quiet]
    obtain ⟨c,inside,control⟩ := any_eq_true.mp quiet
    constructor
    · intro parsed
      cases parsed
    · intro ⟨free,_⟩
      rw [free c inside] at control
      cases control
  · rw [if_neg quiet]
    have free : ∀ c ∈ '/' :: (cut '#' rest).1, isControl c = false := by simpa using quiet
    simp only [bind_eq_some_iff,map_eq_some_iff,isSome_iff_exists]
    constructor
    · rintro ⟨_,⟨d,path,rfl⟩,fragment,decoded,rfl⟩
      exact ⟨free,⟨d,path⟩,fragment,decoded,rfl⟩
    · rintro ⟨-,⟨d,path⟩,fragment,decoded,rfl⟩
      exact ⟨_,⟨d,path,rfl⟩,fragment,decoded,rfl⟩

end

end

end Mcpkit.UrlText
