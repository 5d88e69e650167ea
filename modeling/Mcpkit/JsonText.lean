import Mathlib.Data.List.Forall2
import Mathlib.Data.List.TakeWhile

/-!
JSON texts as encoding/json reads and writes them: a number keeps its spelling, a string
is decoded, and what a value is written as is read back as that value.
-/
namespace Mcpkit.JsonText
open List

/-! ### Numbers -/

def isDigit (c : Char) : Bool := '0' ≤ c && c ≤ '9'

inductive NumberState where
  | start
  | minus
  | zero
  | whole
  | point
  | fraction
  | exponent
  | sign
  | power
  deriving DecidableEq, Repr

namespace NumberState

def afterFraction (c : Char) : Option NumberState := if c = 'e' ∨ c = 'E' then some exponent else none

def afterWhole (c : Char) : Option NumberState := if c = '.' then some point else afterFraction c

def next : NumberState → Char → Option NumberState
  | start, c => if c = '-' then some minus else if c = '0' then some zero else if isDigit c then some whole else none
  | minus, c => if c = '0' then some zero else if isDigit c then some whole else none
  | zero, c => afterWhole c
  | whole, c => if isDigit c then some whole else afterWhole c
  | point, c => if isDigit c then some fraction else none
  | fraction, c => if isDigit c then some fraction else afterFraction c
  | exponent, c => if c = '+' ∨ c = '-' then some sign else if isDigit c then some power else none
  | sign, c => if isDigit c then some power else none
  | power, c => if isDigit c then some power else none

def ends : NumberState → Bool
  | zero | whole | fraction | power => true
  | _ => false

end NumberState

def scanNumber : NumberState → List Char → Option (List Char × List Char)
  | s, [] => if s.ends then some ([],[]) else none
  | s, c :: cs =>
    match s.next c with
    | some s' => (scanNumber s' cs).map fun r => (c :: r.1,r.2)
    | none => if s.ends then some ([],c :: cs) else none

def isNumberChar (c : Char) : Bool := isDigit c || c = '-' || c = '+' || c = '.' || c = 'e' || c = 'E'

variable {c : Char}

theorem NumberState.next_char {s s' : NumberState} (goes : s.next c = some s') : isNumberChar c := by
  have digit : isDigit '0' := by decide
  unfold isNumberChar
  cases s <;> simp only [next,afterWhole,afterFraction] at goes <;> grind

theorem scanNumber_cons {s s' : NumberState} {cs : List Char} (goes : s.next c = some s') :
    scanNumber s (c :: cs) = (scanNumber s' cs).map fun r => (c :: r.1,r.2) := by
  simp only [scanNumber,goes]

theorem scanNumber_split {cs lexeme rest : List Char} : ∀ {s : NumberState}, scanNumber s cs = some (lexeme,rest) →
    cs = lexeme ++ rest ∧ scanNumber s lexeme = some (lexeme,[]) := by
  induction cs generalizing lexeme rest with
  | nil =>
    intro s read
    simp only [scanNumber] at read
    split at read
    next ends => cases read; exact ⟨rfl,by simp [scanNumber,ends]⟩
    next => cases read
  | cons c cs ih =>
    intro s read
    simp only [scanNumber] at read
    split at read
    next s' goes =>
      obtain ⟨⟨lexeme',rest'⟩,read',same⟩ := Option.map_eq_some_iff.mp read
      cases same
      obtain ⟨split,whole⟩ := ih read'
      exact ⟨by rw [split]; rfl,by simp [scanNumber_cons goes,whole]⟩
    next =>
      split at read
      next ends => cases read; exact ⟨rfl,by simp [scanNumber,ends]⟩
      next => cases read

theorem scanNumber_consumed {s : NumberState} {cs : List Char} (read : scanNumber s (c :: cs) = some (c :: cs,[])) :
    ∃ s', s.next c = some s' ∧ scanNumber s' cs = some (cs,[]) := by
  cases goes : s.next c with
  | none => simp [scanNumber,goes] at read
  | some s' => exact ⟨s',rfl,by simpa [scanNumber_cons goes] using read⟩

def Stops (rest : List Char) : Prop := ∀ c ∈ rest.head?, isNumberChar c = false

open NumberState

theorem scanNumber_append {lexeme rest : List Char} (stops : Stops rest) : ∀ {s : NumberState},
    scanNumber s lexeme = some (lexeme,[]) → scanNumber s (lexeme ++ rest) = some (lexeme,rest) := by
  induction lexeme with
  | nil =>
    intro s read
    simp only [scanNumber] at read
    split at read
    next ends =>
      cases rest with
      | nil => simp [scanNumber,ends]
      | cons c rest =>
        have none : s.next c = none := by
          cases goes : s.next c with
          | none => rfl
          | some s' =>
            have char := stops c rfl
            rw [next_char goes] at char
            cases char
        simp [scanNumber,none,ends]
    next => cases read
  | cons c lexeme ih =>
    intro s read
    obtain ⟨s',goes,read'⟩ := scanNumber_consumed read
    simp [scanNumber_cons goes,ih read']

theorem scanNumber_chars {lexeme : List Char} : ∀ {s : NumberState}, scanNumber s lexeme = some (lexeme,[]) →
    ∀ c ∈ lexeme, isNumberChar c := by
  induction lexeme with
  | nil => exact fun _ _ member => absurd member not_mem_nil
  | cons c lexeme ih =>
    intro s read
    obtain ⟨s',goes,read'⟩ := scanNumber_consumed read
    intro d member
    rcases List.mem_cons.mp member with rfl | member
    · exact next_char goes
    · exact ih read' d member

structure Number where
  lexeme : List Char
  valid : scanNumber .start lexeme = some (lexeme,[])
  deriving DecidableEq

theorem Number.ne_nil (n : Number) : n.lexeme ≠ [] := by
  intro empty
  have valid := n.valid
  rw [empty] at valid
  cases valid

def readNumber (cs : List Char) : Option (Number × List Char) :=
  match read : scanNumber .start cs with
  | some (lexeme,rest) => some (⟨lexeme,(scanNumber_split read).2⟩,rest)
  | none => none

theorem readNumber_append (n : Number) {rest : List Char} (stops : Stops rest) :
    readNumber (n.lexeme ++ rest) = some (n,rest) := by
  have read := scanNumber_append stops n.valid
  unfold readNumber
  split
  next lexeme' rest' read' =>
    rw [read] at read'
    cases read'
    rfl
  next none => rw [read] at none; cases none

theorem readNumber_split {cs rest : List Char} {n : Number} (read : readNumber cs = some (n,rest)) :
    cs = n.lexeme ++ rest := by
  unfold readNumber at read
  split at read
  next lexeme' rest' read' =>
    cases read
    exact (scanNumber_split read').1
  next => cases read

/-! ### Strings -/

def hexValue (c : Char) : Option Nat :=
  if isDigit c then some (c.toNat-48)
  else if 'a' ≤ c ∧ c ≤ 'f' then some (c.toNat-87)
  else if 'A' ≤ c ∧ c ≤ 'F' then some (c.toNat-55)
  else none

variable (n : Nat)

def hexDigit : Char := if n < 10 then Char.ofNat (48+n) else Char.ofNat (87+n)

def simpleEscape (c : Char) : Option Char :=
  if c = '"' ∨ c = '\\' ∨ c = '/' then some c
  else if c = 'b' then some '\x08'
  else if c = 'f' then some '\x0c'
  else if c = 'n' then some '\n'
  else if c = 'r' then some '\r'
  else if c = 't' then some '\t'
  else none

/-- A character of a string token, or a code unit given by its number. -/
inductive Piece where
  | char (c : Char)
  | unit (n : Nat)
  deriving DecidableEq, Repr

def push (p : Piece) (r : List Piece × List Char) : List Piece × List Char := (p :: r.1,r.2)

/-- Where the scanner stands within a string; `digits` of the number behind `\u` are read. -/
inductive StringState where
  | inside
  | escaped
  | unit (digits value : Nat)
  deriving DecidableEq, Repr

def scanPieces : StringState → List Char → Option (List Piece × List Char)
  | _, [] => none
  | .inside, c :: cs =>
    if c = '"' then some ([],cs)
    else if c = '\\' then scanPieces .escaped cs
    else if c.toNat < 32 then none
    else (scanPieces .inside cs).map (push (.char c))
  | .escaped, c :: cs =>
    if c = 'u' then scanPieces (.unit 0 0) cs
    else
      match simpleEscape c with
      | some c => (scanPieces .inside cs).map (push (.char c))
      | none => none
  | .unit digits value, c :: cs =>
    match hexValue c with
    | none => none
    | some d =>
      if digits = 3 then (scanPieces .inside cs).map (push (.unit (value*16+d)))
      else scanPieces (.unit (digits+1) (value*16+d)) cs

def isSurrogate : Bool := 0xD800 ≤ n && n ≤ 0xDFFF

/-- A code unit by itself; half a pair is replaced. -/
def unitChar : Char := if isSurrogate n then '\ufffd' else Char.ofNat n

/-- Pairs of code units are one character. -/
def joinPieces : List Piece → List Char
  | [] => []
  | .char c :: rest => c :: joinPieces rest
  | .unit n :: rest =>
    match rest with
    | .unit m :: rest' =>
      if 0xD800 ≤ n ∧ n ≤ 0xDBFF ∧ 0xDC00 ≤ m ∧ m ≤ 0xDFFF then
        Char.ofNat (0x10000+(n-0xD800)*0x400+(m-0xDC00)) :: joinPieces rest'
      else unitChar n :: joinPieces (.unit m :: rest')
    | rest => unitChar n :: joinPieces rest

def scanString (cs : List Char) : Option (List Char × List Char) :=
  (scanPieces .inside cs).map fun r => (joinPieces r.1,r.2)

/-! ### Writing strings -/

def unitText : List Char :=
  ['\\','u',hexDigit (n/4096%16),hexDigit (n/256%16),hexDigit (n/16%16),hexDigit (n%16)]

/-- The characters written by their number although they need not be. -/
def isEscapedHTML (c : Char) : Bool := c = '<' || c = '>' || c = '&' || c = '\u2028' || c = '\u2029'

def shortEscape (c : Char) : Option Char :=
  if c = '"' ∨ c = '\\' then some c
  else if c = '\x08' then some 'b'
  else if c = '\x0c' then some 'f'
  else if c = '\n' then some 'n'
  else if c = '\r' then some 'r'
  else if c = '\t' then some 't'
  else none

def escapeChar (c : Char) : List Char :=
  match shortEscape c with
  | some e => ['\\',e]
  | none => if c.toNat < 32 ∨ isEscapedHTML c then unitText c.toNat else [c]

variable (text : List Char)

def escape : List Char := text.flatMap escapeChar

def stringText : List Char := '"' :: (escape text ++ ['"'])

theorem hexValue_hexDigit : ∀ n < 16, hexValue (hexDigit n) = some n := by decide

theorem scanPieces_unitText {n : Nat} (small : n < 65536) (cs : List Char) :
    scanPieces .inside (unitText n ++ cs) = (scanPieces .inside cs).map (push (.unit n)) := by
  have digit : ∀ m, hexValue (hexDigit (m%16)) = some (m%16) := fun m => hexValue_hexDigit _ (Nat.mod_lt _ (by decide))
  have value : (((n/4096%16)*16+n/256%16)*16+n/16%16)*16+n%16 = n := by omega
  simp [unitText,scanPieces,digit,value]

/-- A character that is no quote, no backslash and no control character stands for itself. -/
def isPlain (c : Char) : Bool := c ≠ '"' && c ≠ '\\' && 32 ≤ c.toNat

theorem isPlain_iff (c : Char) : isPlain c ↔ (c ≠ '"' ∧ c ≠ '\\') ∧ ¬ c.toNat < 32 := by simp [isPlain]

theorem isPlain_of_html (html : isEscapedHTML c) : isPlain c := by
  simp only [isEscapedHTML,Bool.or_eq_true,decide_eq_true_eq] at html
  rcases html with (((rfl | rfl) | rfl) | rfl) | rfl <;> decide

theorem scanPieces_plain (plain : isPlain c) (cs : List Char) :
    scanPieces .inside (c :: cs) = (scanPieces .inside cs).map (push (.char c)) := by
  obtain ⟨⟨quote,slash⟩,control⟩ := (isPlain_iff c).mp plain
  rw [scanPieces,if_neg quote,if_neg slash,if_neg control]

theorem scanPieces_simple {e : Char} (stands : simpleEscape e = some c) (cs : List Char) :
    scanPieces .inside ('\\' :: e :: cs) = (scanPieces .inside cs).map (push (.char c)) := by
  have noUnit : e ≠ 'u' := by
    rintro rfl
    cases stands
  simp [scanPieces,noUnit,stands]

theorem shortEscape_stands {e : Char} (short : shortEscape c = some e) : simpleEscape e = some c := by
  unfold shortEscape at short
  split_ifs at short with special b f n r t <;> cases short
  · rcases special with rfl | rfl <;> rfl
  all_goals subst c; rfl

def pieceOf (c : Char) : Piece :=
  if shortEscape c = none ∧ (c.toNat < 32 ∨ isEscapedHTML c) then .unit c.toNat else .char c

theorem numbered_small (numbered : c.toNat < 32 ∨ isEscapedHTML c) : c.toNat < 0xD800 := by
  rcases numbered with small | html
  · omega
  · simp only [isEscapedHTML,Bool.or_eq_true,decide_eq_true_eq] at html
    rcases html with (((rfl | rfl) | rfl) | rfl) | rfl <;> decide

theorem scanPieces_escapeChar (c : Char) (cs : List Char) :
    scanPieces .inside (escapeChar c ++ cs) = (scanPieces .inside cs).map (push (pieceOf c)) := by
  cases short : shortEscape c with
  | some e =>
    simp only [escapeChar,pieceOf,short]
    exact scanPieces_simple (shortEscape_stands short) cs
  | none =>
    by_cases numbered : c.toNat < 32 ∨ isEscapedHTML c
    · simp only [escapeChar,pieceOf,short,if_pos numbered,true_and]
      exact scanPieces_unitText (by have := numbered_small numbered; omega) cs
    · have text : escapeChar c = [c] := by simp only [escapeChar,short,if_neg numbered]
      have piece : pieceOf c = .char c := if_neg fun both => numbered both.2
      rw [text,piece]
      refine scanPieces_plain ?_ cs
      obtain ⟨control,_⟩ := not_or.mp numbered
      have special : ¬ (c = '"' ∨ c = '\\') := by
        intro special
        simp [shortEscape,special] at short
      exact (isPlain_iff c).mpr ⟨not_or.mp special,control⟩

theorem scanPieces_escape (text rest : List Char) :
    scanPieces .inside (escape text ++ '"' :: rest) = some (text.map pieceOf,rest) := by
  induction text with
  | nil => rfl
  | cons c text ih =>
    rw [escape,flatMap_cons,← escape,append_assoc,scanPieces_escapeChar,ih]
    rfl

theorem joinPieces_unit {n : Nat} (single : n < 0xD800) (rest : List Piece) :
    joinPieces (.unit n :: rest) = Char.ofNat n :: joinPieces rest := by
  have alone : unitChar n = Char.ofNat n := if_neg (by simp [isSurrogate]; omega)
  cases rest with
  | nil => simp [joinPieces,alone]
  | cons p rest =>
    cases p with
    | char c => simp [joinPieces,alone]
    | unit m => rw [joinPieces,if_neg (by omega),alone]

theorem joinPieces_pieceOf : joinPieces (text.map pieceOf) = text := by
  induction text with
  | nil => rfl
  | cons c text ih =>
    rw [map_cons,pieceOf]
    split_ifs with numbered
    · rw [joinPieces_unit (numbered_small numbered.2),ih,Char.ofNat_toNat]
    · rw [joinPieces,ih]

theorem scanString_escape (text rest : List Char) : scanString (escape text ++ '"' :: rest) = some (text,rest) := by
  rw [scanString,scanPieces_escape,Option.map_some,joinPieces_pieceOf]

/-! ### Values -/

inductive Json where
  | null
  | bool (value : Bool)
  | number (value : Number)
  | string (text : List Char)
  | array (items : List Json)
  | object (members : List (List Char × Json))

def isBlank (c : Char) : Bool := c = ' ' || c = '\t' || c = '\n' || c = '\r'

def skip (cs : List Char) : List Char := cs.dropWhile isBlank

def behind (word cs : List Char) : Option (List Char) :=
  if word.isPrefixOf cs then some (cs.drop word.length) else none

mutual

/-- A value, and what follows it. Every turn reads a character, so that the length of the text is fuel enough. -/
def value : Nat → List Char → Option (Json × List Char)
  | 0, _ => none
  | fuel+1, cs =>
    match skip cs with
    | [] => none
    | c :: cs =>
      if c = '"' then (scanString cs).map fun r => (.string r.1,r.2)
      else if c = '\x7b' then
        match skip cs with
        | [] => none
        | d :: cs => if d = '\x7d' then some (.object [],cs) else (members fuel (d :: cs)).map fun r => (.object r.1,r.2)
      else if c = '[' then
        match skip cs with
        | [] => none
        | d :: cs => if d = ']' then some (.array [],cs) else (items fuel (d :: cs)).map fun r => (.array r.1,r.2)
      else if c = 'n' then (behind ['u','l','l'] cs).map fun rest => (.null,rest)
      else if c = 't' then (behind ['r','u','e'] cs).map fun rest => (.bool true,rest)
      else if c = 'f' then (behind ['a','l','s','e'] cs).map fun rest => (.bool false,rest)
      else (readNumber (c :: cs)).map fun r => (.number r.1,r.2)

def items : Nat → List Char → Option (List Json × List Char)
  | 0, _ => none
  | fuel+1, cs =>
    match value fuel cs with
    | none => none
    | some (item,cs) =>
      match skip cs with
      | [] => none
      | d :: cs =>
        if d = ']' then some ([item],cs)
        else if d = ',' then (items fuel cs).map fun r => (item :: r.1,r.2)
        else none

def members : Nat → List Char → Option (List (List Char × Json) × List Char)
  | 0, _ => none
  | fuel+1, cs =>
    match skip cs with
    | [] => none
    | quote :: cs =>
      if quote ≠ '"' then none
      else
        match scanString cs with
        | none => none
        | some (key,cs) =>
          match skip cs with
          | [] => none
          | colon :: cs =>
            if colon ≠ ':' then none
            else
              match value fuel cs with
              | none => none
              | some (member,cs) =>
                match skip cs with
                | [] => none
                | d :: cs =>
                  if d = '\x7d' then some ([(key,member)],cs)
                  else if d = ',' then (members fuel cs).map fun r => ((key,member) :: r.1,r.2)
                  else none

end

def parse (text : List Char) : Option Json :=
  match value text.length text with
  | some (v,rest) => if skip rest = [] then some v else none
  | none => none

/-! ### Writing values -/

def joinTexts : List (List Char) → List Char
  | [] => []
  | [text] => text
  | text :: rest => text ++ ',' :: joinTexts rest

def arrayText (texts : List (List Char)) : List Char := '[' :: (joinTexts texts ++ [']'])

def memberText (m : List Char × List Char) : List Char := stringText m.1 ++ ':' :: m.2

def objectText (texts : List (List Char × List Char)) : List Char :=
  '\x7b' :: (joinTexts (texts.map memberText) ++ ['\x7d'])

mutual

def render : Json → List Char
  | .null => ['n','u','l','l']
  | .bool true => ['t','r','u','e']
  | .bool false => ['f','a','l','s','e']
  | .number n => n.lexeme
  | .string text => stringText text
  | .array items => arrayText (renderItems items)
  | .object members => objectText (renderMembers members)

def renderItems : List Json → List (List Char)
  | [] => []
  | item :: rest => render item :: renderItems rest

def renderMembers : List (List Char × Json) → List (List Char × List Char)
  | [] => []
  | (key,member) :: rest => (key,render member) :: renderMembers rest

end

/-! ### What a text stands for -/

structure Denotes (text : List Char) (v : Json) : Prop where
  head : ∃ c cs, text = c :: cs ∧ isBlank c = false ∧ c ≠ ']'
  reads : ∀ fuel rest, text.length ≤ fuel → Stops rest → value fuel (text ++ rest) = some (v,rest)

theorem skip_cons (ink : isBlank c = false) (cs : List Char) : skip (c :: cs) = c :: cs := by simp [skip,ink]

theorem skip_nil {cs : List Char} (nothing : skip cs = []) : ∀ c ∈ cs, isBlank c := List.dropWhile_eq_nil_iff.mp nothing

theorem stops_nil : Stops [] := fun _ head => by cases head

theorem stops_cons (other : isNumberChar c = false) (rest : List Char) : Stops (c :: rest) := by
  intro d head
  cases head
  exact other

theorem Denotes.parse {text : List Char} {v : Json} (denotes : Denotes text v) : parse text = some v := by
  have read := denotes.reads text.length [] (Nat.le_refl _) stops_nil
  rw [append_nil] at read
  simp [JsonText.parse,read,skip]

theorem Denotes.ne_nil {text : List Char} {v : Json} (denotes : Denotes text v) : 0 < text.length := by
  obtain ⟨c,cs,rfl,_⟩ := denotes.head
  simp

theorem denotes_null : Denotes ['n','u','l','l'] .null := by
  refine ⟨⟨_,_,rfl,by decide,by decide⟩,fun fuel rest enough _ => ?_⟩
  obtain ⟨fuel,rfl⟩ := Nat.exists_eq_add_of_le' (Nat.lt_of_lt_of_le (by decide : 0 < 4) enough)
  simp [value,skip,isBlank,behind]

theorem denotes_bool (b : Bool) : Denotes (render (.bool b)) (.bool b) := by
  cases b with
  | true =>
    refine ⟨⟨_,_,rfl,by decide,by decide⟩,fun fuel rest enough _ => ?_⟩
    obtain ⟨fuel,rfl⟩ := Nat.exists_eq_add_of_le' (Nat.lt_of_lt_of_le (by decide : 0 < 4) enough)
    simp [render,value,skip,isBlank,behind]
  | false =>
    refine ⟨⟨_,_,rfl,by decide,by decide⟩,fun fuel rest enough _ => ?_⟩
    obtain ⟨fuel,rfl⟩ := Nat.exists_eq_add_of_le' (Nat.lt_of_lt_of_le (by decide : 0 < 5) enough)
    simp [render,value,skip,isBlank,behind]

theorem denotes_string (text : List Char) : Denotes (stringText text) (.string text) := by
  refine ⟨⟨_,_,rfl,by decide,by decide⟩,fun fuel rest enough _ => ?_⟩
  obtain ⟨fuel,rfl⟩ := Nat.exists_eq_add_of_le' (Nat.lt_of_lt_of_le (by simp [stringText] : 0 < (stringText text).length) enough)
  have read : scanString (escape text ++ ['"'] ++ rest) = some (text,rest) := by simpa using scanString_escape text rest
  simp [stringText,value,skip,isBlank] at read ⊢
  simp [read]

theorem Number.head (n : Number) : ∃ c cs, n.lexeme = c :: cs ∧ (isDigit c ∨ c = '-') := by
  obtain ⟨c,cs,text⟩ := exists_cons_of_ne_nil n.ne_nil
  refine ⟨c,cs,text,?_⟩
  have valid := n.valid
  rw [text] at valid
  by_contra other
  obtain ⟨digit,sign⟩ := not_or.mp other
  have zero : c ≠ '0' := by
    rintro rfl
    exact digit (by decide)
  simp [scanNumber,NumberState.next,ends,sign,zero,digit] at valid

section
variable (first : isDigit c ∨ c = '-')
include first

theorem ne_of_numeric {d : Char} (digit : isDigit d = false) (sign : d ≠ '-') : c ≠ d := by
  rintro rfl
  rcases first with isDigit | isSign
  · rw [digit] at isDigit; cases isDigit
  · exact sign isSign

theorem isBlank_numeric : isBlank c = false := by
  have blank : ∀ d, isBlank d → isDigit d = false ∧ d ≠ '-' := by
    intro d blank
    simp only [isBlank,Bool.or_eq_true,decide_eq_true_eq] at blank
    rcases blank with ((rfl | rfl) | rfl) | rfl <;> decide
  by_contra isBlank
  obtain ⟨digit,sign⟩ := blank c (by simpa using isBlank)
  exact ne_of_numeric first digit sign rfl

theorem value_numeric (fuel : Nat) (cs : List Char) :
    value (fuel+1) (c :: cs) = (readNumber (c :: cs)).map fun r => (.number r.1,r.2) := by
  have quote : c ≠ '"' := ne_of_numeric first (by decide) (by decide)
  have brace : c ≠ '\x7b' := ne_of_numeric first (by decide) (by decide)
  have bracket : c ≠ '[' := ne_of_numeric first (by decide) (by decide)
  have n : c ≠ 'n' := ne_of_numeric first (by decide) (by decide)
  have t : c ≠ 't' := ne_of_numeric first (by decide) (by decide)
  have f : c ≠ 'f' := ne_of_numeric first (by decide) (by decide)
  simp only [value,skip_cons (isBlank_numeric first),if_neg quote,if_neg brace,if_neg bracket,if_neg n,if_neg t,if_neg f]

end

theorem denotes_number (n : Number) : Denotes n.lexeme (.number n) := by
  obtain ⟨c,cs,text,first⟩ := n.head
  refine ⟨⟨c,cs,text,isBlank_numeric first,ne_of_numeric first (by decide) (by decide)⟩,fun fuel rest enough stops => ?_⟩
  obtain ⟨fuel,rfl⟩ := Nat.exists_eq_add_of_le' (Nat.lt_of_lt_of_le (length_pos_of_ne_nil n.ne_nil) enough)
  have read := readNumber_append n stops
  rw [text,cons_append] at read ⊢
  rw [value_numeric first,read]
  rfl

/-- A text that begins like a number is one, or is not valid. -/
theorem parse_numeric {cs : List Char} {v : Json} (first : isDigit c ∨ c = '-') (parsed : parse (c :: cs) = some v) :
    ∃ n, v = .number n := by
  unfold parse at parsed
  split at parsed
  next v' rest read =>
    split_ifs at parsed
    cases parsed
    rw [length_cons,value_numeric first] at read
    obtain ⟨r,_,same⟩ := Option.map_eq_some_iff.mp read
    cases same
    exact ⟨_,rfl⟩
  next => cases parsed

variable {texts : List (List Char)}

theorem items_joinTexts {vs : List Json} (each : List.Forall₂ Denotes texts vs) (some : texts ≠ []) :
    ∀ fuel rest, (joinTexts texts).length < fuel →
      items fuel (joinTexts texts ++ ']' :: rest) = Option.some (vs,rest) := by
  induction each with
  | nil => exact absurd rfl some
  | @cons text v texts vs first each ih =>
    intro fuel rest enough
    obtain ⟨fuel,rfl⟩ := Nat.exists_eq_add_of_le' (Nat.lt_of_le_of_lt (Nat.zero_le _) enough)
    cases each with
    | nil =>
      have read := first.reads fuel (']' :: rest) (by simpa [joinTexts] using Nat.lt_succ_iff.mp enough)
        (stops_cons (by decide) rest)
      simp [joinTexts,items,read,skip,isBlank]
    | @cons text' v' texts vs second each =>
      simp only [joinTexts,length_append,length_cons] at enough
      have read := first.reads fuel (',' :: (joinTexts (text' :: texts) ++ ']' :: rest)) (by omega)
        (stops_cons (by decide) _)
      have more := ih (by simp) fuel rest (by omega)
      simp only [joinTexts,append_assoc,cons_append,items,read]
      simp only [skip_cons (show isBlank ',' = false by decide),more]
      simp

theorem joinTexts_cons (c : Char) (cs : List Char) (texts : List (List Char)) :
    ∃ more, joinTexts ((c :: cs) :: texts) = c :: more := by
  cases texts with
  | nil | cons text texts => exact ⟨_,rfl⟩

theorem denotes_array {vs : List Json} (each : List.Forall₂ Denotes texts vs) :
    Denotes (arrayText texts) (.array vs) := by
  refine ⟨⟨_,_,rfl,by decide,by decide⟩,fun fuel rest enough _ => ?_⟩
  obtain ⟨fuel,rfl⟩ := Nat.exists_eq_add_of_le' (Nat.lt_of_lt_of_le (by simp [arrayText] : 0 < (arrayText texts).length) enough)
  cases each with
  | nil => simp [arrayText,joinTexts,value,skip,isBlank]
  | @cons text v texts vs first each =>
    have read := items_joinTexts (.cons first each) (by simp) fuel rest (by simp [arrayText] at enough; omega)
    -- the first item begins with neither a blank nor the closing bracket
    obtain ⟨c,cs,rfl,ink,close⟩ := first.head
    obtain ⟨more,begins⟩ := joinTexts_cons c cs texts
    simp only [arrayText,begins,value,cons_append,append_assoc,nil_append] at read ⊢
    simp [skip_cons (show isBlank '[' = false by decide),skip_cons ink,close,read]

def DenotesMember (text : List Char × List Char) (m : List Char × Json) : Prop := text.1 = m.1 ∧ Denotes text.2 m.2

theorem members_step {key text : List Char} {v : Json} (denotes : Denotes text v) {fuel : Nat} (enough : text.length ≤ fuel)
    {rest : List Char} (stops : Stops rest) :
    members (fuel+1) (memberText (key,text) ++ rest) =
      match skip rest with
      | [] => none
      | d :: cs =>
        if d = '\x7d' then some ([(key,v)],cs)
        else if d = ',' then (members fuel cs).map fun r => ((key,v) :: r.1,r.2)
        else none := by
  have keyed : scanString (escape key ++ '"' :: ':' :: (text ++ rest)) = some (key,':' :: (text ++ rest)) :=
    scanString_escape key _
  have read := denotes.reads fuel rest enough stops
  simp only [memberText,stringText,cons_append,append_assoc,nil_append,members]
  simp only [skip_cons (show isBlank '"' = false by decide),keyed,skip_cons (show isBlank ':' = false by decide),read]
  simp

variable {texts : List (List Char × List Char)} {ms : List (List Char × Json)}

theorem members_joinTexts
    (each : List.Forall₂ DenotesMember texts ms) (some : texts ≠ []) : ∀ fuel rest,
    (joinTexts (texts.map memberText)).length ≤ fuel →
      members fuel (joinTexts (texts.map memberText) ++ '\x7d' :: rest) = Option.some (ms,rest) := by
  induction each with
  | nil => exact absurd rfl some
  | @cons text m texts ms first each ih =>
    intro fuel rest enough
    obtain ⟨key,text⟩ := text
    obtain ⟨key',v⟩ := m
    obtain ⟨rfl,(denotes : Denotes text v)⟩ := first
    have long : text.length < (memberText (key,text)).length := by simp [memberText]; omega
    cases each with
    | nil =>
      simp only [map_cons,map_nil,joinTexts] at enough ⊢
      obtain ⟨fuel,rfl⟩ := Nat.exists_eq_add_of_le' (Nat.lt_of_le_of_lt (Nat.zero_le _) (Nat.lt_of_lt_of_le long enough))
      rw [members_step denotes (by omega) (stops_cons (by decide) rest)]
      simp [skip,isBlank]
    | @cons text' m' texts ms second each =>
      simp only [map_cons,joinTexts,length_append,length_cons] at enough
      obtain ⟨fuel,rfl⟩ := Nat.exists_eq_add_of_le' (show 1 ≤ fuel by omega)
      have more := ih (by simp) fuel rest (by simp only [map_cons]; omega)
      simp only [map_cons,joinTexts,append_assoc,cons_append] at more ⊢
      rw [members_step denotes (by omega) (stops_cons (by decide) _)]
      simp only [skip_cons (show isBlank ',' = false by decide),more]
      simp

theorem denotes_object
    (each : List.Forall₂ DenotesMember texts ms) : Denotes (objectText texts) (.object ms) := by
  refine ⟨⟨_,_,rfl,by decide,by decide⟩,fun fuel rest enough _ => ?_⟩
  obtain ⟨fuel,rfl⟩ := Nat.exists_eq_add_of_le' (Nat.lt_of_lt_of_le (by simp [objectText] : 0 < (objectText texts).length) enough)
  cases each with
  | nil => simp [objectText,joinTexts,value,skip,isBlank]
  | @cons text m texts ms first each =>
    have read := members_joinTexts (.cons first each) (by simp) fuel rest (by simp [objectText] at enough ⊢; omega)
    obtain ⟨more,begins⟩ : ∃ more, joinTexts ((text :: texts).map memberText) = '"' :: more := joinTexts_cons ..
    simp only [objectText,begins,value,cons_append,append_assoc,nil_append] at read ⊢
    simp [skip_cons (show isBlank '\x7b' = false by decide),skip_cons (show isBlank '"' = false by decide),read]

mutual

theorem denotes_render : ∀ v : Json, Denotes (render v) v
  | .null => by rw [render]; exact denotes_null
  | .bool b => denotes_bool b
  | .number n => by rw [render]; exact denotes_number n
  | .string text => by rw [render]; exact denotes_string text
  | .array vs => by rw [render]; exact denotes_array (denotes_renderItems vs)
  | .object ms => by rw [render]; exact denotes_object (denotes_renderMembers ms)

theorem denotes_renderItems : ∀ vs : List Json, List.Forall₂ Denotes (renderItems vs) vs
  | [] => by rw [renderItems]; exact .nil
  | v :: vs => by rw [renderItems]; exact .cons (denotes_render v) (denotes_renderItems vs)

theorem denotes_renderMembers : ∀ ms : List (List Char × Json), List.Forall₂ DenotesMember (renderMembers ms) ms
  | [] => by rw [renderMembers]; exact .nil
  | (_,v) :: ms => by rw [renderMembers]; exact .cons ⟨rfl,denotes_render v⟩ (denotes_renderMembers ms)

end

end Mcpkit.JsonText
