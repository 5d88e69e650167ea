import Mcpkit.JsonText

/-!
Raw messages of encoding/json: JSON texts that are copied into what is written. A raw
message has to be valid, and what is written of it stands for the same value.
-/
namespace Mcpkit.JsonRaw
open JsonText List Option

/-! ### Compaction -/

/-- Where compaction stands: between values, within a string, behind a backslash. -/
inductive CompactState where
  | between
  | inside
  | escaped
  deriving DecidableEq, Repr

def strip : CompactState → List Char → List Char
  | _, [] => []
  | .between, c :: cs => if isBlank c then strip .between cs else c :: strip (if c = '"' then .inside else .between) cs
  | .inside, c :: cs =>
    if c = '"' then c :: strip .between cs
    else if c = '\\' then c :: strip .escaped cs
    else if isEscapedHTML c then unitText c.toNat ++ strip .inside cs
    else c :: strip .inside cs
  | .escaped, c :: cs => c :: strip .inside cs

/-- A json.RawMessage as json.Marshal writes it: it must be valid, loses its blanks, and has
    the characters of HTML escaped. -/
def compact (raw : List Char) : Option (List Char) := if (parse raw).isSome then some (strip .between raw) else none

/-! ### String tokens -/

variable {cs word rest : List Char} {ps : List Piece}

theorem scanPieces_append (more : List Char) : ∀ {st : StringState},
    scanPieces st cs = some (ps,rest) → scanPieces st (cs ++ more) = some (ps,rest ++ more) := by
  induction cs generalizing ps rest with
  | nil => intro st read; cases st <;> cases read
  | cons c cs ih =>
    intro st read
    cases st with
    | inside =>
      simp only [scanPieces,cons_append] at read ⊢
      split_ifs at read ⊢ with quote slash control
      · cases read; rfl
      · exact ih read
      · obtain ⟨⟨ps',rest'⟩,read',same⟩ := map_eq_some_iff.mp read
        cases same
        rw [ih read']
        rfl
    | escaped =>
      simp only [scanPieces,cons_append] at read ⊢
      split_ifs at read ⊢ with unit
      · exact ih read
      · split at read
        next c' stands =>
          obtain ⟨⟨ps',rest'⟩,read',same⟩ := map_eq_some_iff.mp read
          cases same
          rw [ih read']
          rfl
        next => cases read
    | unit digits n =>
      simp only [scanPieces,cons_append] at read ⊢
      split at read
      next => cases read
      next d hex =>
        split_ifs at read ⊢ with last
        · obtain ⟨⟨ps',rest'⟩,read',same⟩ := map_eq_some_iff.mp read
          cases same
          rw [ih read']
          rfl
        · exact ih read

def IsToken (body text : List Char) : Prop := scanString body = some (text,[])

theorem isToken_escape (text : List Char) : IsToken (escape text ++ ['"']) text := scanString_escape text []

variable {body : List Char} {text : List Char}

theorem IsToken.denotes (token : IsToken body text) : Denotes ('"' :: body) (.string text) := by
  refine ⟨⟨_,_,rfl,by decide,by decide⟩,fun fuel rest enough _ => ?_⟩
  obtain ⟨fuel,rfl⟩ := Nat.exists_eq_add_of_le' (Nat.lt_of_lt_of_le (by simp : 0 < ('"' :: body).length) enough)
  obtain ⟨⟨ps,rest'⟩,read,same⟩ := map_eq_some_iff.mp token
  cases same
  have read := scanPieces_append rest read
  simp [value,skip,isBlank,scanString,read]

theorem joinPieces_units {n m : Nat} (single : ¬ (0xD800 ≤ n ∧ n ≤ 0xDBFF ∧ 0xDC00 ≤ m ∧ m ≤ 0xDFFF)) (rest : List Piece) :
    joinPieces (.unit n :: .unit m :: rest) = unitChar n :: joinPieces (.unit m :: rest) := by
  rw [joinPieces.eq_3,if_neg single]

def numbered : Piece → Piece
  | .char c => if isEscapedHTML c then .unit c.toNat else .char c
  | .unit n => .unit n

theorem joinPieces_numbered (ps : List Piece) : joinPieces (ps.map numbered) = joinPieces ps := by
  fun_induction joinPieces ps with
  | case1 => rfl
  | case2 c rest ih =>
    rw [map_cons,numbered]
    split_ifs with html
    · rw [joinPieces_unit (numbered_small (.inr html)),ih,Char.ofNat_toNat]
    · rw [joinPieces,ih]
  | case3 n m rest pair ih => simp only [map_cons,numbered,joinPieces,if_pos pair,ih]
  | case4 n m rest single ih =>
    simp only [map_cons,numbered] at ih ⊢
    rw [joinPieces_units single,ih]
  | case5 n rest single ih =>
    cases rest with
    | nil => rfl
    | cons p rest =>
      cases p with
      | unit m => exact absurd rfl (single m rest)
      | char c =>
        simp only [map_cons,numbered] at ih ⊢
        split_ifs at ih ⊢ with html
        · have small := numbered_small (.inr html)
          rw [joinPieces_units (by omega),ih]
        · rw [← ih]
          rfl

def compacting : StringState → CompactState
  | .escaped => .escaped
  | _ => .inside

theorem scanPieces_strip (cs : List Char) : ∀ st : StringState,
    scanPieces st (strip (compacting st) cs) =
      (scanPieces st cs).map fun r => (r.1.map numbered,strip .between r.2) := by
  have push_numbered : ∀ (p : Piece) (read : Option (List Piece × List Char)),
      (read.map fun r => (r.1.map numbered,strip .between r.2)).map (push (numbered p)) =
        (read.map (push p)).map fun r => (r.1.map numbered,strip .between r.2) := by
    intro p read
    cases read <;> rfl
  induction cs with
  | nil => intro st; cases st <;> rfl
  | cons c cs ih =>
    intro st
    cases st with
    | inside =>
      have ih' := ih .inside
      simp only [compacting] at ih' ⊢
      by_cases quote : c = '"'
      · simp [JsonRaw.strip,scanPieces,quote]
      by_cases slash : c = '\\'
      · have escaped := ih .escaped
        simp only [compacting] at escaped
        simpa [JsonRaw.strip,scanPieces,slash] using escaped
      by_cases html : isEscapedHTML c
      · rw [JsonRaw.strip,if_neg quote,if_neg slash,if_pos html,
          scanPieces_unitText (by have := numbered_small (.inr html); omega),ih',scanPieces_plain (isPlain_of_html html),
          ← push_numbered]
        simp [numbered,html]
      · by_cases control : c.toNat < 32
        · simp [JsonRaw.strip,scanPieces,quote,slash,html,control]
        · have plain : isPlain c := (isPlain_iff c).mpr ⟨⟨quote,slash⟩,control⟩
          rw [JsonRaw.strip,if_neg quote,if_neg slash,if_neg html,scanPieces_plain plain,ih',scanPieces_plain plain,
            ← push_numbered]
          simp [numbered,html]
    | escaped =>
      simp only [compacting,JsonRaw.strip,scanPieces]
      split_ifs with unit
      · exact ih (.unit 0 0)
      · split
        next c' stands =>
          have same : numbered (.char c') = .char c' := by
            unfold simpleEscape at stands
            split_ifs at stands with special <;> cases stands
            · rcases special with rfl | rfl | rfl <;> rfl
            all_goals rfl
          rw [← push_numbered,same,← ih .inside]
          rfl
        next => rfl
    | unit digits n =>
      simp only [compacting]
      cases hex : hexValue c with
      | none =>
        have written : ∀ rest, scanPieces (.unit digits n) (c :: rest) = none := fun rest => by simp only [scanPieces,hex]
        have unitWritten : ∀ rest, scanPieces (.unit digits n) (unitText c.toNat ++ rest) = none := fun rest => by
          simp [unitText,scanPieces,hexValue,isDigit]
        rw [written,JsonRaw.strip]
        split_ifs <;> simp only [written,unitWritten,map_none]
      | some d =>
        have quote : c ≠ '"' := by rintro rfl; cases hex
        have slash : c ≠ '\\' := by rintro rfl; cases hex
        have html : ¬ isEscapedHTML c := by
          intro html
          simp only [isEscapedHTML,Bool.or_eq_true,decide_eq_true_eq] at html
          rcases html with (((rfl | rfl) | rfl) | rfl) | rfl <;> cases hex
        rw [JsonRaw.strip,if_neg quote,if_neg slash,if_neg html]
        simp only [scanPieces,hex]
        split_ifs with last
        · rw [← push_numbered]
          exact congrArg _ (ih .inside)
        · exact ih (.unit (digits+1) (n*16+d))

theorem IsToken.strip (token : IsToken body text) : IsToken (strip .inside body) text := by
  obtain ⟨⟨ps,rest⟩,read,same⟩ := map_eq_some_iff.mp token
  cases same
  have stripped := scanPieces_strip body .inside
  simp only [compacting,read,map_some] at stripped
  simp [IsToken,scanString,stripped,joinPieces_numbered,JsonRaw.strip]

theorem IsToken.compact (token : IsToken body text) :
    ∃ written, compact ('"' :: body) = some written ∧ Denotes written (.string text) := by
  refine ⟨_,?_,token.strip.denotes⟩
  simp [JsonRaw.compact,token.denotes.parse,JsonRaw.strip,isBlank]

theorem scanPieces_length : ∀ {st : StringState},
    scanPieces st cs = some (ps,rest) → rest <:+ cs ∧ ps.length+1+rest.length ≤ cs.length := by
  induction cs generalizing ps rest with
  | nil => intro st read; cases st <;> cases read
  | cons c cs ih =>
    have pushed : ∀ {p : Piece}, (scanPieces .inside cs).map (push p) = some (ps,rest) →
        rest <:+ c :: cs ∧ ps.length+1+rest.length ≤ (c :: cs).length := by
      intro p read
      obtain ⟨⟨ps',rest'⟩,read',same⟩ := map_eq_some_iff.mp read
      cases same
      obtain ⟨suffix,long⟩ := ih read'
      exact ⟨suffix.trans (suffix_cons _ _),by simp; omega⟩
    have passed : ∀ {st : StringState}, scanPieces st cs = some (ps,rest) →
        rest <:+ c :: cs ∧ ps.length+1+rest.length ≤ (c :: cs).length := by
      intro st read
      obtain ⟨suffix,long⟩ := ih read
      exact ⟨suffix.trans (suffix_cons _ _),by simp; omega⟩
    intro st read
    cases st with simp only [scanPieces] at read
    | inside =>
      split_ifs at read with quote slash control
      · cases read; exact ⟨suffix_cons _ _,by simp; omega⟩
      · exact passed read
      · exact pushed read
    | escaped =>
      split_ifs at read with unit
      · exact passed read
      · split at read
        next => exact pushed read
        next => cases read
    | unit digits n =>
      split at read
      next => cases read
      next =>
        split_ifs at read
        · exact pushed read
        · exact passed read

theorem scanPieces_exact (read : scanPieces .inside cs = some (ps,rest))
    (exact : ps.length+1+rest.length = cs.length) : ∃ text, cs = text ++ '"' :: rest ∧ ∀ c ∈ text, isPlain c := by
  induction cs generalizing ps with
  | nil => cases read
  | cons c cs ih =>
    simp only [scanPieces] at read
    split_ifs at read with quote slash control
    · cases read
      exact ⟨[],by rw [quote]; rfl,fun _ member => absurd member not_mem_nil⟩
    · have long := (scanPieces_length read).2
      rw [length_cons] at exact
      omega
    · obtain ⟨⟨ps',rest'⟩,read',same⟩ := map_eq_some_iff.mp read
      cases same
      obtain ⟨text,split,plain⟩ := ih read' (by simpa [Nat.add_right_comm] using exact)
      refine ⟨c :: text,by rw [split]; rfl,fun d member => ?_⟩
      rcases mem_cons.mp member with rfl | member
      · exact (isPlain_iff d).mpr ⟨⟨quote,slash⟩,control⟩
      · exact plain d member

theorem joinPieces_length (ps : List Piece) : (joinPieces ps).length ≤ ps.length := by
  fun_induction joinPieces ps <;> simp_all
  omega

theorem IsToken.plain (token : IsToken (text ++ ['"']) text) : ∀ c ∈ text, isPlain c := by
  obtain ⟨⟨ps,rest⟩,read,same⟩ := map_eq_some_iff.mp token
  have joined : joinPieces ps = text := (Prod.ext_iff.mp same).1
  have nothing : rest = [] := (Prod.ext_iff.mp same).2
  subst nothing
  have long := (scanPieces_length read).2
  have short := joinPieces_length ps
  rw [joined] at short
  simp only [length_append,length_cons,length_nil] at long
  obtain ⟨text',split,plain⟩ := scanPieces_exact read (by simp; omega)
  rw [append_cancel_right split]
  exact plain

theorem isToken_plain (plain : ∀ c ∈ text, isPlain c) : IsToken (text ++ ['"']) text := by
  have read : scanPieces .inside (text ++ ['"']) = some (text.map .char,[]) := by
    induction text with
    | nil => rfl
    | cons c text ih =>
      rw [cons_append,scanPieces_plain (plain c mem_cons_self),
        ih fun d member => plain d (mem_cons_of_mem _ member)]
      rfl
  have joined : joinPieces (text.map .char) = text := by
    clear read plain
    induction text with
    | nil => rfl
    | cons c text ih => rw [map_cons,joinPieces,ih]
  simp [IsToken,scanString,read,joined]

theorem parse_quoted {v : Json} (parsed : parse ('"' :: (text ++ ['"'])) = some v) :
    ∃ decoded, v = .string decoded ∧ IsToken (text ++ ['"']) decoded := by
  unfold parse at parsed
  split at parsed
  next v' rest read =>
    split_ifs at parsed with done
    cases parsed
    obtain ⟨⟨decoded,rest'⟩,scanned,same⟩ := map_eq_some_iff.mp read
    cases same
    refine ⟨decoded,rfl,?_⟩
    have blank : ∀ c ∈ rest', isBlank c := skip_nil done
    -- what follows the token is blank and ends with the quote, so that there is nothing
    obtain ⟨⟨ps,rest⟩,read',same⟩ := map_eq_some_iff.mp scanned
    cases same
    obtain ⟨before,split⟩ := (scanPieces_length read').1
    rcases eq_nil_or_concat rest with rfl | ⟨init,last,rfl⟩
    · exact scanned
    · rw [concat_eq_append,← append_assoc] at split
      obtain ⟨_,quote⟩ := append_inj' split rfl
      cases quote
      exact absurd (blank '"' (by simp)) (by decide)
  next => cases parsed

/-! ### Numbers and null -/

theorem strip_blank (blank : ∀ c ∈ cs, isBlank c) : strip .between cs = [] := by
  induction cs with
  | nil => rfl
  | cons c cs ih =>
    rw [strip,if_pos (blank c mem_cons_self)]
    exact ih fun d member => blank d (mem_cons_of_mem _ member)

theorem strip_skip (cs : List Char) : strip .between (skip cs) = strip .between cs := by
  induction cs with
  | nil => rfl
  | cons c cs ih =>
    by_cases blank : isBlank c
    · have skipped : skip (c :: cs) = skip cs := by simp [skip,blank]
      rw [skipped,ih,strip,if_pos blank]
    · rw [skip_cons (by simpa using blank)]

theorem strip_ink (ink : ∀ c ∈ cs, isBlank c = false ∧ c ≠ '"') (rest : List Char) :
    strip .between (cs ++ rest) = cs ++ strip .between rest := by
  induction cs with
  | nil => rfl
  | cons c cs ih =>
    obtain ⟨notBlank,quote⟩ := ink c mem_cons_self
    rw [cons_append,strip,if_neg (by simp [notBlank]),if_neg quote,
      ih (fun d member => ink d (mem_cons_of_mem _ member)),cons_append]

theorem isNumberChar_ink {c : Char} (number : isNumberChar c) : isBlank c = false ∧ c ≠ '"' := by
  constructor
  · by_contra blank
    simp only [isBlank,Bool.not_eq_false,Bool.or_eq_true,decide_eq_true_eq] at blank
    rcases blank with ((rfl | rfl) | rfl) | rfl <;> exact absurd number (by decide)
  · rintro rfl
    exact absurd number (by decide)

theorem value_number {fuel : Nat} {n : Number} (read : value fuel cs = some (.number n,rest)) :
    skip cs = n.lexeme ++ rest := by
  cases fuel with
  | zero => cases read
  | succ fuel =>
    unfold value at read
    split at read
    next => cases read
    next c cs' skipped =>
      split_ifs at read
      · simp at read
      · split at read
        · cases read
        · split_ifs at read <;> simp at read
      · split at read
        · cases read
        · split_ifs at read <;> simp at read
      · simp at read
      · simp at read
      · simp at read
      · obtain ⟨r,number,same⟩ := map_eq_some_iff.mp read
        cases same
        rw [skipped]
        exact readNumber_split number

theorem compact_number {raw : List Char} {n : Number} (parsed : parse raw = some (.number n)) :
    compact raw = some n.lexeme := by
  rw [compact,parsed,isSome_some,if_pos rfl]
  unfold parse at parsed
  split at parsed
  next v rest read =>
    split_ifs at parsed with done
    cases parsed
    have text := value_number read
    have blank := skip_nil done
    rw [← strip_skip,text,strip_ink fun c member => isNumberChar_ink (scanNumber_chars n.valid c member),
      strip_blank blank,append_nil]
  next => cases parsed

end Mcpkit.JsonRaw
