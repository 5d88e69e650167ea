import Mcpkit.OpenAPIBridge

/-!
When the arguments of a tool keep the shape of its request. The parts of the URL are read
back one by one, and each holds a condition on the arguments that it is made of.
-/
namespace Mcpkit.OpenAPIRequests
open UrlText Placeholders HTTPHeaders OpenAPIBridge List

/-! ### Printed arguments -/

theorem letter_notMem_decimal (n : Int) : 'e' ∉ decimal n := by
  have digits (m : Nat) : 'e' ∉ (toString m).toList := by
    intro member
    rw [Nat.toString_eq_repr,Nat.toList_repr] at member
    exact absurd (Nat.isDigit_of_mem_toDigits (by decide) (by decide) member) (by decide)
  cases n with
  | ofNat m => exact digits m
  | negSucc m =>
    have negative : decimal (Int.negSucc m) = '-' :: (toString (m+1)).toList := by
      have text : toString (Int.negSucc m) = "-" ++ toString (m+1) := rfl
      rw [decimal,text,String.toList_append]
      rfl
    rw [negative,mem_cons,not_or]
    exact ⟨by decide,digits _⟩

theorem sprint_of_short (exponent : Int → Text) {v : Value} (short : v.Short) : v.sprint exponent = v.plain := by
  cases v with
  | text t => rfl
  | integral n => exact if_pos short
  | other shown => rfl

section
variable {exponent : Int → Text} (exponents : Exponents exponent)
include exponents

theorem exponent_notMem {c : Char} (digit : c.isDigit = false) (mark : c ∉ ['e','+','-','.']) (n : Int) :
    c ∉ exponent n := by
  intro inside
  rcases exponents.digits n c inside with is | is
  · rw [digit] at is
    cases is
  · exact mark is

omit exponents in
variable (exponent) in
theorem sprint_of_long {v : Value} (long : ¬ v.Short) : ∃ n, v.sprint exponent = exponent n ∧ v.plain = decimal n := by
  cases v with
  | text t => exact absurd trivial long
  | integral n => exact ⟨n,if_neg long,rfl⟩
  | other shown => exact absurd trivial long

theorem sprint_decodes_iff (query : Bool) (v : Value) : unescape query (v.sprint exponent) = some v.plain ↔
    v.Short ∧ '%' ∉ v.sprint exponent ∧ (query = true → '+' ∉ v.sprint exponent) := by
  by_cases short : v.Short
  · rw [← sprint_of_short exponent short,unescape_self_iff]
    simp [short]
  · obtain ⟨n,shown,plain⟩ := sprint_of_long exponent short
    refine ⟨fun decoded => ?_,fun ⟨is,_⟩ => absurd is short⟩
    rw [shown,plain,unescape_plain (exponent_notMem exponents (by decide) (by decide) n),Option.some.injEq] at decoded
    refine absurd ?_ (letter_notMem_decimal n)
    rw [← decoded]
    exact mem_map.mpr ⟨'e',exponents.marked n,by simp⟩

theorem fits_iff (name : Text) (v : Value) : Fits name (v.sprint exponent) v.plain ↔
    v.Short ∧ (∀ c ∈ name, c ∉ ['&','=',';','#','%','+']) ∧ ∀ c ∈ v.sprint exponent, c ∉ ['&',';','#','%','+'] := by
  constructor
  · rintro ⟨key,text,decoded⟩
    obtain ⟨short,percent,plus⟩ := (sprint_decodes_iff exponents true v).mp decoded
    refine ⟨short,key,fun c inside => ?_⟩
    have own : c ≠ '%' ∧ c ≠ '+' := ⟨fun is => percent (is ▸ inside),fun is => plus rfl (is ▸ inside)⟩
    simp_all
  · rintro ⟨short,key,text⟩
    refine ⟨key,fun c inside => ?_,(sprint_decodes_iff exponents true v).mpr ⟨short,fun inside => ?_,fun _ inside => ?_⟩⟩
    · simp_all
    · simpa using text _ inside
    · simpa using text _ inside

theorem query_iff (params : Parameters) (args : Text → Option Value) :
    parseQuery (cut '#' (['&'].intercalate (queryParts exponent params args))).1 =
      some ((supplied params args .query).map fun value => (value.1,value.2.plain)) ↔
    ∀ value ∈ supplied params args .query, value.2.Short ∧ (∀ c ∈ value.1, c ∉ ['&','=',';','#','%','+']) ∧
      ∀ c ∈ value.2.sprint exponent, c ∉ ['&',';','#','%','+'] := by
  let entry (value : Text × Value) : Entry := ⟨value.1,value.2.sprint exponent,value.2.plain⟩
  have fair : ∀ e ∈ (supplied params args .query).map entry, e.raw = e.value ∨ ∀ c ∈ e.raw, c ≠ '&' ∧ c ≠ '#' := by
    intro e member
    obtain ⟨value,-,rfl⟩ := mem_map.mp member
    by_cases short : value.2.Short
    · exact .inl (sprint_of_short exponent short)
    · obtain ⟨n,shown,-⟩ := sprint_of_long exponent short
      right
      intro c inside
      have printed : c ∈ exponent n := shown ▸ inside
      constructor
      · rintro rfl
        exact exponent_notMem exponents (by decide) (by decide) n printed
      · rintro rfl
        exact exponent_notMem exponents (by decide) (by decide) n printed
  have joined := parseQuery_join fair
  simp only [map_map,forall_mem_map] at joined
  refine joined.trans (forall₂_congr fun value _ => fits_iff exponents value.1 value.2)

end

/-! ### Paths -/

theorem mark_ne_nil (name : Text) : mark name ≠ [] := cons_ne_nil _ _

theorem mark_unbordered {name : Text} (clean : '{' ∉ name) : Unbordered (mark name) where
  some_ := mark_ne_nil name
  ends := by
    rintro x y same more some_ begins
    obtain ⟨c,x,rfl⟩ := exists_cons_of_ne_nil more
    obtain ⟨d,y,rfl⟩ := exists_cons_of_ne_nil some_
    -- a proper end begins inside the name or with the closing brace
    have inside : d ∈ name ++ ['}'] := by
      rw [(cons.inj same).2]
      simp
    obtain ⟨rest,whole⟩ := begins
    have is : d = '{' := (cons.inj whole).1
    subst is
    simp [clean] at inside

theorem unbordered_of_formed {t : Template} (formed : t.Formed) (name : Text) (hole : .hole name ∈ t.pieces) :
    Unbordered (mark name) := by
  obtain ⟨segment,member,inside⟩ := mem_flatMap.mp hole
  rcases mem_cons.mp inside with no | inside
  · cases no
  · exact mark_unbordered fun brace => by simpa using (formed.names segment member name inside _ brace).1

open Template

theorem fillEach_pieces (values : List (Text × Text)) (t : Template) :
    fillEach values t.pieces = pieces (t.map (fillEach values)) := by
  induction values generalizing t with
  | nil =>
    have none : (fillEach [] : List (Piece Char) → List (Piece Char)) = id := rfl
    rw [none,map_id]
    rfl
  | cons value values ih =>
    have step : fill value.1 value.2 t.pieces = pieces (t.map (fill value.1 value.2)) := by
      simp [fill,pieces,map_flatMap,flatMap_map,Piece.fill]
    have first : fillEach (value :: values) t.pieces = fillEach values (fill value.1 value.2 t.pieces) := rfl
    rw [first,step,ih,map_map]
    rfl

theorem render_pieces (t : Template) : render mark t.pieces = (t.map (render mark)).flatMap ('/' :: ·) := by
  simp [render,pieces,flatMap_assoc,flatMap_map,Piece.render]

section
variable {exponent : Int → Text} {t : Template} {params : Parameters} {args : Text → Option Value}

def segments (exponent : Int → Text) (t : Template) (params : Parameters) (args : Text → Option Value) : List Text :=
  t.map (fun segment => render mark (fillEach (pathTexts exponent params args) segment))

theorem urlPath_of_apart (formed : t.Formed) (apart : Apart mark (pathTexts exponent params args) t.pieces) :
    urlPath exponent t.path params args = (segments exponent t params args).flatMap ('/' :: ·) := by
  rw [urlPath,path,replaceEach_render (unbordered_of_formed formed) apart,fillEach_pieces,render_pieces,
    map_map]
  rfl

theorem mem_pathTexts {name text : Text} : (name,text) ∈ pathTexts exponent params args ↔
    ∃ v, (name,v) ∈ supplied params args .path ∧ v.sprint exponent = text := by
  simp [pathTexts]

theorem args_of_supplied {location : Location} {name : Text} {v : Value}
    (given : (name,v) ∈ supplied params args location) : args name = some v := by
  simp only [supplied,mem_filterMap,Option.bind_eq_some_iff,Option.ite_none_right_eq_some,Option.map_eq_some_iff,
    Prod.mk.injEq] at given
  obtain ⟨_,-,p,-,-,w,is,rfl,rfl⟩ := given
  exact is

variable (exponent) in
theorem text_mem_segments {name : Text} {v : Value} (given : (name,v) ∈ supplied params args .path)
    (hole : .hole name ∈ t.pieces) :
    ∃ s ∈ segments exponent t params args, ∀ c ∈ v.sprint exponent, c ∈ s := by
  obtain ⟨segment,member,inside⟩ := mem_flatMap.mp hole
  rcases mem_cons.mp inside with no | inside
  · cases no
  · refine ⟨_,mem_map.mpr ⟨segment,member,rfl⟩,fun c letter => ?_⟩
    have piece : .text (v.sprint exponent) ∈ fillEach (pathTexts exponent params args) segment := by
      refine text_mem_fillEach inside (mem_pathTexts.mpr ⟨v,given,rfl⟩) fun t' other => ?_
      obtain ⟨w,given',rfl⟩ := mem_pathTexts.mp other
      have same := (args_of_supplied given').symm.trans (args_of_supplied given)
      rw [Option.some.inj same]
    exact mem_flatMap.mpr ⟨_,piece,letter⟩

theorem piece_fits (formed : t.Formed)
    (path : ∀ value ∈ supplied params args .path, .hole value.1 ∈ t.pieces → value.2.Short ∧
      ∀ c ∈ value.2.sprint exponent, c ∉ ['/','?','#','%'] ∧ isControl c = false)
    {segment : List (Piece Char)} (member : segment ∈ t) {p : Piece Char}
    (inside : p ∈ fillEach (pathTexts exponent params args) segment) :
    (∀ c ∈ p.render mark, c ∉ ['/','?','#'] ∧ isControl c = false) ∧ (unescape false (p.render mark)).isSome := by
  have plain : ∀ {x : Text}, (∀ c ∈ x, c ∉ ['/','?','#','%'] ∧ isControl c = false) →
      (∀ c ∈ x, c ∉ ['/','?','#'] ∧ isControl c = false) ∧ (unescape false x).isSome := by
    intro x clean
    have percent : '%' ∉ x := fun there => by simpa using (clean _ there).1
    refine ⟨fun c there => ⟨fun is => (clean c there).1 ?_,(clean c there).2⟩,by rw [unescape_plain percent]; rfl⟩
    exact mem_append_left ['%'] is
  rcases mem_fillEach inside with own | ⟨⟨name,text⟩,given,hole,rfl⟩
  · cases p with
    | text literal => exact formed.texts segment member literal own
    | hole name =>
      refine plain fun c there => ?_
      simp only [Piece.render,mark,mem_cons,mem_append,not_mem_nil,or_false] at there
      rcases there with rfl | named | rfl
      · decide
      · have clean := formed.names segment member name own c named
        exact ⟨fun is => clean.1 (mem_append_left ['{','}'] is),clean.2⟩
      · decide
  · obtain ⟨v,given',rfl⟩ := mem_pathTexts.mp given
    refine plain (path (name,v) given' (mem_flatMap.mpr ⟨segment,member,?_⟩)).2
    exact mem_cons_of_mem _ hole

theorem segments_fit (formed : t.Formed)
    (path : ∀ value ∈ supplied params args .path, .hole value.1 ∈ t.pieces → value.2.Short ∧
      ∀ c ∈ value.2.sprint exponent, c ∉ ['/','?','#','%'] ∧ isControl c = false) :
    ∀ s ∈ segments exponent t params args,
      (∀ c ∈ s, c ∉ ['/','?','#'] ∧ isControl c = false) ∧ (unescape false s).isSome := by
  intro s inside
  obtain ⟨segment,member,rfl⟩ := mem_map.mp inside
  have fits := fun p => piece_fits formed path member (p := p)
  constructor
  · intro c there
    obtain ⟨p,piece,letter⟩ := mem_flatMap.mp there
    exact (fits p piece).1 c letter
  · exact unescape_isSome_flatMap fun p piece => (fits p piece).2

end

/-! ### URLs -/

def querySuffix (parts : List Text) : Text := if parts = [] then [] else '?' :: ['&'].intercalate parts

theorem cut_query {front : Text} (hash : '#' ∉ front) (question : '?' ∉ front) (parts : List Text) :
    cut '?' (cut '#' (front ++ querySuffix parts)).1 = (front,(cut '#' (['&'].intercalate parts)).1) := by
  rw [cut_append hash]
  unfold querySuffix
  split
  · rename_i none
    rw [none,intercalate_nil,cut_of_notMem not_mem_nil,append_nil,cut_of_notMem question]
  · rw [cut_cons (by decide),cut_append_cons question]

section
variable {H : Type} (exponent : Int → Text) (base : Base H) (t : Template) (params : Parameters)
  (args : Text → Option Value)

def wholePath : Text := base.path ++ (segments exponent t params args).flatMap ('/' :: ·)

def urlTail : Text := wholePath exponent base t params args ++ querySuffix (queryParts exponent params args)

end

section
variable {H : Type} {parseAuthority : Text → Option H} {exponent : Int → Text} {b : Bridge} {base : Base H} {t : Template}
  {params : Parameters} {args : Text → Option Value}

theorem fullURL_eq (isBase : b.baseURL = base.text) (formed : t.Formed)
    (apart : Apart mark (pathTexts exponent params args) t.pieces) :
    fullURL exponent b t.path params args = base.root.text ++ urlTail exponent base t params args := by
  rw [fullURL,urlPath_of_apart formed apart,isBase,Base.text,urlTail,wholePath,querySuffix]
  simp only [append_assoc]

theorem urlTail_begins (base' : base.Formed parseAuthority) (formed : t.Formed) :
    ∃ rest, urlTail exponent base t params args = '/' :: rest := by
  obtain ⟨segment,more,isCons⟩ := exists_cons_of_ne_nil formed.some_
  unfold urlTail wholePath
  rcases base'.begins with empty | ⟨rest,begins⟩
  · rw [empty,segments,isCons]
    exact ⟨_,rfl⟩
  · rw [begins]
    exact ⟨_,rfl⟩

theorem cut_urlTail (base' : base.Formed parseAuthority)
    (segments' : ∀ s ∈ segments exponent t params args, ∀ c ∈ s, c ∉ ['/','?','#'] ∧ isControl c = false) :
    (∀ c ∈ wholePath exponent base t params args, c ≠ '#' ∧ isControl c = false) ∧
    cut '?' (cut '#' (urlTail exponent base t params args)).1 =
      (wholePath exponent base t params args,(cut '#' (['&'].intercalate (queryParts exponent params args))).1) := by
  have clean : ∀ c ∈ wholePath exponent base t params args, c ∉ ['?','#'] ∧ isControl c = false := by
    intro c inside
    rcases mem_append.mp inside with first | later
    · exact base'.path c first
    · obtain ⟨s,member,letter⟩ := mem_flatMap.mp later
      rcases mem_cons.mp letter with rfl | letter
      · decide
      · have own := segments' s member c letter
        exact ⟨fun is => own.1 (mem_cons_of_mem _ is),own.2⟩
  have hash : ∀ c ∈ wholePath exponent base t params args, c ≠ '#' := fun c inside is => (clean c inside).1 (by simp [is])
  have question : '?' ∉ wholePath exponent base t params args := fun inside => by simpa using (clean _ inside).1
  exact ⟨fun c inside => ⟨hash c inside,(clean c inside).2⟩,
    cut_query (fun inside => hash _ inside rfl) question (queryParts exponent params args)⟩

section
variable (base' : base.Formed parseAuthority) (formed : t.Formed)
  (isBase : b.baseURL = base.text) (apart : Apart mark (pathTexts exponent params args) t.pieces)
include base' formed isBase apart

theorem parse_fullURL {u : URL H} : parse parseAuthority (fullURL exponent b t.path params args) = some u ↔
    (∀ c ∈ (cut '#' (urlTail exponent base t params args)).1, isControl c = false) ∧
    (unescape false (cut '?' (cut '#' (urlTail exponent base t params args)).1).1).isSome ∧
    ∃ fragment, unescape false (cut '#' (urlTail exponent base t params args)).2 = some fragment ∧
      u = ⟨base.root.scheme,[],some base.root.host,(cut '?' (cut '#' (urlTail exponent base t params args)).1).1,
        (cut '?' (cut '#' (urlTail exponent base t params args)).1).2,fragment⟩ := by
  obtain ⟨rest,begins⟩ : ∃ rest, urlTail exponent base t params args = '/' :: rest := urlTail_begins base' formed
  rw [fullURL_eq isBase formed apart,begins]
  exact parse_root base'.root rest

/-- A path with the right segments is the whole path, and no argument in it has a mark. -/
theorem path_of_segments {u : URL H} (parsed : parse parseAuthority (fullURL exponent b t.path params args) = some u)
    (split : u.path.splitOn '/' = base.path.splitOn '/' ++ segments exponent t params args) :
    u.path = wholePath exponent base t params args ∧
      ∀ s ∈ segments exponent t params args, ∀ c ∈ s, c ∉ ['/','?','#'] ∧ isControl c = false := by
  obtain ⟨quiet,-,fragment,-,rfl⟩ := (parse_fullURL base' formed isBase apart).mp parsed
  generalize cutPath : (cut '?' (cut '#' (urlTail exponent base t params args)).1).1 = path at split
  have whole : path = wholePath exponent base t params args := by
    calc path = ['/'].intercalate (path.splitOn '/') := (intercalate_splitOn '/').symm
      _ = wholePath exponent base t params args := by rw [split,intercalate_splitOn_append]; rfl
  refine ⟨whole,fun s member c inside => ?_⟩
  have slash : '/' ∉ s := by
    rw [whole] at split
    exact (splitOn_append_iff '/' base.path (segments exponent t params args)).mp split s member
  have there : c ∈ path := by
    rw [whole]
    exact mem_append_right _ (mem_flatMap.mpr ⟨s,member,mem_cons_of_mem _ inside⟩)
  rw [← cutPath] at there
  have before := cut_subset _ there
  have question : c ≠ '?' := fun is => notMem_cut _ (is ▸ there)
  have hash : c ≠ '#' := fun is => notMem_cut _ (is ▸ before)
  refine ⟨?_,quiet c before⟩
  have own : c ≠ '/' := fun is => slash (is ▸ inside)
  simp [own,question,hash]

end

theorem urlTail_cases {c : Char} (inside : c ∈ urlTail exponent base t params args) :
    c ∈ wholePath exponent base t params args ∨ c ∈ ['?','&','='] ∨
      ∃ value ∈ supplied params args .query, c ∈ value.1 ∨ c ∈ value.2.sprint exponent := by
  have part : ∀ x ∈ queryParts exponent params args, c ∈ x → c ∈ ['?','&','='] ∨
      ∃ value ∈ supplied params args .query, c ∈ value.1 ∨ c ∈ value.2.sprint exponent := by
    intro x member letter
    obtain ⟨value,given,rfl⟩ := mem_map.mp member
    rcases mem_append.mp letter with named | more
    · exact .inr ⟨value,given,.inl named⟩
    · rcases mem_cons.mp more with is | printed
      · exact .inl (by simp [is])
      · exact .inr ⟨value,given,.inr printed⟩
  refine (mem_append.mp inside).imp_right fun query => ?_
  cases parts : queryParts exponent params args with
  | nil => simp [parts,querySuffix] at query
  | cons first rest =>
    rw [parts,querySuffix,if_neg (cons_ne_nil first rest),intercalate_cons] at query
    rcases mem_cons.mp query with is | query
    · exact .inl (by simp [is])
    rcases mem_append.mp query with letter | later
    · exact part first (by simp [parts]) letter
    · obtain ⟨x,member,letter⟩ := mem_flatMap.mp later
      rcases mem_cons.mp letter with is | letter
      · exact .inl (by simp [is])
      · exact part x (by simp [parts,member]) letter

theorem mem_urlTail {value : Text × Value} (given : value ∈ supplied params args .query) {c : Char}
    (letter : c ∈ value.1 ∨ c ∈ value.2.sprint exponent) : c ∈ urlTail exponent base t params args := by
  have member : value.1 ++ '=' :: value.2.sprint exponent ∈ queryParts exponent params args :=
    mem_map.mpr ⟨value,given,rfl⟩
  have inside : c ∈ value.1 ++ '=' :: value.2.sprint exponent := by rcases letter with named | printed <;> simp [*]
  refine mem_append_right _ ?_
  rw [querySuffix,if_neg (ne_nil_of_mem member)]
  refine mem_cons_of_mem _ ?_
  obtain ⟨first,rest,isCons⟩ := exists_cons_of_ne_nil (ne_nil_of_mem member)
  rw [isCons] at member ⊢
  rw [intercalate_cons]
  rcases mem_cons.mp member with rfl | later
  · exact mem_append_left _ inside
  · exact mem_append_right _ (mem_flatMap.mpr ⟨_,later,mem_cons_of_mem _ inside⟩)

theorem hash_notMem_urlTail (front : ∀ c ∈ wholePath exponent base t params args, c ≠ '#' ∧ isControl c = false)
    (queries : ∀ value ∈ supplied params args .query, value.2.Short ∧ (∀ c ∈ value.1, c ∉ ['&','=',';','#','%','+']) ∧
      ∀ c ∈ value.2.sprint exponent, c ∉ ['&',';','#','%','+']) : '#' ∉ urlTail exponent base t params args := by
  intro inside
  rcases urlTail_cases inside with path | no | ⟨value,given,named | printed⟩
  · exact (front _ path).1 rfl
  · exact absurd no (by decide)
  · simpa using (queries value given).2.1 _ named
  · simpa using (queries value given).2.2 _ printed

theorem auth_iff : (b.authHeader ≠ "" → b.authToken ≠ "" →
      (requestHeaders exponent b params args).get b.authHeader = b.authToken) ↔
    (b.authHeader ≠ "" → b.authToken ≠ "" →
      ∀ value ∈ ((supplied params args .header).filter (fun value =>
          canonicalMIMEHeaderKey (String.ofList value.1) = canonicalMIMEHeaderKey b.authHeader)).getLast?,
        String.ofList (value.2.sprint exponent) = b.authToken) := by
  refine forall₂_congr fun header token => ?_
  have start : (ownHeaders b).get b.authHeader = b.authToken := by
    simp only [ownHeaders,if_pos (And.intro header token)]
    rw [Header.get_set,if_pos rfl]
  exact Header.get_setAll (fun value : Text × Value => String.ofList value.1)
    (fun value => String.ofList (value.2.sprint exponent)) b.authHeader start _

/-! ### When requests keep their shape -/

section
variable (exponents : Exponents exponent) (base' : base.Formed parseAuthority) (formed : t.Formed)
  (isBase : b.baseURL = base.text)
include exponents base' formed isBase

theorem clean_of_shaped (shaped : Shaped parseAuthority exponent b base t params args) :
    Clean exponent b t params args := by
  have apart := (ownPlaces_iff mark_ne_nil (unbordered_of_formed formed)).mp shaped.own
  obtain ⟨u,parsed,-,-,-,split,query⟩ := shaped.url
  obtain ⟨-,plain⟩ := path_of_segments base' formed isBase apart parsed split
  obtain ⟨quiet,-,fragment,-,rfl⟩ := (parse_fullURL base' formed isBase apart).mp parsed
  obtain ⟨front,cutAt⟩ := cut_urlTail base' plain
  rw [cutAt] at query
  have queries := (query_iff exponents params args).mp query
  -- no part has a fragment mark, so the whole URL was looked at for control characters
  rw [cut_of_notMem (hash_notMem_urlTail front queries)] at quiet
  refine ⟨fun value given hole => ?_,apart,fun value given => ?_,auth_iff.mp shaped.auth⟩
  · obtain ⟨short,percent,-⟩ := (sprint_decodes_iff exponents false value.2).mp (shaped.decoded value given hole)
    obtain ⟨s,member,letters⟩ := text_mem_segments exponent given hole
    refine ⟨short,fun c inside => ?_⟩
    have own := plain s member c (letters c inside)
    have other : c ≠ '%' := fun is => percent (is ▸ inside)
    simp_all
  · obtain ⟨short,key,text⟩ := queries value given
    exact ⟨short,fun c inside => ⟨key c inside,quiet c (mem_urlTail given (.inl inside))⟩,
      fun c inside => ⟨text c inside,quiet c (mem_urlTail given (.inr inside))⟩⟩

theorem shaped_of_clean (clean : Clean exponent b t params args) :
    Shaped parseAuthority exponent b base t params args := by
  have fits := segments_fit formed clean.path
  have plain := fun s member => (fits s member).1
  have queries : ∀ value ∈ supplied params args .query, value.2.Short ∧ (∀ c ∈ value.1, c ∉ ['&','=',';','#','%','+']) ∧
      ∀ c ∈ value.2.sprint exponent, c ∉ ['&',';','#','%','+'] := fun value given =>
    ⟨(clean.query value given).1,fun c inside => ((clean.query value given).2.1 c inside).1,
      fun c inside => ((clean.query value given).2.2 c inside).1⟩
  obtain ⟨front,cutAt⟩ := cut_urlTail base' plain
  have hash := hash_notMem_urlTail front queries
  have own := (ownPlaces_iff mark_ne_nil (unbordered_of_formed formed)).mpr clean.apart
  refine ⟨⟨_,(parse_fullURL base' formed isBase clean.apart).mpr ⟨?_,?_,[],?_,rfl⟩,rfl,rfl,rfl,?_,?_⟩,
    fun value given hole => ?_,own,auth_iff.mpr clean.auth⟩
  · rw [cut_of_notMem hash]
    intro c inside
    rcases urlTail_cases inside with path | is | ⟨value,given,named | printed⟩
    · exact (front c path).2
    · simp only [mem_cons,not_mem_nil,or_false] at is
      rcases is with rfl | rfl | rfl <;> decide
    · exact ((clean.query value given).2.1 c named).2
    · exact ((clean.query value given).2.2 c printed).2
  · rw [cutAt]
    refine unescape_isSome_append base'.decodes (unescape_isSome_flatMap fun s member => ?_)
    rw [unescape_cons (by decide),Option.isSome_map]
    exact (fits s member).2
  · rw [cut_of_notMem hash]
    rfl
  · rw [cutAt]
    exact (splitOn_append_iff '/' base.path (segments exponent t params args)).mpr fun s member inside => by
      simpa using (plain s member _ inside).1
  · rw [cutAt]
    exact (query_iff exponents params args).mpr queries
  · obtain ⟨short,letters⟩ := clean.path value given hole
    exact (sprint_decodes_iff exponents false value.2).mpr ⟨short,fun inside => by simpa using (letters _ inside).1,nofun⟩

end

end

/-- The arguments of a tool keep the shape of its request if and only if they are clean. -/
theorem shaped_iff {H : Type} (parseAuthority : Text → Option H) {exponent : Int → Text} (exponents : Exponents exponent)
    {base : Base H} (base' : base.Formed parseAuthority) {b : Bridge} (isBase : b.baseURL = base.text) {t : Template}
    (formed : t.Formed) (pathParams opParams : Parameters) (args : Text → Option Value) :
    Shaped parseAuthority exponent b base t (mergeParams pathParams opParams) args ↔
      Clean exponent b t (mergeParams pathParams opParams) args :=
  ⟨clean_of_shaped exponents base' formed isBase,shaped_of_clean exponents base' formed isBase⟩

/-! ### Samples -/

theorem all_letters {P : Char → Prop} [DecidablePred P] {l : Text} (all : l.all (fun c => decide (P c)) = true) :
    ∀ c ∈ l, P c := fun c inside => of_decide_eq_true (all_eq_true.mp all c inside)

def million : Int → Text := fun _ => "1e+06".toList

theorem million_exponents : Exponents million := by
  have marked : 'e' ∈ "1e+06".toList := by decide
  have digits : ∀ c ∈ "1e+06".toList, c.isDigit = true ∨ c ∈ ['e','+','-','.'] := all_letters (by decide)
  exact ⟨fun _ => marked,fun _ => digits⟩

def host : Base Text := ⟨⟨"http".toList,"h".toList,"h".toList⟩,"/v1".toList⟩

theorem host_formed : host.Formed some where
  root := ⟨⟨'h',"ttp".toList,by decide,by decide⟩,all_letters (by decide),by decide,all_letters (by decide),rfl⟩
  begins := .inr ⟨"v1".toList,by decide⟩
  path := all_letters (by decide)
  decodes := by decide

def bridge : Bridge := ⟨host.text,"Authorization","secret"⟩

def pets : Template := [[.text "pets".toList],[.hole "petId".toList],[.hole "part".toList]]

theorem pets_formed : pets.Formed := by
  refine ⟨by decide,fun segment member text inside => ?_,fun segment member name inside => ?_⟩
  · have literal : text = "pets".toList := by
      simp only [pets,mem_cons,not_mem_nil,or_false] at member
      rcases member with rfl | rfl | rfl
      · simpa using inside
      · simp at inside
      · simp at inside
    subst literal
    exact ⟨all_letters (by decide),by decide⟩
  · have own : name = "petId".toList ∨ name = "part".toList := by
      simp only [pets,mem_cons,not_mem_nil,or_false] at member
      rcases member with rfl | rfl | rfl
      · simp at inside
      · exact .inl (by simpa using inside)
      · exact .inr (by simpa using inside)
    rcases own with rfl | rfl
    · exact all_letters (by decide)
    · exact all_letters (by decide)

def petParams : Parameters :=
  [some ⟨.path,"petId".toList⟩,some ⟨.path,"part".toList⟩,some ⟨.query,"limit".toList⟩,
    some ⟨.header,"authorization".toList⟩]

def one (name : String) (v : Value) : Text → Option Value := fun n => if n = name.toList then some v else none

/-- A plain argument, with a blank in it. -/
theorem shaped_plain :
    Shaped some million bridge host pets (mergeParams [] petParams) (one "petId" (.text "7 a".toList)) := by
  refine (shaped_iff some million_exponents host_formed rfl pets_formed [] petParams _).mpr ⟨?_,?_,?_,?_⟩
  · intro value given _
    have only : value = ("petId".toList,.text "7 a".toList) := mem_singleton.mp given
    subst only
    exact ⟨trivial,all_letters (by decide)⟩
  · have apart : Apart mark [("petId".toList,"7 a".toList)] pets.pieces := ⟨by decide,trivial⟩
    exact apart
  · intro value given
    exact absurd given not_mem_nil
  · intro _ _ value given
    cases given

/-- A segment, a query, a pair, a number, a placeholder and a token that the arguments bring in. -/
theorem arguments_reshape :
    ¬ Shaped some million bridge host pets (mergeParams [] petParams) (one "petId" (.text "a/b".toList)) ∧
    ¬ Shaped some million bridge host pets (mergeParams [] petParams) (one "petId" (.text "x?admin=1".toList)) ∧
    ¬ Shaped some million bridge host pets (mergeParams [] petParams) (one "limit" (.text "1&admin=true".toList)) ∧
    ¬ Shaped some million bridge host pets (mergeParams [] petParams) (one "petId" (.integral 1000000)) ∧
    ¬ Shaped some million bridge host pets (mergeParams [] petParams)
      (fun n => if n = "petId".toList then some (.text "\x7bpart\x7d".toList) else one "part" (.text "p".toList) n) ∧
    ¬ Shaped some million bridge host pets (mergeParams [] petParams) (one "authorization" (.text "mine".toList)) := by
  have unshaped : ∀ args, ¬ Clean million bridge pets (mergeParams [] petParams) args →
      ¬ Shaped some million bridge host pets (mergeParams [] petParams) args := fun args unclean shaped =>
    unclean (clean_of_shaped million_exponents host_formed pets_formed rfl shaped)
  refine ⟨unshaped _ fun clean => ?_,unshaped _ fun clean => ?_,unshaped _ fun clean => ?_,unshaped _ fun clean => ?_,
    unshaped _ fun clean => ?_,unshaped _ fun clean => ?_⟩
  · have letters := (clean.path ("petId".toList,.text "a/b".toList) (by decide) (by decide)).2
    exact absurd (letters '/' (by decide)).1 (by decide)
  · have letters := (clean.path ("petId".toList,.text "x?admin=1".toList) (by decide) (by decide)).2
    exact absurd (letters '?' (by decide)).1 (by decide)
  · have letters := (clean.query ("limit".toList,.text "1&admin=true".toList) (by decide)).2.2
    exact absurd (letters '&' (by decide)).1 (by decide)
  · have short := (clean.path ("petId".toList,.integral 1000000) (by decide) (by decide)).1
    exact absurd short (Nat.lt_irrefl 1000000)
  · have apart : Apart mark [("petId".toList,"\x7bpart\x7d".toList),("part".toList,"p".toList)] pets.pieces := clean.apart
    exact absurd apart.2.1 (by decide)
  · have token := clean.auth (by decide) (by decide) ("authorization".toList,.text "mine".toList) (by decide)
    exact absurd token (by decide)

end Mcpkit.OpenAPIRequests
