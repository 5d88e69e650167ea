import Mcpkit.MultiAdapters

/-!
The ids of JSON-RPC responses. Through the MCP adapter a request's id comes back as the
JSON value that its Go string looks like, through the A2A adapter always as a string and
only when nothing in it had to be escaped.
-/
namespace Mcpkit.MultiIds
open A2ATranslate GoMaps JsonText JsonRaw MultiAdapters

/-! ### Ids -/

/-- The raw message of an id: null, a number or a string token. -/
inductive IdToken : Text → Json → Prop
  | null : IdToken ['n','u','l','l'] .null
  | number (n : Number) : IdToken n.lexeme (.number n)
  | string {body text : Text} (token : IsToken body text) : IdToken ('"' :: body) (.string text)

variable {v : Json} (lib : Library) {raw : Text}

theorem IdToken.denotes (token : IdToken raw v) : Denotes raw v := by
  cases token with
  | null => exact denotes_null
  | number n => exact denotes_number n
  | string token => exact token.denotes

theorem IdToken.ne_nil (token : IdToken raw v) : raw ≠ [] :=
  List.ne_nil_of_length_pos token.denotes.ne_nil

def idMember (body : Text) : Option Json :=
  match parse body with
  | some (.object members) => members.lookup "id".toList
  | _ => none

theorem marshalResponse_id {rawID written : Text} (compacts : compact rawID = some written)
    (denotes : Denotes written v) (key : String) (value : Json) :
    ∃ body, marshalResponse lib rawID key value = .ok body ∧ idMember body = some v := by
  have whole : Denotes (objectText [("jsonrpc".toList,stringText "2.0".toList),("id".toList,written),
      (key.toList,render value)]) (.object [("jsonrpc".toList,.string "2.0".toList),("id".toList,v),(key.toList,value)]) :=
    denotes_object (.cons ⟨rfl,denotes_string _⟩ (.cons ⟨rfl,denotes⟩ (.cons ⟨rfl,denotes_render value⟩ .nil)))
  refine ⟨_,by rw [marshalResponse,compacts],?_⟩
  simp only [idMember,whole.parse]
  rfl

/-! ### Through the MCP adapter -/

def readBack (id : Text) : Json :=
  match id with
  | [] => .null
  | c :: _ =>
    if isDigit c then
      match parse id with
      | some (.number n) => .number n
      | _ => .string id
    else .string id

theorem unmarshalNumber_digit {c : Char} {cs : Text} (digit : isDigit c) :
    (unmarshalNumber (c :: cs)).isSome ↔ ∃ n, parse (c :: cs) = some (.number n) := by
  unfold unmarshalNumber
  cases parsed : parse (c :: cs) with
  | none => simp
  | some v =>
    obtain ⟨n,rfl⟩ := parse_numeric (.inl digit) parsed
    simp

theorem marshalRequestID_denotes (id : Text) :
    ∃ written, compact (marshalRequestID id) = some written ∧ Denotes written (readBack id) := by
  cases id with
  | nil => exact ⟨_,rfl,denotes_null⟩
  | cons c cs =>
    have quoted : ∃ written, compact (stringText (c :: cs)) = some written ∧ Denotes written (.string (c :: cs)) :=
      (isToken_escape (c :: cs)).compact
    by_cases digit : isDigit c
    · by_cases number : ∃ n, parse (c :: cs) = some (.number n)
      · obtain ⟨n,parsed⟩ := number
        have some := (unmarshalNumber_digit digit).mpr ⟨n,parsed⟩
        simp only [marshalRequestID,digit,some,Bool.and_self,if_true,readBack,parsed]
        exact ⟨n.lexeme,compact_number parsed,denotes_number n⟩
      · have none := mt (unmarshalNumber_digit digit).mp number
        have other : readBack (c :: cs) = .string (c :: cs) := by
          simp only [readBack,digit,if_true]
          split
          next n parsed => exact absurd ⟨n,parsed⟩ number
          next => rfl
        rw [other]
        simpa [marshalRequestID,none] using quoted
    · simpa [marshalRequestID,readBack,digit] using quoted

variable (resp : CanonicalResponse)

theorem mcpEncode_id :
    ∃ body, mcpEncode lib resp = .ok body ∧ idMember body = some (readBack resp.requestID) := by
  obtain ⟨written,compacts,denotes⟩ := marshalRequestID_denotes resp.requestID
  have answered : ∀ (key : String) (value : Json) (wrap : String → String),
      ∃ body, (marshalResponse lib (marshalRequestID resp.requestID) key value).mapError wrap = .ok body ∧
        idMember body = some (readBack resp.requestID) := by
    intro key value wrap
    obtain ⟨body,marshals,same⟩ := marshalResponse_id lib compacts denotes key value
    exact ⟨body,by rw [marshals]; rfl,same⟩
  unfold mcpEncode
  split
  · exact answered _ _ _
  · split
    · exact answered _ _ _
    · split
      · exact answered _ _ _
      · exact answered _ _ _
      · exact answered _ _ _

variable {canonical : CanonicalRequest}

theorem mcpDecode_id {lib : Library} {req : RPCRequest}
    (decodes : mcpDecode lib req = .ok canonical) : canonical.requestID = formatJSONRPCID req.id := by
  unfold mcpDecode at decodes
  split_ifs at decodes
  · unfold decodeToolsCall at decodes
    split_ifs at decodes
    split at decodes
    next => cases decodes
    next =>
      split_ifs at decodes <;> cases decodes <;> rfl
  · cases decodes
    rfl

theorem isSpace_number {c : Char} (number : isNumberChar c) : isSpace c = false := by
  simp only [isNumberChar,Bool.or_eq_true,decide_eq_true_eq] at number
  rcases number with ((((digit | rfl) | rfl) | rfl) | rfl) | rfl
  · have digits : ∀ n < 58, 48 ≤ n → isSpace (Char.ofNat n) = false := by decide
    simp only [isDigit,Bool.and_eq_true,decide_eq_true_eq] at digit
    have small : c.toNat < 58 := Nat.lt_succ_of_le digit.2
    rw [← Char.ofNat_toNat c]
    exact digits c.toNat small digit.1
  all_goals decide

theorem trimSpace_number (n : Number) : trimSpace n.lexeme = n.lexeme :=
  trimSpace_of_ink fun c member => isSpace_number (scanNumber_chars n.valid c member)

theorem formatJSONRPCID_token (token : IdToken raw v) : formatJSONRPCID raw = match v with
      | .number n => n.lexeme | .string text => text | _ => [] := by
  have parsed := token.denotes.parse
  rw [formatJSONRPCID,if_neg token.ne_nil,unmarshalString,parsed]
  cases token with
  | null => rfl
  | number n => exact trimSpace_number n
  | string token => rfl

/-- A string that is taken for a number on the way out. -/
def looksNumeric (text : Text) : Prop := (∃ c ∈ text.head?, isDigit c) ∧ ∃ n, parse text = some (.number n)

def mcpKeeps : Json → Prop
  | .null => True
  | .number n => n.lexeme.head? ≠ some '-'
  | .string text => text ≠ [] ∧ ¬ looksNumeric text
  | _ => False

theorem readBack_number (n : Number) : readBack n.lexeme = .number n ↔ n.lexeme.head? ≠ some '-' := by
  obtain ⟨c,cs,text,first⟩ := n.head
  have parsed := (denotes_number n).parse
  rw [text] at parsed ⊢
  rcases first with digit | rfl
  · have other : c ≠ '-' := by
      rintro rfl
      exact absurd digit (by decide)
    simp [readBack,digit,parsed,other]
  · simp [readBack,show isDigit '-' = false by decide]

theorem readBack_string (text : Text) : readBack text = .string text ↔ text ≠ [] ∧ ¬ looksNumeric text := by
  cases text with
  | nil => simp [readBack]
  | cons c cs =>
    by_cases digit : isDigit c
    · simp only [readBack,digit,if_true,looksNumeric]
      cases parsed : parse (c :: cs) with
      | none => simp
      | some v =>
        obtain ⟨n,rfl⟩ := parse_numeric (.inl digit) parsed
        simp [digit]
    · simp [readBack,digit,looksNumeric]

/-- Every answer to a request with this id, through the MCP adapter, is valid JSON under the same id. -/
def MCPEchoes (lib : Library) (raw : Text) (v : Json) : Prop :=
  ∀ req canonical resp, req.id = raw → mcpDecode lib req = .ok canonical →
    resp.requestID = canonical.requestID → ∃ body, mcpEncode lib resp = .ok body ∧ idMember body = some v

theorem mcpEchoes_iff_readBack (raw : Text) (v : Json) : MCPEchoes lib raw v ↔ readBack (formatJSONRPCID raw) = v := by
  constructor
  · intro echoes
    obtain ⟨body,encodes,same⟩ := echoes ⟨"2.0","ping",raw,[]⟩ _ ⟨true,[],none,formatJSONRPCID raw,∅⟩ rfl rfl rfl
    obtain ⟨body',encodes',same'⟩ := mcpEncode_id lib ⟨true,[],none,formatJSONRPCID raw,∅⟩
    rw [encodes] at encodes'
    cases encodes'
    rw [same] at same'
    exact (Option.some.inj same').symm
  · rintro rfl req canonical resp rfl decodes carries
    rw [← mcpDecode_id decodes,← carries]
    exact mcpEncode_id lib resp

theorem mcpEchoes_iff (token : IdToken raw v) : MCPEchoes lib raw v ↔ mcpKeeps v := by
  rw [mcpEchoes_iff_readBack,formatJSONRPCID_token token]
  cases token with
  | null => simp [readBack,mcpKeeps]
  | number n => exact readBack_number n
  | string token => exact readBack_string _

/-! ### Through the A2A adapter -/

theorem a2aDecode_id {lib : Library} {req : RPCRequest}
    (decodes : a2aDecode lib req = .ok canonical) : canonical.requestID = extractRequestID req.id := by
  unfold a2aDecode at decodes
  split_ifs at decodes
  · cases decodes
    rfl
  · split at decodes
    next => cases decodes
    next => cases decodes
    next =>
      split at decodes
      next => cases decodes
      next => cases decodes; rfl

theorem extractRequestID_token (token : IdToken raw v) : extractRequestID raw = match v with
      | .number n => n.lexeme | .string text => text | _ => "null".toList := by
  have parsed := token.denotes.parse
  rw [extractRequestID,if_neg token.ne_nil]
  cases token with
  | null => exact if_pos (by decide)
  | number n =>
    obtain ⟨c,cs,text,first⟩ := n.head
    have other : trimSpace n.lexeme ≠ "null".toList := by
      rw [trimSpace_number,text]
      intro same
      exact ne_of_numeric first (by decide) (by decide) (List.cons.inj same).1
    rw [if_neg other,unmarshalString,unmarshalNumber,parsed]
  | @string body decoded token =>
    have other : trimSpace ('"' :: body) ≠ "null".toList := by
      obtain ⟨rest,begins⟩ := trimSpace_cons (show isSpace '"' = false by decide) body
      rw [begins]
      intro same
      exact absurd (List.cons.inj same).1 (by decide)
    rw [if_neg other,unmarshalString,parsed]

/-- The ids that come back through the A2A adapter: strings without a quote, a backslash or a control character. -/
def a2aKeeps : Json → Prop
  | .string text => ∀ c ∈ text, isPlain c
  | _ => False

/-- Every answer to a request with this id, through the A2A adapter, is valid JSON under the same id. -/
def A2AEchoes (lib : Library) (raw : Text) (v : Json) : Prop :=
  ∀ req canonical resp newTask newContext, req.id = raw → a2aDecode lib req = .ok canonical →
    resp.requestID = canonical.requestID →
      ∃ body, a2aEncode lib resp newTask newContext = .ok body ∧ idMember body = some v

theorem a2aEncode_id (newTask newContext : Text) (v : Json) :
    (∃ body, a2aEncode lib resp newTask newContext = .ok body ∧ idMember body = some v) ↔
      ∃ decoded, IsToken (resp.requestID ++ ['"']) decoded ∧ v = .string decoded := by
  have answered : ∀ {decoded : Text}, IsToken (resp.requestID ++ ['"']) decoded →
      ∃ body, a2aEncode lib resp newTask newContext = .ok body ∧ idMember body = some (.string decoded) := by
    intro decoded token
    obtain ⟨written,compacts,denotes⟩ := token.compact
    obtain ⟨body,marshals,same⟩ := marshalResponse_id lib compacts denotes "result"
      (lib.taskJson (responseTask resp newTask newContext))
    exact ⟨body,by rw [a2aEncode,marshals]; rfl,same⟩
  constructor
  · rintro ⟨body,encodes,same⟩
    cases parsed : parse ('"' :: (resp.requestID ++ ['"'])) with
    | none =>
      have invalid : compact ('"' :: (resp.requestID ++ ['"'])) = none := by rw [compact,parsed]; rfl
      rw [a2aEncode,marshalResponse,invalid] at encodes
      cases encodes
    | some v' =>
      obtain ⟨decoded,_,token⟩ := parse_quoted parsed
      obtain ⟨body',encodes',same'⟩ := answered token
      rw [encodes] at encodes'
      cases encodes'
      rw [same] at same'
      exact ⟨decoded,token,Option.some.inj same'⟩
  · rintro ⟨decoded,token,rfl⟩
    exact answered token

theorem a2aEchoes_iff_token (raw : Text) (v : Json) :
    A2AEchoes lib raw v ↔ ∃ decoded, IsToken (extractRequestID raw ++ ['"']) decoded ∧ v = .string decoded := by
  constructor
  · intro echoes
    have encodes := echoes ⟨"2.0","a2a.getTask",raw,[]⟩ _ ⟨true,[],none,extractRequestID raw,∅⟩ [] [] rfl rfl rfl
    exact (a2aEncode_id lib _ [] [] v).mp encodes
  · rintro token req canonical resp newTask newContext rfl decodes carries
    rw [a2aEncode_id,carries,a2aDecode_id decodes]
    exact token

theorem a2aEchoes_iff (token : IdToken raw v) : A2AEchoes lib raw v ↔ a2aKeeps v := by
  rw [a2aEchoes_iff_token,extractRequestID_token token]
  cases token with
  | null | number n => simp [a2aKeeps]
  | @string body text token =>
    constructor
    · rintro ⟨decoded,token',same⟩
      cases same
      exact token'.plain
    · exact fun plain => ⟨text,isToken_plain plain,rfl⟩

/-! ### Both adapters -/

/-- Which ids come back, by adapter. -/
theorem ids_kept_iff (lib : Library) {raw : Text} {v : Json} (token : IdToken raw v) :
    (MCPEchoes lib raw v ↔ mcpKeeps v) ∧ (A2AEchoes lib raw v ↔ a2aKeeps v) :=
  ⟨mcpEchoes_iff lib token,a2aEchoes_iff lib token⟩

/-- A library that decodes no parameters and writes every task as null. -/
def sampleLibrary : Library where
  toolsCall _ := .error "unexpected end of JSON input"
  sendMessage _ := .error "unexpected end of JSON input"
  unmarshal _ := none
  quote text := text
  bytesText _ := []
  taskJson _ := .null
  invalidRaw _ := "json: error calling MarshalJSON for type json.RawMessage"

theorem ids_kept_sample :
    IdToken "\"a\"".toList (.string ['a']) ∧ MCPEchoes sampleLibrary "\"a\"".toList (.string ['a']) ∧
      A2AEchoes sampleLibrary "\"a\"".toList (.string ['a']) := by
  have token : IdToken "\"a\"".toList (.string ['a']) := .string (show IsToken ['a','"'] ['a'] from rfl)
  refine ⟨token,(ids_kept_iff sampleLibrary token).1.mpr ⟨by decide,?_⟩,(ids_kept_iff sampleLibrary token).2.mpr ?_⟩
  · rintro ⟨⟨c,first,digit⟩,_⟩
    cases first
    exact absurd digit (by decide)
  · simp [a2aKeeps,show isPlain 'a' by decide]

def minusOne : Number := ⟨['-','1'],by decide⟩
def seven : Number := ⟨['7'],by decide⟩

/-- The MCP adapter changes a negative number, a string of digits and the empty string; the A2A adapter every
    number, null, and a string with a quote in it. -/
theorem ids_lost : (¬ MCPEchoes sampleLibrary minusOne.lexeme (.number minusOne) ∧
      ¬ MCPEchoes sampleLibrary (stringText ['7']) (.string ['7']) ∧ ¬ MCPEchoes sampleLibrary (stringText []) (.string [])) ∧
    (¬ A2AEchoes sampleLibrary seven.lexeme (.number seven) ∧ ¬ A2AEchoes sampleLibrary ['n','u','l','l'] .null ∧
      ¬ A2AEchoes sampleLibrary (stringText ['"']) (.string ['"'])) := by
  have token : ∀ text, IdToken (stringText text) (.string text) := fun text => .string (isToken_escape text)
  refine ⟨⟨?_,?_,?_⟩,?_,?_,?_⟩
  · rw [mcpEchoes_iff _ (.number minusOne)]
    exact fun other => other rfl
  · rw [mcpEchoes_iff _ (token ['7'])]
    exact fun kept => kept.2 ⟨⟨'7',rfl,by decide⟩,seven,(denotes_number seven).parse⟩
  · rw [mcpEchoes_iff _ (token [])]
    exact fun kept => kept.1 rfl
  · rw [a2aEchoes_iff _ (.number seven)]
    exact id
  · rw [a2aEchoes_iff _ .null]
    exact id
  · rw [a2aEchoes_iff _ (token ['"'])]
    exact fun plain => absurd (plain '"' (by simp)) (by decide)

end Mcpkit.MultiIds
