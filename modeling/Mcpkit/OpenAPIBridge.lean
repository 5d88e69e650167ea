import Mcpkit.HTTPHeaders
import Mcpkit.Placeholders
import Mcpkit.UrlText

/-!
Requests of tools that are generated from an OpenAPI operation.
-/
namespace Mcpkit.OpenAPIBridge
open UrlText Placeholders HTTPHeaders

/-! ### Parameters -/

inductive Location where
  | path
  | query
  | header
  | other (text : String)
  deriving DecidableEq

def Location.text : Location → String
  | .path => "path"
  | .query => "query"
  | .header => "header"
  | .other text => text

structure Parameter where
  location : Location
  name : Text
  deriving DecidableEq

abbrev Parameters := List (Option Parameter)

def Parameter.key (p : Parameter) : Text := p.location.text.toList ++ "::".toList ++ p.name

/-- Those of the operation come first, and stand for those of the path with the same key. -/
def mergeParams (pathParams opParams : Parameters) : Parameters :=
  opParams ++ pathParams.filter (fun p => p.any (fun p => p.key ∉ opParams.filterMap (Option.map Parameter.key)))

/-! ### Arguments -/

/-- A decoded argument. Of a value that is neither a text nor an integral number only what is printed matters. -/
inductive Value where
  | text (t : Text)
  | integral (n : Int)
  | other (shown : Text)
  deriving DecidableEq

def decimal (n : Int) : Text := (toString n).toList

variable (exponent : Int → Text)

/-- `fmt.Sprint`. Integral numbers are floats, and print with an exponent from seven digits on. -/
def Value.sprint : Value → Text
  | .text t => t
  | .integral n => if n.natAbs < 1000000 then decimal n else exponent n
  | .other shown => shown

def Value.plain : Value → Text
  | .text t => t
  | .integral n => decimal n
  | .other shown => shown

/-- How large integral numbers print: with an exponent, and no other marks. -/
structure Exponents : Prop where
  marked : ∀ n, 'e' ∈ exponent n
  digits : ∀ n, ∀ c ∈ exponent n, c.isDigit = true ∨ c ∈ ['e','+','-','.']

/-! ### Requests -/

structure Bridge where
  baseURL : Text
  authHeader : String
  authToken : String
  deriving DecidableEq

def mark (name : Text) : Text := '{' :: (name ++ ['}'])

section
variable (exponent : Int → Text) (b : Bridge) (path : Text) (params : Parameters) (args : Text → Option Value)

def supplied (location : Location) : List (Text × Value) :=
  params.filterMap (fun p => p.bind fun p => if p.location = location then (args p.name).map (p.name,·) else none)

def pathTexts : List (Text × Text) := (supplied params args .path).map fun value => (value.1,value.2.sprint exponent)

def urlPath : Text := replaceEach mark (pathTexts exponent params args) path

def queryParts : List Text := (supplied params args .query).map fun value => value.1 ++ '=' :: value.2.sprint exponent

def fullURL : Text :=
  b.baseURL ++ urlPath exponent path params args ++
    (if queryParts exponent params args = [] then [] else '?' :: ['&'].intercalate (queryParts exponent params args))

def ownHeaders : Header :=
  let header := (Header.set ∅ "Content-Type" "application/json").set "Accept" "application/json"
  if b.authHeader ≠ "" ∧ b.authToken ≠ "" then header.set b.authHeader b.authToken else header

def requestHeaders : Header :=
  (supplied params args .header).foldl
    (fun header value => header.set (String.ofList value.1) (String.ofList (value.2.sprint exponent))) (ownHeaders b)

end

/-! ### Operations -/

/-- The path of an operation: its segments, each made of texts and placeholders. -/
abbrev Template := List (List (Piece Char))

variable (t : Template)

def Template.pieces : List (Piece Char) := t.flatMap fun segment => .text ['/'] :: segment

def Template.path : Text := render mark t.pieces

/-- Texts can stand in a path, and so can names that are not filled in. -/
structure Template.Formed : Prop where
  some_ : t ≠ []
  texts : ∀ segment ∈ t, ∀ text, .text text ∈ segment →
    (∀ c ∈ text, c ∉ ['/','?','#'] ∧ isControl c = false) ∧ (unescape false text).isSome
  names : ∀ segment ∈ t, ∀ name, .hole name ∈ segment → ∀ c ∈ name, c ∉ ['/','?','#','%','{','}'] ∧ isControl c = false

/-- The base of the URLs: scheme and host, and a path that may be empty. -/
structure Base (H : Type) where
  root : Root H
  path : Text

def Base.text {H : Type} (base : Base H) : Text := base.root.text ++ base.path

structure Base.Formed {H : Type} (parseAuthority : Text → Option H) (base : Base H) : Prop where
  root : base.root.Formed parseAuthority
  begins : base.path = [] ∨ ∃ rest, base.path = '/' :: rest
  path : ∀ c ∈ base.path, c ∉ ['?','#'] ∧ isControl c = false
  decodes : (unescape false base.path).isSome

/-! ### What is asked of requests -/

section
variable {H : Type} (parseAuthority : Text → Option H) (exponent : Int → Text) (b : Bridge) (base : Base H) (t : Template)
  (params : Parameters) (args : Text → Option Value)

/-- The URL has for each placeholder of the template a text that decodes to its argument, and the pairs of the
    query parameters; the authentication header is the configured one. -/
structure Shaped : Prop where
  url : ∃ u, parse parseAuthority (fullURL exponent b t.path params args) = some u ∧
    u.scheme = base.root.scheme ∧ u.host = some base.root.host ∧ u.fragment = [] ∧
    u.path.splitOn '/' = base.path.splitOn '/' ++
      t.map (fun segment => render mark (fillEach (pathTexts exponent params args) segment)) ∧
    parseQuery u.rawQuery = some ((supplied params args .query).map fun value => (value.1,value.2.plain))
  decoded : ∀ value ∈ supplied params args .path, .hole value.1 ∈ t.pieces →
    unescape false (value.2.sprint exponent) = some value.2.plain
  own : OwnPlaces mark (pathTexts exponent params args) t.path t.pieces
  auth : b.authHeader ≠ "" → b.authToken ≠ "" →
    (requestHeaders exponent b params args).get b.authHeader = b.authToken

/-- A number that prints as its digits, or another value. -/
def Value.Short : Value → Prop
  | .integral n => n.natAbs < 1000000
  | _ => True

/-- No name has a character that the URL is read by, no text that is filled in spells a later placeholder, and a
    header parameter in the place of the token carries it. -/
structure Clean : Prop where
  path : ∀ value ∈ supplied params args .path, .hole value.1 ∈ t.pieces → value.2.Short ∧
    ∀ c ∈ value.2.sprint exponent, c ∉ ['/','?','#','%'] ∧ isControl c = false
  apart : Apart mark (pathTexts exponent params args) t.pieces
  query : ∀ value ∈ supplied params args .query, value.2.Short ∧
    (∀ c ∈ value.1, c ∉ ['&','=',';','#','%','+'] ∧ isControl c = false) ∧
    ∀ c ∈ value.2.sprint exponent, c ∉ ['&',';','#','%','+'] ∧ isControl c = false
  auth : b.authHeader ≠ "" → b.authToken ≠ "" →
    ∀ value ∈ ((supplied params args .header).filter (fun value =>
        canonicalMIMEHeaderKey (String.ofList value.1) = canonicalMIMEHeaderKey b.authHeader)).getLast?,
      String.ofList (value.2.sprint exponent) = b.authToken

end

end Mcpkit.OpenAPIBridge
