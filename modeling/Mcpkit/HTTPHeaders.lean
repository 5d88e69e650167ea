import Mathlib.Data.List.Induction
import Mcpkit.GoMaps

/-!
Headers of net/http: values by canonical key. A key is made canonical before it is
read or set, so that two spellings of one name are one entry.
-/
namespace Mcpkit.HTTPHeaders
open GoMaps List

def tokenChar (c : Char) : Bool := c.isAlphanum || "!#$%&'*+-.^_`|~".toList.contains c

def capitalise : Bool → List Char → List Char
  | _, [] => []
  | start, c :: rest => (if start then c.toUpper else c.toLower) :: capitalise (c == '-') rest

/-- textproto.CanonicalMIMEHeaderKey: a name with other characters stays as it is. -/
def canonicalMIMEHeaderKey (key : String) : String :=
  if key.toList.all tokenChar then String.ofList (capitalise true key.toList) else key

abbrev Header := GoMap (List String)

variable (h : Header)

def Header.get (key : String) : String := ((h.lookup (canonicalMIMEHeaderKey key)).getD []).headD ""

def Header.set (key value : String) : Header := h.insert (canonicalMIMEHeaderKey key) [value]

theorem Header.get_set (key other value : String) : (h.set key value).get other =
    if canonicalMIMEHeaderKey other = canonicalMIMEHeaderKey key then value else h.get other := by
  unfold Header.get Header.set
  by_cases same : canonicalMIMEHeaderKey other = canonicalMIMEHeaderKey key
  · rw [same,Finmap.lookup_insert,if_pos rfl]
    rfl
  · rw [Finmap.lookup_insert_of_ne _ same,if_neg same]

section
variable {β : Type} (name value : β → String) (key : String)

theorem Header.get_setAll {h : Header} {first : String} (start : h.get key = first) (values : List β) :
    (values.foldl (fun h v => h.set (name v) (value v)) h).get key = first ↔
      ∀ v ∈ (values.filter fun v => canonicalMIMEHeaderKey (name v) = canonicalMIMEHeaderKey key).getLast?,
        value v = first := by
  induction values using List.reverseRecOn with
  | nil => simp [start]
  | append_singleton values v ih =>
    rw [foldl_append,foldl_cons,foldl_nil,Header.get_set,filter_append]
    by_cases same : canonicalMIMEHeaderKey (name v) = canonicalMIMEHeaderKey key
    · simp [same]
    · rw [if_neg (Ne.symm same),ih]
      simp [same]

end

end Mcpkit.HTTPHeaders
