import Mcpkit.ResponseCap

/-!
Masks over nested values. A map within a slice is sanitized, and whatever else stands in a slice is
left as it is, also another slice.
-/
namespace Mcpkit.SecretMasks
open ResponseCap

/-- A value of type any; a map is listed in the order of its loop. -/
inductive Value (S : Type) where
  | map (members : List (Text × Value S))
  | slice (items : List (Value S))
  | string (text : Text)
  | bytes (text : Text)
  | scalar (value : S)

def sensitivePatterns : List Text :=
  ["password","passwd","secret","token","key","credential","cred","auth","bearer","api_key","apikey","api-key","private",
    "oauth","jwt","session","cookie","cert","certificate","pem","ssh","rsa","dsa","ecdsa","access","refresh","signing",
    "encryption","decrypt","salt","hash","hmac","pin","otp","2fa","mfa","totp","seed"].map utf8

/-- `fold` is how the regular expression sees a key in lower case. -/
def isSensitiveKey (fold : Text → Text) (key : Text) : Bool := sensitivePatterns.any (· <:+: fold key)

def stars : Text := utf8 "****"

def maskValue (value : Text) : Text :=
  if value.length = 0 then []
  else if value.length ≤ 4 then stars
  else if value.length ≤ 8 then value.take 1 ++ stars ++ value.drop (value.length-1)
  else value.take 2 ++ stars ++ value.drop (value.length-2)

variable {S : Type}

def Value.mask : Value S → Value S
  | .string text => .string (maskValue text)
  | .bytes text => .string (maskValue text)
  | _ => .string (utf8 "[REDACTED]")

section
variable (sensitive : Text → Bool)

mutual

def sanitize : List (Text × Value S) → List (Text × Value S)
  | [] => []
  | (key,value) :: rest => (key,if sensitive key then value.mask else sanitizeValue value) :: sanitize rest

def sanitizeValue : Value S → Value S
  | .map members => .map (sanitize members)
  | .slice items => .slice (sanitizeItems items)
  | value => value

def sanitizeItems : List (Value S) → List (Value S)
  | [] => []
  | .map members :: rest => .map (sanitize members) :: sanitizeItems rest
  | item :: rest => item :: sanitizeItems rest

end

/-! ### Masks at every depth -/

mutual

/-- Every value under a sensitive key has its mask, and nothing else is changed. -/
def masked : List (Text × Value S) → List (Text × Value S)
  | [] => []
  | (key,value) :: rest => (key,if sensitive key then value.mask else maskedWithin value) :: masked rest

def maskedWithin : Value S → Value S
  | .map members => .map (masked members)
  | .slice items => .slice (maskedItems items)
  | value => value

def maskedItems : List (Value S) → List (Value S)
  | [] => []
  | item :: rest => maskedWithin item :: maskedItems rest

end

mutual

/-- Slices within slices have nothing to mask, but for what is its own mask. -/
def Open : List (Text × Value S) → Prop
  | [] => True
  | (key,value) :: rest => (sensitive key = false → OpenWithin value) ∧ Open rest

def OpenWithin : Value S → Prop
  | .map members => Open members
  | .slice items => OpenItems items
  | _ => True

def OpenItems : List (Value S) → Prop
  | [] => True
  | .map members :: rest => Open members ∧ OpenItems rest
  | .slice items :: rest => maskedItems sensitive items = items ∧ OpenItems rest
  | _ :: rest => OpenItems rest

end

mutual

theorem sanitize_iff : ∀ params : List (Text × Value S), sanitize sensitive params = masked sensitive params ↔ Open sensitive params
  | [] => by simp [sanitize,masked,Open]
  | (key,value) :: rest => by
    have within := sanitizeValue_iff value
    have others := sanitize_iff rest
    cases named : sensitive key <;> simp [sanitize,masked,Open,named,within,others]

theorem sanitizeValue_iff : ∀ value : Value S,
    sanitizeValue sensitive value = maskedWithin sensitive value ↔ OpenWithin sensitive value
  | .map members => by simp [sanitizeValue,maskedWithin,OpenWithin,sanitize_iff members]
  | .slice items => by simp [sanitizeValue,maskedWithin,OpenWithin,sanitizeItems_iff items]
  | .string _ | .bytes _ | .scalar _ => by simp [sanitizeValue,maskedWithin,OpenWithin]

theorem sanitizeItems_iff : ∀ items : List (Value S),
    sanitizeItems sensitive items = maskedItems sensitive items ↔ OpenItems sensitive items
  | [] => by simp [sanitizeItems,maskedItems,OpenItems]
  | .map members :: rest => by
    simp [sanitizeItems,maskedItems,maskedWithin,OpenItems,sanitize_iff members,sanitizeItems_iff rest]
  | .slice items :: rest => by simp [sanitizeItems,maskedItems,maskedWithin,OpenItems,sanitizeItems_iff rest,eq_comm]
  | .string _ :: rest | .bytes _ :: rest | .scalar _ :: rest => by
    simp [sanitizeItems,maskedItems,maskedWithin,OpenItems,sanitizeItems_iff rest]

end

end

end Mcpkit.SecretMasks
