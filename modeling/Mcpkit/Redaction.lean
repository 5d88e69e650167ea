import Mcpkit.JsonText

/-!
Arguments as they are logged: the audit logger and the debug middleware each replace the values of
sensitive names, and look at the names of the arguments themselves only.
-/
namespace Mcpkit.Redaction
open JsonText List

/-! ### Arguments -/

mutual

/-- A value as json.Unmarshal leaves it: a map is listed by its keys in their order, each of
    them once, and a number is spelled as json.Marshal spells a float. -/
def Decoded (floatText : Number → Prop) : Json → Prop
  | .number n => floatText n
  | .array items => DecodedItems floatText items
  | .object members => DecodedMembers floatText members
  | _ => True

def DecodedItems (floatText : Number → Prop) : List Json → Prop
  | [] => True
  | item :: rest => Decoded floatText item ∧ DecodedItems floatText rest

def DecodedMembers (floatText : Number → Prop) : List (List Char × Json) → Prop
  | [] => True
  | (key,member) :: rest => (∀ other ∈ rest, key < other.1) ∧ Decoded floatText member ∧ DecodedMembers floatText rest

end

variable {floatText : Number → Prop}

structure Params (floatText : Number → Prop) where
  members : List (List Char × Json)
  decoded : DecodedMembers floatText members

@[ext] theorem Params.ext {p q : Params floatText} (same : p.members = q.members) : p = q := by
  cases p; cases q; cases same; rfl

/-! ### Redaction -/

variable (sensitive : List Char → Bool)

/-- The loop of both functions: the values of sensitive names are replaced. -/
def redact (members : List (List Char × Json)) : List (List Char × Json) :=
  members.map fun member => if sensitive member.1 then (member.1,.string "[REDACTED]".toList) else member

theorem redact_secret {sensitive : List Char → Bool} {key : List Char} (named : sensitive key = true) (v : Json)
    (rest : List (List Char × Json)) :
    redact sensitive ((key,v) :: rest) = (key,.string "[REDACTED]".toList) :: redact sensitive rest := by
  rw [redact,map_cons,if_pos named,← redact]

theorem redact_plain {sensitive : List Char → Bool} {key : List Char} (named : sensitive key = false) (v : Json)
    (rest : List (List Char × Json)) : redact sensitive ((key,v) :: rest) = (key,v) :: redact sensitive rest := by
  rw [redact,map_cons,if_neg (Bool.eq_false_iff.mp named),← redact]

theorem redact_decoded {members : List (List Char × Json)}
    (decoded : DecodedMembers floatText members) : DecodedMembers floatText (redact sensitive members) := by
  induction members with
  | nil => exact decoded
  | cons member rest ih =>
    obtain ⟨key,v⟩ := member
    obtain ⟨ordered,value,others⟩ := decoded
    have ordered' : ∀ other ∈ redact sensitive rest, key < other.1 := by
      intro other there
      obtain ⟨other',there',rfl⟩ := mem_map.mp there
      split <;> exact ordered other' there'
    cases named : sensitive key with
    | true => rw [redact_secret named]; exact ⟨ordered',trivial,ih others⟩
    | false => rw [redact_plain named]; exact ⟨ordered',value,ih others⟩

def containsText (text part : List Char) : Bool := text.tails.any part.isPrefixOf

def sensitiveKeys : List String :=
  ["password","secret","token","key","credential","auth","bearer","api_key","private","oauth"]

variable (lower : Char → Char)

/-- The names that the audit logger takes for sensitive; `lower` is `unicode.ToLower`. -/
def auditSensitive (k : List Char) : Bool :=
  sensitiveKeys.any fun sensitive => k.map lower == sensitive.toList || containsText (k.map lower) sensitive.toList

def sanitizeAuditParams : Option (Params floatText) → Option (Params floatText)
  | none => none
  | some params => some ⟨redact (auditSensitive lower) params.members,redact_decoded _ params.decoded⟩

variable (redactFields : List (List Char))

def redactSet : List (List Char) :=
  redactFields.map (List.map lower)

def debugSensitive (k : List Char) : Bool :=
  (redactSet lower redactFields).contains (k.map lower)

def redactParams (args : Option (Params floatText)) : List Char :=
  match args with
  | none => "\x7b\x7d".toList
  | some params =>
    if params.members.length = 0 then "\x7b\x7d".toList
    else render (.object (redact (debugSensitive lower redactFields) params.members))

/-! ### Arguments that differ under sensitive names -/

section
variable (sensitive : List Char → Bool)

mutual

/-- The same value but for what stands under sensitive names in its objects. -/
inductive Alike : Json → Json → Prop
  | same (v : Json) : Alike v v
  | array {vs ws : List Json} (items : AlikeItems vs ws) : Alike (.array vs) (.array ws)
  | object {ms ns : List (List Char × Json)} (members : AlikeMembers ms ns) : Alike (.object ms) (.object ns)

inductive AlikeItems : List Json → List Json → Prop
  | nil : AlikeItems [] []
  | cons {v w : Json} {vs ws : List Json} (first : Alike v w) (rest : AlikeItems vs ws) : AlikeItems (v :: vs) (w :: ws)

inductive AlikeMembers : List (List Char × Json) → List (List Char × Json) → Prop
  | nil : AlikeMembers [] []
  | secret {key : List Char} (v w : Json) {ms ns : List (List Char × Json)} (named : sensitive key = true)
    (rest : AlikeMembers ms ns) : AlikeMembers ((key,v) :: ms) ((key,w) :: ns)
  | plain {key : List Char} {v w : Json} {ms ns : List (List Char × Json)} (first : Alike v w)
    (rest : AlikeMembers ms ns) : AlikeMembers ((key,v) :: ms) ((key,w) :: ns)

end

inductive AlikeParams : Option (Params floatText) → Option (Params floatText) → Prop
  | nil : AlikeParams none none
  | maps {p q : Params floatText} (members : AlikeMembers sensitive p.members q.members) : AlikeParams (some p) (some q)

mutual

def clear : Json → Bool
  | .array items => clearItems items
  | .object members => clearMembers members
  | _ => true

def clearItems : List Json → Bool
  | [] => true
  | item :: rest => clear item && clearItems rest

def clearMembers : List (List Char × Json) → Bool
  | [] => true
  | (key,member) :: rest => !sensitive key && clear member && clearMembers rest

end
variable {sensitive}

mutual

theorem Alike.eq_of_clear {v w : Json} (alike : Alike sensitive v w) (plain : clear sensitive v = true) : v = w := by
  cases alike with
  | same => rfl
  | array items => rw [clear] at plain; rw [items.eq_of_clear plain]
  | object members => rw [clear] at plain; rw [members.eq_of_clear plain]

theorem AlikeItems.eq_of_clear {vs ws : List Json} (alike : AlikeItems sensitive vs ws)
    (plain : clearItems sensitive vs = true) : vs = ws := by
  cases alike with
  | nil => rfl
  | cons first rest =>
    rw [clearItems,Bool.and_eq_true] at plain
    rw [first.eq_of_clear plain.1,rest.eq_of_clear plain.2]

theorem AlikeMembers.eq_of_clear {ms ns : List (List Char × Json)} (alike : AlikeMembers sensitive ms ns)
    (plain : clearMembers sensitive ms = true) : ms = ns := by
  cases alike with
  | nil => rfl
  | secret v w named rest => simp [clearMembers,named] at plain
  | plain first rest =>
    simp only [clearMembers,Bool.and_eq_true] at plain
    rw [first.eq_of_clear plain.1.2,rest.eq_of_clear plain.2]

end

theorem AlikeMembers.refl (sensitive : List Char → Bool) (ms : List (List Char × Json)) :
    AlikeMembers sensitive ms ms := by
  induction ms with
  | nil => exact .nil
  | cons m ms ih => exact .plain (.same m.2) ih

theorem AlikeItems.refl (sensitive : List Char → Bool) (vs : List Json) : AlikeItems sensitive vs vs := by
  induction vs with
  | nil => exact .nil
  | cons v vs ih => exact .cons (.same v) ih

theorem AlikeMembers.keys {ms ns : List (List Char × Json)} (alike : AlikeMembers sensitive ms ns) :
    ns.map (·.1) = ms.map (·.1) := by
  cases alike with
  | nil => rfl
  | secret v w named rest | plain first rest => rw [map_cons,map_cons,rest.keys]

theorem AlikeMembers.ordered {ms ns : List (List Char × Json)} (alike : AlikeMembers sensitive ms ns) {key : List Char}
    (ordered : ∀ m ∈ ms, key < m.1) : ∀ n ∈ ns, key < n.1 := by
  intro n there
  have named : n.1 ∈ ms.map (·.1) := alike.keys ▸ mem_map_of_mem there
  obtain ⟨m,there',same⟩ := mem_map.mp named
  exact same ▸ ordered m there'

def otherValue : Json → Json
  | .bool b => .bool (!b)
  | _ => .bool true

theorem otherValue_ne (v : Json) : otherValue v ≠ v := by cases v <;> simp [otherValue]

theorem otherValue_decoded (v : Json) : Decoded floatText (otherValue v) := by cases v <;> simp [otherValue,Decoded]

mutual

theorem unclear_differs : ∀ {v : Json}, clear sensitive v = false → Decoded floatText v →
    ∃ w, Alike sensitive v w ∧ w ≠ v ∧ Decoded floatText w
  | .null, unclear, _ | .bool _, unclear, _ | .number _, unclear, _ => by simp [clear] at unclear
  | .string _, unclear, _ => by simp [clear] at unclear
  | .array items, unclear, decoded => by
    rw [clear] at unclear
    rw [Decoded] at decoded
    obtain ⟨items',alike,different,decoded'⟩ := unclearItems_differ unclear decoded
    exact ⟨.array items',.array alike,fun same => different (Json.array.inj same),by rw [Decoded]; exact decoded'⟩
  | .object members, unclear, decoded => by
    rw [clear] at unclear
    rw [Decoded] at decoded
    obtain ⟨members',alike,different,decoded'⟩ := unclearMembers_differ unclear decoded
    exact ⟨.object members',.object alike,fun same => different (Json.object.inj same),by rw [Decoded]; exact decoded'⟩

theorem unclearItems_differ : ∀ {vs : List Json}, clearItems sensitive vs = false → DecodedItems floatText vs →
    ∃ ws, AlikeItems sensitive vs ws ∧ ws ≠ vs ∧ DecodedItems floatText ws
  | [], unclear, _ => by simp [clearItems] at unclear
  | v :: vs, unclear, decoded => by
    rw [DecodedItems] at decoded
    cases plain : clear sensitive v with
    | false =>
      obtain ⟨w,alike,different,decoded'⟩ := unclear_differs plain decoded.1
      refine ⟨w :: vs,.cons alike (.refl sensitive vs),fun same => different (cons.inj same).1,?_⟩
      rw [DecodedItems]
      exact ⟨decoded',decoded.2⟩
    | true =>
      rw [clearItems,plain,Bool.true_and] at unclear
      obtain ⟨ws,alike,different,decoded'⟩ := unclearItems_differ unclear decoded.2
      refine ⟨v :: ws,.cons (.same v) alike,fun same => different (cons.inj same).2,?_⟩
      rw [DecodedItems]
      exact ⟨decoded.1,decoded'⟩

theorem unclearMembers_differ : ∀ {ms : List (List Char × Json)}, clearMembers sensitive ms = false →
    DecodedMembers floatText ms → ∃ ns, AlikeMembers sensitive ms ns ∧ ns ≠ ms ∧ DecodedMembers floatText ns
  | [], unclear, _ => by simp [clearMembers] at unclear
  | (key,v) :: ms, unclear, decoded => by
    rw [DecodedMembers] at decoded
    obtain ⟨ordered,value,rest⟩ := decoded
    have replaced : ∀ w, w ≠ v → Decoded floatText w → (sensitive key = true ∨ Alike sensitive v w) →
        ∃ ns, AlikeMembers sensitive ((key,v) :: ms) ns ∧ ns ≠ (key,v) :: ms ∧ DecodedMembers floatText ns := by
      intro w different decoded' how
      refine ⟨(key,w) :: ms,?_,fun same => different (Prod.mk.inj (cons.inj same).1).2,?_⟩
      · rcases how with named | alike
        · exact .secret v w named (.refl sensitive ms)
        · exact .plain alike (.refl sensitive ms)
      · rw [DecodedMembers]
        exact ⟨ordered,decoded',rest⟩
    cases named : sensitive key with
    | true => exact replaced (otherValue v) (otherValue_ne v) (otherValue_decoded v) (.inl named)
    | false =>
      cases plain : clear sensitive v with
      | false =>
        obtain ⟨w,alike,different,decoded'⟩ := unclear_differs plain value
        exact replaced w different decoded' (.inr alike)
      | true =>
        rw [clearMembers,named,plain] at unclear
        obtain ⟨ns,alike,different,decoded'⟩ := unclearMembers_differ (by simpa using unclear) rest
        refine ⟨(key,v) :: ns,.plain (.same v) alike,fun same => different (cons.inj same).2,?_⟩
        rw [DecodedMembers]
        exact ⟨alike.ordered ordered,value,decoded'⟩

end

/-! ### When the log does not depend on sensitive values -/

/-- Apart from the values that are replaced, no argument has a sensitive name within it. -/
def Flat (sensitive : List Char → Bool) (members : List (List Char × Json)) : Prop :=
  ∀ member ∈ members, sensitive member.1 = false → clear sensitive member.2 = true

theorem AlikeMembers.redact_eq {ms ns : List (List Char × Json)} (alike : AlikeMembers sensitive ms ns)
    (flat : Flat sensitive ms) : redact sensitive ms = redact sensitive ns := by
  cases alike with
  | nil => rfl
  | secret v w named rest =>
    have others := rest.redact_eq fun member there => flat member (mem_cons_of_mem _ there)
    rw [redact_secret named,redact_secret named,others]
  | @plain key v w ms ns first rest =>
    have others := rest.redact_eq fun member there => flat member (mem_cons_of_mem _ there)
    cases named : sensitive key with
    | true => rw [redact_secret named,redact_secret named,others]
    | false =>
      have same := first.eq_of_clear (flat (key,v) mem_cons_self named)
      rw [redact_plain named,redact_plain named,others,same]

theorem redact_ne {ms : List (List Char × Json)} (decoded : DecodedMembers floatText ms) (deep : ¬ Flat sensitive ms) :
    ∃ ns, AlikeMembers sensitive ms ns ∧ DecodedMembers floatText ns ∧ redact sensitive ms ≠ redact sensitive ns := by
  induction ms with
  | nil => exact absurd (fun member there => absurd there not_mem_nil) deep
  | cons member ms ih =>
    obtain ⟨key,v⟩ := member
    obtain ⟨ordered,value,rest⟩ := decoded
    by_cases flat : Flat sensitive ms
    · have first : sensitive key = false ∧ clear sensitive v = false := by
        by_contra fine
        refine deep fun member there named => ?_
        rcases mem_cons.mp there with rfl | later
        · by_contra unclear
          exact fine ⟨named,Bool.eq_false_iff.mpr unclear⟩
        · exact flat member later named
      obtain ⟨w,alike,different,decoded'⟩ := unclear_differs first.2 value
      refine ⟨(key,w) :: ms,.plain alike (.refl sensitive ms),⟨ordered,decoded',rest⟩,?_⟩
      rw [redact_plain first.1,redact_plain first.1]
      exact fun same => different (Prod.mk.inj (cons.inj same).1).2.symm
    · obtain ⟨ns,alike,decoded',different⟩ := ih rest flat
      refine ⟨(key,v) :: ns,.plain (.same v) alike,⟨alike.ordered ordered,value,decoded'⟩,?_⟩
      cases named : sensitive key with
      | true | false => exact fun same => different (cons.inj same).2

def FlatParams (sensitive : List Char → Bool) : Option (Params floatText) → Prop
  | none => True
  | some params => Flat sensitive params.members

theorem hides_iff {α : Type} (log : Option (Params floatText) → α)
    (tells : ∀ p q, log (some p) = log (some q) ↔ redact sensitive p.members = redact sensitive q.members)
    (a : Option (Params floatText)) : (∀ b, AlikeParams sensitive a b → log a = log b) ↔ FlatParams sensitive a := by
  cases a with
  | none => exact iff_of_true (fun b alike => by cases alike; rfl) trivial
  | some p =>
    constructor
    · intro hides
      by_contra deep
      obtain ⟨ns,alike,decoded,different⟩ := redact_ne p.decoded deep
      exact different ((tells p ⟨ns,decoded⟩).mp (hides (some ⟨ns,decoded⟩) (.maps alike)))
    · intro flat b alike
      cases alike with
      | maps members => exact (tells p _).mpr (members.redact_eq flat)

theorem render_injective {v w : Json} (same : render v = render w) : v = w := by
  have read := (denotes_render v).parse
  rw [same,(denotes_render w).parse] at read
  exact (Option.some.inj read).symm

theorem redactParams_some (p : Params floatText) :
    redactParams lower redactFields (some p) = render (.object (redact (debugSensitive lower redactFields) p.members)) := by
  simp only [redactParams]
  split
  · rename_i empty
    rw [length_eq_zero_iff.mp empty]
    rfl
  · rfl

/-- What is logged of the arguments does not depend on what stands under sensitive names
    exactly when none of these is within another argument. -/
theorem logs_hide_iff (lower : Char → Char) (redactFields : List (List Char)) (a : Option (Params floatText)) :
    ((∀ b, AlikeParams (auditSensitive lower) a b → sanitizeAuditParams lower a = sanitizeAuditParams lower b) ↔
      FlatParams (auditSensitive lower) a) ∧
    ((∀ b, AlikeParams (debugSensitive lower redactFields) a b →
        redactParams lower redactFields a = redactParams lower redactFields b) ↔
      FlatParams (debugSensitive lower redactFields) a) := by
  refine ⟨hides_iff _ (fun p q => ?_) a,hides_iff _ (fun p q => ?_) a⟩
  · simp [sanitizeAuditParams]
  · rw [redactParams_some,redactParams_some]
    exact ⟨fun same => Json.object.inj (render_injective same),fun same => by rw [same]⟩

end

def nested (password : String) : Params (fun _ => True) where
  members := [("config".toList,.object [("password".toList,.string password.toList)])]
  decoded := by simp [DecodedMembers,Decoded]

theorem nested_alike {sensitive : List Char → Bool} (named : sensitive "password".toList = true) (p q : String) :
    AlikeParams sensitive (some (nested p)) (some (nested q)) :=
  .maps (.plain (.object (.secret _ _ named .nil)) .nil)

/-- Two passwords are logged as they are. -/
theorem nested_password_logged : (AlikeParams (auditSensitive Char.toLower) (some (nested "a")) (some (nested "b")) ∧
      sanitizeAuditParams Char.toLower (some (nested "a")) ≠ sanitizeAuditParams Char.toLower (some (nested "b"))) ∧
    AlikeParams (debugSensitive Char.toLower ["password".toList]) (some (nested "a")) (some (nested "b")) ∧
      redactParams Char.toLower ["password".toList] (some (nested "a")) ≠
        redactParams Char.toLower ["password".toList] (some (nested "b")) := by
  have plain : auditSensitive Char.toLower "config".toList = false := by decide
  refine ⟨⟨nested_alike (by decide) "a" "b",?_⟩,nested_alike (by decide) "a" "b",?_⟩
  · intro same
    have members := congrArg Params.members (Option.some.inj same)
    simp only [nested,redact_plain plain,cons.injEq,Prod.mk.injEq,Json.object.injEq,Json.string.injEq] at members
    exact absurd members.1.2.1.2 (by decide)
  · decide

end Mcpkit.Redaction
