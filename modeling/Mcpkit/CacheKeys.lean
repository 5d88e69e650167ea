import Mathlib.Data.List.Sort
import Mathlib.Data.Char
import Mathlib.Data.List.Lex
import Mcpkit.JsonText

/-!
Cache keys of tool calls. Arguments are made canonical before they are hashed: an object becomes
the list of its members in the order of their names, each as an object with a name and a value.
-/
namespace Mcpkit.CacheKeys
open JsonText List
variable {N : Type}

/-- Decoded JSON. The members of an object stand in the order in which a loop ranges over the
    map; numbers are of any type. -/
inductive Value (N : Type) where
  | null
  | bool (value : Bool)
  | number (value : N)
  | string (text : List Char)
  | array (items : List (Value N))
  | object (members : List (List Char × Value N))

/-- What `canonicalizeJSONValue` returns; `pairs` are slices of `canonicalKV`. -/
inductive Canonical (N : Type) where
  | null
  | bool (value : Bool)
  | number (value : N)
  | string (text : List Char)
  | array (items : List (Canonical N))
  | pairs (members : List (List Char × Canonical N))

/-- Members in the order of their names. Names are compared by bytes, which is by characters. -/
def sortKeys {α : Type} (members : List (List Char × α)) : List (List Char × α) :=
  members.insertionSort fun m m' => m.1 ≤ m'.1

mutual

/-- The names are distinct, so the values may be found before the names are sorted. -/
def canonicalizeJSONValue : Value N → Canonical N
  | .null => .null
  | .bool value => .bool value
  | .number value => .number value
  | .string text => .string text
  | .array items => .array (canonicalizeItems items)
  | .object members => .pairs (sortKeys (canonicalizeMembers members))

def canonicalizeItems : List (Value N) → List (Canonical N)
  | [] => []
  | v :: vs => canonicalizeJSONValue v :: canonicalizeItems vs

def canonicalizeMembers : List (List Char × Value N) → List (List Char × Canonical N)
  | [] => []
  | (key,v) :: ms => (key,canonicalizeJSONValue v) :: canonicalizeMembers ms

end

def pairJson (member : List Char × Json) : Json := .object [(['k'],.string member.1),(['v'],member.2)]

mutual

/-- `json.Marshal` up to the JSON value that it writes, given how numbers are written. -/
def marshal (print : N → Number) : Canonical N → Json
  | .null => .null
  | .bool value => .bool value
  | .number value => .number (print value)
  | .string text => .string text
  | .array items => .array (marshalItems print items)
  | .pairs members => .array (marshalPairs print members)

def marshalItems (print : N → Number) : List (Canonical N) → List Json
  | [] => []
  | v :: vs => marshal print v :: marshalItems print vs

def marshalPairs (print : N → Number) : List (List Char × Canonical N) → List Json
  | [] => []
  | (key,v) :: ms => pairJson (key,marshal print v) :: marshalPairs print ms

end

structure Digest where
  bytes : List UInt8
  length : bytes.length = 32

def encodeToString (d : Digest) : List Char :=
  d.bytes.flatMap fun b => [hexDigit (b.toNat/16),hexDigit (b.toNat%16)]

/-! ### Arguments -/

mutual

def Value.Decoded : Value N → Prop
  | .array items => DecodedItems items
  | .object members => (members.map Prod.fst).Nodup ∧ DecodedMembers members
  | _ => True

def DecodedItems : List (Value N) → Prop
  | [] => True
  | v :: vs => v.Decoded ∧ DecodedItems vs

def DecodedMembers : List (List Char × Value N) → Prop
  | [] => True
  | (_,v) :: ms => v.Decoded ∧ DecodedMembers ms

end

structure Arguments (N : Type) where
  members : List (List Char × Value N)
  decoded : (Value.object members).Decoded

def Arguments.text (print : N → Number) (args : Arguments N) : List Char :=
  render (marshal print (canonicalizeJSONValue (.object args.members)))

def cacheKey (print : N → Number) (sum256 : List Char → Digest) (toolName : List Char) (args : Arguments N) : List Char :=
  toolName ++ ':' :: encodeToString (sum256 (args.text print))

/-! ### Equality -/

mutual

/-- Equality of values, the order of members left aside. If `loose`, the empty array and the
    empty object count as equal. -/
inductive Same (loose : Prop) : Value N → Value N → Prop
  | null : Same loose .null .null
  | bool (value : Bool) : Same loose (.bool value) (.bool value)
  | number (value : N) : Same loose (.number value) (.number value)
  | string (text : List Char) : Same loose (.string text) (.string text)
  | array {vs ws} : SameItems loose vs ws → Same loose (.array vs) (.array ws)
  | object {ms ms' ns' ns} : ms.Perm ms' → SameMembers loose ms' ns' → ns'.Perm ns → Same loose (.object ms) (.object ns)
  | arrayObject : loose → Same loose (.array []) (.object [])
  | objectArray : loose → Same loose (.object []) (.array [])

inductive SameItems (loose : Prop) : List (Value N) → List (Value N) → Prop
  | nil : SameItems loose [] []
  | cons {v w vs ws} : Same loose v w → SameItems loose vs ws → SameItems loose (v :: vs) (w :: ws)

inductive SameMembers (loose : Prop) : List (List Char × Value N) → List (List Char × Value N) → Prop
  | nil : SameMembers loose [] []
  | cons {key v w ms ns} : Same loose v w → SameMembers loose ms ns → SameMembers loose ((key,v) :: ms) ((key,w) :: ns)

end

variable (args args' : Arguments N)

def Equal : Prop := Same False (.object args.members) (.object args'.members)

def Alike : Prop := Same True (.object args.members) (.object args'.members)

/-! ### What is written -/

theorem Value.induct {P : Value N → Prop} (null : P .null) (bool : ∀ b, P (.bool b)) (number : ∀ n, P (.number n))
    (string : ∀ t, P (.string t)) (array : ∀ vs, (∀ v ∈ vs, P v) → P (.array vs))
    (object : ∀ ms, (∀ m ∈ ms, P m.2) → P (.object ms)) (v : Value N) : P v := by
  induction size : sizeOf v using Nat.strong_induction_on generalizing v with
  | _ n ih =>
    subst size
    cases v with
    | null => exact null
    | bool b => exact bool b
    | number n => exact number n
    | string t => exact string t
    | array vs =>
      refine array vs fun v member => ih (sizeOf v) ?_ v rfl
      have smaller := sizeOf_lt_of_mem member
      simp only [Value.array.sizeOf_spec]
      omega
    | object ms =>
      refine object ms fun m member => ih (sizeOf m.2) ?_ m.2 rfl
      have smaller := sizeOf_lt_of_mem member
      have part : sizeOf m.2 < sizeOf m := by
        obtain ⟨key,v⟩ := m
        simp only [Prod.mk.sizeOf_spec]
        omega
      simp only [Value.object.sizeOf_spec]
      omega

section
variable (print : N → Number)

def shape (v : Value N) : Json := marshal print (canonicalizeJSONValue v)

theorem shape_array (vs : List (Value N)) : shape print (.array vs) = .array (vs.map (shape print)) := by
  have items : marshalItems print (canonicalizeItems vs) = vs.map (shape print) := by
    induction vs with
    | nil => rfl
    | cons v vs ih => rw [canonicalizeItems,marshalItems,ih]; rfl
  rw [shape,canonicalizeJSONValue,marshal,items]

theorem sortKeys_map {α β : Type} (f : α → β) (ms : List (List Char × α)) :
    sortKeys (ms.map fun m => (m.1,f m.2)) = (sortKeys ms).map fun m => (m.1,f m.2) := by
  unfold sortKeys
  rw [map_insertionSort _ fun m m' : List Char × β => m.1 ≤ m'.1]
  exact fun _ _ _ _ => Iff.rfl

variable (ms : List (List Char × Value N))

def written : List (List Char × Json) := ms.map fun m => (m.1,shape print m.2)

theorem shape_object :
    shape print (.object ms) = .array ((written print (sortKeys ms)).map pairJson) := by
  have members : canonicalizeMembers ms = ms.map fun m => (m.1,canonicalizeJSONValue m.2) := by
    induction ms with
    | nil => rfl
    | cons m ms ih => rw [canonicalizeMembers,ih]; rfl
  have pairs (kvs : List (List Char × Canonical N)) :
      marshalPairs print kvs = kvs.map fun m => pairJson (m.1,marshal print m.2) := by
    induction kvs with
    | nil => rfl
    | cons m kvs ih => rw [marshalPairs,ih]; rfl
  rw [shape,canonicalizeJSONValue,marshal,members,sortKeys_map,pairs,map_map,written,map_map]
  rfl

theorem shape_ne_object (v : Value N) (ms : List (List Char × Json)) : shape print v ≠ .object ms := by
  cases v <;> simp [shape,canonicalizeJSONValue,marshal]

end

theorem sortKeys_perm {α : Type} (ms : List (List Char × α)) : (sortKeys ms).Perm ms := perm_insertionSort _ _

theorem sortKeys_eq {α : Type} {ms ns : List (List Char × α)} (perm : ms.Perm ns) (distinct : (ns.map Prod.fst).Nodup) :
    sortKeys ms = sortKeys ns := by
  have sorted (l : List (List Char × α)) : (sortKeys l).Pairwise fun m m' => m.1 ≤ m'.1 :=
    pairwise_insertionSort _ _
  refine List.Perm.eq_of_pairwise (fun m m' left right le ge => ?_) (sorted ms) (sorted ns)
    ((sortKeys_perm ms).trans (perm.trans (sortKeys_perm ns).symm))
  have inside : m ∈ ns := perm.mem_iff.mp ((sortKeys_perm ms).mem_iff.mp left)
  have inside' : m' ∈ ns := (sortKeys_perm ns).mem_iff.mp right
  exact inj_on_of_nodup_map distinct inside inside' (le_antisymm le ge)

theorem written_sortKeys {print : N → Number} {ms ns : List (List Char × Value N)} (perm : ms.Perm ns)
    (distinct : (ns.map Prod.fst).Nodup) : written print (sortKeys ns) = sortKeys (written print ms) := by
  rw [written,written,sortKeys_map,sortKeys_eq perm distinct]

/-! ### Equal values are written alike -/

theorem DecodedItems.mem {vs : List (Value N)} (decoded : DecodedItems vs) : ∀ v ∈ vs, v.Decoded := by
  induction vs with
  | nil => simp
  | cons v vs ih => simpa using ⟨decoded.1,ih decoded.2⟩

variable {ms : List (List Char × Value N)}

theorem DecodedMembers.mem (decoded : DecodedMembers ms) : ∀ m ∈ ms, m.2.Decoded := by
  induction ms with
  | nil => simp
  | cons m ms ih =>
    intro m' member
    rcases mem_cons.mp member with rfl | member
    · exact decoded.1
    · exact ih decoded.2 m' member

theorem Value.Decoded.items {vs : List (Value N)} (decoded : (Value.array vs).Decoded) : ∀ v ∈ vs, v.Decoded := by
  exact decoded.mem

theorem Value.Decoded.members (decoded : (Value.object ms).Decoded) :
    (ms.map Prod.fst).Nodup ∧ ∀ m ∈ ms, m.2.Decoded := by
  exact ⟨decoded.1,decoded.2.mem⟩

section
variable {print : N → Number} {loose : Prop}

theorem shapes_of_sameItems {vs ws : List (Value N)} (same : SameItems loose vs ws)
    (each : ∀ v ∈ vs, ∀ w ∈ ws, Same loose v w → shape print v = shape print w) :
    vs.map (shape print) = ws.map (shape print) := by
  induction vs generalizing ws with
  | nil => cases same; rfl
  | cons v vs ih =>
    cases same with
    | cons first rest =>
      rw [map_cons,map_cons,each v mem_cons_self _ mem_cons_self first,
        ih rest fun v left w right => each v (mem_cons_of_mem _ left) w (mem_cons_of_mem _ right)]

theorem shapes_of_sameMembers {ms ns : List (List Char × Value N)} (same : SameMembers loose ms ns)
    (each : ∀ m ∈ ms, ∀ n ∈ ns, Same loose m.2 n.2 → shape print m.2 = shape print n.2) :
    written print ms = written print ns := by
  unfold written
  induction ms generalizing ns with
  | nil => cases same; rfl
  | cons m ms ih =>
    cases same with
    | cons first rest =>
      rw [map_cons,map_cons,each _ mem_cons_self _ mem_cons_self first,
        ih rest fun m left n right => each m (mem_cons_of_mem _ left) n (mem_cons_of_mem _ right)]

theorem shape_of_same (v : Value N) : ∀ w, Same loose v w → v.Decoded → w.Decoded → shape print v = shape print w := by
  induction v using Value.induct with
  | null | bool b | number n | string t => intro w same _ _; cases same; rfl
  | array vs ih =>
    intro w same decoded decoded'
    cases same with
    | array items =>
      rw [shape_array,shape_array,shapes_of_sameItems items (fun v left w right same =>
        ih v left w same (decoded.items v left) (decoded'.items w right))]
    | arrayObject _ => rfl
  | object ms ih =>
    intro w same decoded decoded'
    cases same with
    | object perm members perm' =>
      obtain ⟨distinct,parts⟩ := decoded.members
      obtain ⟨distinct',parts'⟩ := decoded'.members
      have pairs := shapes_of_sameMembers members (fun m left n right same =>
        ih m (perm.mem_iff.mpr left) n.2 same (parts m (perm.mem_iff.mpr left)) (parts' n (perm'.mem_iff.mp right)))
      rw [shape_object,shape_object,written_sortKeys perm.symm distinct,written_sortKeys perm' distinct',pairs]
    | objectArray _ => rfl

/-! ### What is written alike is equal but for what is empty -/

theorem sameItems_of_shapes {vs : List (Value N)} (each : ∀ v ∈ vs, ∀ w, shape print v = shape print w → Same loose v w) :
    ∀ {ws : List (Value N)}, vs.map (shape print) = ws.map (shape print) → SameItems loose vs ws := by
  induction vs with
  | nil =>
    intro ws shapes
    rw [map_eq_nil_iff.mp shapes.symm]
    exact .nil
  | cons v vs ih =>
    intro ws shapes
    cases ws with
    | nil => simp at shapes
    | cons w ws =>
      rw [map_cons,map_cons,cons.injEq] at shapes
      exact .cons (each v mem_cons_self w shapes.1)
        (ih (fun v member => each v (mem_cons_of_mem _ member)) shapes.2)

theorem sameMembers_of_written {ms : List (List Char × Value N)}
    (each : ∀ m ∈ ms, ∀ w, shape print m.2 = shape print w → Same loose m.2 w) :
    ∀ {ns : List (List Char × Value N)}, written print ms = written print ns → SameMembers loose ms ns := by
  unfold written
  induction ms with
  | nil =>
    intro ns shapes
    rw [map_eq_nil_iff.mp shapes.symm]
    exact .nil
  | cons m ms ih =>
    intro ns shapes
    cases ns with
    | nil => simp at shapes
    | cons n ns =>
      obtain ⟨key,v⟩ := m
      obtain ⟨key',w⟩ := n
      simp only [map_cons,cons.injEq,Prod.mk.injEq] at shapes
      obtain ⟨⟨rfl,first⟩,rest⟩ := shapes
      exact .cons (each (key,v) mem_cons_self w first)
        (ih (fun m member => each m (mem_cons_of_mem _ member)) rest)

theorem pairJson_injective : Function.Injective pairJson := by
  rintro ⟨key,v⟩ ⟨key',w⟩ same
  simpa [pairJson] using same

theorem nil_of_items_eq_pairs {vs : List (Value N)} {ms : List (List Char × Value N)}
    (same : vs.map (shape print) = (written print (sortKeys ms)).map pairJson) : vs = [] ∧ ms = [] := by
  cases vs with
  | nil =>
    have none : sortKeys ms = [] := by simpa [written] using same.symm
    refine ⟨rfl,?_⟩
    have perm := sortKeys_perm ms
    rw [none] at perm
    exact perm.nil_eq.symm
  | cons v vs =>
    cases pairs : written print (sortKeys ms) with
    | nil =>
      rw [pairs] at same
      simp at same
    | cons p ps =>
      rw [pairs,map_cons,map_cons,cons.injEq] at same
      exact absurd same.1 (shape_ne_object print v _)

theorem same_of_shape (faithful : Function.Injective print) (v : Value N) : ∀ w, shape print v = shape print w →
    Same True v w := by
  induction v using Value.induct with
  | null => intro w same; cases w <;> simp [shape,canonicalizeJSONValue,marshal] at same; exact .null
  | bool b =>
    intro w same
    cases w <;> simp [shape,canonicalizeJSONValue,marshal] at same
    subst same
    exact .bool b
  | number n =>
    intro w same
    cases w <;> simp [shape,canonicalizeJSONValue,marshal] at same
    rw [faithful same]
    exact .number _
  | string t =>
    intro w same
    cases w <;> simp [shape,canonicalizeJSONValue,marshal] at same
    subst same
    exact .string t
  | array vs ih =>
    intro w same
    rw [shape_array] at same
    cases w with
    | array ws =>
      rw [shape_array,Json.array.injEq] at same
      exact .array (sameItems_of_shapes ih same)
    | object ms =>
      rw [shape_object,Json.array.injEq] at same
      obtain ⟨rfl,rfl⟩ := nil_of_items_eq_pairs same
      exact .arrayObject trivial
    | _ => simp [shape,canonicalizeJSONValue,marshal] at same
  | object ms ih =>
    intro w same
    rw [shape_object] at same
    cases w with
    | array ws =>
      rw [shape_array,Json.array.injEq] at same
      obtain ⟨rfl,rfl⟩ := nil_of_items_eq_pairs same.symm
      exact .objectArray trivial
    | object ns =>
      rw [shape_object,Json.array.injEq] at same
      have pairs := map_injective_iff.mpr pairJson_injective same
      refine .object (sortKeys_perm ms).symm (sameMembers_of_written ?_ pairs) (sortKeys_perm ns)
      exact fun m member => ih m ((sortKeys_perm ms).mem_iff.mp member)
    | _ => simp [shape,canonicalizeJSONValue,marshal] at same

end

/-! ### Keys -/

theorem render_injective : Function.Injective render := by
  intro v w same
  have read := (denotes_render v).parse
  rw [same,(denotes_render w).parse] at read
  exact (Option.some.inj read).symm

theorem hexDigit_injective {m n : Nat} (small : m < 16) (small' : n < 16) (same : hexDigit m = hexDigit n) : m = n := by
  have read := hexValue_hexDigit m small
  rw [same,hexValue_hexDigit n small'] at read
  exact (Option.some.inj read).symm

theorem encodeToString_injective : Function.Injective encodeToString := by
  have bytes (bs : List UInt8) : ∀ cs : List UInt8,
      bs.flatMap (fun b => [hexDigit (b.toNat/16),hexDigit (b.toNat%16)]) =
        cs.flatMap (fun b => [hexDigit (b.toNat/16),hexDigit (b.toNat%16)]) → bs = cs := by
    induction bs with
    | nil => intro cs same; cases cs <;> simp at same ⊢
    | cons b bs ih =>
      intro cs same
      cases cs with
      | nil => simp at same
      | cons c cs =>
        simp only [flatMap_cons,cons_append,nil_append,cons.injEq] at same
        obtain ⟨high,low,rest⟩ := same
        have small := b.toNat_lt
        have small' := c.toNat_lt
        have upper := hexDigit_injective (by omega) (by omega) high
        have lower := hexDigit_injective (by omega) (by omega) low
        rw [ih cs rest,UInt8.toNat_inj.mp (show b.toNat = c.toNat by omega)]
  rintro ⟨bs,length⟩ ⟨cs,length'⟩ same
  have equal := bytes bs cs same
  subst equal
  rfl

theorem length_encodeToString (d : Digest) : (encodeToString d).length = 64 := by
  rw [encodeToString,length_flatMap]
  simp [d.length]

variable {sum256 : List Char → Digest}

theorem cacheKey_eq_iff {print : N → Number} {t t' : List Char} {a a' : Arguments N} :
    cacheKey print sum256 t a = cacheKey print sum256 t' a' ↔
      t = t' ∧ sum256 (a.text print) = sum256 (a'.text print) := by
  refine ⟨fun same => ?_,fun ⟨tools,sums⟩ => by rw [cacheKey,cacheKey,tools,sums]⟩
  -- The sum has a fixed length, so a colon in a tool name does not matter.
  obtain ⟨tools,rest⟩ := append_inj' same (by simp [length_encodeToString])
  exact ⟨tools,encodeToString_injective (cons.inj rest).2⟩

/-- Unless two texts collide, keys are the same just when the tools are and the arguments are but
    for arrays and objects that are empty. -/
theorem cacheKey_eq_iff_alike {print : N → Number} (faithful : Function.Injective print)
    {t t' : List Char} {a a' : Arguments N}
    (free : sum256 (a.text print) = sum256 (a'.text print) → a.text print = a'.text print) :
    cacheKey print sum256 t a = cacheKey print sum256 t' a' ↔ t = t' ∧ Alike a a' := by
  rw [cacheKey_eq_iff]
  refine and_congr_right fun _ => ⟨fun sums => ?_,fun alike => ?_⟩
  · exact same_of_shape faithful _ _ (render_injective (free sums))
  · exact congrArg (fun shape => sum256 (render shape)) (shape_of_same _ _ alike a.decoded a'.decoded)

def sampleSum (text : List Char) : Digest :=
  if text = "[]".toList then ⟨[0x4f,0x53,0xcd,0xa1,0x8c,0x2b,0xaa,0x0c,0x03,0x54,0xbb,0x5f,0x9a,0x3e,0xcb,0xe5,
    0xed,0x12,0xab,0x4d,0x8e,0x11,0xba,0x87,0x3c,0x2f,0x11,0x16,0x12,0x02,0xb9,0x45],rfl⟩
  else ⟨[0x9f,0x79,0x40,0x92,0x02,0x80,0xfa,0x5d,0x6c,0x80,0x69,0xb2,0xaa,0x66,0xb0,0xf1,
    0x24,0x29,0xc9,0x5d,0x3d,0xab,0x8d,0xc5,0x0a,0x35,0xa7,0x6f,0x38,0x49,0xb2,0xe7],rfl⟩

def noArguments : Arguments Number := ⟨[],by simp [Value.Decoded,DecodedMembers]⟩

def emptyObject : Arguments Number := ⟨[(['a'],.object [])],by simp [Value.Decoded,DecodedMembers]⟩

def emptyArray : Arguments Number := ⟨[(['a'],.array [])],by simp [Value.Decoded,DecodedMembers,DecodedItems]⟩

end Mcpkit.CacheKeys
