import Mcpkit.Delimited
import Mathlib.Data.Finmap

/-!
Fingerprints of tool definitions. The name, the description, the JSON text of the input schema and
the raw input schema are hashed one after the other, each with a NUL byte after it.
-/
namespace Mcpkit.Integrity
open Delimited List Option

abbrev Bytes := List UInt8

variable {Schema Digest : Type}

structure ToolDefinition (Schema : Type) where
  name : Bytes
  description : Bytes
  inputSchema : Schema
  rawInputSchema : Option Bytes

structure Hashing (Schema Digest : Type) where
  marshal : Schema → Option Bytes
  format : Schema → Bytes
  sum : Bytes → Digest

variable (h : Hashing Schema Digest)

/-- JSON text has no NUL byte, since control characters are escaped in it; it is there for
    every input schema and tells them apart; and SHA-256 has no collisions. -/
structure Hashing.Ideal : Prop where
  marshals : ∀ schema, (h.marshal schema).isSome
  escapes : ∀ schema text, h.marshal schema = some text → 0 ∉ text
  injective : ∀ schema schema' text, h.marshal schema = some text → h.marshal schema' = some text → schema = schema'
  collisionless : Function.Injective h.sum

def Hashing.schemaText (schema : Schema) : Bytes := (h.marshal schema).getD (h.format schema)

variable (td : ToolDefinition Schema)

def ToolDefinition.raw : Bytes := td.rawInputSchema.getD []

def Hashing.written : Bytes :=
  (td.name ++ [0]) ++ (td.description ++ [0]) ++ (h.schemaText td.inputSchema ++ [0]) ++ (td.raw ++ [0])

def Hashing.fingerprint : Digest := h.sum (h.written td)

structure Violation (Digest : Type) where
  tool : Bytes
  timestamp : Int
  previous : Digest
  current : Digest

inductive RegisterError where
  | fingerprintChanged (name : Bytes)

def RegisterError.text (quote : Bytes → String) : RegisterError → String
  | .fingerprintChanged name => "integrity: tool " ++ quote name ++ " fingerprint changed on re-registration"

structure IntegrityStore (Digest : Type) where
  prints : Finmap fun _ : Bytes => Digest
  violations : List (Violation Digest)

def newIntegrityStore : IntegrityStore Digest := ⟨∅,[]⟩

section
variable [DecidableEq Digest] (s : IntegrityStore Digest)

def IntegrityStore.compare (name : Bytes) (now : Int) (existing fp : Digest) :
    Option (Violation Digest) × IntegrityStore Digest :=
  if existing = fp then (none,s)
  else (some ⟨name,now,existing,fp⟩,{ s with violations := s.violations ++ [⟨name,now,existing,fp⟩] })

def IntegrityStore.register (h : Hashing Schema Digest) (now : Int) (td : ToolDefinition Schema) :
    Option RegisterError × IntegrityStore Digest :=
  match s.prints.lookup td.name with
  | none => (none,{ s with prints := s.prints.insert td.name (h.fingerprint td) })
  | some existing =>
    let (violation,s) := s.compare td.name now existing (h.fingerprint td)
    (violation.map fun v => .fingerprintChanged v.tool,s)

def IntegrityStore.verify (h : Hashing Schema Digest) (now : Int) (td : ToolDefinition Schema) :
    Option (Violation Digest) × IntegrityStore Digest :=
  match s.prints.lookup td.name with
  | none => (none,s)
  | some existing => s.compare td.name now existing (h.fingerprint td)

end

inductive Call (Schema : Type) where
  | register (now : Int) (td : ToolDefinition Schema)
  | verify (now : Int) (td : ToolDefinition Schema)

def IntegrityStore.apply [DecidableEq Digest] (h : Hashing Schema Digest) (s : IntegrityStore Digest) :
    Call Schema → IntegrityStore Digest
  | .register now td => (s.register h now td).2
  | .verify now td => (s.verify h now td).2

def stored [DecidableEq Digest] (h : Hashing Schema Digest) (calls : List (Call Schema)) : IntegrityStore Digest :=
  calls.foldl (IntegrityStore.apply h) newIntegrityStore

def Call.registers (name : Bytes) : Call Schema → Option (ToolDefinition Schema)
  | .register _ td => if td.name = name then some td else none
  | .verify _ _ => none

def firstRegistered (name : Bytes) (calls : List (Call Schema)) : Option (ToolDefinition Schema) :=
  calls.findSome? (Call.registers name)

/-- The same name, description, input schema and raw input schema; a missing raw schema has no bytes. -/
def Same (a b : ToolDefinition Schema) : Prop :=
  a.name = b.name ∧ a.description = b.description ∧ a.inputSchema = b.inputSchema ∧ a.raw = b.raw

instance decidableSame [DecidableEq Schema] (a b : ToolDefinition Schema) : Decidable (Same a b) :=
  inferInstanceAs (Decidable (_ ∧ _ ∧ _ ∧ _))

/-! ### Where a definition can be cut in another way -/

variable (h : Hashing Schema Digest)

/-- The raw schema has, at its start or after a NUL byte, the JSON text of an input schema
    with a NUL byte after it. -/
def Hashing.TextInRaw (raw : Bytes) : Prop :=
  ∃ schema rest, raw = h.schemaText schema ++ 0 :: rest ∨
    ∃ before, raw = before ++ 0 :: (h.schemaText schema ++ 0 :: rest)

/-- The description has, after a NUL byte, the JSON text of an input schema, and ends there
    or goes on with a NUL byte. -/
def Hashing.TextInDescription (description : Bytes) : Prop :=
  ∃ schema before, description = before ++ 0 :: h.schemaText schema ∨
    ∃ rest, description = before ++ 0 :: (h.schemaText schema ++ 0 :: rest)

structure Hashing.Clean (td : ToolDefinition Schema) : Prop where
  name : 0 ∉ td.name
  description : 0 ∉ td.description
  raw : ¬ h.TextInRaw td.raw

structure Hashing.Pinned (td : ToolDefinition Schema) : Prop where
  description : ¬ h.TextInDescription td.description
  raw : ¬ h.TextInRaw td.raw

/-- The second definition takes the JSON text of the first, and perhaps more, into its
    description, and what the first has as its raw schema holds the rest of the second. -/
def Hashing.Shifted (a b : ToolDefinition Schema) : Prop :=
  (b.description = a.description ++ 0 :: h.schemaText a.inputSchema ∧
    a.raw = h.schemaText b.inputSchema ++ 0 :: b.raw) ∨
  ∃ w, b.description = a.description ++ 0 :: (h.schemaText a.inputSchema ++ 0 :: w) ∧
    a.raw = w ++ 0 :: (h.schemaText b.inputSchema ++ 0 :: b.raw)

variable {h} {a b : ToolDefinition Schema}

open Hashing

theorem Hashing.Ideal.text_clean (ideal : h.Ideal) (schema : Schema) : 0 ∉ h.schemaText schema := by
  obtain ⟨text,marshalled⟩ := isSome_iff_exists.mp (ideal.marshals schema)
  simpa only [schemaText,marshalled,getD_some] using ideal.escapes schema text marshalled

theorem Hashing.Ideal.text_injective (ideal : h.Ideal) : Function.Injective h.schemaText := by
  intro schema schema' same
  obtain ⟨text,marshalled⟩ := isSome_iff_exists.mp (ideal.marshals schema)
  obtain ⟨text',marshalled'⟩ := isSome_iff_exists.mp (ideal.marshals schema')
  simp only [schemaText,marshalled,marshalled',getD_some] at same
  exact ideal.injective schema schema' text marshalled (same ▸ marshalled')

def Hashing.tail (h : Hashing Schema Digest) (td : ToolDefinition Schema) : Bytes :=
  td.description ++ 0 :: (h.schemaText td.inputSchema ++ 0 :: (td.raw ++ [0]))

theorem written_eq : h.written td = td.name ++ 0 :: h.tail td := by
  simp only [Hashing.written,Hashing.tail,append_assoc,cons_append,nil_append]

theorem fingerprint_eq_iff (ideal : h.Ideal) :
    h.fingerprint a = h.fingerprint b ↔ a.name ++ 0 :: h.tail a = b.name ++ 0 :: h.tail b := by
  rw [fingerprint,fingerprint,ideal.collisionless.eq_iff,written_eq,written_eq]

theorem Same.fingerprint_eq (same : Same a b) : h.fingerprint a = h.fingerprint b := by
  obtain ⟨name,description,schema,raw⟩ := same
  simp only [Hashing.fingerprint,written_eq,Hashing.tail,name,description,schema,raw]

theorem raw_of_terminated {raw before rest : Bytes} (same : raw ++ [0] = before ++ 0 :: (rest ++ [0])) :
    raw = before ++ 0 :: rest := by
  rw [← cons_append,← append_assoc] at same
  exact append_cancel_right same

/-- Behind the description there is the JSON text, free of NUL bytes, so a longer description takes it in whole. -/
theorem Hashing.Shifted.of_later (ideal : h.Ideal) {w : Bytes} (longer : b.description = a.description ++ 0 :: w)
    (rest : h.schemaText a.inputSchema ++ 0 :: (a.raw ++ [0]) =
      w ++ 0 :: (h.schemaText b.inputSchema ++ 0 :: (b.raw ++ [0]))) : h.Shifted a b := by
  rcases cut_after (ideal.text_clean a.inputSchema) rest with ⟨rfl,raw⟩ | ⟨w',rfl,raw⟩
  · exact .inl ⟨longer,raw_of_terminated raw⟩
  · refine .inr ⟨w',longer,raw_of_terminated (raw.trans ?_)⟩
    simp only [append_assoc,cons_append]

theorem tail_cases (ideal : h.Ideal) (name : a.name = b.name) (same : h.tail a = h.tail b) :
    Same a b ∨ h.Shifted a b ∨ h.Shifted b a := by
  rcases cut_cases same with ⟨description,rest⟩ | ⟨w,longer,rest⟩ | ⟨w,longer,rest⟩
  · obtain ⟨text,raw⟩ := cut_unique (ideal.text_clean _) (ideal.text_clean _) rest
    exact .inl ⟨name,description,ideal.text_injective text,append_cancel_right raw⟩
  · exact .inr (.inl (.of_later ideal longer rest))
  · exact .inr (.inr (.of_later ideal longer rest))

section
variable (shifted : h.Shifted a b)
include shifted

theorem Hashing.Shifted.tail_eq : h.tail a = h.tail b := by
  rcases shifted with ⟨description,raw⟩ | ⟨w,description,raw⟩ <;>
    simp only [tail,description,raw,append_assoc,cons_append]

theorem Hashing.Shifted.not_same : ¬ Same a b := by
  rintro ⟨-,same,-⟩
  rcases shifted with ⟨description,-⟩ | ⟨w,description,-⟩ <;>
    exact append_cons_ne _ _ (description.symm.trans same.symm)

theorem Hashing.Shifted.textInRaw : h.TextInRaw a.raw := by
  rcases shifted with ⟨-,raw⟩ | ⟨w,-,raw⟩
  · exact ⟨_,_,.inl raw⟩
  · exact ⟨_,_,.inr ⟨w,raw⟩⟩

theorem Hashing.Shifted.textInDescription : h.TextInDescription b.description := by
  rcases shifted with ⟨description,-⟩ | ⟨w,description,-⟩
  · exact ⟨_,_,.inl description⟩
  · exact ⟨_,_,.inr ⟨w,description⟩⟩

end

theorem Hashing.TextInRaw.shifted (hidden : h.TextInRaw a.raw) : ∃ b, b.name = a.name ∧ h.Shifted a b := by
  obtain ⟨schema,rest,raw | ⟨before,raw⟩⟩ := hidden
  · exact ⟨⟨a.name,a.description ++ 0 :: h.schemaText a.inputSchema,schema,some rest⟩,rfl,.inl ⟨rfl,raw⟩⟩
  · exact ⟨⟨a.name,a.description ++ 0 :: (h.schemaText a.inputSchema ++ 0 :: before),schema,some rest⟩,rfl,
      .inr ⟨before,rfl,raw⟩⟩

theorem Hashing.TextInDescription.shifted (hidden : h.TextInDescription a.description) :
    ∃ b, b.name = a.name ∧ h.Shifted b a := by
  obtain ⟨schema,before,description | ⟨rest,description⟩⟩ := hidden
  · exact ⟨⟨a.name,before,schema,some (h.schemaText a.inputSchema ++ 0 :: a.raw)⟩,rfl,.inl ⟨description,rfl⟩⟩
  · exact ⟨⟨a.name,before,schema,some (rest ++ 0 :: (h.schemaText a.inputSchema ++ 0 :: a.raw))⟩,rfl,
      .inr ⟨rest,description,rfl⟩⟩

theorem pinned_iff (ideal : h.Ideal) (a : ToolDefinition Schema) :
    (∀ b, b.name = a.name → (h.fingerprint a = h.fingerprint b ↔ Same a b)) ↔ h.Pinned a := by
  constructor
  · intro unique
    refine ⟨fun hidden => ?_,fun hidden => ?_⟩
    · obtain ⟨b,name,shifted⟩ := hidden.shifted
      have same := (unique b name).mp ((fingerprint_eq_iff ideal).mpr (by rw [name,shifted.tail_eq]))
      obtain ⟨name,description,schema,raw⟩ := same
      exact shifted.not_same ⟨name.symm,description.symm,schema.symm,raw.symm⟩
    · obtain ⟨b,name,shifted⟩ := hidden.shifted
      exact shifted.not_same ((unique b name).mp ((fingerprint_eq_iff ideal).mpr (by rw [name,shifted.tail_eq])))
  · intro pinned b name
    refine ⟨fun equal => ?_,Same.fingerprint_eq⟩
    rw [fingerprint_eq_iff ideal,name] at equal
    have tails := (cons.inj (append_cancel_left equal)).2
    rcases tail_cases ideal name.symm tails with same | shifted | shifted
    · exact same
    · exact absurd shifted.textInRaw pinned.raw
    · exact absurd shifted.textInDescription pinned.description

theorem Hashing.TextInDescription.mem {description : Bytes} (hidden : h.TextInDescription description) :
    0 ∈ description := by
  obtain ⟨schema,before,rfl | ⟨rest,rfl⟩⟩ := hidden <;> exact mem_append_right _ mem_cons_self

theorem Hashing.Clean.pinned (clean : h.Clean a) : h.Pinned a :=
  ⟨fun hidden => clean.description hidden.mem,clean.raw⟩

/-- A longer name would take in the description and the JSON text, so that what follows
    them comes from the raw schema. -/
theorem Hashing.Clean.name_eq (ideal : h.Ideal) (clean : h.Clean a)
    (same : a.name ++ 0 :: h.tail a = b.name ++ 0 :: h.tail b) : a.name = b.name := by
  rcases cut_after clean.name same with ⟨name,-⟩ | ⟨w,-,rest⟩
  · exact name
  · let b' : ToolDefinition Schema := { b with name := a.name, description := w ++ 0 :: b.description }
    have own : a.name = b'.name := rfl
    have tails : h.tail a = h.tail b' := by
      rw [rest]
      simp only [b',tail,ToolDefinition.raw,append_assoc,cons_append]
    rcases tail_cases ideal own tails with ⟨-,description,-⟩ | shifted | shifted
    · refine absurd ?_ clean.description
      rw [description]
      exact mem_append_right _ mem_cons_self
    · exact absurd shifted.textInRaw clean.raw
    · exact absurd shifted.textInDescription.mem clean.description

theorem fingerprint_unique_iff (ideal : h.Ideal) (a : ToolDefinition Schema) :
    (∀ b, h.fingerprint a = h.fingerprint b ↔ Same a b) ↔ h.Clean a := by
  constructor
  · intro unique
    refine ⟨fun inside => ?_,fun inside => ?_,((pinned_iff ideal a).mp fun b _ => unique b).raw⟩
    · obtain ⟨first,second,name⟩ := append_of_mem inside
      let b : ToolDefinition Schema := { a with name := first, description := second ++ 0 :: a.description }
      have equal : h.fingerprint a = h.fingerprint b := by
        rw [fingerprint_eq_iff ideal,name]
        simp only [b,Hashing.tail,ToolDefinition.raw,append_assoc,cons_append]
      exact append_cons_ne _ _ (name.symm.trans ((unique b).mp equal).1)
    · obtain ⟨first,second,description⟩ := append_of_mem inside
      let b : ToolDefinition Schema := { a with name := a.name ++ 0 :: first, description := second }
      have equal : h.fingerprint a = h.fingerprint b := by
        rw [fingerprint_eq_iff ideal]
        simp only [b,Hashing.tail,ToolDefinition.raw,description,append_assoc,cons_append]
      exact append_cons_ne _ _ ((unique b).mp equal).1.symm
  · intro clean b
    refine ⟨fun equal => ?_,Same.fingerprint_eq⟩
    have name := clean.name_eq ideal ((fingerprint_eq_iff ideal).mp equal)
    exact ((pinned_iff ideal a).mpr clean.pinned b name.symm).mp equal

open IntegrityStore

/-! ### The store -/
section
variable [DecidableEq Digest] (s : IntegrityStore Digest) (name : Bytes)

@[simp] theorem compare_prints (now : Int) (existing fp : Digest) :
    (s.compare name now existing fp).2.prints = s.prints := by
  unfold IntegrityStore.compare
  split <;> rfl

theorem compare_eq_none_iff {s : IntegrityStore Digest} {name : Bytes} {now : Int} {existing fp : Digest} :
    (s.compare name now existing fp).1 = none ↔ existing = fp := by
  unfold IntegrityStore.compare
  split <;> simp_all

theorem verify_prints (now : Int) (td : ToolDefinition Schema) : (s.verify h now td).2.prints = s.prints := by
  unfold verify
  split
  · rfl
  · exact compare_prints ..

theorem lookup_apply (call : Call Schema) (name : Bytes) :
    (s.apply h call).prints.lookup name = (s.prints.lookup name).or ((call.registers name).map h.fingerprint) := by
  cases call with
  | verify now td => simp only [apply,verify_prints,Call.registers,map_none,or_none]
  | register now td =>
    simp only [apply,register,Call.registers]
    by_cases own : td.name = name
    · subst own
      cases known : s.prints.lookup td.name with
      | none => simp
      | some existing => simpa using known
    · cases known : s.prints.lookup td.name with
      | none => simp [own,Finmap.lookup_insert_of_ne _ (Ne.symm own)]
      | some existing => simp [own]

theorem firstRegistered_cons (call : Call Schema) (rest : List (Call Schema)) :
    firstRegistered name (call :: rest) = (call.registers name).or (firstRegistered name rest) := by
  rw [firstRegistered,findSome?_cons]
  cases call.registers name <;> rfl

theorem lookup_foldl (calls : List (Call Schema)) (s : IntegrityStore Digest) (name : Bytes) :
    (calls.foldl (apply h) s).prints.lookup name =
      (s.prints.lookup name).or ((firstRegistered name calls).map h.fingerprint) := by
  induction calls generalizing s with
  | nil => simp [firstRegistered]
  | cons call rest ih => rw [foldl_cons,ih,lookup_apply,firstRegistered_cons,Option.map_or,Option.or_assoc]

theorem lookup_stored (h : Hashing Schema Digest) (calls : List (Call Schema)) (name : Bytes) :
    (stored h calls).prints.lookup name = (firstRegistered name calls).map h.fingerprint := by
  rw [stored,lookup_foldl]
  simp [newIntegrityStore]

variable {calls : List (Call Schema)}

theorem firstRegistered_name {name : Bytes} (first : firstRegistered name calls = some a) :
    a.name = name := by
  obtain ⟨call,-,registers⟩ := exists_of_findSome?_eq_some first
  cases call with
  | verify now td => cases registers
  | register now td =>
    rw [Call.registers,ite_none_right_eq_some] at registers
    obtain ⟨own,same⟩ := registers
    cases same
    exact own

theorem verify_eq_none_iff {td : ToolDefinition Schema} (now : Int)
    (first : firstRegistered td.name calls = some a) :
    ((stored h calls).verify h now td).1 = none ↔ h.fingerprint a = h.fingerprint td := by
  rw [verify,lookup_stored,first]
  exact compare_eq_none_iff

/-- When the fingerprint of a definition is its own; and when `Verify` accepts the first definition registered
    under a name and no other of that name. -/
theorem pinning_iff (h : Hashing Schema Digest) (ideal : h.Ideal) :
    (∀ a, (∀ b, h.fingerprint a = h.fingerprint b ↔ Same a b) ↔ h.Clean a) ∧
    (∀ calls name a, firstRegistered name calls = some a →
      ((∀ now td, td.name = name → (((stored h calls).verify h now td).1 = none ↔ Same a td)) ↔ h.Pinned a)) ∧
    ∀ calls now td, firstRegistered td.name calls = none → ((stored h calls).verify h now td).1 = none := by
  refine ⟨fingerprint_unique_iff ideal,fun calls name a first => ?_,fun calls now td never => ?_⟩
  · rw [← pinned_iff ideal,firstRegistered_name first]
    refine ⟨fun pinned td own => ?_,fun unique now td own => ?_⟩
    · subst own
      rw [← pinned 0 td rfl,verify_eq_none_iff 0 first]
    · subst own
      rw [verify_eq_none_iff now first,unique td rfl]
  · rw [verify,lookup_stored,never]
    rfl

end

def ascii (text : String) : Bytes := text.toList.map fun c => UInt8.ofNat c.toNat

/-- Two input schemas, one that requires an argument and one that does not; in place of
    SHA-256 the bytes themselves. -/
def plainHashing : Hashing Bool Bytes where
  marshal required := some (ascii
    (if required then "\x7b\"required\":[\"path\"],\"type\":\"object\"\x7d" else "\x7b\"type\":\"object\"\x7d"))
  format _ := []
  sum := id

theorem plainHashing_ideal : plainHashing.Ideal where
  marshals _ := rfl
  escapes := by
    rintro (_ | _) text ⟨⟩ <;> decide
  injective := by
    rintro (_ | _) (_ | _) text ⟨⟩ same
    · rfl
    · exact absurd same (by decide)
    · exact absurd same (by decide)
    · rfl
  collisionless := Function.injective_id

def removeTool : ToolDefinition Bool := ⟨ascii "remove",ascii "Removes a file",true,none⟩

theorem pinning_sample : plainHashing.Ideal ∧
    (∀ b, plainHashing.fingerprint removeTool = plainHashing.fingerprint b ↔ Same removeTool b) ∧
    ∀ now td, td.name = ascii "remove" →
      (((stored plainHashing [.register 0 removeTool]).verify plainHashing now td).1 = none ↔ Same removeTool td) := by
  have clean : plainHashing.Clean removeTool := by
    refine ⟨by decide,by decide,?_⟩
    rintro ⟨schema,rest,raw | ⟨before,raw⟩⟩ <;> simp [removeTool,ToolDefinition.raw] at raw
  have pinning := pinning_iff plainHashing plainHashing_ideal
  exact ⟨plainHashing_ideal,(pinning.1 removeTool).mpr clean,(pinning.2.1 _ _ removeTool rfl).mpr clean.pinned⟩

/-- A name with a NUL byte, against a description with one; and a schema that stands in the description. -/
theorem other_definition_verified : let nulInName : ToolDefinition Bool := ⟨[97,0,98],[99],true,none⟩
    let nulInDescription : ToolDefinition Bool := ⟨[97],[98,0,99],true,none⟩
    let pinned : ToolDefinition Bool :=
      ⟨ascii "remove",ascii "Removes a file" ++ 0 :: plainHashing.schemaText true,false,none⟩
    let changed : ToolDefinition Bool :=
      ⟨ascii "remove",ascii "Removes a file",true,some (plainHashing.schemaText false ++ [0])⟩
    (plainHashing.fingerprint nulInName = plainHashing.fingerprint nulInDescription ∧
      ¬ Same nulInName nulInDescription) ∧
    firstRegistered changed.name [.register 0 pinned] = some pinned ∧
    ((stored plainHashing [.register 0 pinned]).verify plainHashing 1 changed).1.isNone ∧ ¬ Same pinned changed := by
  refine ⟨by decide,rfl,by decide,by decide⟩

end Mcpkit.Integrity
