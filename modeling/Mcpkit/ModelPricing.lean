import Mathlib.Algebra.Order.Field.Rat
import Mathlib.Data.List.Infix
import Mathlib.Data.List.Perm.Basic

/-!
Prices of models. A name that is neither an alias nor in the table stands for the first key of the
table that begins it, in the order in which Go ranges over a map.
-/
namespace Mcpkit.ModelPricing
open List

structure Pricing where
  inputPerMToken : ℚ
  outputPerMToken : ℚ
  cacheReadPerMToken : ℚ

def defaultPricing : List (String × Pricing) :=
  [("claude-fable-5-1",⟨10,50,1⟩),("claude-mythos-5-1",⟨10,50,1⟩),("claude-fable-5",⟨10,50,1⟩),
    ("claude-mythos-5",⟨10,50,1⟩),("claude-opus-5",⟨5,25,0.5⟩),("claude-opus-4-8",⟨5,25,0.5⟩),
    ("claude-opus-4-7",⟨5,25,0.5⟩),("claude-opus-4-6",⟨5,25,0.5⟩),("claude-sonnet-5",⟨3,15,0.3⟩),
    ("claude-sonnet-4-6",⟨3,15,0.3⟩),("claude-haiku-4-5",⟨1,5,0.1⟩),("claude-opus-4-5",⟨15,75,1.5⟩),
    ("claude-sonnet-4-5",⟨3,15,0.3⟩),("gpt-5.5",⟨5,30,2.5⟩),("o1",⟨15,60,7.5⟩),("o1-mini",⟨3,12,1.5⟩),
    ("o3",⟨10,40,5⟩),("o3-mini",⟨1.1,4.4,0.55⟩),("o4-mini",⟨1.1,4.4,0.55⟩),("codex-mini-latest",⟨1.5,6,0.75⟩),
    ("gemini-3.1-pro",⟨2,12,0.5⟩),("gemini-3.8-flash",⟨0.75,3.75,0.075⟩),
    ("gemini-3.8-flash-high",⟨0.75,3.75,0.075⟩),("gemini-3.8-flash-medium",⟨0.75,3.75,0.075⟩),
    ("gemini-3.8-flash-low",⟨0.75,3.75,0.075⟩)]

def keys : List String := defaultPricing.map Prod.fst

def modelAliases : List (String × String) :=
  [("claude-opus-4-6-20260401","claude-opus-4-6"),("claude-sonnet-4-6-20260401","claude-sonnet-4-6"),
    ("claude-opus-4-5-20250514","claude-opus-4-5"),("claude-sonnet-4-5-20250514","claude-sonnet-4-5"),
    ("opus","claude-opus-5"),("sonnet","claude-sonnet-5"),("haiku","claude-haiku-4-5"),("fable","claude-fable-5-1"),
    ("o1-preview","o1"),("gemini-pro","gemini-3.1-pro"),("gemini-flash","gemini-3.8-flash"),
    ("flash","gemini-3.8-flash")]

def trimSuffix (text suffix : String) : String :=
  if suffix.toList <:+ text.toList then String.ofList (text.toList.take (text.length-suffix.length)) else text

/-- `strings.HasPrefix` -/
def Begins (text key : String) : Prop := key.toList <+: text.toList

instance (text key : String) : Decidable (Begins text key) := inferInstanceAs (Decidable (_ <+: _))

section
variable (toLower : String → String) (order : List String) (raw : String)

def lowered : String := trimSuffix (toLower raw) "[1m]"

/-- `NormalizeModelName`, when the loop takes the keys in the given order. -/
def normalizeModelName : String :=
  if raw = "" then ""
  else
    match modelAliases.lookup (lowered toLower raw) with
    | some canonical => canonical
    | none =>
      if lowered toLower raw ∈ keys then lowered toLower raw
      else (order.find? (fun key => Begins (lowered toLower raw) key)).getD raw

def modelCost (inputTokens outputTokens : Int) : ℚ :=
  match defaultPricing.lookup (normalizeModelName toLower order raw) with
  | none => 0
  | some p => inputTokens/1000000*p.inputPerMToken + outputTokens/1000000*p.outputPerMToken

def Unlisted : Prop := raw ≠ "" ∧ modelAliases.lookup (lowered toLower raw) = none ∧ lowered toLower raw ∉ keys

instance : Decidable (Unlisted toLower raw) := inferInstanceAs (Decidable (_ ∧ _ ∧ _))

structure Normalized : Prop where
  single : ∀ order order', order.Perm keys → order'.Perm keys →
    normalizeModelName toLower order raw = normalizeModelName toLower order' raw
  longest : Unlisted toLower raw → (∃ key ∈ keys, Begins (lowered toLower raw) key) → ∀ order, order.Perm keys →
    normalizeModelName toLower order raw ∈ keys ∧ Begins (lowered toLower raw) (normalizeModelName toLower order raw) ∧
    ∀ key ∈ keys, Begins (lowered toLower raw) key → key.length ≤ (normalizeModelName toLower order raw).length
  priced : ∀ order order', order.Perm keys → order'.Perm keys → ∀ inputTokens outputTokens,
    modelCost toLower order raw inputTokens outputTokens = modelCost toLower order' raw inputTokens outputTokens

end

def longerKeys : List String := keys.filter fun key => keys.any fun short => short ≠ key ∧ Begins key short

example : longerKeys = ["claude-fable-5-1","claude-mythos-5-1","o1-mini","o3-mini","gemini-3.8-flash-high",
    "gemini-3.8-flash-medium","gemini-3.8-flash-low"] := by decide

section
variable {toLower : String → String} {raw : String}

theorem normalizeModelName_unlisted (unlisted : Unlisted toLower raw) (order : List String) :
    normalizeModelName toLower order raw = (order.find? (fun key => Begins (lowered toLower raw) key)).getD raw := by
  obtain ⟨some_,alias_,exact_⟩ := unlisted
  simp [normalizeModelName,some_,alias_,exact_]

theorem normalizeModelName_first (unlisted : Unlisted toLower raw) {key : String}
    (begins : Begins (lowered toLower raw) key) (order : List String) :
    normalizeModelName toLower (key :: order) raw = key := by
  rw [normalizeModelName_unlisted unlisted,find?_cons_of_pos (by simpa using begins)]
  rfl

theorem normalizeModelName_listed (listed : ¬ Unlisted toLower raw) (order order' : List String) :
    normalizeModelName toLower order raw = normalizeModelName toLower order' raw := by
  unfold normalizeModelName
  split
  · rfl
  · rename_i some_
    split
    · rfl
    · rename_i alias_
      have exact_ : lowered toLower raw ∈ keys := by
        by_contra missing
        exact listed ⟨some_,alias_,missing⟩
      rw [if_pos exact_,if_pos exact_]

/-- Two keys that begin one name are equal, unless the longer one begins with the other. -/
theorem key_unique {text key key' : String} (plain : ∀ long ∈ longerKeys, ¬ Begins text long) (member : key ∈ keys)
    (member' : key' ∈ keys) (begins : Begins text key) (begins' : Begins text key') : key = key' := by
  have shorter {short long : String} (inside : short ∈ keys) (inside' : long ∈ keys) (starts : Begins text short)
      (starts' : Begins text long) (length : short.toList.length ≤ long.toList.length) : short = long := by
    by_contra different
    refine plain long (mem_filter.mpr ⟨inside',any_eq_true.mpr ⟨short,inside,?_⟩⟩) starts'
    exact decide_eq_true ⟨different,prefix_of_prefix_length_le starts starts' length⟩
  rcases Nat.le_total key.toList.length key'.toList.length with less | more
  · exact shorter member member' begins begins' less
  · exact (shorter member' member begins' begins more).symm

theorem find_key {text key : String} (plain : ∀ long ∈ longerKeys, ¬ Begins text long) (member : key ∈ keys)
    (begins : Begins text key) {order : List String} (perm : order.Perm keys) :
    order.find? (fun key => Begins text key) = some key := by
  cases found : order.find? (fun key => Begins text key) with
  | none => exact absurd begins (by simpa using find?_eq_none.mp found key (perm.mem_iff.mpr member))
  | some other =>
    have begins' : Begins text other := by simpa using find?_some found
    rw [key_unique plain member (perm.mem_iff.mp (mem_of_find?_eq_some found)) begins begins']

theorem normalized_of_plain (plain : ∀ long ∈ longerKeys, ¬ Begins (lowered toLower raw) long) :
    Normalized toLower raw := by
  have single : ∀ order order', order.Perm keys → order'.Perm keys →
      normalizeModelName toLower order raw = normalizeModelName toLower order' raw := by
    intro order order' perm perm'
    by_cases unlisted : Unlisted toLower raw
    · rw [normalizeModelName_unlisted unlisted,normalizeModelName_unlisted unlisted]
      cases found : order.find? (fun key => Begins (lowered toLower raw) key) with
      | some key =>
        have begins : Begins (lowered toLower raw) key := by simpa using find?_some found
        rw [find_key plain (perm.mem_iff.mp (mem_of_find?_eq_some found)) begins perm']
      | none =>
        rw [find?_eq_none.mpr fun key member => find?_eq_none.mp found key
          (perm.mem_iff.mpr (perm'.mem_iff.mp member))]
    · exact normalizeModelName_listed unlisted _ _
  refine ⟨single,fun unlisted ⟨key,member,begins⟩ order perm => ?_,fun order order' perm perm' _ _ => ?_⟩
  · rw [normalizeModelName_unlisted unlisted,find_key plain member begins perm]
    exact ⟨member,begins,fun other inside starts => (key_unique plain inside member starts begins) ▸ Nat.le_refl _⟩
  · rw [modelCost,modelCost,single order order' perm perm']

theorem longer_not_normalized (unlisted : Unlisted toLower raw) {long : String} (inside : long ∈ longerKeys)
    (begins : Begins (lowered toLower raw) long) : ¬ Normalized toLower raw := by
  intro normalized
  obtain ⟨member,shorter⟩ := mem_filter.mp inside
  obtain ⟨short,member',both⟩ := any_eq_true.mp shorter
  obtain ⟨different,starts⟩ := of_decide_eq_true both
  -- the loop may meet either key first
  have same := normalized.single _ _ (perm_cons_erase member').symm (perm_cons_erase member).symm
  rw [normalizeModelName_first unlisted (starts.trans begins),normalizeModelName_first unlisted begins] at same
  exact different same

end

/-- The name and the price of a model do not depend on the order of the table if and only if the name
    is empty, an alias or a key, or begins with no key that itself begins with another. -/
theorem normalized_iff (toLower : String → String) (raw : String) : Normalized toLower raw ↔
      (Unlisted toLower raw → ∀ long ∈ longerKeys, ¬ Begins (lowered toLower raw) long) := by
  constructor
  · intro normalized unlisted long inside begins
    exact longer_not_normalized unlisted inside begins normalized
  · intro plain
    by_cases unlisted : Unlisted toLower raw
    · exact normalized_of_plain (plain unlisted)
    · refine ⟨fun order order' _ _ => normalizeModelName_listed unlisted order order',fun other => absurd other unlisted,
        fun order order' _ _ _ _ => ?_⟩
      rw [modelCost,modelCost,normalizeModelName_listed unlisted order order']

/-- A dated `o1-mini` has its own price or that of `o1`. -/
theorem dated_variant_mispriced : ("o1-mini" :: keys.erase "o1-mini").Perm keys ∧ ("o1" :: keys.erase "o1").Perm keys ∧
    normalizeModelName String.toLower ("o1-mini" :: keys.erase "o1-mini") "o1-mini-2024-09-12" = "o1-mini" ∧
    normalizeModelName String.toLower ("o1" :: keys.erase "o1") "o1-mini-2024-09-12" = "o1" ∧
    modelCost String.toLower ("o1-mini" :: keys.erase "o1-mini") "o1-mini-2024-09-12" 1000000 0 = 3 ∧
    modelCost String.toLower ("o1" :: keys.erase "o1") "o1-mini-2024-09-12" 1000000 0 = 15 ∧
    ¬ Normalized String.toLower "o1-mini-2024-09-12" := by
  have same : lowered String.toLower "o1-mini-2024-09-12" = "o1-mini-2024-09-12" := by decide +kernel
  have unlisted : Unlisted String.toLower "o1-mini-2024-09-12" := by
    rw [Unlisted,same]
    decide
  have begins : Begins (lowered String.toLower "o1-mini-2024-09-12") "o1-mini" := by
    rw [same]
    decide
  have begins' : Begins (lowered String.toLower "o1-mini-2024-09-12") "o1" := by
    rw [same]
    decide
  have member : "o1-mini" ∈ keys := by decide
  have member' : "o1" ∈ keys := by decide
  have first := normalizeModelName_first unlisted begins (keys.erase "o1-mini")
  have first' := normalizeModelName_first unlisted begins' (keys.erase "o1")
  refine ⟨(perm_cons_erase member).symm,(perm_cons_erase member').symm,first,first',?_,?_,?_⟩
  · rw [modelCost,first]
    decide +kernel
  · rw [modelCost,first']
    decide +kernel
  · refine longer_not_normalized unlisted (mem_filter.mpr ⟨member,any_eq_true.mpr ⟨"o1",member',?_⟩⟩) begins
    decide
end Mcpkit.ModelPricing
