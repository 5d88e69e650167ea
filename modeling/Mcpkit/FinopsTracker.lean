import Mathlib.Algebra.BigOperators.Group.Finset.Basic
import Mcpkit.GoMaps

/-!
Usage trackers. Token counts are 64-bit integers, so all sums wrap around; they
still form a commutative monoid, and nothing below needs more.
-/
namespace Mcpkit.FinopsTracker
open GoMaps

instance tokenCounts : AddCommMonoid Int64 where
  add_assoc := Int64.add_assoc
  zero_add := Int64.zero_add
  add_zero := Int64.add_zero
  add_comm := Int64.add_comm
  nsmul := nsmulRec

structure UsageEntry where
  toolName : String
  category : String
  inputTokens : Int64
  outputTokens : Int64
  deriving DecidableEq

structure UsageSummary where
  totalInputTokens : Int64
  totalOutputTokens : Int64
  totalInvocations : Int64
  byTool : GoMap Int64
  byCategory : GoMap Int64

def addCount (m : GoMap Int64) (key : String) (n : Int64) : GoMap Int64 :=
  m.insert key ((m.lookup key).getD 0+n)

def UsageSummary.add (s : UsageSummary) (e : UsageEntry) : UsageSummary where
  totalInputTokens := s.totalInputTokens+e.inputTokens
  totalOutputTokens := s.totalOutputTokens+e.outputTokens
  totalInvocations := s.totalInvocations+1
  byTool := addCount s.byTool e.toolName (e.inputTokens+e.outputTokens)
  byCategory := addCount s.byCategory e.category (e.inputTokens+e.outputTokens)

/-- A tracker; of its configuration only the estimate function is read. -/
structure Tracker where
  estimateFunc : Option (String → Int64)
  entries : List UsageEntry
  totalTokens : Int64

def newTracker (estimateFunc : Option (String → Int64)) : Tracker := ⟨estimateFunc,[],0⟩

variable (t : Tracker)

def Tracker.record (entry : UsageEntry) : Tracker :=
  { t with
    entries := t.entries ++ [entry]
    totalTokens := t.totalTokens+(entry.inputTokens+entry.outputTokens) }

def Tracker.summary : UsageSummary := t.entries.foldl UsageSummary.add ⟨0,0,0,∅,∅⟩

def Tracker.total : Int64 := t.totalTokens

@[simp] theorem record_entries (e : UsageEntry) : (t.record e).entries = t.entries ++ [e] := rfl

@[simp] theorem newTracker_total (estimateFunc : Option (String → Int64)) : (newTracker estimateFunc).total = 0 := rfl

private theorem folded_totals (entries : List UsageEntry) : ∀ s : UsageSummary,
    (entries.foldl UsageSummary.add s).totalInputTokens = s.totalInputTokens+(entries.map (·.inputTokens)).sum ∧
    (entries.foldl UsageSummary.add s).totalOutputTokens = s.totalOutputTokens+(entries.map (·.outputTokens)).sum := by
  induction entries with
  | nil => intro s; simp
  | cons e rest ih =>
    intro s
    obtain ⟨input,output⟩ := ih (s.add e)
    rw [List.foldl_cons,input,output]
    exact ⟨add_assoc _ _ _,add_assoc _ _ _⟩

theorem summary_totals : t.summary.totalInputTokens = (t.entries.map (·.inputTokens)).sum ∧
    t.summary.totalOutputTokens = (t.entries.map (·.outputTokens)).sum := by
  obtain ⟨input,output⟩ := folded_totals t.entries ⟨0,0,0,∅,∅⟩
  exact ⟨input.trans (zero_add _),output.trans (zero_add _)⟩

end Mcpkit.FinopsTracker
