import Mcpkit.UrlText

/-!
Paths within a base directory. `SafePath` looks for the text of the base and a slash, which no
path below the root begins with.
-/
namespace Mcpkit.SafePaths
open UrlText List

variable {dir : List Text}

/-- Follows one segment of a path from a directory, which is the list of the names from the root. -/
def enter (dir : List Text) (segment : Text) : List Text :=
  if segment = [] ∨ segment = ['.'] then dir
  else if segment = ['.','.'] then dir.dropLast
  else dir ++ [segment]

def resolve (dir : List Text) (path : Text) : List Text := (path.splitOn '/').foldl enter dir

/-- The segments of the text of a directory; the root has an empty one. -/
def segments (dir : List Text) : List Text := if dir = [] then [[]] else dir

def render (dir : List Text) : Text := (segments dir).flatMap ('/' :: ·)

def isAbs (path : Text) : Bool := path.head? = some '/'

/-- `filepath.Clean` on an absolute path. -/
def clean (path : Text) : Text := render (resolve [] path)

/-- `filepath.Join` of an absolute path and another one. -/
def join (base path : Text) : Text := clean (base ++ '/' :: path)

/-- `filepath.Abs`, where `wd` is the working directory. -/
def abs (wd path : Text) : Text := if isAbs path then clean path else join wd path

def safePath (quote : Text → Text) (wd base path : Text) : Option Text :=
  if path = [] then some "path must not be empty".toList
  else if isAbs path then some ("path ".toList ++ quote path ++ " must be relative".toList)
  else
    let absBase := abs wd base
    let resolved := abs wd (join absBase path)
    if (absBase ++ ['/']).isPrefixOf resolved = false ∧ resolved ≠ absBase then
      some ("path ".toList ++ quote path ++ " escapes base directory".toList)
    else none

def baseDir (wd base : Text) : List Text := resolve [] (if isAbs base then base else wd ++ '/' :: base)

def Contained (wd base path : Text) : Prop :=
  path ≠ [] ∧ isAbs path = false ∧ baseDir wd base <+: resolve (baseDir wd base) path

def Proper (dir : List Text) : Prop := ∀ s ∈ dir, s ≠ [] ∧ s ≠ ['.'] ∧ s ≠ ['.','.'] ∧ '/' ∉ s

section
variable (proper : Proper dir)
include proper

theorem Proper.resolve (path : Text) : Proper (resolve dir path) := by
  have each : ∀ segment ∈ path.splitOn '/', '/' ∉ segment := fun _ => notMem_of_mem_splitOn
  unfold SafePaths.resolve
  generalize path.splitOn '/' = parts at each
  induction parts generalizing dir with
  | nil => exact proper
  | cons segment parts ih =>
    rw [forall_mem_cons] at each
    refine ih ?_ each.2
    unfold enter
    split_ifs with skipped up
    · exact proper
    · exact fun s inside => proper s (dropLast_subset _ inside)
    · intro s inside
      rcases List.mem_append.mp inside with old | new
      · exact proper s old
      · rw [List.mem_singleton.mp new]
        exact ⟨fun is => skipped (.inl is),fun is => skipped (.inr is),up,each.1⟩

theorem foldl_enter : ∀ start, dir.foldl enter start = start ++ dir := by
  induction dir with
  | nil => simp
  | cons s dir ih =>
    intro start
    rw [Proper,forall_mem_cons] at proper
    have entered : enter start s = start ++ [s] := by simp [enter,proper.1]
    rw [foldl_cons,entered,ih proper.2,append_assoc]
    rfl

theorem foldl_segments : (segments dir).foldl enter [] = dir := by
  unfold segments
  split
  · rename_i root
    exact root.symm
  · exact foldl_enter proper []

theorem clean_segments : ∀ s ∈ segments dir, '/' ∉ s := by
  unfold segments
  split
  · simp
  · exact fun s inside => (proper s inside).2.2.2

theorem split_render : (render dir).splitOn '/' = [] :: segments dir := by
  simpa [render] using (splitOn_append_iff '/' [] (segments dir)).mpr (clean_segments proper)

theorem split_below (path : Text) :
    (render dir ++ '/' :: path).splitOn '/' = [] :: (segments dir ++ path.splitOn '/') := by
  have rest : (path.splitOn '/').flatMap ('/' :: ·) = '/' :: path := by
    obtain ⟨first,more,parts⟩ := exists_cons_of_ne_nil (splitOn_ne_nil '/' path)
    have whole : ['/'].intercalate (path.splitOn '/') = path := intercalate_splitOn '/'
    rw [parts,intercalate_cons] at whole
    rw [parts,flatMap_cons,cons_append,whole]
  have each : ∀ s ∈ segments dir ++ path.splitOn '/', '/' ∉ s := by
    intro s inside
    exact (List.mem_append.mp inside).elim (clean_segments proper s) notMem_of_mem_splitOn
  have split := (splitOn_append_iff '/' [] (segments dir ++ path.splitOn '/')).mpr each
  rw [flatMap_append,rest] at split
  simpa [render] using split

theorem resolve_render : resolve [] (render dir) = dir := by
  rw [resolve,split_render proper]
  exact foldl_segments proper

theorem resolve_join (path : Text) : resolve [] (render dir ++ '/' :: path) = resolve dir path := by
  rw [resolve,split_below proper,foldl_cons,foldl_append]
  exact congrArg (foldl enter · _) (foldl_segments proper)

end

theorem render_isAbs (dir : List Text) : isAbs (render dir) = true := by
  unfold render segments
  cases dir <;> rfl

theorem render_below {below : List Text} (proper : Proper dir) (proper' : Proper below) :
    render dir ++ ['/'] <+: render below ↔ dir ≠ [] ∧ dir ≠ below ∧ dir <+: below := by
  constructor
  · rintro ⟨rest,same⟩
    have split := congrArg (splitOn '/') same
    rw [append_assoc,singleton_append,split_below proper,split_render proper',cons.injEq] at split
    replace split := split.2
    -- the root has one segment, and another directory has no empty one
    unfold segments at split
    split_ifs at split with root root' root'
    · simp_all
    · exact absurd rfl (proper' [] (split ▸ mem_cons_self)).1
    · simp_all [append_eq_cons_iff]
    · exact ⟨root,by rintro rfl; simp at split,_,split⟩
  · rintro ⟨some,other,more,rfl⟩
    cases more with
    | nil => exact absurd (append_nil dir).symm other
    | cons s more => exact ⟨s ++ more.flatMap ('/' :: ·),by simp [render,segments,some]⟩

theorem safePath_none_iff (quote : Text → Text) (wd base path : Text) : safePath quote wd base path = none ↔
    path ≠ [] ∧ isAbs path = false ∧ (baseDir wd base ≠ [] ∧ baseDir wd base <+: resolve (baseDir wd base) path ∨
      resolve (baseDir wd base) path = baseDir wd base) := by
  have absBase : abs wd base = render (baseDir wd base) := by
    unfold abs baseDir
    split <;> rfl
  have proper : Proper (baseDir wd base) := (show Proper [] from nofun).resolve _
  generalize baseDir wd base = b at absBase proper ⊢
  have proper' := proper.resolve path
  have joined : join (render b) path = render (resolve b path) := by rw [join,clean,resolve_join proper]
  have resolved : abs wd (render (resolve b path)) = render (resolve b path) := by
    rw [abs,if_pos (render_isAbs _),clean,resolve_render proper']
  have same : render (resolve b path) = render b ↔ resolve b path = b := by
    refine ⟨fun is => ?_,congrArg render⟩
    rw [← resolve_render proper',is,resolve_render proper]
  have inside := render_below proper proper'
  rw [← isPrefixOf_iff_prefix] at inside
  simp only [safePath,absBase,joined,resolved]
  split_ifs <;> grind

/-- The answer is wrong exactly for a path below the root when the root is the base. -/
theorem safePath_iff (quote : Text → Text) (wd base path : Text) :
    (safePath quote wd base path = none ↔ Contained wd base path) ↔
      ¬ (path ≠ [] ∧ isAbs path = false ∧ baseDir wd base = [] ∧ resolve [] path ≠ []) := by
  rw [safePath_none_iff,Contained]
  by_cases root : baseDir wd base = []
  · simp [root]
  · grind

theorem root_refuses : Contained ['/'] ['/'] "etc".toList ∧
    safePath id ['/'] ['/'] "etc".toList = some "path etc escapes base directory".toList := by
  refine ⟨⟨?_,?_,?_⟩,?_⟩ <;> decide

theorem resolve_append (dir : List Text) (p q : Text) : resolve dir (p ++ '/' :: q) = resolve (resolve dir p) q := by
  obtain ⟨first,more,parts⟩ := exists_cons_of_ne_nil (splitOn_ne_nil '/' q)
  have whole : ['/'].intercalate (q.splitOn '/') = q := intercalate_splitOn '/'
  have split := (splitOn_append_iff '/' p (q.splitOn '/')).mpr (fun _ => notMem_of_mem_splitOn)
  rw [parts,intercalate_cons] at whole
  rw [parts,flatMap_cons,cons_append,whole,← parts] at split
  rw [resolve,split,foldl_append]
  rfl

/-- A safe path below what a safe path leads to is safe. -/
theorem safePath_nested (quote : Text → Text) (wd base p q : Text) (outer : safePath quote wd base p = none)
    (inner : safePath quote wd (join (abs wd base) p) q = none) : safePath quote wd base (p ++ '/' :: q) = none := by
  have dir : baseDir wd (join (abs wd base) p) = resolve (baseDir wd base) p := by
    have proper : Proper (baseDir wd base) := (show Proper [] from nofun).resolve _
    have absBase : abs wd base = render (baseDir wd base) := by
      unfold abs baseDir
      split <;> rfl
    have joined : join (abs wd base) p = render (resolve (baseDir wd base) p) := by
      rw [join,clean,absBase,resolve_join proper]
    rw [joined,baseDir,if_pos (render_isAbs _),resolve_render (proper.resolve p)]
  rw [safePath_none_iff] at outer inner ⊢
  rw [dir] at inner
  rw [resolve_append]
  refine ⟨by simp,by cases p <;> simp_all [isAbs],?_⟩
  grind [IsPrefix.trans]

theorem safePath_nested_logs : safePath id ['/'] "/data".toList "a/../logs".toList = none ∧
    safePath id ['/'] "/data".toList "a/../logs/./x".toList = none :=
  ⟨by decide,safePath_nested id ['/'] "/data".toList "a/../logs".toList "./x".toList (by decide) (by decide)⟩

end Mcpkit.SafePaths
