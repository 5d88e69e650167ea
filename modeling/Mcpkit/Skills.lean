import Mcpkit.RegistryModel

/-!
The skill registry. Registering a skill takes its tools out of the dynamic registry and keeps
their definitions, activating it puts them back, and deactivating it takes away those that no
other active skill lists.
-/
namespace Mcpkit.Skills
open GoMaps RegistryModel List Finmap
variable {H : Type}

/-! ### The registry -/

structure Skill where
  name : String
  tools : List String
  deriving DecidableEq

/-- The skill registry; `allTools` holds what was stashed. -/
structure SkillRegistry (H : Type) where
  skills : GoMap Skill
  active : GoMap Bool
  dynReg : DynamicRegistry H
  allTools : GoMap (ToolDefinition H)

def newSkillRegistry (reg : DynamicRegistry H) : SkillRegistry H := ⟨∅,∅,reg,∅⟩

variable (r : SkillRegistry H)

def SkillRegistry.isActive (name : String) : Bool := (r.active.lookup name).getD false

variable (toolName : String)

def SkillRegistry.stash : SkillRegistry H :=
  match r.dynReg.tools.lookup toolName with
  | some td => { r with
      allTools := r.allTools.insert toolName td
      dynReg := (r.dynReg.removeTool toolName).2 }
  | none => r

def SkillRegistry.register (skill : Skill) : SkillRegistry H :=
  skill.tools.foldl SkillRegistry.stash { r with skills := r.skills.insert skill.name skill }

def SkillRegistry.restore : SkillRegistry H :=
  match r.allTools.lookup toolName with
  | some td => { r with dynReg := r.dynReg.addTool td }
  | none => r

variable (quote : String → String)

def SkillRegistry.activate (r : SkillRegistry H) (name : String) : Option String × SkillRegistry H :=
  match r.skills.lookup name with
  | none => (some ("skills: unknown skill " ++ quote name),r)
  | some skill =>
    if r.isActive name then (none,r)
    else (none,skill.tools.foldl SkillRegistry.restore { r with active := r.active.insert name true })

def SkillRegistry.toolClaimedByActive : Bool :=
  anyPair r.skills (fun sn skill => r.isActive sn && skill.tools.contains toolName)

def SkillRegistry.release : SkillRegistry H :=
  if r.toolClaimedByActive toolName then r
  else { r with dynReg := (r.dynReg.removeTool toolName).2 }

def SkillRegistry.deactivate (r : SkillRegistry H) (name : String) : Option String × SkillRegistry H :=
  match r.skills.lookup name with
  | none => (some ("skills: unknown skill " ++ quote name),r)
  | some skill =>
    if r.isActive name then
      (none,skill.tools.foldl SkillRegistry.release { r with active := r.active.erase name })
    else (none,r)

inductive Operation where
  | register (skill : Skill)
  | activate (name : String)
  | deactivate (name : String)

def SkillRegistry.apply (r : SkillRegistry H) : Operation → SkillRegistry H
  | .register skill => r.register skill
  | .activate name => (r.activate quote name).2
  | .deactivate name => (r.deactivate quote name).2

def history (reg : DynamicRegistry H) (operations : List Operation) : SkillRegistry H :=
  operations.foldl (SkillRegistry.apply quote) (newSkillRegistry reg)

/-! ### What the skills say -/

def Listed : Prop :=
  ∃ name skill, r.skills.lookup name = some skill ∧ toolName ∈ skill.tools

def Claimed : Prop :=
  ∃ name skill, r.skills.lookup name = some skill ∧ r.isActive name = true ∧ toolName ∈ skill.tools

open SkillRegistry

theorem toolClaimedByActive_iff {r : SkillRegistry H} {toolName : String} :
    r.toolClaimedByActive toolName = true ↔ Claimed r toolName := by
  simp [toolClaimedByActive,anyPair_iff,Claimed]

/-! ### A registry to start from -/

/-- A dynamic registry as registration leaves it: each tool is stored under its name and
    with what registration fills in. -/
structure Catalogue (H : Type) extends DynamicRegistry H where
  named : ∀ name td, tools.lookup name = some td → td.tool.name = name
  completed : ∀ name td, tools.lookup name = some td → config.complete td = td

theorem complete_complete (config : Config) (td : ToolDefinition H) :
    config.complete (config.complete td) = config.complete td := by
  unfold Config.complete
  cases td.readOnlyOverride <;> cases config.runtimeGroupMapper <;> simp
  all_goals split <;> simp_all

theorem registerModule_complete (config : Config) (tools : List (ToolDefinition H)) :
    let reg := (newDynamicRegistry config).registerModule tools
    (∀ name td, reg.tools.lookup name = some td → td.tool.name = name) ∧
    ∀ name td, reg.tools.lookup name = some td → reg.config.complete td = td := by
  suffices all : ∀ reg : DynamicRegistry H,
      (∀ name td, reg.tools.lookup name = some td → td.tool.name = name ∧ reg.config.complete td = td) →
      ∀ name td, (reg.registerModule tools).tools.lookup name = some td →
        td.tool.name = name ∧ (reg.registerModule tools).config.complete td = td by
    have filled := all (newDynamicRegistry config) (fun name td found => by simp [newDynamicRegistry] at found)
    exact ⟨fun name td found => (filled name td found).1,fun name td found => (filled name td found).2⟩
  induction tools with
  | nil => intro reg filled; exact filled
  | cons first rest ih =>
    intro reg filled
    refine ih (reg.addTool first) (fun name td found => ?_)
    rw [addTool_lookup] at found
    split at found
    · rename_i same
      cases found
      exact ⟨same.symm,complete_complete reg.config first⟩
    · exact filled name td found

def catalogue (config : Config) (tools : List (ToolDefinition H)) : Catalogue H where
  toDynamicRegistry := (newDynamicRegistry config).registerModule tools
  named := (registerModule_complete config tools).1
  completed := (registerModule_complete config tools).2

/-! ### The books -/

/-- What the skill registry knows of the tools it started with: present or stashed, each is as it was. -/
structure Books (original : Catalogue H) (r : SkillRegistry H) : Prop where
  config : r.dynReg.config = original.config
  present : ∀ name td, r.dynReg.tools.lookup name = some td → original.tools.lookup name = some td
  stashed : ∀ name td, r.allTools.lookup name = some td → original.tools.lookup name = some td
  kept : ∀ name td, original.tools.lookup name = some td → r.dynReg.tools.lookup name = none →
    r.allTools.lookup name = some td
  covered : ∀ name td, original.tools.lookup name = some td → Listed r name → r.allTools.lookup name = some td

section
variable {original : Catalogue H} {r}

theorem newSkillRegistry_books : Books original (newSkillRegistry original.toDynamicRegistry) where
  config := rfl
  present _ _ found := found
  stashed name td found := by simp [newSkillRegistry] at found
  kept name td found missing := by rw [newSkillRegistry,found] at missing; cases missing
  covered name td found listed := by
    obtain ⟨skillName,skill,registered,-⟩ := listed
    simp [newSkillRegistry] at registered

/-- The books' view of a tool: its definition in the dynamic registry and in the stash. -/
def entries (r : SkillRegistry H) (name : String) : Option (ToolDefinition H) × Option (ToolDefinition H) :=
  (r.dynReg.tools.lookup name,r.allTools.lookup name)

def Frame (r s : SkillRegistry H) : Prop :=
  s.skills = r.skills ∧ s.active = r.active ∧ s.dynReg.config = r.dynReg.config

theorem Frame.refl (r : SkillRegistry H) : Frame r r := ⟨rfl,rfl,rfl⟩

theorem removeTool_config (d : DynamicRegistry H) (name : String) : (d.removeTool name).2.config = d.config := by
  unfold DynamicRegistry.removeTool
  split <;> rfl

variable {r s : SkillRegistry H} (name : String)

theorem stash_frame (frame : Frame r s) : Frame r (s.stash name) := by
  obtain ⟨skills,active,config⟩ := frame
  unfold stash
  split
  · exact ⟨skills,active,(removeTool_config _ _).trans config⟩
  · exact ⟨skills,active,config⟩

theorem stash_entries (r : SkillRegistry H) (name other : String) : entries (r.stash name) other =
      if other = name then (none,(entries r name).1.or (entries r name).2) else entries r other := by
  unfold stash entries
  by_cases same : other = name
  · subst same
    cases found : r.dynReg.tools.lookup other <;> simp [found,removeTool_lookup]
  · cases found : r.dynReg.tools.lookup name <;>
      simp [same,removeTool_lookup,lookup_insert_of_ne]

theorem register_spec (r : SkillRegistry H) (skill : Skill) :
    Frame { r with skills := r.skills.insert skill.name skill } (r.register skill) ∧
    ∀ name, entries (r.register skill) name =
      if name ∈ skill.tools then (none,(entries r name).1.or (entries r name).2) else entries r name :=
  foldl_pointwise stash entries (Frame { r with skills := r.skills.insert skill.name skill })
    (fun _ seen => (none,seen.1.or seen.2)) (fun _ name => stash_frame name)
    (fun s name other _ => stash_entries s name other) (fun _ _ => rfl) skill.tools _ (Frame.refl _)

/-- The same skills, active ones and configuration, and the same stash. -/
def Held (r s : SkillRegistry H) : Prop := Frame r s ∧ s.allTools = r.allTools

theorem Held.refl (r : SkillRegistry H) : Held r r := ⟨Frame.refl r,rfl⟩

theorem restore_held (held : Held r s) : Held r (s.restore name) := by
  unfold restore
  split <;> exact held

theorem restore_lookup (books : Books original r) (held : Held r s) (name other : String) :
    (s.restore name).dynReg.tools.lookup other =
      if other = name then (r.allTools.lookup name).or (s.dynReg.tools.lookup name)
      else s.dynReg.tools.lookup other := by
  obtain ⟨⟨-,-,config⟩,stash⟩ := held
  unfold restore
  rw [stash]
  cases found : r.allTools.lookup name with
  | none =>
    by_cases same : other = name
    · subst same; simp
    · simp [same]
  | some td =>
    have there := books.stashed name td found
    have named := original.named name td there
    have completed : s.dynReg.config.complete td = td := by
      rw [config,books.config]
      exact original.completed name td there
    simp [addTool_lookup,named,completed]

theorem restore_spec (books : Books original r) (tools : List String) : Held r (tools.foldl restore r) ∧
    ∀ name, (tools.foldl restore r).dynReg.tools.lookup name =
      if name ∈ tools then original.tools.lookup name else r.dynReg.tools.lookup name := by
  obtain ⟨held,seen⟩ := foldl_pointwise restore (fun s name => s.dynReg.tools.lookup name) (Held r)
    (fun name present => (r.allTools.lookup name).or present) (fun _ name => restore_held name)
    (fun s name other held => restore_lookup books held name other)
    (fun name present => by cases r.allTools.lookup name <;> rfl) tools r (Held.refl r)
  refine ⟨held,fun name => (seen name).trans (if_congr Iff.rfl ?_ rfl)⟩
  cases stashed : r.allTools.lookup name with
  | some td => exact (books.stashed name td stashed).symm
  | none =>
    cases present : r.dynReg.tools.lookup name with
    | some td => exact (books.present name td present).symm
    | none =>
      cases first : original.tools.lookup name with
      | none => rfl
      | some td => rw [books.kept name td first present] at stashed; cases stashed

theorem claimed_congr (frame : Frame r s) (name : String) : Claimed s name ↔ Claimed r name := by
  obtain ⟨skills,active,-⟩ := frame
  unfold Claimed isActive
  rw [skills,active]

theorem listed_congr (frame : Frame r s) (name : String) : Listed s name ↔ Listed r name := by
  unfold Listed
  rw [frame.1]

theorem release_held (held : Held r s) : Held r (s.release name) := by
  obtain ⟨⟨skills,active,config⟩,stash⟩ := held
  unfold release
  split
  · exact ⟨⟨skills,active,config⟩,stash⟩
  · exact ⟨⟨skills,active,(removeTool_config _ _).trans config⟩,stash⟩

theorem release_lookup (held : Held r s) (name other : String) : (s.release name).dynReg.tools.lookup other =
      if other = name then (if r.toolClaimedByActive name then s.dynReg.tools.lookup name else none)
      else s.dynReg.tools.lookup other := by
  have same : s.toolClaimedByActive name = r.toolClaimedByActive name := by
    rw [Bool.eq_iff_iff,toolClaimedByActive_iff,toolClaimedByActive_iff,claimed_congr held.1]
  unfold release
  rw [same]
  cases r.toolClaimedByActive name with
  | true =>
    by_cases own : other = name
    · subst own; simp
    · simp [own]
  | false => simp [removeTool_lookup]

/-- The loop of `Deactivate`: of the skill's tools, those that an active skill lists stay. -/
theorem release_spec (r : SkillRegistry H) (tools : List String) : Held r (tools.foldl release r) ∧
    ∀ name, (tools.foldl release r).dynReg.tools.lookup name =
      if name ∈ tools then (if r.toolClaimedByActive name then r.dynReg.tools.lookup name else none)
      else r.dynReg.tools.lookup name :=
  foldl_pointwise release (fun s name => s.dynReg.tools.lookup name) (Held r)
    (fun name present => if r.toolClaimedByActive name then present else none) (fun _ name => release_held name)
    (fun s name other held => release_lookup held name other)
    (fun name present => by cases r.toolClaimedByActive name <;> rfl) tools r (Held.refl r)

/-! ### One operation -/

variable {skill : Skill} {name}

theorem registered_cases {P : String → Prop}
    (lister : ∃ skillName lists, (r.skills.insert skill.name skill).lookup skillName = some lists ∧ P skillName ∧
      name ∈ lists.tools) : (P skill.name ∧ name ∈ skill.tools) ∨
      ∃ skillName lists, r.skills.lookup skillName = some lists ∧ skillName ≠ skill.name ∧ P skillName ∧
        name ∈ lists.tools := by
  obtain ⟨skillName,lists,found,holds,listed⟩ := lister
  by_cases same : skillName = skill.name
  · subst same
    rw [lookup_insert,Option.some.injEq] at found
    subst found
    exact .inl ⟨holds,listed⟩
  · rw [lookup_insert_of_ne _ same] at found
    exact .inr ⟨skillName,lists,found,same,holds,listed⟩

def SkillRegistry.announce (r : SkillRegistry H) (skill : Skill) : SkillRegistry H :=
  { r with skills := r.skills.insert skill.name skill }

theorem listed_announce (other : name ∉ skill.tools) (listed : Listed (r.announce skill) name) : Listed r name := by
  obtain ⟨skillName,lists,found,member⟩ := listed
  rcases registered_cases (P := fun _ => True) ⟨skillName,lists,found,trivial,member⟩ with
    ⟨-,own⟩ | ⟨skillName,lists,found,-,-,member⟩
  · exact absurd own other
  · exact ⟨skillName,lists,found,member⟩

theorem claimed_announce (other : name ∉ skill.tools) (claimed : Claimed (r.announce skill) name) : Claimed r name := by
  rcases registered_cases claimed with ⟨-,own⟩ | ⟨skillName,lists,found,-,active,member⟩
  · exact absurd own other
  · exact ⟨skillName,lists,found,active,member⟩

theorem announce_lists (r : SkillRegistry H) (member : name ∈ skill.tools) :
    Listed (r.announce skill) name := ⟨skill.name,skill,lookup_insert _,member⟩

theorem register_lookup (r : SkillRegistry H) (skill : Skill) (name : String) :
    (r.register skill).dynReg.tools.lookup name = if name ∈ skill.tools then none else r.dynReg.tools.lookup name := by
  have seen := congrArg Prod.fst ((register_spec r skill).2 name)
  rw [apply_ite Prod.fst] at seen
  exact seen

theorem register_stash (r : SkillRegistry H) (skill : Skill) (name : String) : (r.register skill).allTools.lookup name =
      if name ∈ skill.tools then (r.dynReg.tools.lookup name).or (r.allTools.lookup name) else r.allTools.lookup name := by
  have seen := congrArg Prod.snd ((register_spec r skill).2 name)
  rw [apply_ite Prod.snd] at seen
  exact seen

theorem register_books (books : Books original r) (skill : Skill) : Books original (r.register skill) := by
  have frame := (register_spec r skill).1
  have stash : ∀ name td, original.tools.lookup name = some td → name ∈ skill.tools →
      (r.register skill).allTools.lookup name = some td := by
    intro name td first member
    rw [register_stash,if_pos member]
    cases present : r.dynReg.tools.lookup name with
    | some td' => rw [← first,books.present name td' present]; rfl
    | none => rw [books.kept name td first present]; rfl
  refine ⟨frame.2.2.trans books.config,?_,?_,?_,?_⟩
  · intro name td found
    rw [register_lookup] at found
    split at found
    · cases found
    · exact books.present name td found
  · intro name td found
    rw [register_stash] at found
    split at found
    · rcases Option.or_eq_some_iff.mp found with present | ⟨-,stashed⟩
      · exact books.present name td present
      · exact books.stashed name td stashed
    · exact books.stashed name td found
  · intro name td first missing
    by_cases member : name ∈ skill.tools
    · exact stash name td first member
    · rw [register_lookup,if_neg member] at missing
      rw [register_stash,if_neg member]
      exact books.kept name td first missing
  · intro name td first listed
    by_cases member : name ∈ skill.tools
    · exact stash name td first member
    · rw [register_stash,if_neg member]
      exact books.covered name td first (listed_announce member ((listed_congr frame name).mp listed))

variable (quote : String → String)

theorem activate_cases (r : SkillRegistry H) (name : String) :
    (r.activate quote name).2 = r ∨ ∃ skill, r.skills.lookup name = some skill ∧ r.isActive name = false ∧
      (r.activate quote name).2 =
        skill.tools.foldl restore { r with active := r.active.insert name true } := by
  unfold activate
  split
  · exact .inl rfl
  · rename_i skill found
    split
    · exact .inl rfl
    · rename_i inactive
      exact .inr ⟨skill,found,Bool.eq_false_iff.mpr inactive,rfl⟩

theorem deactivate_cases (r : SkillRegistry H) (name : String) :
    (r.deactivate quote name).2 = r ∨ ∃ skill, r.skills.lookup name = some skill ∧ r.isActive name = true ∧
      (r.deactivate quote name).2 =
        skill.tools.foldl release { r with active := r.active.erase name } := by
  unfold deactivate
  split
  · exact .inl rfl
  · rename_i skill found
    split
    · rename_i active
      exact .inr ⟨skill,found,active,rfl⟩
    · exact .inl rfl

theorem Books.activity (books : Books original r) (active : GoMap Bool) : Books original { r with active := active } :=
  ⟨books.config,books.present,books.stashed,books.kept,books.covered⟩

theorem apply_books (books : Books original r) (operation : Operation) :
    Books original (r.apply quote operation) := by
  cases operation with
  | register skill => exact register_books books skill
  | activate name =>
    rcases activate_cases quote r name with same | ⟨skill,-,-,done⟩
    · rw [apply,same]; exact books
    · have books' := books.activity (r.active.insert name true)
      obtain ⟨⟨frame,stash⟩,seen⟩ := restore_spec books' skill.tools
      rw [apply,done]
      refine ⟨frame.2.2.trans books.config,?_,?_,?_,?_⟩
      · intro tool td found
        rw [seen] at found
        split at found
        · exact found
        · exact books.present tool td found
      · rw [stash]; exact books.stashed
      · intro tool td first missing
        rw [seen] at missing
        rw [stash]
        split at missing
        · rw [first] at missing; cases missing
        · exact books.kept tool td first missing
      · intro tool td first listed
        rw [stash]
        exact books.covered tool td first ((listed_congr frame tool).mp listed)
  | deactivate name =>
    rcases deactivate_cases quote r name with same | ⟨skill,registered,-,done⟩
    · rw [apply,same]; exact books
    · obtain ⟨⟨frame,stash⟩,seen⟩ := release_spec { r with active := r.active.erase name } skill.tools
      rw [apply,done]
      refine ⟨frame.2.2.trans books.config,?_,?_,?_,?_⟩
      · intro tool td found
        rw [seen] at found
        split at found
        · split at found
          · exact books.present tool td found
          · cases found
        · exact books.present tool td found
      · rw [stash]; exact books.stashed
      · intro tool td first missing
        rw [stash]
        by_cases member : tool ∈ skill.tools
        · exact books.covered tool td first ⟨name,skill,registered,member⟩
        · rw [seen,if_neg member] at missing
          exact books.kept tool td first missing
      · intro tool td first listed
        rw [stash]
        exact books.covered tool td first ((listed_congr frame tool).mp listed)

/-! ### Visibility -/

/-- Of the tools that were there at first, those that skills list are there when an active
    skill lists them, and all tools that are there are as they were. -/
structure Visible (original : Catalogue H) (r : SkillRegistry H) : Prop where
  exposed : ∀ name, name ∈ original.tools → Listed r name → (name ∈ r.dynReg.tools ↔ Claimed r name)
  definition : ∀ name td, r.dynReg.tools.lookup name = some td → original.tools.lookup name = some td

/-- A skill is registered while no active skill lists one of its tools, also not itself under the same name; and a
    tool that it lists no longer is listed by another active skill, or by none. -/
def Careful (original : Catalogue H) (r : SkillRegistry H) : Operation → Prop
  | .register skill =>
    (∀ name ∈ skill.tools, name ∈ original.tools → ¬ Claimed (r.announce skill) name) ∧
    ∀ name, name ∉ skill.tools → name ∈ original.tools → Claimed r name → Listed (r.announce skill) name →
      Claimed (r.announce skill) name
  | .activate _ => True
  | .deactivate _ => True

theorem register_visible_iff (books : Books original r) (visible : Visible original r) (skill : Skill) :
    Visible original (r.register skill) ↔ Careful original r (.register skill) := by
  have frame : Frame (r.announce skill) (r.register skill) := (register_spec r skill).1
  have presence : ∀ name, name ∈ (r.register skill).dynReg.tools ↔ name ∉ skill.tools ∧ name ∈ r.dynReg.tools := by
    intro name
    rw [mem_iff,mem_iff,register_lookup]
    by_cases member : name ∈ skill.tools <;> simp [member]
  constructor
  · intro after
    refine ⟨fun name member first claimed => ?_,fun name other first claimed listed => ?_⟩
    · have there := (after.exposed name first ((listed_congr frame name).mpr (announce_lists r member))).mpr
        ((claimed_congr frame name).mpr claimed)
      exact ((presence name).mp there).1 member
    · have before : Listed r name := by
        obtain ⟨skillName,lists,found,-,member⟩ := claimed
        exact ⟨skillName,lists,found,member⟩
      have there := (visible.exposed name first before).mpr claimed
      exact (claimed_congr frame name).mp
        ((after.exposed name first ((listed_congr frame name).mpr listed)).mp ((presence name).mpr ⟨other,there⟩))
  · rintro ⟨fresh,covered⟩
    refine ⟨fun name first listed => ?_,(register_books books skill).present⟩
    have listed' := (listed_congr frame name).mp listed
    rw [presence,claimed_congr frame name]
    by_cases member : name ∈ skill.tools
    · simp [member,fresh name member first]
    · rw [and_iff_right member,visible.exposed name first (listed_announce member listed')]
      exact ⟨fun claimed => covered name member first claimed listed',claimed_announce member⟩

theorem claimed_elsewhere {active : GoMap Bool} {tool : String}
    (registered : r.skills.lookup name = some skill) (other : tool ∉ skill.tools)
    (same : ∀ skillName, skillName ≠ name → active.lookup skillName = r.active.lookup skillName) :
    Claimed { r with active := active } tool ↔ Claimed r tool := by
  have elsewhere : ∀ skillName lists, r.skills.lookup skillName = some lists → tool ∈ lists.tools → skillName ≠ name := by
    rintro skillName lists found member rfl
    rw [registered,Option.some.injEq] at found
    exact other (found ▸ member)
  constructor <;>
  · rintro ⟨skillName,lists,found,running,member⟩
    refine ⟨skillName,lists,found,?_,member⟩
    simpa [isActive,same skillName (elsewhere skillName lists found member)] using running

section
variable (books : Books original r) (visible : Visible original r)
include books visible

theorem activate_visible (name : String) : Visible original (r.apply quote (.activate name)) := by
  refine ⟨?_,(apply_books quote books (.activate name)).present⟩
  rcases activate_cases quote r name with same | ⟨skill,registered,-,done⟩
  · rw [apply,same]; exact visible.exposed
  · intro tool first listed
    obtain ⟨⟨frame,-⟩,seen⟩ := restore_spec (books.activity (r.active.insert name true)) skill.tools
    rw [apply,done] at listed ⊢
    rw [claimed_congr frame,mem_iff,seen]
    by_cases member : tool ∈ skill.tools
    · rw [if_pos member]
      exact iff_of_true (mem_iff.mp first) ⟨name,skill,registered,by simp [isActive],member⟩
    · rw [if_neg member,claimed_elsewhere registered member
        (fun _ different => lookup_insert_of_ne _ different)]
      exact mem_iff.symm.trans (visible.exposed tool first ((listed_congr frame tool).mp listed))

theorem deactivate_visible (name : String) : Visible original (r.apply quote (.deactivate name)) := by
  refine ⟨?_,(apply_books quote books (.deactivate name)).present⟩
  rcases deactivate_cases quote r name with same | ⟨skill,registered,running,done⟩
  · rw [apply,same]; exact visible.exposed
  · intro tool first listed
    obtain ⟨⟨frame,-⟩,seen⟩ := release_spec { r with active := r.active.erase name } skill.tools
    rw [apply,done] at listed ⊢
    have before := visible.exposed tool first ((listed_congr frame tool).mp listed)
    rw [claimed_congr frame,mem_iff,seen]
    by_cases member : tool ∈ skill.tools
    · obtain ⟨td,there⟩ := mem_iff.mp (before.mpr ⟨name,skill,registered,running,member⟩)
      rw [if_pos member,there,← toolClaimedByActive_iff]
      cases toolClaimedByActive { r with active := r.active.erase name } tool <;> simp
    · rw [if_neg member,claimed_elsewhere registered member
        (fun _ different => lookup_erase_ne different)]
      exact mem_iff.symm.trans before

/-- From a state in order, an operation leaves the state in order exactly when it is careful. -/
theorem apply_visible_iff
    (operation : Operation) : Visible original (r.apply quote operation) ↔ Careful original r operation := by
  cases operation with
  | register skill => exact register_visible_iff books visible skill
  | activate name => exact iff_of_true (activate_visible quote books visible name) trivial
  | deactivate name => exact iff_of_true (deactivate_visible quote books visible name) trivial

end

theorem apply_untouched (books : Books original r) {operation : Operation} {tool : String}
    (unlisted : ¬ Listed r tool) (unasked : ∀ skill, operation = .register skill → tool ∉ skill.tools) :
    ¬ Listed (r.apply quote operation) tool ∧
    (r.apply quote operation).dynReg.tools.lookup tool = r.dynReg.tools.lookup tool := by
  cases operation with
  | register skill =>
    have other := unasked skill rfl
    refine ⟨fun listed => unlisted (listed_announce other ((listed_congr (register_spec r skill).1 tool).mp listed)),?_⟩
    rw [apply,register_lookup,if_neg other]
  | activate name =>
    rcases activate_cases quote r name with same | ⟨skill,registered,-,done⟩
    · rw [apply,same]; exact ⟨unlisted,rfl⟩
    · obtain ⟨⟨frame,-⟩,seen⟩ := restore_spec (books.activity (r.active.insert name true)) skill.tools
      have other : tool ∉ skill.tools := fun member => unlisted ⟨name,skill,registered,member⟩
      rw [apply,done,seen,if_neg other]
      exact ⟨fun listed => unlisted ((listed_congr frame tool).mp listed),rfl⟩
  | deactivate name =>
    rcases deactivate_cases quote r name with same | ⟨skill,registered,-,done⟩
    · rw [apply,same]; exact ⟨unlisted,rfl⟩
    · obtain ⟨⟨frame,-⟩,seen⟩ := release_spec { r with active := r.active.erase name } skill.tools
      have other : tool ∉ skill.tools := fun member => unlisted ⟨name,skill,registered,member⟩
      rw [apply,done,seen,if_neg other]
      exact ⟨fun listed => unlisted ((listed_congr frame tool).mp listed),rfl⟩

/-! ### Histories -/

theorem history_concat (reg : DynamicRegistry H) (done : List Operation) (operation : Operation) :
    history quote reg (done ++ [operation]) = (history quote reg done).apply quote operation := by
  simp [history]

theorem history_books (original : Catalogue H) (operations : List Operation) :
    Books original (history quote original.toDynamicRegistry operations) := by
  induction operations using reverseRecOn with
  | nil => exact newSkillRegistry_books
  | append_singleton done operation ih => rw [history_concat]; exact apply_books quote ih operation

theorem newSkillRegistry_visible : Visible original (newSkillRegistry original.toDynamicRegistry) where
  exposed name first listed := by
    obtain ⟨skillName,skill,found,-⟩ := listed
    simp [newSkillRegistry] at found
  definition _ _ found := found

/-- A tool that no registration of the history lists. -/
def Unasked (operations : List Operation) (tool : String) : Prop :=
  ∀ skill, .register skill ∈ operations → tool ∉ skill.tools

theorem history_untouched (original : Catalogue H) {tool : String} (operations : List Operation)
    (unasked : Unasked operations tool) : ¬ Listed (history quote original.toDynamicRegistry operations) tool ∧
    (history quote original.toDynamicRegistry operations).dynReg.tools.lookup tool = original.tools.lookup tool := by
  induction operations using reverseRecOn with
  | nil =>
    refine ⟨?_,rfl⟩
    rintro ⟨skillName,skill,found,-⟩
    simp [history,newSkillRegistry] at found
  | append_singleton done operation ih =>
    obtain ⟨unlisted,same⟩ := ih (fun skill member => unasked skill (mem_append_left _ member))
    have elsewhere : ∀ skill, operation = .register skill → tool ∉ skill.tools := by
      rintro skill rfl
      exact unasked skill (mem_append_right done (mem_singleton_self _))
    obtain ⟨unlisted',same'⟩ := apply_untouched quote (history_books quote original done) unlisted elsewhere
    rw [history_concat]
    exact ⟨unlisted',same'.trans same⟩

/-- After each operation active skills decide what is visible, and a tool that no skill listed is as it was. -/
def Lawful (quote : String → String) (original : Catalogue H) (operations : List Operation) : Prop :=
  ∀ done, done <+: operations →
    Visible original (history quote original.toDynamicRegistry done) ∧
    ∀ tool, Unasked done tool →
      (history quote original.toDynamicRegistry done).dynReg.tools.lookup tool = original.tools.lookup tool

/-- The law holds over a history exactly when each of its operations is careful. -/
theorem lawful_iff (quote : String → String) (original : Catalogue H) (operations : List Operation) :
    Lawful quote original operations ↔
      ∀ done operation, done ++ [operation] <+: operations →
        Careful original (history quote original.toDynamicRegistry done) operation := by
  constructor
  · intro lawful done operation within
    have before := (lawful done ((prefix_append done [operation]).trans within)).1
    have after := (lawful _ within).1
    rw [history_concat] at after
    exact (apply_visible_iff quote (history_books quote original done) before operation).mp after
  · intro careful done within
    refine ⟨?_,fun tool unasked => (history_untouched quote original done unasked).2⟩
    induction done using reverseRecOn with
    | nil => exact newSkillRegistry_visible
    | append_singleton done operation ih =>
      rw [history_concat]
      exact (apply_visible_iff quote (history_books quote original done)
        (ih ((prefix_append done [operation]).trans within)) operation).mpr (careful done operation within)

end

/-- Two skills share a tool, and the second is registered while the first is active. -/
def sharing : List Operation :=
  [.register ⟨"search",["web_get"]⟩,.activate "search",.register ⟨"browse",["web_get"]⟩]

theorem sharing_hides_tool :
    let original : Catalogue Unit := catalogue ⟨none,Char.toLower⟩ [define ⟨"web_get","",""⟩ ()]
    ¬ Lawful (fun name => name) original sharing := by
  intro original lawful
  have visible := (lawful sharing prefix_rfl).1
  have claimed : Claimed (history (fun name => name) original.toDynamicRegistry sharing) "web_get" :=
    ⟨"search",⟨"search",["web_get"]⟩,by decide,by decide,by decide⟩
  have listed : Listed (history (fun name => name) original.toDynamicRegistry sharing) "web_get" :=
    ⟨"search",⟨"search",["web_get"]⟩,by decide,by decide⟩
  have there := (visible.exposed "web_get" (by decide) listed).mpr claimed
  exact absurd there (by decide)

end Mcpkit.Skills
